import NamedQuery.Client.Query

/-!
# Sessions

A client at work: calls, and streams that stay open from one operation to the next under names of
their own. A session keeps count of the streams that it has let go of, because they ended, failed,
were cancelled or replaced, or were run to an end of the caller's choice.
-/

namespace NamedQuery

/-- An open stream, read as values or as deposits. -/
inductive Handle where
  | values (c : Cursor)
  | deposits (c : Cursor)
  deriving DecidableEq, Repr

/-- The cursor of an open stream. -/
def Handle.cursor : Handle → Cursor
  | values c => c
  | deposits c => c

/-- The number of streams of the service that are let go of when a cursor is: one, unless the cursor
is closed already or there never was one. -/
def Cursor.hold (c : Cursor) : Nat :=
  match c.incoming with
  | none => 0
  | some i => i.held.toNat

/-- A client, the service that it talks to, and its open streams. -/
structure Session where
  client : Client
  service : Script
  /-- The open streams under their names, no name twice. -/
  handles : List (String × Handle)
  /-- The number of streams that the session has let go of. -/
  released : Nat

namespace Session

/-- A session that has not done anything. -/
def start (replies : List Reply) : Session := ⟨.ready, .ofReplies replies, [], 0⟩

/-- An operation of a session. -/
inductive Op where
  | call (r : Request)
  | stream (id : String) (r : Request)
  | deposits (id : String)
  | next (id : String)
  | cancel (id : String)
  | forget (id : String)
  /-- Runs over a stream of values, up to so many values. -/
  | forEach (id : String) (limit : Option Nat)
  | balance (lockArgs : List UInt8)
  | tokenBalance (typeArgs lockArgs : List UInt8)
  | transfer (typeArgs source target : List UInt8) (amount : UInt64)
  /-- The connection is not ready from now on, or is ready again. -/
  | setReady (unready : Option String)
  | copyClient

/-- What comes of an operation. -/
inductive Outcome where
  | done
  | noStream
  | value (v : Value)
  | item (v : Value)
  | deposit (d : Deposit)
  | finished
  | run (r : Cursor.Run)
  | balance (units : Nat)
  | document (d : Json.Document)
  | transportError (e : TransportError)
  | callError (e : CallError)
  | queryError (e : QueryError)

/-- The open stream with a name. -/
def find? (s : Session) (id : String) : Option Handle :=
  (s.handles.find? fun h => h.1 == id).map Prod.snd

/-- The other streams. -/
def others (s : Session) (id : String) : List (String × Handle) :=
  s.handles.filter fun h => h.1 != id

/-- The session without the stream of this name, which is let go of. -/
def release (s : Session) (id : String) : Session :=
  match s.find? id with
  | none => s
  | some h => { s with handles := s.others id, released := s.released + h.cursor.hold }

/-- The session with an open stream, in place of one with the same name. -/
def put (s : Session) (id : String) (h : Handle) : Session :=
  let s := s.release id
  { s with handles := s.handles ++ [(id, h)] }

/-- The session after a delivery of a stream, which may have closed it. -/
def advance (s : Session) (id : String) (before : Cursor) (after : Handle) : Session :=
  { s with
    handles := s.handles.map fun h => if h.1 == id then (id, after) else h
    released := s.released + (before.hold - after.cursor.hold) }

/-- The session with the service after an exchange. -/
def withService (s : Session) (service : Script) : Session := { s with service }

/-- The outcome that shows how an exchange ended. -/
def Outcome.ofExcept {ε α : Type} (failed : ε → Outcome) (shown : α → Outcome) :
    Except ε α → Outcome
  | .error e => failed e
  | .ok a => shown a

/-- Takes the next delivery of a stream. -/
def next (s : Session) (id : String) : Outcome × Session :=
  match s.find? id with
  | none => (.noStream, s)
  | some (.values c) =>
    let (delivery, c') := c.next
    let outcome : Outcome := match delivery with
      | .item v => .item v
      | .failed status => .transportError (.status status)
      | .finished => .finished
    (outcome, s.advance id c (.values c'))
  | some (.deposits c) =>
    let (delivery, c') := c.nextDeposit
    let outcome : Outcome := match delivery with
      | .item d => .deposit d
      | .failed e => .queryError e
      | .finished => .finished
    (outcome, s.advance id c (.deposits c'))

/-- Lets go of a stream. -/
def letGo (s : Session) (id : String) : Outcome × Session :=
  match s.find? id with
  | none => (.noStream, s)
  | some _ => (.done, s.release id)

/-- Runs over a stream of values; a stream of deposits is only let go of. -/
def forEach (s : Session) (id : String) (limit : Option Nat) : Outcome × Session :=
  match s.find? id with
  | some (.values c) => (.run (c.runUntil limit), s.release id)
  | _ => (.noStream, s.release id)

/-- What comes of an operation, and the session after it. -/
def step (s : Session) : Op → Outcome × Session
  | .call r =>
    let (answer, service) := s.client.call s.service r
    (.ofExcept .callError .value answer, s.withService service)
  | .stream id r =>
    match s.client.openStream s.service r with
    | (.error e, service) => (.callError e, s.withService service)
    | (.ok c, service) => (.done, (s.withService service).put id (.values c))
  | .deposits id =>
    match s.client.openDeposits s.service with
    | (.error e, service) => (.queryError e, s.withService service)
    | (.ok c, service) => (.done, (s.withService service).put id (.deposits c))
  | .next id => s.next id
  | .cancel id => s.letGo id
  | .forget id => s.letGo id
  | .forEach id limit => s.forEach id limit
  | .balance lockArgs =>
    let (answer, service) := s.client.balance s.service lockArgs
    (.ofExcept .queryError (fun n => .balance n.toNat) answer, s.withService service)
  | .tokenBalance typeArgs lockArgs =>
    let (answer, service) := s.client.tokenBalance s.service typeArgs lockArgs
    (.ofExcept .queryError (fun a => .balance a.units) answer, s.withService service)
  | .transfer typeArgs source target amount =>
    let (answer, service) := s.client.transfer s.service typeArgs source target amount
    (.ofExcept .queryError .document answer, s.withService service)
  | .setReady unready => (.done, { s with client := { s.client with unready } })
  | .copyClient => (.done, s)

/-- What comes of operations in turn, each with the session after it. -/
def run (s : Session) : List Op → List (Outcome × Session)
  | [] => []
  | op :: ops =>
    let (outcome, s) := s.step op
    (outcome, s) :: s.run ops

/-- The session after operations. -/
def after (s : Session) (ops : List Op) : Session := ops.foldl (fun s op => (s.step op).2) s

end Session

end NamedQuery
