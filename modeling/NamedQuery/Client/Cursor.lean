import NamedQuery.Client.Error
import NamedQuery.Service.Basic

/-!
# Cursors

The receiving side of a response. `Incoming` is what is still to come: messages, then a status. A
`Cursor` takes values from it one at a time and counts them; the first error and the end close it,
and a closed cursor has nothing more to give. A message that is too long is an error, whatever value
is in it.
-/

namespace NamedQuery

/-- The value in a message of a response, or the status that says why there is none. -/
def readElement (message : List UInt8) : Except Status Value :=
  match Wire.Node.decode message with
  | .error e => .error (.internal s!"Failed to decode Protobuf bytes: {e.message}")
  | .ok node =>
    match node.toValue with
    | .error e => .error (.internal s!"Malformed value in response: {e.message}")
    | .ok v => .ok v

/-- Receives a message of a response. -/
def receiveElement (message : List UInt8) : Except Status Value :=
  Message.receive readElement message

/-- What is still to come of a response. -/
structure Incoming where
  messages : List (List UInt8)
  final : Status
  /-- Whether the service holds a stream open, which is let go of in the end. -/
  held : Bool
  deriving DecidableEq, Repr

/-- What a client takes in of frames: the messages up to the first status, and that. -/
def Incoming.ofFrames : List Frame → Incoming
  | [] => ⟨[], .success, true⟩
  | .message m :: fs =>
    let i := ofFrames fs
    { i with messages := m :: i.messages }
  | .status s :: _ => ⟨[], s, true⟩

/-- What comes in of a response. A refusal is an error, unless it says that all is well; then
nothing comes in, and the service holds nothing. -/
def Response.accept : Response → Except Status Incoming
  | .refused s => if s.isOk then .ok ⟨[], s, false⟩ else .error s
  | .frames fs => .ok (.ofFrames fs)

/-- What a cursor gives. -/
inductive Delivery where
  | item (v : Value)
  | failed (s : Status)
  | finished
  deriving DecidableEq

/-- The receiving side of a stream. -/
structure Cursor where
  name : String
  /-- What is still to come, unless the cursor is closed. -/
  incoming : Option Incoming
  received : Nat
  deriving DecidableEq, Repr

namespace Cursor

/-- A cursor that has not given anything yet. -/
def opened (name : String) (incoming : Incoming) : Cursor := ⟨name, some incoming, 0⟩

/-- Whether the cursor is closed. -/
def isClosed (c : Cursor) : Bool := c.incoming.isNone

/-- The cursor without what was still to come. -/
def close (c : Cursor) : Cursor := { c with incoming := none }

/-- The next delivery, and the cursor behind it. -/
def next (c : Cursor) : Delivery × Cursor :=
  match c.incoming with
  | none => (.finished, c)
  | some ⟨[], final, _⟩ => (if final.isOk then .finished else .failed final, c.close)
  | some ⟨m :: rest, final, held⟩ =>
    match receiveElement m with
    | .error s => (.failed s, c.close)
    | .ok v =>
      (.item v, { c with incoming := some ⟨rest, final, held⟩, received := c.received + 1 })

/-- The number of messages that are still to come. -/
def pending (c : Cursor) : Nat :=
  match c.incoming with
  | none => 0
  | some i => i.messages.length

theorem pending_next_lt {c c' : Cursor} {v : Value} (h : c.next = (.item v, c')) :
    c'.pending < c.pending := by
  unfold next at h
  split at h
  · cases h
  · split at h <;> cases h
  · rename_i m rest final held hi
    split at h
    · cases h
    · cases h
      simp [pending, hi]

/-- What a run over a stream has seen, and how it ended. -/
structure Run where
  seen : List Value
  /-- The number of values that the cursor has given, or the error that ended the run. -/
  result : Except Status Nat

/-- Takes values until the end, or the first error, or until just `limit` values have been taken; as
the values are counted after each, a limit of zero is never met. Whatever the end, the cursor is
gone. -/
def runUntil (limit : Option Nat) (c : Cursor) : Run :=
  match h : c.next with
  | (.finished, c') => ⟨[], .ok c'.received⟩
  | (.failed s, _) => ⟨[], .error s⟩
  | (.item v, c') =>
    match limit with
    | some 1 => ⟨[v], .ok c'.received⟩
    | _ =>
      have := pending_next_lt h
      let run := runUntil (limit.map (· - 1)) c'
      ⟨v :: run.seen, run.result⟩
termination_by c.pending

end Cursor

end NamedQuery
