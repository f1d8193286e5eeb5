import NamedQuery.Proofs.Client.Exchange
import NamedQuery.Proofs.Session.Basic

/-!
# Steps of a session

A step sends a request, or takes a delivery from a stream, or lets go of one, or is about the client
alone. What it does to the service is what the exchange of its request does. What it does to the
streams is one of four things:

* `Effect`: it leaves them alone, puts one under a name, takes from one, or lets go of one.
* `effect_step`: there is nothing else that a step can do.
-/

namespace NamedQuery

namespace Session

variable {s : Session} {id : String}

/-! ## Operations that send a request -/

/-- The method and the request of an operation that sends one. -/
def Op.asks? : Op → Option (Method × Request)
  | .call r => some (.call, r)
  | .stream _ r => some (.stream, r)
  | .deposits _ => some (.stream, .deposits)
  | .balance lockArgs => some (.call, .balance lockArgs)
  | .tokenBalance typeArgs lockArgs => some (.call, .tokenBalance typeArgs lockArgs)
  | .transfer typeArgs source target amount =>
    some (.call, .transfer typeArgs source target amount)
  | _ => none

/-- The name under which an operation opens a stream, the request that it sends for it, and how the
stream is read. -/
def Op.opening? : Op → Option (String × Request × (Cursor → Handle))
  | .stream id r => some (id, r, .values)
  | .deposits id => some (id, .deposits, .deposits)
  | _ => none

/-- How an operation shows that nothing came of its request. -/
def Op.refusal : Op → CallError → Outcome
  | .call _, e | .stream _ _, e => .callError e
  | _, e => .queryError (.call e)

variable {op : Op} {method : Method} {r : Request}

/-- When nothing comes of a request, nothing but the service changes. -/
theorem step_of_exchange_error {e : CallError} (h : op.asks? = some (method, r))
    (he : (s.client.exchange s.service method r).1 = .error e) :
    s.step op = (op.refusal e, s.withService (s.client.exchange s.service method r).2) := by
  cases op with
  | call r =>
    cases h
    rw [step, Client.call_of_error he]
    rfl
  | stream id r =>
    cases h
    simp only [step, Client.openStream_of_error he]
    rfl
  | deposits id =>
    cases h
    simp only [step, Client.openDeposits, Client.openStream_of_error he]
    rfl
  | balance lockArgs =>
    cases h
    rw [step, Client.balance, Client.query_of_error _ he]
    rfl
  | tokenBalance typeArgs lockArgs =>
    cases h
    rw [step, Client.tokenBalance, Client.query_of_error _ he]
    rfl
  | transfer typeArgs source target amount =>
    cases h
    rw [step, Client.transfer, Client.query_of_error _ he]
    rfl
  | _ => cases h

/-- A call changes nothing but the service, whatever comes of it. -/
theorem step_of_call (h : op.asks? = some (.call, r)) :
    (s.step op).2 = s.withService (s.client.exchange s.service .call r).2 := by
  cases op with
  | call r =>
    cases h
    rw [← Client.call_snd]
    rfl
  | balance lockArgs =>
    cases h
    rw [← Client.query_snd readBalance]
    rfl
  | tokenBalance typeArgs lockArgs =>
    cases h
    rw [← Client.query_snd readTokenBalance]
    rfl
  | transfer typeArgs source target amount =>
    cases h
    rw [← Client.query_snd readTransfer]
    rfl
  | _ => cases h

/-- A stream that comes in is put under its name. -/
theorem step_of_opening {wrap : Cursor → Handle} {i : Incoming}
    (h : op.opening? = some (id, r, wrap))
    (hi : (s.client.exchange s.service .stream r).1 = .ok i) :
    s.step op = (.done, (s.withService (s.client.exchange s.service .stream r).2).put id
      (wrap (.opened r.name i))) := by
  cases op with
  | stream id r =>
    cases h
    simp only [step, Client.openStream_of_ok hi]
  | deposits id =>
    cases h
    simp only [step, Client.openDeposits, Client.openStream_of_ok hi]
  | _ => cases h

theorem Op.cursor_of_opening? {wrap : Cursor → Handle} (h : op.opening? = some (id, r, wrap))
    (c : Cursor) : (wrap c).cursor = c := by
  cases op with
  | stream id r =>
    cases h
    rfl
  | deposits id =>
    cases h
    rfl
  | _ => cases h

theorem opening?_of_asks? (h : op.asks? = some (.stream, r)) :
    ∃ id wrap, op.opening? = some (id, r, wrap) := by
  cases op with
  | stream id r =>
    cases h
    exact ⟨_, _, rfl⟩
  | deposits id =>
    cases h
    exact ⟨_, _, rfl⟩
  | _ => cases h

/-! ## Operations that do not -/

/-- The name of the stream that an operation lets go of, whatever comes of it. -/
def Op.releasing? : Op → Option String
  | .cancel id | .forget id | .forEach id _ => some id
  | _ => none

/-- The name of the stream from which an operation takes a delivery. -/
def Op.taking? : Op → Option String
  | .next id => some id
  | _ => none

theorem letGo_snd : (s.letGo id).2 = s.release id := by
  rw [letGo]
  split
  case h_1 hs => rw [release, hs]
  case h_2 => rfl

theorem forEach_snd (limit : Option Nat) : (s.forEach id limit).2 = s.release id := by
  rw [forEach]
  split <;> rfl

theorem step_of_releasing (h : op.releasing? = some id) : (s.step op).2 = s.release id := by
  cases op with
  | cancel id =>
    cases h
    exact letGo_snd
  | forget id =>
    cases h
    exact letGo_snd
  | forEach id limit =>
    cases h
    exact forEach_snd limit
  | _ => cases h

theorem step_of_taking (h : op.taking? = some id) : s.step op = s.next id := by
  cases op with
  | next id =>
    cases h
    rfl
  | _ => cases h

/-- The service takes part in a step only when a request is sent. -/
theorem step_service (op : Op) : (s.step op).2.service =
    match op.asks? with
    | some (method, r) => (s.client.exchange s.service method r).2
    | none => s.service := by
  cases ha : op.asks? with
  | some asked =>
    obtain ⟨method, r⟩ := asked
    cases method with
    | call =>
      rw [step_of_call ha]
      rfl
    | stream =>
      cases hx : (s.client.exchange s.service .stream r).1 with
      | error e =>
        rw [step_of_exchange_error ha hx]
        rfl
      | ok i =>
        obtain ⟨id, wrap, ho⟩ := opening?_of_asks? ha
        rw [step_of_opening ho hx, put_service]
        rfl
  | none =>
    cases op with
    | next id =>
      rw [step_of_taking rfl]
      cases hs : s.find? id with
      | none => rw [next_of_missing hs]
      | some h =>
        rw [next_of_find? hs]
        rfl
    | cancel id => rw [step_of_releasing rfl, release_service]
    | forget id => rw [step_of_releasing rfl, release_service]
    | forEach id limit => rw [step_of_releasing rfl, release_service]
    | setReady unready => rfl
    | copyClient => rfl
    | _ => cases ha

/-! ## What a step does to the streams -/

/-- Whether an outcome says that something was done. -/
def Outcome.isDone : Outcome → Bool
  | .done => true
  | _ => false

/-- Whether an operation opens a stream. -/
def opens (s : Session) (op : Op) : Bool := op.opening?.isSome && (s.step op).1.isDone

/-- Everything that a step can do to the streams of a session. -/
inductive Effect (s : Session) (op : Op) : Outcome × Session → Prop
  /-- The streams stay as they are. -/
  | quiet {o : Outcome} {s' : Session} (opens : s.opens op = false)
      (handles : s'.handles = s.handles) (released : s'.released = s.released)
      (releasing : op.releasing? = none)
      (missing : ∀ id, op.taking? = some id → s.find? id = none) : Effect s op (o, s')
  /-- A stream is put under a name, in place of one that was there. -/
  | opens {id : String} {r : Request} {wrap : Cursor → Handle} {reply : Reply}
      {rest : List Reply} (service : Script) (opens : s.opens op = true)
      (opening : op.opening? = some (id, r, wrap)) (replies : s.service.replies = reply :: rest)
      (held : reply.incoming.held = !reply.isBareSuccess) :
      Effect s op (.done, (s.withService service).put id (wrap (.opened r.name reply.incoming)))
  /-- A delivery is taken from a stream. -/
  | takes {id : String} {h : Handle} (opens : s.opens op = false) (taking : op.taking? = some id)
      (found : s.find? id = some h) : Effect s op (h.next.1, s.advance id h.cursor h.next.2)
  /-- A stream is let go of, if there is one. -/
  | releases {id : String} {o : Outcome} (opens : s.opens op = false)
      (releasing : op.releasing? = some id) : Effect s op (o, s.release id)

theorem Outcome.isDone_refusal (op : Op) (e : CallError) : (op.refusal e).isDone = false := by
  cases op <;> rfl

/-- An operation that sends a request opens a stream, or leaves all streams as they are. -/
theorem effect_of_asks (ha : op.asks? = some (method, r)) : Effect s op (s.step op) := by
  have hkind : op.releasing? = none ∧ op.taking? = none := by
    cases op <;> first | exact ⟨rfl, rfl⟩ | cases ha
  have hquiet {o : Outcome} {service : Script} (ho : s.opens op = false) :
      Effect s op (o, s.withService service) :=
    .quiet ho rfl rfl hkind.1 fun id ht => nomatch hkind.2.symm.trans ht
  cases hx : (s.client.exchange s.service method r).1 with
  | error e =>
    have hstep := step_of_exchange_error ha hx
    rw [hstep]
    exact hquiet (by rw [opens, hstep, Outcome.isDone_refusal, Bool.and_false])
  | ok i =>
    cases method with
    | call =>
      have hclosed : op.opening? = none := by cases op <;> first | rfl | cases ha
      have hstep := step_of_call (s := s) ha
      rw [← Prod.eta (s.step op), hstep]
      exact hquiet (by rw [opens, hclosed]; rfl)
    | stream =>
      obtain ⟨id, wrap, ho⟩ := opening?_of_asks? ha
      obtain ⟨reply, rest, hreplies, rfl, hheld⟩ := Client.exchange_ok hx
      have hstep := step_of_opening ho hx
      rw [hstep]
      exact .opens _ (by rw [opens, ho, hstep]; rfl) ho hreplies hheld

/-- **What a step does to the streams.** -/
theorem effect_step (s : Session) (op : Op) : Effect s op (s.step op) := by
  cases ha : op.asks? with
  | some asked => exact effect_of_asks ha
  | none =>
    cases op with
    | next id =>
      rw [step_of_taking rfl]
      cases hs : s.find? id with
      | none =>
        rw [next_of_missing hs]
        refine .quiet rfl rfl rfl rfl fun id' hid => ?_
        cases hid
        exact hs
      | some h =>
        rw [next_of_find? hs]
        exact .takes rfl rfl hs
    | cancel id =>
      rw [← Prod.eta (s.step _), step_of_releasing rfl]
      exact .releases rfl rfl
    | forget id =>
      rw [← Prod.eta (s.step _), step_of_releasing rfl]
      exact .releases rfl rfl
    | forEach id limit =>
      rw [← Prod.eta (s.step _), step_of_releasing rfl]
      exact .releases rfl rfl
    | setReady unready => exact .quiet rfl rfl rfl rfl nofun
    | copyClient => exact .quiet rfl rfl rfl rfl nofun
    | _ => cases ha

end Session

end NamedQuery
