import NamedQuery.Client.Cursor
import NamedQuery.Proofs.Service.Receive
import NamedQuery.Service.Script

/-!
# What comes in of a reply

A stream that a client opens is fed from one reply of the service. Of the elements of that reply the
messages in front of the first status come in, and then that status, or success when there is none.
The service holds a stream open behind every reply that is accepted, but for the bare success: that
one says at once that all is well, and there is nothing to let go of.
-/

namespace NamedQuery

/-- The messages of the elements in front of the first status. -/
def Element.messages : List Element → List (List UInt8)
  | .node n :: es => n.encode :: messages es
  | _ => []

/-- The first status among elements, or success. -/
def Element.final : List Element → Status
  | [] => .success
  | .node _ :: es => final es
  | .status s :: _ => s

namespace Reply

/-- Whether the reply is a success and nothing else. -/
def isBareSuccess : Reply → Bool
  | .status s => s.isOk
  | _ => false

/-- What comes in of a reply to a request for a stream. -/
def incoming : Reply → Incoming
  | .node n => ⟨[n.encode], .success, true⟩
  | .status s => ⟨[], s, false⟩
  | .elements es => ⟨Element.messages es, Element.final es, true⟩
  | .raw messages final => ⟨messages, final, true⟩
  | .broken text => ⟨[], ⟨.unknown, text⟩, false⟩

theorem ofFrames_messages (ms : List (List UInt8)) (final : Status) :
    Incoming.ofFrames (ms.map .message ++ [.status final]) = ⟨ms, final, true⟩ := by
  induction ms with
  | nil => rfl
  | cons m ms ih => rw [List.map_cons, List.cons_append, Incoming.ofFrames, ih]

theorem ofFrames_elements (es : List Element) (fs : List Frame)
    (h : (es.map Element.frame).any Frame.isStatus = true ∨ fs = [.status .success]) :
    Incoming.ofFrames (es.map Element.frame ++ fs) =
      ⟨Element.messages es, Element.final es, true⟩ := by
  induction es with
  | nil =>
    rcases h with h | h
    · cases h
    · rw [h]
      rfl
  | cons e es ih =>
    cases e with
    | status s => rfl
    | node n =>
      have hrest := ih (by simpa [Frame.isStatus, Element.frame] using h)
      rw [List.map_cons, List.cons_append, Element.frame, Incoming.ofFrames, hrest]
      rfl

theorem ofFrames_frames (es : List Element) :
    Incoming.ofFrames (frames es) = ⟨Element.messages es, Element.final es, true⟩ := by
  rw [frames]
  split
  case isTrue h => rw [← ofFrames_elements es [] (.inl h), List.append_nil]
  case isFalse => exact ofFrames_elements es _ (.inr rfl)

/-- A reply to a request for a stream comes in as it is when it is accepted, and the service holds a
stream open behind it unless the reply is a bare success. -/
theorem accept_response {reply : Reply} {i : Incoming}
    (h : (reply.response .stream).accept = .ok i) :
    i = reply.incoming ∧ i.held = !reply.isBareSuccess := by
  cases reply with
  | node n =>
    cases h
    exact ⟨rfl, rfl⟩
  | status s =>
    simp only [response, Response.accept] at h
    split at h
    case isTrue hs =>
      cases h
      exact ⟨rfl, by rw [isBareSuccess, hs]; rfl⟩
    case isFalse => cases h
  | elements es =>
    cases h
    exact ⟨ofFrames_frames es, by rw [ofFrames_frames]; rfl⟩
  | raw messages final =>
    cases h
    exact ⟨ofFrames_messages messages final, by rw [ofFrames_messages]; rfl⟩
  | broken text => cases h

end Reply

namespace Script

variable {script : Script} {method : Method} {messages : List (List UInt8)} {metadata : Metadata}

/-- A request that is accepted is answered by the first reply that was left. -/
theorem handle_of_accept {i : Incoming}
    (h : (script.handle method.path messages metadata).1.accept = .ok i) :
    ∃ reply rest, script.replies = reply :: rest ∧ (reply.response method).accept = .ok i := by
  unfold handle at h
  cases hr : Service.receive method.path messages metadata with
  | error status =>
    simp only [hr, Response.accept, Service.receive_error hr] at h
    cases h
  | ok q =>
    simp only [hr, answer] at h
    cases hs : script.replies with
    | nil =>
      simp only [hs] at h
      cases h
    | cons reply rest =>
      simp only [hs, Service.receive_method hr] at h
      exact ⟨reply, rest, rfl, h⟩

/-- A request that uses up a reply is answered by it. -/
theorem handle_of_used {reply : Reply}
    (h : script.replies = reply :: (script.handle method.path messages metadata).2.replies) :
    (script.handle method.path messages metadata).1 = reply.response method := by
  unfold handle at h ⊢
  cases hr : Service.receive method.path messages metadata with
  | error status =>
    simp only [hr] at h
    exact absurd h.symm (List.cons_ne_self reply _)
  | ok q =>
    simp only [hr, answer] at h ⊢
    cases hs : script.replies with
    | nil =>
      simp only [hs] at h
      cases h
    | cons first rest =>
      simp only [hs, Service.receive_method hr] at h ⊢
      rw [(List.cons.inj h).1]

/-! ## Services alike -/

/-- What is not received is refused by every service alike, and it leaves no trace there; all else
is answered. -/
theorem handle_refused_or_answered (path : String) (messages : List (List UInt8))
    (metadata : Metadata) :
    (∃ status, status.isOk = false ∧
      ∀ script : Script, script.handle path messages metadata = (.refused status, script)) ∨
    ∃ q, ∀ script : Script, script.handle path messages metadata = script.answer q := by
  cases hr : Service.receive path messages metadata with
  | error status =>
    refine .inl ⟨status, Service.receive_error hr, fun script => ?_⟩
    rw [handle, hr]
  | ok q =>
    refine .inr ⟨q, fun script => ?_⟩
    rw [handle, hr]

theorem answer_of_nil (script : Script) (q : Received) (h : script.replies = []) :
    script.answer q = (.refused exhausted, ⟨[], script.log ++ [q]⟩) := by
  rw [answer, h]

theorem answer_of_cons (script : Script) {reply : Reply} {rest : List Reply} (q : Received)
    (h : script.replies = reply :: rest) :
    script.answer q = (reply.response q.method, ⟨rest, script.log ++ [q]⟩) := by
  rw [answer, h]

end Script

end NamedQuery
