import Mathlib.Data.List.Forall2
import NamedQuery.Proofs.Session.Agreement
import NamedQuery.Proofs.Session.Release
import NamedQuery.Proofs.Value.Reading

/-!
# Deposits mirror values

A stream of deposits and a stream of values that were opened with the same reply go the same way:
whatever the one shows at a position, the other shows the same there, read as a deposit. A value
that is no deposit is an error of its own. It counts, but the stream goes on behind it, and nothing
that comes later is shifted.

* `Mirrors`: what a stream of deposits shows where a stream of values shows something.
* `deposits_mirror_values`: the two streams, position by position.
-/

namespace NamedQuery.Session

variable {s : Session} {id : String} {op : Op} {r : Request} {c : Cursor} {reply : Reply}
  {i : Incoming}

/-! ## One position -/

/-- What a stream of deposits shows where a stream of values shows something. -/
inductive Mirrors : Outcome → Outcome → Prop
  | finished : Mirrors .finished .finished
  | failed (status : Status) :
    Mirrors (.transportError (.status status)) (.queryError (.call (.transport (.status status))))
  | deposit {v : Value} {d : Deposit} (h : Deposit.Reading v (.ok d)) :
    Mirrors (.item v) (.deposit d)
  | misread {v : Value} {e : ValueError} (h : Deposit.Reading v (.error e)) :
    Mirrors (.item v) (.queryError (.value e))

theorem mirrors_delivery (d : Delivery) : Mirrors (.ofDelivery d) (.ofDeposit d.toDeposit) := by
  cases d with
  | item v =>
    rw [Delivery.toDeposit]
    cases hv : Deposit.ofValue v with
    | error e => exact .misread (Deposit.ofValue_eq_iff.mp hv)
    | ok d => exact .deposit (Deposit.ofValue_eq_iff.mp hv)
  | failed status => exact .failed status
  | finished => exact .finished

theorem mirrors_deliveries (ds : List Delivery) :
    List.Forall₂ Mirrors (ds.map .ofDelivery) (ds.map fun d => .ofDeposit d.toDeposit) := by
  rw [List.forall₂_map_left_iff, List.forall₂_map_right_iff, List.forall₂_same]
  intro d _
  exact mirrors_delivery d

/-- Whether an outcome of a stream of deposits is the end of the stream, or the error that ends
it. -/
def Outcome.isLast : Outcome → Bool
  | .finished | .queryError (.call _) => true
  | _ => false

/-- Whether an outcome of a stream of deposits comes of an element, be it a deposit or not. -/
def Outcome.isElement : Outcome → Bool
  | .deposit _ | .queryError (.value _) => true
  | _ => false

theorem isElement_ofDeposit (d : Delivery) :
    (Outcome.ofDeposit d.toDeposit).isElement = d.isItem := by
  cases d with
  | item v =>
    rw [Delivery.toDeposit]
    cases Deposit.ofValue v <;> rfl
  | _ => rfl

theorem isLast_ofDeposit (d : Delivery) :
    (Outcome.ofDeposit d.toDeposit).isLast = !d.isItem := by
  cases d with
  | item v =>
    rw [Delivery.toDeposit]
    cases Deposit.ofValue v <;> rfl
  | _ => rfl

theorem countP_isElement (ds : List Delivery) :
    (ds.map fun d => Outcome.ofDeposit d.toDeposit).countP Outcome.isElement =
      ds.countP Delivery.isItem := by
  rw [List.countP_map]
  exact List.countP_congr fun d _ => by rw [Function.comp_apply, isElement_ofDeposit]

theorem any_isLast (ds : List Delivery) :
    (ds.map fun d => Outcome.ofDeposit d.toDeposit).any Outcome.isLast =
      ds.any fun d => !d.isItem := by
  rw [List.any_map]
  exact congrArg ds.any (funext isLast_ofDeposit)

/-- An element that is no deposit does not let go of the stream; the end does, and an error of the
service. -/
theorem released_step_next (hs : s.find? id = some (.deposits c)) :
    (s.step (.next id)).2.released =
      s.released + if (s.step (.next id)).1.isLast then c.hold else 0 := by
  have hstep : s.step (.next id) = _ := next_of_find? hs
  rw [hstep]
  show s.released + (c.hold - c.next.2.hold) =
    s.released + if (Outcome.ofDeposit c.next.1.toDeposit).isLast then c.hold else 0
  rw [Cursor.hold_next, isLast_ofDeposit]
  cases c.next.1.isItem with
  | false => rfl
  | true => exact congrArg _ (Nat.sub_self _)

/-! ## Whole streams -/

theorem opened_of_answeredBy {wrap : Cursor → Handle} (ho : op.opening? = some (id, r, wrap))
    (ha : op.asks? = some (.stream, r)) (h : s.AnsweredBy op reply)
    (hi : (reply.response .stream).accept = .ok i) :
    (s.step op).1 = .done ∧ (s.step op).2.find? id = some (wrap (.opened r.name i)) := by
  have hx := exchange_of_answeredBy ha h
  rw [hi] at hx
  rw [step_of_opening ho hx, find?_put, if_pos rfl]
  exact ⟨rfl, rfl⟩

theorem refused_of_answeredBy {status : Status} (ha : op.asks? = some (.stream, r))
    (h : s.AnsweredBy op reply) (hi : (reply.response .stream).accept = .error status) :
    (s.step op).1 = op.refusal (.transport (.status status)) := by
  have hx := exchange_of_answeredBy ha h
  rw [hi] at hx
  rw [step_of_exchange_error ha hx]

theorem taken_deposits {ops : List Op} (hs : s.find? id = some (.deposits c))
    (hk : s.keeps id ops = true) :
    s.taken id ops = (c.deliver (takings id ops)).1.map (fun d => .ofDeposit d.toDeposit) ∧
    (s.after ops).find? id = some (.deposits (c.deliver (takings id ops)).2) :=
  taken_eq_deliver_map (fun _ => rfl) hs hk

/-- **Deposits mirror values.** Of a stream of values and a stream of deposits that one reply was
given to, either none is opened, and the status of the refusal is shown for both, or both are. Then
they are asked equally often, among any operations that leave them there. What the one has shown is
what the other has shown at the same position, read as a deposit. Their counts agree, and so it is
with their ends: whatever is a value counts and neither closes a stream nor lets go of it, be it a
deposit or not, and whatever else comes of the reply closes it. -/
theorem deposits_mirror_values (s s' : Session) (id id' : String) (r : Request) (reply : Reply)
    (ops ops' : List Op) (hvalues : s.AnsweredBy (.stream id r) reply)
    (hdeposits : s'.AnsweredBy (.deposits id') reply)
    (hkeeps : (s.step (.stream id r)).2.keeps id ops = true)
    (hkeeps' : (s'.step (.deposits id')).2.keeps id' ops' = true)
    (htakings : takings id ops = takings id' ops') :
    let values := (s.step (.stream id r)).2
    let deposits := (s'.step (.deposits id')).2
    let shown := deposits.taken id' ops'
    let last := deposits.after ops'
    match (reply.response .stream).accept with
    | .error status =>
      (s.step (.stream id r)).1 = .callError (.transport (.status status)) ∧
      (s'.step (.deposits id')).1 = .queryError (.call (.transport (.status status)))
    | .ok i =>
      (s.step (.stream id r)).1 = .done ∧ (s'.step (.deposits id')).1 = .done ∧
      List.Forall₂ Mirrors (values.taken id ops) shown ∧
      ∃ c c', (values.after ops).find? id = some (.values c) ∧
        last.find? id' = some (.deposits c') ∧
        c'.received = c.received ∧ c'.received = shown.countP Outcome.isElement ∧
        c'.isClosed = c.isClosed ∧ c'.isClosed = shown.any Outcome.isLast ∧
        c'.isClosed = decide (i.deliveries.length ≤ takings id' ops') ∧
        (last.step (.next id')).2.released =
          last.released + if (last.step (.next id')).1.isLast then c'.hold else 0 := by
  intro values deposits shown last
  cases hi : (reply.response .stream).accept with
  | error status =>
    exact ⟨refused_of_answeredBy rfl hvalues hi, refused_of_answeredBy rfl hdeposits hi⟩
  | ok i =>
    obtain ⟨hdone, hfound⟩ := opened_of_answeredBy rfl rfl hvalues hi
    obtain ⟨hdone', hfound'⟩ := opened_of_answeredBy rfl rfl hdeposits hi
    obtain ⟨htaken, hlast⟩ := taken_eq_deliver hfound hkeeps
    obtain ⟨htaken', hlast'⟩ := taken_deposits hfound' hkeeps'
    rw [htakings] at htaken hlast
    -- the two cursors differ in nothing but the name that was asked for
    rw [Cursor.deliver_opened r.name] at htaken' hlast'
    have hdelivers := Cursor.delivers (c := .opened r.name i) (takings id' ops') rfl
    refine ⟨hdone, hdone', ?_, _, _, hlast, hlast', rfl, ?_, rfl, ?_, hdelivers.closed,
      released_step_next hlast'⟩
    · show List.Forall₂ Mirrors (values.taken id ops) (deposits.taken id' ops')
      rw [htaken, htaken']
      exact mirrors_deliveries _
    · show _ = (deposits.taken id' ops').countP Outcome.isElement
      rw [htaken', countP_isElement]
      exact (Cursor.received_deliver _ _).trans (Nat.zero_add _)
    · show _ = (deposits.taken id' ops').any Outcome.isLast
      rw [htaken', any_isLast]
      exact Cursor.isClosed_deliver _ _

/-- A value that is no deposit between two deposits, and then a failure, while other requests are
answered in between. -/
theorem deposits_mirror_values_mixed :
    let reply : Reply := .elements [.node (.ofValue (.list [.bytes [0xab], .uint64 1])),
      .node (.ofValue (.list [.uint64 2, .bytes []])),
      .node (.ofValue (.list [.bytes [], .uint64 3, .nil])), .status ⟨.notFound, "gone"⟩]
    let s := start [reply, .status ⟨.notFound, "gone"⟩]
    let ops : List Op := [.next "a", .next "a", .call (.named "q"), .next "a", .next "a", .next "a"]
    let ops' : List Op := [.next "d", .copyClient, .next "d", .next "d", .stream "b" (.named "q"),
      .cancel "b", .next "d", .next "d"]
    let values := (s.step (.stream "a" (.named "q"))).2
    let deposits := (s.step (.deposits "d")).2
    s.AnsweredBy (.stream "a" (.named "q")) reply ∧ s.AnsweredBy (.deposits "d") reply ∧
    values.keeps "a" ops = true ∧ deposits.keeps "d" ops' = true ∧
    takings "a" ops = takings "d" ops' ∧
    List.Forall₂ Mirrors (values.taken "a" ops) (deposits.taken "d" ops') ∧
    ∃ c, (deposits.after ops').find? "d" = some (.deposits c) ∧ c.received = 3 ∧
      c.isClosed = true := by
  intro reply s ops ops' values deposits
  have hvalues : s.AnsweredBy (.stream "a" (.named "q")) reply :=
    answeredBy_of_plain rfl rfl (plain_named (by decide)) (by decide +kernel) rfl
  have hdeposits : s.AnsweredBy (.deposits "d") reply :=
    answeredBy_of_plain rfl rfl (plain_named (by decide)) (by decide +kernel) rfl
  have hkeeps : values.keeps "a" ops = true := by decide +kernel
  have hkeeps' : deposits.keeps "d" ops' = true := by decide +kernel
  have htakings : takings "a" ops = takings "d" ops' := by decide
  obtain ⟨-, -, hmirrors, _, c, -, hfound, -, hcount, -, -, hclosed, -⟩ :=
    deposits_mirror_values s s "a" "d" (.named "q") reply ops ops' hvalues hdeposits hkeeps hkeeps'
      htakings
  refine ⟨hvalues, hdeposits, hkeeps, hkeeps', htakings, hmirrors, c, hfound, ?_, ?_⟩
  · rw [hcount]
    decide +kernel
  · rw [hclosed]
    decide +kernel

end NamedQuery.Session
