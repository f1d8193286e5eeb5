import NamedQuery.Proofs.Session.Step

/-!
# What a session needs of its service

A session uses up the first of the replies that its service has, at most one for each operation, and
adds to the log. It looks neither at what is in the log nor at the replies that it does not use up;
all that it can tell of these is whether there are any. So an operation that opens no stream can be
left out together with its reply, and nobody will notice.

* `Uses`: which replies an operation uses up, which it leaves, and what it logs.
* `Frames`: the same of operations in turn.
* `unary_leaves_no_trace`: an operation that opens no stream can be left out.
-/

namespace NamedQuery.Session

variable {s : Session} {id : String} {op : Op} {ops : List Op} {service : Script}

/-! ## Sessions with another service -/

theorem find?_withService : (s.withService service).find? id = s.find? id := rfl

theorem release_withService :
    (s.withService service).release id = (s.release id).withService service := by
  rw [release, release, find?_withService]
  cases s.find? id <;> rfl

theorem put_withService {h : Handle} :
    (s.withService service).put id h = (s.put id h).withService service := by
  rw [put, release_withService]
  rfl

theorem next_withService :
    (s.withService service).next id = ((s.next id).1, (s.next id).2.withService service) := by
  cases hs : s.find? id with
  | none =>
    rw [next_of_missing hs, next_of_missing (find?_withService.trans hs)]
  | some h =>
    rw [next_of_find? hs, next_of_find? (find?_withService.trans hs)]
    rfl

theorem letGo_withService :
    (s.withService service).letGo id = ((s.letGo id).1, (s.letGo id).2.withService service) := by
  rw [letGo, letGo, find?_withService, release_withService]
  cases s.find? id <;> rfl

theorem forEach_withService (limit : Option Nat) : (s.withService service).forEach id limit =
    ((s.forEach id limit).1, (s.forEach id limit).2.withService service) := by
  rw [forEach, forEach, find?_withService, release_withService]
  cases s.find? id with
  | none => rfl
  | some h => cases h <;> rfl

/-- An operation that sends nothing has nothing to do with the service. -/
theorem step_of_silent (service : Script) (ha : op.asks? = none) :
    (s.withService service).step op = ((s.step op).1, (s.step op).2.withService service) := by
  cases op with
  | next id => exact next_withService
  | cancel id => exact letGo_withService
  | forget id => exact letGo_withService
  | forEach id limit => exact forEach_withService limit
  | setReady unready => rfl
  | copyClient => rfl
  | _ => cases ha

/-- What a call shows comes of what comes in for it. -/
theorem outcome_of_unary {r : Request} (ha : op.asks? = some (.call, r))
    (hx : (s.client.exchange service .call r).1 = (s.client.exchange s.service .call r).1) :
    ((s.withService service).step op).1 = (s.step op).1 := by
  cases op with
  | call r =>
    cases ha
    exact congrArg (Outcome.ofExcept .callError .value) (Client.call_fst_congr hx)
  | balance lockArgs =>
    cases ha
    exact congrArg (Outcome.ofExcept _ _) (Client.query_fst_congr readBalance hx)
  | tokenBalance typeArgs lockArgs =>
    cases ha
    exact congrArg (Outcome.ofExcept _ _) (Client.query_fst_congr readTokenBalance hx)
  | transfer typeArgs source target amount =>
    cases ha
    exact congrArg (Outcome.ofExcept _ _) (Client.query_fst_congr readTransfer hx)
  | _ => cases ha

/-- The service matters to an operation only in what comes in for its request. -/
theorem step_withService {method : Method} {r : Request} (ha : op.asks? = some (method, r))
    (hx : (s.client.exchange service method r).1 = (s.client.exchange s.service method r).1) :
    (s.withService service).step op = ((s.step op).1,
      (s.step op).2.withService (s.client.exchange service method r).2) := by
  cases hi : (s.client.exchange s.service method r).1 with
  | error e =>
    have hi' : ((s.withService service).client.exchange service method r).1 = .error e :=
      hx.trans hi
    rw [step_of_exchange_error ha hi, step_of_exchange_error ha hi']
    rfl
  | ok i =>
    cases method with
    | call =>
      refine Prod.ext (outcome_of_unary ha hx) ?_
      rw [step_of_call ha, step_of_call ha]
      rfl
    | stream =>
      have hi' : ((s.withService service).client.exchange service .stream r).1 = .ok i :=
        hx.trans hi
      obtain ⟨id, wrap, ho⟩ := opening?_of_asks? ha
      rw [step_of_opening ho hi, step_of_opening ho hi', put_withService, put_withService,
        put_withService]
      rfl

/-! ## What is used of the service -/

/-- An operation uses up these replies, leaves those, and logs these requests; with other replies in
place of those that it leaves, and with another log, it does the same. It can tell whether any
replies are left: where there are none there must be none either. -/
structure Uses (s : Session) (op : Op) (used left : List Reply) (logged : List Received) :
    Prop where
  replies : s.service.replies = used ++ left
  used_le : used.length ≤ 1
  logged_le : logged.length ≤ 1
  step : ∀ other log, (left = [] → other = []) →
    (s.withService ⟨used ++ other, log⟩).step op =
      ((s.step op).1, (s.step op).2.withService ⟨other, log ++ logged⟩)

theorem Uses.service_step {used left : List Reply} {logged : List Received}
    (h : s.Uses op used left logged) :
    (s.step op).2.service = ⟨left, s.service.log ++ logged⟩ := by
  have hstep := h.step left s.service.log id
  rw [← h.replies] at hstep
  exact congrArg (fun e : Outcome × Session => e.2.service) hstep

/-- **Every operation uses the service in this way.** -/
theorem exists_uses (s : Session) (op : Op) : ∃ used left logged, s.Uses op used left logged := by
  cases ha : op.asks? with
  | none =>
    refine ⟨[], s.service.replies, [], rfl, Nat.zero_le _, Nat.zero_le _, fun other log _ => ?_⟩
    rw [List.nil_append, List.append_nil]
    exact step_of_silent _ ha
  | some asked =>
    obtain ⟨method, r⟩ := asked
    rcases s.client.exchange_refused_or_answered method r with ⟨e, hrefused⟩ | ⟨q, hanswered⟩
    · -- the request is not received, and the service does not know of it
      refine ⟨[], s.service.replies, [], rfl, Nat.zero_le _, Nat.zero_le _, fun other log _ => ?_⟩
      rw [step_withService ha (by rw [hrefused, hrefused]), hrefused, List.nil_append,
        List.append_nil]
    · cases hr : s.service.replies with
      | nil =>
        -- the replies have run out
        refine ⟨[], [], [q], hr, Nat.zero_le _, Nat.le_refl _, fun other log hnone => ?_⟩
        rw [hnone rfl, List.nil_append]
        have hanswer := Script.answer_of_nil ⟨[], log⟩ q rfl
        rw [step_withService ha
            (by rw [hanswered, hanswered, hanswer, Script.answer_of_nil _ q hr]),
          hanswered, hanswer]
      | cons reply rest =>
        refine ⟨[reply], rest, [q], hr, Nat.le_refl _, Nat.le_refl _, fun other log _ => ?_⟩
        have hanswer := Script.answer_of_cons ⟨reply :: other, log⟩ q rfl
        rw [List.singleton_append, step_withService ha
          (by rw [hanswered, hanswered, hanswer, Script.answer_of_cons _ q hr]), hanswered, hanswer]

/-! ## Runs -/

/-- What can be seen of a step: what it shows, the client, the streams, and how many were let go of.
-/
def view (e : Outcome × Session) : Outcome × Client × List (String × Handle) × Nat :=
  (e.1, e.2.client, e.2.handles, e.2.released)

/-- What can be seen of operations in turn. -/
def views (s : Session) (ops : List Op) : List (Outcome × Client × List (String × Handle) × Nat) :=
  (s.run ops).map view

theorem views_cons : s.views (op :: ops) = view (s.step op) :: (s.step op).2.views ops := rfl

theorem views_append (s : Session) (ops ops' : List Op) :
    s.views (ops ++ ops') = s.views ops ++ (s.after ops).views ops' := by
  induction ops generalizing s with
  | nil => rfl
  | cons op ops ih =>
    rw [List.cons_append, views_cons, views_cons, ih]
    rfl

theorem length_views (s : Session) (ops : List Op) : (s.views ops).length = ops.length := by
  induction ops generalizing s with
  | nil => rfl
  | cons op ops ih => rw [views_cons, List.length_cons, ih, List.length_cons]

theorem after_append (s : Session) (ops ops' : List Op) :
    s.after (ops ++ ops') = (s.after ops).after ops' := List.foldl_append

/-- Operations in turn use up these replies, leave those, and log these requests; with other replies
in place of those that they leave, and with another log, they do the same. -/
structure Frames (s : Session) (ops : List Op) (used left : List Reply) (logged : List Received) :
    Prop where
  replies : s.service.replies = used ++ left
  views : ∀ other log, (left = [] → other = []) →
    (s.withService ⟨used ++ other, log⟩).views ops = s.views ops
  after : ∀ other log, (left = [] → other = []) →
    (s.withService ⟨used ++ other, log⟩).after ops =
      (s.after ops).withService ⟨other, log ++ logged⟩

theorem Frames.service_after {used left : List Reply} {logged : List Received}
    (h : s.Frames ops used left logged) :
    (s.after ops).service = ⟨left, s.service.log ++ logged⟩ := by
  have hafter := h.after left s.service.log id
  rw [← h.replies] at hafter
  exact congrArg Session.service hafter

theorem exists_frames (s : Session) (ops : List Op) :
    ∃ used left logged, s.Frames ops used left logged := by
  induction ops generalizing s with
  | nil =>
    refine ⟨[], s.service.replies, [], rfl, fun other log _ => rfl, fun other log _ => ?_⟩
    rw [List.append_nil]
    rfl
  | cons op ops ih =>
    obtain ⟨used, left, logged, hfirst⟩ := s.exists_uses op
    obtain ⟨used', left', logged', hrest⟩ := ih (s.step op).2
    have hleft : left = used' ++ left' := by
      rw [← hrest.replies, hfirst.service_step]
    -- replies run out for the first operation only if they run out for the others
    have hstep (other : List Reply) (log : List Received) (hother : left' = [] → other = []) :
        (s.withService ⟨used ++ (used' ++ other), log⟩).step op =
          ((s.step op).1, (s.step op).2.withService ⟨used' ++ other, log ++ logged⟩) := by
      refine hfirst.step (used' ++ other) log fun hnone => ?_
      rw [hleft, List.append_eq_nil_iff] at hnone
      rw [hnone.1, hother hnone.2]
      rfl
    refine ⟨used ++ used', left', logged ++ logged', ?_, fun other log hother => ?_,
      fun other log hother => ?_⟩
    · rw [hfirst.replies, hleft, List.append_assoc]
    · rw [List.append_assoc, views_cons, views_cons, hstep other log hother]
      dsimp only
      rw [hrest.views other (log ++ logged) hother]
      rfl
    · show ((s.withService ⟨used ++ used' ++ other, log⟩).step op).2.after ops = _
      rw [List.append_assoc, hstep other log hother, ← List.append_assoc]
      exact hrest.after other (log ++ logged) hother

/-! ## Leaving an operation out -/

/-- An operation that sends a request and opens no stream changes nothing but the service. -/
theorem step_of_unopened (ha : op.asks?.isSome = true) (ho : s.opens op = false) :
    (s.step op).2 = s.withService (s.step op).2.service := by
  obtain ⟨⟨method, r⟩, ha⟩ := Option.isSome_iff_exists.mp ha
  cases hx : (s.client.exchange s.service method r).1 with
  | error e =>
    rw [step_of_exchange_error ha hx]
    rfl
  | ok i =>
    cases method with
    | call =>
      rw [step_of_call ha]
      rfl
    | stream =>
      obtain ⟨id, wrap, hopening⟩ := opening?_of_asks? ha
      rw [opens, hopening, step_of_opening hopening hx] at ho
      cases ho

/-- What it means that an operation is left out of others, together with the reply that it uses up:
`earlier` and `later` are the replies in front of that one and behind it. -/
structure LeftOut (s : Session) (before : List Op) (op : Op) (after : List Op)
    (earlier used later : List Reply) (logged : List Received) : Prop where
  replies : s.service.replies = earlier ++ used ++ later
  reached : (s.after before).service.replies = used ++ later
  used_le : used.length ≤ 1
  logged_le : logged.length ≤ 1
  /-- The operation changes nothing but the service: the client and the streams are as before. -/
  unchanged : ((s.after before).step op).2 =
    (s.after before).withService ⟨later, (s.after before).service.log ++ logged⟩
  /-- All other operations show what they did, with the same streams behind each of them. -/
  others : (s.withService ⟨earlier ++ later, s.service.log⟩).views (before ++ after) =
    (s.views (before ++ op :: after)).eraseIdx before.length
  /-- What the operation logged is missing in the log, and nothing else. -/
  log : ∃ rest,
    (s.after (before ++ op :: after)).service.log =
      (s.after before).service.log ++ logged ++ rest ∧
    ((s.withService ⟨earlier ++ later, s.service.log⟩).after (before ++ after)).service.log =
      (s.after before).service.log ++ rest

/-- **Calls leave no trace, and neither do streams that are not opened.** Such an operation can be
left out of a session, together with the reply that it uses up, if it uses up one: nothing that the
others show changes. This holds whether it succeeds or fails, and wherever it fails. -/
theorem unary_leaves_no_trace (s : Session) (before : List Op) (op : Op) (after : List Op)
    (hasks : op.asks?.isSome = true) (hopens : (s.after before).opens op = false) :
    ∃ earlier used later logged, s.LeftOut before op after earlier used later logged := by
  obtain ⟨earlier, left, logged₁, hbefore⟩ := s.exists_frames before
  obtain ⟨used, later, logged, hop⟩ := (s.after before).exists_uses op
  obtain ⟨used₂, last, logged₂, hafter⟩ := ((s.after before).step op).2.exists_frames after
  have hleft : left = used ++ later := by rw [← hop.replies, hbefore.service_after]
  have hlater : left = [] → later = [] := by
    rw [hleft, List.append_eq_nil_iff]
    exact And.right
  have hunchanged := step_of_unopened hasks hopens
  rw [hop.service_step] at hunchanged
  -- where the operation would stand, the two sessions differ in the log alone
  have hmiddle : (s.withService ⟨earlier ++ later, s.service.log⟩).after before =
      ((s.after before).step op).2.withService ⟨used₂ ++ last, (s.after before).service.log⟩ := by
    rw [hbefore.after later s.service.log hlater, hunchanged, ← hafter.replies, hop.service_step,
      hbefore.service_after]
    rfl
  refine ⟨earlier, used, later, logged, ?_, hop.replies, hop.used_le, hop.logged_le, hunchanged, ?_,
    logged₂, ?_, ?_⟩
  · rw [hbefore.replies, hleft, List.append_assoc]
  · rw [views_append, views_append, views_cons, hbefore.views later s.service.log hlater, hmiddle,
      hafter.views last _ id, ← length_views s before,
      List.eraseIdx_append_of_length_le (Nat.le_refl _), Nat.sub_self]
    rfl
  · rw [after_append]
    show (((s.after before).step op).2.after after).service.log = _
    rw [hafter.service_after, hop.service_step]
  · rw [after_append, hmiddle, hafter.after last _ id]
    rfl

/-- A call that fails, and a stream that is not opened, between two deliveries of another stream:
either uses up the second reply and is left out with it. -/
theorem unary_leaves_no_trace_failing :
    let s := start [.elements [.node (.ofValue .nil), .node (.ofValue (.bool true))],
      .status ⟨.notFound, "gone"⟩, .status ⟨.internal, "lost"⟩, .node (.ofValue (.uint64 3))]
    let before : List Op := [.stream "a" (.named "q"), .next "a"]
    let after : List Op := [.next "a", .balance [0xAB]]
    ((Op.call (.named "q")).asks?.isSome = true ∧
      (s.after before).opens (.call (.named "q")) = false ∧
      ∃ earlier used later logged,
        s.LeftOut before (.call (.named "q")) after earlier used later logged) ∧
    ((Op.stream "a" (.named "q")).asks?.isSome = true ∧
      (s.after before).opens (.stream "a" (.named "q")) = false ∧
      ∃ earlier used later logged,
        s.LeftOut before (.stream "a" (.named "q")) after earlier used later logged) := by
  intro s before after
  have hcall : (s.after before).opens (.call (.named "q")) = false := rfl
  have hstream : (s.after before).opens (.stream "a" (.named "q")) = false := by decide +kernel
  exact ⟨⟨rfl, hcall, unary_leaves_no_trace s before _ after rfl hcall⟩,
    ⟨rfl, hstream, unary_leaves_no_trace s before _ after rfl hstream⟩⟩

end NamedQuery.Session
