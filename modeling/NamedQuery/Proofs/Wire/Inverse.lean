import NamedQuery.Proofs.Wire.Acceptance

/-!
# Values and nodes undo each other

A tree that stands for a value is got back from the value, but for the payloads that were not given:
those are then the ones they stand for. So a tree comes of a value exactly if it stands for one and
nothing that may be left out was left out, and on such trees the two conversions are inverse.

* `ofValue_of_toValue`: what comes back of a tree that is read.
* `filled_eq_self_iff`: the trees in which nothing was left out.
* `ofValue_toValue_inverse`: the image of the values, and the two conversions on it.
-/

namespace NamedQuery

/-- Whether the values of a kind have a payload. -/
def Kind.isScalar : Kind → Bool
  | .uint64 | .bytes | .bool => true
  | .list | .nil => false

theorem Kind.isSome_zero? (kind : Kind) : kind.zero?.isSome = kind.isScalar := by
  cases kind <;> rfl

namespace Wire.Node

/-- Whether the payload of a node by itself is given, if values of its kind have one. -/
def IsExplicit (w : Node) : Prop :=
  ∀ kind : Kind, kind.isScalar = true → w.discriminant = kind.discriminant →
    w.payload.isSome = true

variable {t : Int32} {p : Option Payload} {cs : List Node} {v : Value} {w : Node}

theorem isExplicit_iff :
    IsExplicit ⟨t, p, cs⟩ ↔ p.or ((Kind.ofDiscriminant? t).bind Kind.zero?) = p := by
  constructor
  · intro h
    cases p with
    | some q => rfl
    | none =>
      rw [Option.none_or, Option.bind_eq_none_iff]
      intro kind hkind
      rw [Kind.ofDiscriminant?_eq_some] at hkind
      by_cases hscalar : kind.isScalar = true
      · exact absurd (h kind hscalar hkind) Bool.false_ne_true
      · rwa [← Kind.isSome_zero?, Option.not_isSome_iff_eq_none] at hscalar
  · rintro h kind hscalar rfl
    rw [← Kind.isSome_zero?, Option.isSome_iff_exists] at hscalar
    obtain ⟨q, hq⟩ := hscalar
    rw [Kind.ofDiscriminant?_discriminant, Option.bind_some, hq] at h
    show p.isSome = true
    rw [← h, Option.isSome_or, Option.isSome_some, Bool.or_true]

mutual

/-- Nothing was left out of a tree exactly if there is nothing to be filled in. -/
theorem filled_eq_self_iff : ∀ w : Node, w.filled = w ↔ ∀ n ∈ w.preorder, n.IsExplicit
  | ⟨t, p, cs⟩ => by
    rw [filled, preorder, List.forall_mem_cons, isExplicit_iff, ← filledAll_eq_self_iff cs,
      Node.mk.injEq]
    simp only [true_and]

theorem filledAll_eq_self_iff : ∀ cs : List Node,
    filledAll cs = cs ↔ ∀ n ∈ preorderAll cs, n.IsExplicit
  | [] => by simp [filledAll, preorderAll]
  | c :: cs => by
    rw [filledAll, preorderAll, List.forall_mem_append, ← filled_eq_self_iff c,
      ← filledAll_eq_self_iff cs, List.cons.injEq]

end

theorem ofValue_of_toValue (h : w.toValue = .ok v) : ofValue v = w.filled := by
  obtain ⟨haccepted, hrefused⟩ := judged_toValue w
  cases hfirst : w.preorder.find? (fun n => ¬n.WellFormed) with
  | none =>
    obtain ⟨v', hv', hfilled⟩ := haccepted (by simpa using hfirst)
    rw [h] at hv'
    cases hv'
    exact hfilled
  | some n =>
    have hfault := hrefused n hfirst
    rw [h] at hfault
    cases hfault

theorem filled_ofValue (v : Value) : (ofValue v).filled = ofValue v :=
  (ofValue_of_toValue (toValue_ofValue v)).symm

/-- **The conversions undo each other**, up to payloads that were not given. What comes back of a
tree that is read is the tree with these filled in. The trees that come of values are those that can
be read and have all their payloads; each comes of the value that it is read as, and of no other. -/
theorem ofValue_toValue_inverse :
    (∀ w v, toValue w = .ok v → ofValue v = w.filled) ∧
    (∀ w, (∃ v, ofValue v = w) ↔
      (∃ v, w.toValue = .ok v) ∧ ∀ n ∈ w.preorder, n.IsExplicit) ∧
    (∀ v, (ofValue v).toValue = .ok v) ∧
    ∀ w v, (∀ n ∈ w.preorder, n.IsExplicit) → (w.toValue = .ok v ↔ ofValue v = w) := by
  have hback (w : Node) (v : Value) (hw : ∀ n ∈ w.preorder, n.IsExplicit)
      (h : w.toValue = .ok v) : ofValue v = w := by
    rw [ofValue_of_toValue h]
    exact (filled_eq_self_iff w).mpr hw
  refine ⟨fun w v => ofValue_of_toValue, ?_, toValue_ofValue, ?_⟩
  · intro w
    constructor
    · rintro ⟨v, rfl⟩
      exact ⟨⟨v, toValue_ofValue v⟩, (filled_eq_self_iff _).mp (filled_ofValue v)⟩
    · rintro ⟨⟨v, hv⟩, hw⟩
      exact ⟨v, hback w v hw hv⟩
  · intro w v hw
    constructor
    · exact hback w v hw
    · rintro rfl
      exact toValue_ofValue v

/-- Payloads are missing at the root of one child and below another, and one of them is given. -/
theorem ofValue_toValue_inverse_mixed :
    let w : Node := ⟨25, none,
      [⟨0, none, []⟩, ⟨25, none, [⟨3, none, []⟩, ⟨2, some (.bool true), []⟩]⟩]⟩
    let v : Value := .list [.uint64 0, .list [.bytes [], .bool true]]
    toValue w = .ok v ∧ ofValue v = ⟨25, none, [⟨0, some (.uint64 0), []⟩,
      ⟨25, none, [⟨3, some (.bytes []), []⟩, ⟨2, some (.bool true), []⟩]⟩]⟩ ∧
    (∃ v', ofValue v' = w.filled) ∧ ¬∃ v', ofValue v' = w := by
  intro w v
  obtain ⟨hfilled, himage, -, -⟩ := ofValue_toValue_inverse
  have hv : toValue w = .ok v := rfl
  refine ⟨hv, hfilled w v hv, ⟨v, hfilled w v hv⟩, ?_⟩
  rw [himage]
  rintro ⟨-, hw⟩
  have hzero : IsExplicit ⟨0, none, []⟩ := hw _ (List.mem_cons_of_mem _ List.mem_cons_self)
  exact absurd (hzero .uint64 rfl rfl) Bool.false_ne_true

end Wire.Node

end NamedQuery
