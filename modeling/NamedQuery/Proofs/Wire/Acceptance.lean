import Mathlib.Tactic.SplitIfs
import NamedQuery.Proofs.Wire.Conversion

/-!
# Which nodes stand for values

A node stands for a value if each node of its tree is well formed, and the value then says all that
the tree says. A tree with ill-formed nodes is refused, and the first of these is told of, a node
being in front of those below it.

* `Node.WellFormed`: what is asked of a node by itself, whatever is below it.
* `Node.filled`: the tree with the payloads that need not be given.
* `toValue_or_first_fault`: success, the value and the error of a whole tree.
-/

namespace NamedQuery

theorem Kind.ofDiscriminant?_eq_some {t : Int32} {kind : Kind} :
    ofDiscriminant? t = some kind ↔ t = kind.discriminant := by
  constructor
  · intro h
    unfold ofDiscriminant? at h
    split_ifs at h with h0 h1 h2 h3 h25 <;> cases h
    · exact h0
    · exact h1
    · exact h2
    · exact h3
    · exact h25
  · rintro rfl
    exact ofDiscriminant?_discriminant kind

/-- The payload that a value of a kind has when none is given. -/
def Kind.zero? : Kind → Option Wire.Payload
  | .uint64 => some (.uint64 0)
  | .bytes => some (.bytes [])
  | .bool => some (.bool false)
  | .list | .nil => none

namespace Wire

/-- The kind of the values that have a payload. -/
def Payload.kind : Payload → Kind
  | bool _ => .bool
  | uint64 _ => .uint64
  | bytes _ => .bytes

namespace Node

/-! ## Nodes by themselves -/

/-- Whether a node by itself has the form of a value of a kind. -/
structure HasForm (w : Node) (kind : Kind) : Prop where
  discriminant : w.discriminant = kind.discriminant
  children : w.children = [] ∨ kind = .list
  payload : ∀ p ∈ w.payload, p.kind = kind

instance (w : Node) (kind : Kind) : Decidable (w.HasForm kind) :=
  decidable_of_iff (w.discriminant = kind.discriminant ∧ (w.children = [] ∨ kind = .list) ∧
    ∀ p ∈ w.payload, p.kind = kind)
    ⟨fun h => ⟨h.1, h.2.1, h.2.2⟩, fun h => ⟨h.discriminant, h.children, h.payload⟩⟩

/-- Whether a node by itself has the form of a value of any kind. -/
def WellFormed (w : Node) : Prop := ∃ kind, w.HasForm kind

theorem wellFormed_iff {w : Node} :
    w.WellFormed ↔ ∃ kind ∈ Kind.ofDiscriminant? w.discriminant, w.HasForm kind := by
  constructor
  · rintro ⟨kind, h⟩
    exact ⟨kind, Kind.ofDiscriminant?_eq_some.mpr h.discriminant, h⟩
  · rintro ⟨kind, -, h⟩
    exact ⟨kind, h⟩

instance (w : Node) : Decidable w.WellFormed := decidable_of_iff _ wellFormed_iff.symm

/-- What is wrong with a node that is not well formed. -/
def fault (w : Node) : ValueError :=
  match Kind.ofDiscriminant? w.discriminant with
  | none => .unsupportedKind w.discriminant.toInt
  | some kind => .mismatchedPayload kind

variable {t : Int32} {p : Option Payload} {cs : List Node} {kind : Kind}

theorem toValue_of_unknown (h : Kind.ofDiscriminant? t = none) :
    toValue ⟨t, p, cs⟩ = .error (.unsupportedKind t.toInt) := by
  show (match Kind.ofDiscriminant? t with
    | none => _
    | some kind => _) = _
  rw [h]

theorem toValue_of_children {c : Node} (h : kind ≠ .list) :
    toValue ⟨kind.discriminant, p, c :: cs⟩ = .error (.mismatchedPayload kind) := by
  cases kind with
  | list => exact absurd rfl h
  | _ => rfl

theorem toValue_of_payload {q : Payload} (hc : cs = [] ∨ kind = .list) (hq : q.kind ≠ kind) :
    toValue ⟨kind.discriminant, some q, cs⟩ = .error (.mismatchedPayload kind) := by
  by_cases hlist : kind = .list
  · subst hlist
    cases q <;> rfl
  · obtain rfl := hc.resolve_right hlist
    -- a payload of another kind, or the one that `hq` excludes
    cases kind <;> cases q <;> first | rfl | contradiction

theorem toValue_of_illFormed (h : ¬WellFormed ⟨t, p, cs⟩) :
    toValue ⟨t, p, cs⟩ = .error (fault ⟨t, p, cs⟩) := by
  unfold fault
  cases hk : Kind.ofDiscriminant? t with
  | none => exact toValue_of_unknown hk
  | some kind =>
    obtain rfl := Kind.ofDiscriminant?_eq_some.mp hk
    by_cases hc : cs = [] ∨ kind = .list
    · -- the children are as they should be, so there must be a payload that is not
      cases p with
      | none => exact absurd ⟨kind, rfl, hc, nofun⟩ h
      | some q =>
        refine toValue_of_payload hc fun hq => h ⟨kind, rfl, hc, ?_⟩
        rintro _ ⟨⟩
        exact hq
    · obtain ⟨hne, hlist⟩ := not_or.mp hc
      obtain ⟨c, cs, rfl⟩ := List.exists_cons_of_ne_nil hne
      exact toValue_of_children hlist

theorem toValue_of_scalar (h : HasForm ⟨t, p, cs⟩ kind) (hk : kind ≠ .list) :
    ∃ v, toValue ⟨t, p, cs⟩ = .ok v ∧ ofValue v = ⟨t, p.or kind.zero?, []⟩ := by
  obtain ⟨ht, hc, hp⟩ := h
  dsimp only at ht hc hp
  obtain rfl := hc.resolve_right hk
  subst ht
  cases kind with
  | uint64 =>
    rcases p with _ | _ | n | _
    · exact ⟨.uint64 0, rfl, rfl⟩
    · cases hp _ rfl
    · exact ⟨.uint64 n, rfl, rfl⟩
    · cases hp _ rfl
  | bytes =>
    rcases p with _ | _ | _ | raw
    · exact ⟨.bytes [], rfl, rfl⟩
    · cases hp _ rfl
    · cases hp _ rfl
    · exact ⟨.bytes raw, rfl, rfl⟩
  | bool =>
    rcases p with _ | b | _ | _
    · exact ⟨.bool false, rfl, rfl⟩
    · exact ⟨.bool b, rfl, rfl⟩
    · cases hp _ rfl
    · cases hp _ rfl
  | nil =>
    rcases p with _ | q
    · exact ⟨.nil, rfl, rfl⟩
    · cases q <;> cases hp _ rfl
  | list => exact absurd rfl hk

theorem toValue_of_list (h : HasForm ⟨t, p, cs⟩ .list) :
    p = none ∧ toValue ⟨t, p, cs⟩ = (toValues cs).map .list := by
  obtain ⟨ht, -, hp⟩ := h
  dsimp only at ht hp
  subst ht
  rcases p with _ | q
  · exact ⟨rfl, toValue_list cs⟩
  · cases q <;> cases hp _ rfl

/-! ## Trees -/

mutual

/-- The nodes of a tree, each in front of those below it. -/
def preorder : Node → List Node
  | ⟨t, p, cs⟩ => ⟨t, p, cs⟩ :: preorderAll cs

/-- The nodes of trees, one tree behind the other. -/
def preorderAll : List Node → List Node
  | [] => []
  | c :: cs => preorder c ++ preorderAll cs

end

mutual

/-- The tree with a payload wherever its kind has one. -/
def filled : Node → Node
  | ⟨t, p, cs⟩ => ⟨t, p.or ((Kind.ofDiscriminant? t).bind Kind.zero?), filledAll cs⟩

/-- The trees with a payload wherever its kind has one. -/
def filledAll : List Node → List Node
  | [] => []
  | c :: cs => filled c :: filledAll cs

end

/-- What reading trees with these nodes comes to: a `good` result, unless there are ill-formed nodes
and what is wrong with the first of them is told. -/
structure Judged {α : Type} (nodes : List Node) (good : α → Prop) (r : Except ValueError α) :
    Prop where
  accepted : (∀ n ∈ nodes, n.WellFormed) → ∃ a, r = .ok a ∧ good a
  refused : ∀ n, nodes.find? (fun n => ¬n.WellFormed) = some n → r = .error n.fault

theorem judged_node
    (hcs : Judged (preorderAll cs) (fun vs => ofValues vs = filledAll cs) (toValues cs)) :
    Judged (preorder ⟨t, p, cs⟩) (fun v => ofValue v = filled ⟨t, p, cs⟩) (toValue ⟨t, p, cs⟩) := by
  constructor
  · intro h
    rw [preorder, List.forall_mem_cons] at h
    obtain ⟨⟨kind, hform⟩, hbelow⟩ := h
    have hkind := Kind.ofDiscriminant?_eq_some.mpr hform.discriminant
    by_cases hlist : kind = .list
    · subst hlist
      obtain ⟨rfl, hvalue⟩ := toValue_of_list hform
      obtain ⟨vs, hvs, hfilled⟩ := hcs.accepted hbelow
      refine ⟨.list vs, by rw [hvalue, hvs]; rfl, ?_⟩
      have ht : t = Kind.list.discriminant := hform.discriminant
      rw [ofValue, filled, hkind, hfilled, ht]
      rfl
    · obtain ⟨v, hv, hofValue⟩ := toValue_of_scalar hform hlist
      refine ⟨v, hv, ?_⟩
      have hnone : cs = [] := hform.children.resolve_right hlist
      rw [hofValue, filled, hkind, hnone]
      rfl
  · intro n hn
    rw [preorder, List.find?_cons] at hn
    by_cases hw : WellFormed ⟨t, p, cs⟩
    · rw [decide_eq_false (not_not_intro hw)] at hn
      obtain ⟨kind, hform⟩ := hw
      by_cases hlist : kind = .list
      · subst hlist
        obtain ⟨-, hvalue⟩ := toValue_of_list hform
        rw [hvalue, hcs.refused n hn]
        rfl
      · -- only a list has nodes below it
        have hnone : cs = [] := hform.children.resolve_right hlist
        rw [hnone] at hn
        cases hn
    · rw [decide_eq_true hw] at hn
      cases hn
      exact toValue_of_illFormed hw

theorem judged_cons {c : Node}
    (hc : Judged (preorder c) (fun v => ofValue v = filled c) (toValue c))
    (hcs : Judged (preorderAll cs) (fun vs => ofValues vs = filledAll cs) (toValues cs)) :
    Judged (preorderAll (c :: cs)) (fun vs => ofValues vs = filledAll (c :: cs))
      (toValues (c :: cs)) := by
  constructor
  · intro h
    rw [preorderAll, List.forall_mem_append] at h
    obtain ⟨v, hv, hfirst⟩ := hc.accepted h.1
    obtain ⟨vs, hvs, hrest⟩ := hcs.accepted h.2
    refine ⟨v :: vs, ?_, ?_⟩
    · rw [toValues, hv, hvs]
    · rw [ofValues, filledAll, hfirst, hrest]
  · intro n hn
    rw [preorderAll, List.find?_append] at hn
    rw [toValues]
    cases hfirst : (preorder c).find? (fun n => ¬n.WellFormed) with
    | some first =>
      rw [hfirst] at hn
      cases hn
      rw [hc.refused n hfirst]
    | none =>
      -- the first tree is read, and so the fault is in the others
      rw [hfirst] at hn
      have hall : ∀ n ∈ preorder c, n.WellFormed := by simpa using hfirst
      obtain ⟨v, hv, -⟩ := hc.accepted hall
      rw [hv, hcs.refused n hn]

mutual

/-- What reading a tree comes to. -/
theorem judged_toValue : ∀ w : Node,
    Judged (preorder w) (fun v => ofValue v = filled w) (toValue w)
  | ⟨_, _, cs⟩ => judged_node (judged_toValues cs)

theorem judged_toValues : ∀ cs : List Node,
    Judged (preorderAll cs) (fun vs => ofValues vs = filledAll cs) (toValues cs)
  | [] => ⟨fun _ => ⟨[], rfl, rfl⟩, nofun⟩
  | c :: cs => judged_cons (judged_toValue c) (judged_toValues cs)

end

/-- **A tree is read or its first fault is told.** A tree stands for a value exactly if all its
nodes are well formed. The value says what the tree says, with the payloads that were not given.
Otherwise the error is that of the first ill-formed node, a node being in front of those below
it. -/
theorem toValue_or_first_fault (w : Node) :
    ((∃ v, w.toValue = .ok v) ↔ ∀ n ∈ w.preorder, n.WellFormed) ∧
    (∀ v, w.toValue = .ok v → ofValue v = w.filled) ∧
    ∀ e, w.toValue = .error e ↔
      ∃ n, w.preorder.find? (fun n => ¬n.WellFormed) = some n ∧ e = n.fault := by
  obtain ⟨haccepted, hrefused⟩ := judged_toValue w
  cases hfirst : w.preorder.find? (fun n => ¬n.WellFormed) with
  | none =>
    have hall : ∀ n ∈ w.preorder, n.WellFormed := by simpa using hfirst
    obtain ⟨v, hv, hfilled⟩ := haccepted hall
    rw [hv]
    refine ⟨iff_of_true ⟨v, rfl⟩ hall, ?_, ?_⟩
    · rintro _ ⟨⟩
      exact hfilled
    · simp
  | some n =>
    have hn : ∃ n ∈ w.preorder, ¬n.WellFormed :=
      ⟨n, List.mem_of_find?_eq_some hfirst, by simpa using List.find?_some hfirst⟩
    rw [hrefused n hfirst]
    refine ⟨iff_of_false nofun (by simpa using hn), nofun, ?_⟩
    intro e
    constructor
    · rintro ⟨⟩
      exact ⟨n, rfl, rfl⟩
    · rintro ⟨_, ⟨⟩, rfl⟩
      rfl

/-- What is wrong below the first child comes before what is wrong with the second. -/
example : toValue ⟨25, none, [⟨25, none, [⟨3, some (.bool true), []⟩]⟩, ⟨4, none, []⟩]⟩ =
    .error (.mismatchedPayload .bytes) := rfl

end Node

end Wire

end NamedQuery
