import NamedQuery.Format.Error

/-!
# Values

`Value` is the one type of data that is exchanged with a query service: every parameter and every
result is a number, a byte string, a truth value, nothing, or an ordered list of values. The readers
`asBytes`, `asUInt64`, `asBool`, `asList` and `child` give the content of a value of the expected
kind and otherwise name both kinds.
-/

namespace NamedQuery

/-- The kinds of value. -/
inductive Kind where
  | uint64
  | bytes
  | list
  | bool
  | nil
  deriving DecidableEq, Repr

/-- The name of a kind in messages. -/
def Kind.name : Kind → String
  | .uint64 => "UINT64"
  | .bytes => "BYTES"
  | .list => "LIST"
  | .bool => "BOOL"
  | .nil => "NIL"

/-- A parameter or a result of a query. -/
inductive Value where
  | uint64 (n : UInt64)
  | bytes (raw : List UInt8)
  | list (children : List Value)
  | bool (b : Bool)
  | nil
  deriving Repr, Inhabited

/-- What can be wrong with a value, or with a message that is read as one. -/
inductive ValueError where
  /-- A value of one kind stands where another is expected. -/
  | unexpectedKind (expected found : Kind)
  /-- A message carries a discriminant that is no kind of data. -/
  | unsupportedKind (discriminant : Int)
  /-- A message carries a payload that does not belong to its kind. -/
  | mismatchedPayload (kind : Kind)
  | missingChild (index length : Nat)
  /-- A byte string does not have the form that is read from it. -/
  | format (e : FormatError)
  deriving DecidableEq, Repr

/-- The wording of a value error. -/
def ValueError.message : ValueError → String
  | .unexpectedKind expected found => s!"Expected a {expected.name} value, found {found.name}"
  | .unsupportedKind t => s!"Value kind {t} is not a data kind"
  | .mismatchedPayload kind =>
    s!"A {kind.name} value carries a payload that does not match its kind"
  | .missingChild index length => s!"No child at index {index}, the list has {length} children"
  | .format e => e.message

namespace Value

/-- The kind of a value. -/
def kind : Value → Kind
  | uint64 _ => .uint64
  | bytes _ => .bytes
  | list _ => .list
  | bool _ => .bool
  | nil => .nil

/-- The bytes of a byte string. -/
def asBytes : Value → Except ValueError (List UInt8)
  | bytes raw => .ok raw
  | v => .error (.unexpectedKind .bytes v.kind)

/-- The number of a numeric value. -/
def asUInt64 : Value → Except ValueError UInt64
  | uint64 n => .ok n
  | v => .error (.unexpectedKind .uint64 v.kind)

/-- The truth value of a value of that kind. -/
def asBool : Value → Except ValueError Bool
  | bool b => .ok b
  | v => .error (.unexpectedKind .bool v.kind)

/-- The children of a list. -/
def asList : Value → Except ValueError (List Value)
  | list children => .ok children
  | v => .error (.unexpectedKind .list v.kind)

/-- The child of a list at a position, counted from zero. -/
def child (v : Value) (index : Nat) : Except ValueError Value := do
  let children ← v.asList
  match children[index]? with
  | some c => .ok c
  | none => .error (.missingChild index children.length)

/-! ## Equality -/

mutual

/-- Whether two values are the same in kind, content and order. -/
def same : Value → Value → Bool
  | uint64 m, uint64 n => m == n
  | bytes r, bytes s => r == s
  | list cs, list ds => sameAll cs ds
  | bool a, bool b => a == b
  | nil, nil => true
  | _, _ => false

/-- Whether two lists hold the same values in the same order. -/
def sameAll : List Value → List Value → Bool
  | [], [] => true
  | c :: cs, d :: ds => same c d && sameAll cs ds
  | _, _ => false

end

mutual

theorem same_self : ∀ v : Value, same v v = true
  | uint64 _ | bytes _ | bool _ | nil => by simp [same]
  | list cs => by simp [same, sameAll_self cs]

theorem sameAll_self : ∀ cs : List Value, sameAll cs cs = true
  | [] => by simp [sameAll]
  | c :: cs => by simp [sameAll, same_self c, sameAll_self cs]

end

mutual

theorem eq_of_same : ∀ {v w : Value}, same v w = true → v = w
  | uint64 _, w, h => by cases w <;> simp_all [same]
  | bytes _, w, h => by cases w <;> simp_all [same]
  | bool _, w, h => by cases w <;> simp_all [same]
  | nil, w, h => by cases w <;> simp_all [same]
  | list cs, w, h => by
    cases w with
    | list ds => rw [eq_of_sameAll (by simpa [same] using h : sameAll cs ds = true)]
    | _ => simp [same] at h

theorem eq_of_sameAll : ∀ {cs ds : List Value}, sameAll cs ds = true → cs = ds
  | [], [], _ => rfl
  | [], _ :: _, h => by simp [sameAll] at h
  | _ :: _, [], h => by simp [sameAll] at h
  | c :: cs, d :: ds, h => by
    simp only [sameAll, Bool.and_eq_true] at h
    rw [eq_of_same h.1, eq_of_sameAll h.2]

end

instance : DecidableEq Value := fun v w =>
  if h : same v w = true then .isTrue (eq_of_same h)
  else .isFalse fun e => h (e ▸ same_self v)

end Value

end NamedQuery
