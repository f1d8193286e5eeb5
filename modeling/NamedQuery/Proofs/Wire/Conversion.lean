import NamedQuery.Proofs.Wire.Node
import NamedQuery.Wire.Conversion

/-!
# Values that are read back

A value keeps its kind, its content and the order of its children on the way through the bytes of
its message. The only limit is the nesting: each list inside a list takes a level of the reader, and
the reader has a hundred of them below the outermost message. Main statement:

* `decode_encode_or_too_deep`: up to the limit a value is read back as it was, and beyond it nothing
  is read at all.
-/

namespace NamedQuery

namespace Value

mutual

/-- How many levels of values there are below a value. -/
def depth : Value → Nat
  | list cs => depthAll cs
  | _ => 0

/-- How many levels the values of a list take, each with the levels below it. -/
def depthAll : List Value → Nat
  | [] => 0
  | v :: vs => max (1 + depth v) (depthAll vs)

end

end Value

namespace Wire.Node

mutual

theorem depth_ofValue : ∀ v : Value, (ofValue v).depth = v.depth
  | .uint64 _ | .bytes _ | .bool _ | .nil => rfl
  | .list cs => depthAll_ofValues cs

theorem depthAll_ofValues : ∀ vs : List Value, depthAll (ofValues vs) = Value.depthAll vs
  | [] => rfl
  | v :: vs => by
    rw [ofValues, depthAll, Value.depthAll, depth_ofValue v, depthAll_ofValues vs]

end

mutual

/-- The node of a value stands for that value. -/
theorem toValue_ofValue : ∀ v : Value, (ofValue v).toValue = .ok v
  | .uint64 _ | .bytes _ | .bool _ | .nil => rfl
  | .list cs => by
    -- a list has the discriminant of lists and no payload, so all is up to its children
    rw [ofValue, toValue_list, toValues_ofValues cs]
    rfl

theorem toValues_ofValues : ∀ vs : List Value, toValues (ofValues vs) = .ok vs
  | [] => rfl
  | v :: vs => by
    rw [ofValues, toValues, toValue_ofValue v, toValues_ofValues vs]

end

end Wire.Node

namespace Value

open Wire.Node (ofValue toValue)

/-- **Values are read back up to a hundred levels, and not at all beyond.** The bytes themselves
must be few enough that 64 bits count them: no length prefix can say more. -/
theorem decode_encode_or_too_deep (v : Value) :
    (v.depth ≤ 100 → v.encode.length < UInt64.size →
      Wire.Node.decode v.encode = .ok (ofValue v) ∧ toValue (ofValue v) = .ok v) ∧
    (100 < v.depth → ∃ e, Wire.Node.decode v.encode = .error e) := by
  obtain ⟨hread, hfail⟩ := Wire.Node.decode_encode (ofValue v)
  rw [Wire.Node.depth_ofValue] at hread hfail
  constructor
  · intro hdepth hsize
    have hfits : (ofValue v).Fits := Wire.Node.fits_of_length hsize
    exact ⟨hread ⟨hfits, hdepth⟩, Wire.Node.toValue_ofValue v⟩
  · intro hdepth
    exact hfail fun h => Nat.not_lt.mpr h.2 hdepth

/-- A value of every kind inside of `n` lists. -/
def nested (n : Nat) : Value :=
  Nat.repeat (fun v => list [v]) n (list [bytes [0xAB], uint64 0, bool false, nil, list []])

set_option maxRecDepth 20000 in
/-- The last level that is read, and the first that is not. -/
theorem decode_encode_nested :
    ((nested 99).depth ≤ 100 ∧ (nested 99).encode.length < UInt64.size ∧
      Wire.Node.decode (nested 99).encode = .ok (ofValue (nested 99)) ∧
      toValue (ofValue (nested 99)) = .ok (nested 99)) ∧
    (100 < (nested 100).depth ∧ ∃ e, Wire.Node.decode (nested 100).encode = .error e) := by
  have hdepth : (nested 99).depth ≤ 100 := by decide_cbv
  have hsize : (nested 99).encode.length < UInt64.size := by decide_cbv
  have hdeep : 100 < (nested 100).depth := by decide_cbv
  exact ⟨⟨hdepth, hsize, (decode_encode_or_too_deep (nested 99)).1 hdepth hsize⟩, hdeep,
    (decode_encode_or_too_deep (nested 100)).2 hdeep⟩

end Value

end NamedQuery
