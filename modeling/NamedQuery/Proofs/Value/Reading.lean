import NamedQuery.Value.Deposit

/-!
# What is read of a value

A reader gives the content of a value of the kind that it expects, and names both kinds for any
other. A deposit is read in a fixed order, and the first thing that is wrong is told.

* `asBytes_eq_ok`, `asUInt64_eq_ok`: the values that are read.
* `Deposit.Reading`: what is read of a value as a deposit, or what is the first thing wrong with it.
* `Deposit.ofValue_eq_iff`: this is what is read.
-/

namespace NamedQuery

theorem mapError_eq_ok {ε ε' α : Type} {x : Except ε α} {f : ε → ε'} {a : α} :
    x.mapError f = .ok a ↔ x = .ok a := by
  constructor
  · intro h
    cases x with
    | error e => cases h
    | ok b =>
      cases h
      rfl
  · rintro rfl
    rfl

namespace Value

variable {v : Value} {n : UInt64}

theorem asBytes_of_kind (h : v.kind ≠ .bytes) :
    v.asBytes = .error (.unexpectedKind .bytes v.kind) := by
  cases v with
  | bytes raw => exact absurd rfl h
  | _ => rfl

theorem asUInt64_eq_ok : v.asUInt64 = .ok n ↔ v = .uint64 n := by
  cases v <;> simp [asUInt64]

theorem asUInt64_of_kind (h : v.kind ≠ .uint64) :
    v.asUInt64 = .error (.unexpectedKind .uint64 v.kind) := by
  cases v with
  | uint64 n => exact absurd rfl h
  | _ => rfl

theorem eq_list_of_kind (h : v.kind = .list) : ∃ children, v = .list children := by
  cases v with
  | list children => exact ⟨children, rfl⟩
  | _ => cases h

theorem eq_bytes_of_kind (h : v.kind = .bytes) : ∃ raw, v = .bytes raw := by
  cases v with
  | bytes raw => exact ⟨raw, rfl⟩
  | _ => cases h

theorem eq_uint64_of_kind (h : v.kind = .uint64) : ∃ n, v = .uint64 n := by
  cases v with
  | uint64 n => exact ⟨n, rfl⟩
  | _ => cases h

end Value

/-! ## Deposits -/

namespace Deposit

/-- What a value says as a deposit: its hash and its position if it is a list that begins with
these, or the first thing that is wrong with it, from left to right. -/
inductive Reading : Value → Except ValueError Deposit → Prop
  | noList {v : Value} (h : v.kind ≠ .list) : Reading v (.error (.unexpectedKind .list v.kind))
  | noHash : Reading (.list []) (.error (.missingChild 0 0))
  | badHash {hash : Value} {rest : List Value} (h : hash.kind ≠ .bytes) :
    Reading (.list (hash :: rest)) (.error (.unexpectedKind .bytes hash.kind))
  | noPosition {raw : List UInt8} : Reading (.list [.bytes raw]) (.error (.missingChild 1 1))
  | badPosition {raw : List UInt8} {position : Value} {rest : List Value}
    (h : position.kind ≠ .uint64) :
    Reading (.list (.bytes raw :: position :: rest))
      (.error (.unexpectedKind .uint64 position.kind))
  | deposit {raw : List UInt8} {n : UInt64} {rest : List Value} :
    Reading (.list (.bytes raw :: .uint64 n :: rest)) (.ok ⟨raw, n⟩)

variable {v hash position : Value} {rest : List Value} {raw : List UInt8}
  {r : Except ValueError Deposit}

theorem ofValue_of_noList (h : v.kind ≠ .list) :
    ofValue v = .error (.unexpectedKind .list v.kind) := by
  cases v with
  | list children => exact absurd rfl h
  | _ => rfl

theorem ofValue_of_badHash (h : hash.kind ≠ .bytes) :
    ofValue (.list (hash :: rest)) = .error (.unexpectedKind .bytes hash.kind) := by
  show hash.asBytes.bind _ = _
  rw [Value.asBytes_of_kind h]
  rfl

theorem ofValue_of_badPosition (h : position.kind ≠ .uint64) :
    ofValue (.list (.bytes raw :: position :: rest)) =
      .error (.unexpectedKind .uint64 position.kind) := by
  show position.asUInt64.bind _ = _
  rw [Value.asUInt64_of_kind h]
  rfl

theorem ofValue_of_reading (h : Reading v r) : ofValue v = r := by
  cases h with
  | noList h => exact ofValue_of_noList h
  | noHash => rfl
  | badHash h => exact ofValue_of_badHash h
  | noPosition => rfl
  | badPosition h => exact ofValue_of_badPosition h
  | deposit => rfl

/-- Every value says something as a deposit. -/
theorem exists_reading (v : Value) : ∃ r, Reading v r := by
  by_cases hlist : v.kind = .list
  · obtain ⟨children, rfl⟩ := Value.eq_list_of_kind hlist
    rcases children with _ | ⟨hash, rest⟩
    · exact ⟨_, .noHash⟩
    by_cases hhash : hash.kind = .bytes
    · obtain ⟨raw, rfl⟩ := Value.eq_bytes_of_kind hhash
      rcases rest with _ | ⟨position, rest⟩
      · exact ⟨_, .noPosition⟩
      by_cases hposition : position.kind = .uint64
      · obtain ⟨n, rfl⟩ := Value.eq_uint64_of_kind hposition
        exact ⟨_, .deposit⟩
      · exact ⟨_, .badPosition hposition⟩
    · exact ⟨_, .badHash hhash⟩
  · exact ⟨_, .noList hlist⟩

theorem ofValue_eq_iff : ofValue v = r ↔ Reading v r := by
  constructor
  · rintro rfl
    obtain ⟨r, hr⟩ := exists_reading v
    rwa [ofValue_of_reading hr]
  · exact ofValue_of_reading

end Deposit

end NamedQuery
