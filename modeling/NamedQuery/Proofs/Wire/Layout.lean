import Mathlib.Data.Nat.Digits.Lemmas
import NamedQuery.Proofs.Wire.Varint
import NamedQuery.Wire.Conversion

/-!
# The layout of values

The bytes of a value, said without fields and discriminants. Every kind of value begins with bytes
of its own; what is of no fixed length stands behind that length, which is a number in base 128.

* `Value.layout`: the bytes of a value, by recursion on the value.
* `encode_eq_layout`: the message of a value is its layout, and numbers take no more bytes than they
  need.
-/

namespace NamedQuery

/-! ## Base 128 -/

namespace Base128

/-- Digits as bytes. Each but the last is marked by its high bit, and zero has a digit as well. -/
def mark : List Nat → List UInt8
  | [] => [0]
  | [d] => [UInt8.ofNat d]
  | d :: d' :: ds => UInt8.ofNat (d + 128) :: mark (d' :: ds)

/-- The digits of a number in base 128 as bytes, the lowest digit first. -/
def bytes (n : Nat) : List UInt8 := mark (Nat.digits 128 n)

/-- The number that bytes stand for, their marks aside. -/
def value (bs : List UInt8) : Nat := Nat.ofDigits 128 (bs.map fun b => b.toNat % 128)

variable {n : Nat}

theorem bytes_of_lt (h : n < 128) : bytes n = [UInt8.ofNat n] := by
  cases n with
  | zero =>
    rw [bytes, Nat.digits_zero]
    rfl
  | succ n =>
    rw [bytes, Nat.digits_of_lt 128 (n + 1) (Nat.succ_ne_zero n) h]
    rfl

theorem bytes_of_le (h : 128 ≤ n) : bytes n = UInt8.ofNat (n % 128 + 128) :: bytes (n / 128) := by
  have hrest : Nat.digits 128 (n / 128) ≠ [] := by
    rw [Nat.digits_ne_nil_iff_ne_zero]
    omega
  rw [bytes, bytes, Nat.digits_def' (by decide) (by omega)]
  cases hd : Nat.digits 128 (n / 128) with
  | nil => exact absurd hd hrest
  | cons d ds => rfl

theorem encode_eq_bytes (n : Nat) : Wire.Varint.encode n = bytes n := by
  induction n using Nat.strongRecOn with
  | ind n ih =>
    rcases Nat.lt_or_ge n 128 with hn | hn
    · rw [Wire.Varint.encode_of_lt hn, bytes_of_lt hn]
    · rw [Wire.Varint.encode_of_le hn, bytes_of_le hn, ih (n / 128) (by omega)]

/-! ### As few bytes as possible -/

theorem value_cons (b : UInt8) (bs : List UInt8) :
    value (b :: bs) = b.toNat % 128 + 128 * value bs :=
  Nat.ofDigits_cons

theorem value_bytes (n : Nat) : value (bytes n) = n := by
  induction n using Nat.strongRecOn with
  | ind n ih =>
    rcases Nat.lt_or_ge n 128 with hn | hn
    · rw [bytes_of_lt hn, value_cons, Wire.Varint.toNat_group (by omega), Nat.mod_eq_of_lt hn]
      rfl
    · rw [bytes_of_le hn, value_cons, ih (n / 128) (by omega),
        Wire.Varint.toNat_group (by omega)]
      omega

theorem value_lt (bs : List UInt8) : value bs < 128 ^ bs.length := by
  have hdigits : ∀ d ∈ bs.map fun b => b.toNat % 128, d < 128 := by
    intro d hd
    obtain ⟨b, -, rfl⟩ := List.mem_map.mp hd
    exact Nat.mod_lt _ (by decide)
  have hlt := Nat.ofDigits_lt_base_pow_length (by decide : 1 < 128) hdigits
  rwa [List.length_map] at hlt

theorem length_bytes_le {k : Nat} (h : n < 128 ^ (k + 1)) : (bytes n).length ≤ k + 1 := by
  induction k generalizing n with
  | zero =>
    rw [bytes_of_lt h]
    exact Nat.le_refl 1
  | succ k ih =>
    rcases Nat.lt_or_ge n 128 with hn | hn
    · rw [bytes_of_lt hn, List.length_singleton]
      omega
    · rw [bytes_of_le hn, List.length_cons]
      have hrest : n / 128 < 128 ^ (k + 1) := by
        rw [Nat.div_lt_iff_lt_mul (by decide), ← Nat.pow_succ]
        exact h
      exact Nat.succ_le_succ (ih hrest)

/-- Other bytes for the same number are not fewer. -/
theorem length_bytes_value_le (b : UInt8) (bs : List UInt8) :
    (bytes (value (b :: bs))).length ≤ (b :: bs).length :=
  length_bytes_le (value_lt (b :: bs))

end Base128

/-! ## Layouts -/

/-- Bytes behind their length. -/
def behindLength (bs : List UInt8) : List UInt8 := Base128.bytes bs.length ++ bs

mutual

/-- The bytes of a value. -/
def Value.layout : Value → List UInt8
  | .uint64 n => 0x18 :: Base128.bytes n.toNat
  | .bool b => [0x08, 0x02, 0x10, if b then 0x01 else 0x00]
  | .nil => [0x08, 0x01]
  | .bytes raw => [0x08, 0x03, 0x22] ++ behindLength raw
  | .list cs => [0x08, 0x19] ++ Value.layoutAll cs

/-- The bytes of values, one after the other, each marked and behind its length. -/
def Value.layoutAll : List Value → List UInt8
  | [] => []
  | v :: vs => 0x42 :: behindLength v.layout ++ Value.layoutAll vs

end

namespace Wire.Node

theorem delimited_eq_behindLength (bs : List UInt8) : delimited bs = behindLength bs := by
  rw [delimited, behindLength, Base128.encode_eq_bytes]

/-- The key and the content of a discriminant take one byte each. -/
theorem encodeDiscriminant_kind (k : Kind) :
    encodeDiscriminant k.discriminant =
      match k with
      | .uint64 => []
      | .nil => [0x08, 0x01]
      | .bool => [0x08, 0x02]
      | .bytes => [0x08, 0x03]
      | .list => [0x08, 0x19] := by
  cases k <;> decide +kernel

theorem encode_key_payload (p : Payload) :
    (payloadKey p).encode =
      match p with
      | .bool _ => [0x10]
      | .uint64 _ => [0x18]
      | .bytes _ => [0x22] := by
  cases p with
  | bool b => exact Varint.encode_of_lt (show 16 < 128 by decide)
  | uint64 n => exact Varint.encode_of_lt (show 24 < 128 by decide)
  | bytes raw => exact Varint.encode_of_lt (show 34 < 128 by decide)

theorem encode_childKey : childKey.encode = [0x42] := Varint.encode_of_lt (by decide)

mutual

theorem encode_ofValue : ∀ v : Value, (ofValue v).encode = v.layout
  | .uint64 n => by
    rw [ofValue, encode, encodeDiscriminant_kind, encodePayload, encode_key_payload, encodeContent,
      Base128.encode_eq_bytes, encodeChildren, List.append_nil]
    rfl
  | .bool b => by
    rw [ofValue, encode, encodeDiscriminant_kind, encodePayload, encode_key_payload]
    rfl
  | .nil => by
    rw [ofValue, encode, encodeDiscriminant_kind]
    rfl
  | .bytes raw => by
    rw [ofValue, encode, encodeDiscriminant_kind, encodePayload, encode_key_payload, encodeContent,
      delimited_eq_behindLength, encodeChildren, List.append_nil]
    rfl
  | .list cs => by
    rw [ofValue, encode, encodeDiscriminant_kind, encodePayload, List.append_nil,
      encodeChildren_ofValues cs, Value.layout]

theorem encodeChildren_ofValues : ∀ vs : List Value,
    encodeChildren (ofValues vs) = Value.layoutAll vs
  | [] => rfl
  | v :: vs => by
    rw [ofValues, encodeChildren, encode_childKey, encode_ofValue v, delimited_eq_behindLength,
      encodeChildren_ofValues vs]
    rfl

end

end Wire.Node

/-- **The bytes of a value are its layout**, and nothing else is written. The numbers in it, those
that are values and those that are lengths, are in base 128 and take as few bytes as possible. -/
theorem Value.encode_eq_layout :
    (∀ v : Value, v.encode = v.layout) ∧
    (∀ n, Base128.value (Base128.bytes n) = n) ∧
    ∀ b bs, (Base128.bytes (Base128.value (b :: bs))).length ≤ (b :: bs).length :=
  ⟨Wire.Node.encode_ofValue, Base128.value_bytes, Base128.length_bytes_value_le⟩

/-- A byte string that needs two bytes for its length, in a list that does so because of it. -/
example : (Value.list [.bytes (List.replicate 128 0xAB), .uint64 0]).layout =
    [0x08, 0x19, 0x42, 0x85, 0x01, 0x08, 0x03, 0x22, 0x80, 0x01] ++ List.replicate 128 0xAB ++
      [0x42, 0x02, 0x18, 0x00] := by
  decide +kernel

end NamedQuery
