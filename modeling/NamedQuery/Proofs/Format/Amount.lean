import Mathlib.Algebra.Group.Nat.Defs
import NamedQuery.Format.Amount
import NamedQuery.Proofs.Value.Reading

/-!
# Amounts and their bytes

Packing an amount and reading sixteen bytes as one undo each other, so each string of sixteen bytes
is read as the one amount that is packed as it. A string of any other length is no amount.

* `littleEndian_ofLittleEndian`, `ofLittleEndian_littleEndian`: bytes and numbers, the lowest byte
  first.
* `pack_eq_littleEndian`, `ofWords_eq_or`: the two words of an amount are its sixteen bytes.
* `unpack_eq_ok_iff`, `ofValue_eq_ok`: the bytes and the values from which an amount is read.
* `packed_one_to_one`: all that is said here of amounts, bytes and values.
-/

namespace NamedQuery

/-! ## Lowest byte first -/

@[simp] theorem length_littleEndian (count n : Nat) : (littleEndian count n).length = count := by
  induction count generalizing n with
  | zero => rfl
  | succ count ih => rw [littleEndian, List.length_cons, ih]

theorem ofLittleEndian_littleEndian {count n : Nat} (h : n < byteBound count) :
    ofLittleEndian (littleEndian count n) = n := by
  induction count generalizing n with
  | zero =>
    rw [byteBound, Nat.lt_one_iff] at h
    rw [h, littleEndian, ofLittleEndian]
  | succ count ih =>
    have hrest : n / 256 < byteBound count := by
      rw [byteBound] at h
      exact Nat.div_lt_of_lt_mul h
    rw [littleEndian, ofLittleEndian, ih hrest, UInt8.toNat_ofNat']
    exact Nat.mod_add_div n 256

theorem littleEndian_ofLittleEndian (bs : List UInt8) :
    littleEndian bs.length (ofLittleEndian bs) = bs := by
  induction bs with
  | nil => rfl
  | cons b bs ih =>
    have hb := b.toNat_lt
    have hlow : UInt8.ofNat (b.toNat + 256 * ofLittleEndian bs) = b := by
      apply UInt8.toNat_inj.mp
      rw [UInt8.toNat_ofNat']
      omega
    have hrest : (b.toNat + 256 * ofLittleEndian bs) / 256 = ofLittleEndian bs := by omega
    rw [ofLittleEndian, List.length_cons, littleEndian, hlow, hrest, ih]

/-- A byte further on counts for a higher power of 256. -/
theorem getElem?_littleEndian {count i : Nat} (h : i < count) (n : Nat) :
    (littleEndian count n)[i]? = some (UInt8.ofNat (n / 256 ^ i)) := by
  induction count generalizing n i with
  | zero => exact absurd h (Nat.not_lt_zero i)
  | succ count ih =>
    rw [littleEndian]
    cases i with
    | zero => rw [List.getElem?_cons_zero, Nat.pow_zero, Nat.div_one]
    | succ i =>
      rw [List.getElem?_cons_succ, ih (Nat.lt_of_succ_lt_succ h), Nat.div_div_eq_div_mul,
        Nat.pow_succ']

/-- Higher bytes do not show in the lowest ones. -/
theorem littleEndian_mod (count n : Nat) :
    littleEndian count (n % 256 ^ count) = littleEndian count n := by
  induction count generalizing n with
  | zero => rfl
  | succ count ih =>
    have hlow : UInt8.ofNat (n % (256 * 256 ^ count)) = UInt8.ofNat n := by
      apply UInt8.toNat_inj.mp
      rw [UInt8.toNat_ofNat', UInt8.toNat_ofNat']
      exact Nat.mod_mod_of_dvd n (Nat.dvd_mul_right 256 (256 ^ count))
    rw [Nat.pow_succ', littleEndian, littleEndian, hlow, Nat.mod_mul_right_div_self, ih]

theorem littleEndian_add (count more n : Nat) :
    littleEndian (count + more) n =
      littleEndian count n ++ littleEndian more (n / 256 ^ count) := by
  induction count generalizing n with
  | zero => rw [Nat.zero_add, Nat.pow_zero, Nat.div_one, littleEndian, List.nil_append]
  | succ count ih =>
    rw [Nat.succ_add, littleEndian, littleEndian, ih, Nat.div_div_eq_div_mul, Nat.pow_succ',
      List.cons_append]

/-! ## Two words -/

namespace Amount

variable {a : Amount} {bytes low high : List UInt8}

theorem length_pack (a : Amount) : a.pack.length = packedLength := by
  rw [pack, List.length_append, length_littleEndian, length_littleEndian]
  rfl

theorem unpack_of_length (h : bytes.length ≠ packedLength) :
    unpack bytes = .error (.badAmountLength bytes.length) := by
  rw [unpack, dif_neg h]

/-- Side by side, the two words are the sixteen bytes of the amount. -/
theorem pack_eq_littleEndian (a : Amount) : a.pack = littleEndian packedLength a.units := by
  have hsize : UInt64.size = 256 ^ wordBytes := rfl
  rw [pack, hsize, littleEndian_mod]
  exact (littleEndian_add wordBytes wordBytes a.units).symm

/-- The high word does not touch the bits of the low word. -/
theorem ofWords_eq_or (hl : low.length = wordBytes) :
    ofWords low high = ofLittleEndian low ||| ofLittleEndian high <<< 64 := by
  have hlow := ofLittleEndian_lt low
  rw [hl, wordBytes, byteBound_eight] at hlow
  rw [Nat.shiftLeft_eq, Nat.or_comm, Nat.mul_comm, ← Nat.two_pow_add_eq_or_of_lt hlow]
  exact Nat.add_comm _ _

/-- The words of an amount are below the bound of a word. -/
theorem ofWords_pack (a : Amount) :
    ofWords (littleEndian wordBytes (a.units % UInt64.size))
      (littleEndian wordBytes (a.units / UInt64.size)) = a.units := by
  have hlow : a.units % UInt64.size < byteBound wordBytes := by
    rw [wordBytes, byteBound_eight]
    exact Nat.mod_lt _ (by decide)
  have hhigh : a.units / UInt64.size < byteBound wordBytes := by
    rw [wordBytes, byteBound_eight]
    exact Nat.div_lt_of_lt_mul a.units_lt
  rw [ofWords, ofLittleEndian_littleEndian hlow, ofLittleEndian_littleEndian hhigh]
  exact Nat.mod_add_div _ _

theorem unpack_pack (a : Amount) : unpack a.pack = .ok a := by
  have hlength := length_littleEndian wordBytes (a.units % UInt64.size)
  have hunits : ofWords (a.pack.take wordBytes) (a.pack.drop wordBytes) = a.units := by
    rw [pack, List.take_left' hlength, List.drop_left' hlength, ofWords_pack]
  rw [unpack, dif_pos (length_pack a)]
  simp only [hunits]

theorem littleEndian_ofWords (hl : low.length = wordBytes) (hh : high.length = wordBytes) :
    littleEndian wordBytes (ofWords low high % UInt64.size) = low ∧
      littleEndian wordBytes (ofWords low high / UInt64.size) = high := by
  have hlt := ofLittleEndian_lt low
  rw [hl, wordBytes, byteBound_eight] at hlt
  have hmod : ofWords low high % UInt64.size = ofLittleEndian low := by
    rw [ofWords, Nat.add_mul_mod_self_left, Nat.mod_eq_of_lt hlt]
  have hdiv : ofWords low high / UInt64.size = ofLittleEndian high := by
    rw [ofWords, Nat.add_mul_div_left _ _ (by decide), Nat.div_eq_of_lt hlt, Nat.zero_add]
  constructor
  · rw [hmod, ← hl]
    exact littleEndian_ofLittleEndian low
  · rw [hdiv, ← hh]
    exact littleEndian_ofLittleEndian high

theorem pack_of_unpack (h : unpack bytes = .ok a) : a.pack = bytes := by
  by_cases hlength : bytes.length = packedLength
  · rw [unpack, dif_pos hlength] at h
    cases h
    have htake : (bytes.take wordBytes).length = wordBytes := by
      rw [List.length_take, hlength]
      rfl
    have hdrop : (bytes.drop wordBytes).length = wordBytes := by
      rw [List.length_drop, hlength]
      rfl
    obtain ⟨hlow, hhigh⟩ := littleEndian_ofWords htake hdrop
    rw [pack, hlow, hhigh, List.take_append_drop]
  · rw [unpack_of_length hlength] at h
    cases h

theorem unpack_eq_ok_iff : unpack bytes = .ok a ↔ bytes = a.pack := by
  constructor
  · intro h
    exact (pack_of_unpack h).symm
  · rintro rfl
    exact unpack_pack a

/-! ## Values -/

variable {v : Value}

theorem ofValue_eq_ok : ofValue v = .ok a ↔ v = a.toValue := by
  by_cases hbytes : v.kind = .bytes
  · obtain ⟨raw, rfl⟩ := Value.eq_bytes_of_kind hbytes
    rw [ofValue, Value.asBytes]
    dsimp only
    rw [mapError_eq_ok, unpack_eq_ok_iff, toValue, Value.bytes.injEq]
  · rw [ofValue, Value.asBytes_of_kind hbytes]
    constructor
    · intro h
      cases h
    · rintro rfl
      exact absurd rfl hbytes

theorem ofValue_of_kind (h : v.kind ≠ .bytes) :
    ofValue v = .error (.unexpectedKind .bytes v.kind) := by
  rw [ofValue, Value.asBytes_of_kind h]

theorem ofValue_of_length (h : bytes.length ≠ packedLength) :
    ofValue (.bytes bytes) = .error (.format (.badAmountLength bytes.length)) := by
  rw [ofValue, Value.asBytes]
  dsimp only
  rw [unpack_of_length h]
  rfl

/-! ## One to one -/

theorem toNat_getElem?_pack {i : Nat} (h : i < packedLength) :
    a.pack[i]?.map UInt8.toNat = some (a.units / 256 ^ i % 256) := by
  rw [pack_eq_littleEndian, getElem?_littleEndian h, Option.map_some, UInt8.toNat_ofNat']

theorem exists_unpack (h : bytes.length = packedLength) :
    ∃ a, unpack bytes = .ok a ∧
      a.units = ofLittleEndian (bytes.take 8) ||| ofLittleEndian (bytes.drop 8) <<< 64 := by
  refine ⟨_, dif_pos h, ?_⟩
  have htake : (bytes.take wordBytes).length = wordBytes := by
    rw [List.length_take, h]
    rfl
  exact ofWords_eq_or htake

/-- **Amounts and strings of sixteen bytes correspond one to one.** Each byte of an amount counts
for a power of 256, the first for the lowest, which is the same as two words of eight bytes, the
low word first. An amount is read from the value that it becomes and from no other. So reading
undoes packing, packing undoes reading, and no amount has two forms. Bytes of any other length are
refused with that length, and values of any other kind with that kind. -/
theorem packed_one_to_one :
    (∀ (a : Amount) (i : Nat), i < 16 →
      a.pack[i]?.map UInt8.toNat = some (a.units / 256 ^ i % 256)) ∧
    (∀ a : Amount, a.pack.length = 16) ∧
    (∀ (v : Value) (a : Amount), ofValue v = .ok a ↔ v = a.toValue) ∧
    (∀ a : Amount, unpack a.pack = .ok a) ∧
    (∀ bytes : List UInt8, bytes.length = 16 → ∃ a, unpack bytes = .ok a ∧ a.pack = bytes ∧
      a.units = ofLittleEndian (bytes.take 8) ||| ofLittleEndian (bytes.drop 8) <<< 64) ∧
    (∀ (bytes bytes' : List UInt8) (a : Amount),
      unpack bytes = .ok a → unpack bytes' = .ok a → bytes = bytes') ∧
    (∀ bytes : List UInt8, bytes.length ≠ 16 →
      unpack bytes = .error (.badAmountLength bytes.length) ∧
        ofValue (.bytes bytes) = .error (.format (.badAmountLength bytes.length))) ∧
    (∀ v : Value, v.kind ≠ .bytes → ofValue v = .error (.unexpectedKind .bytes v.kind)) := by
  refine ⟨fun a i h => toNat_getElem?_pack h, length_pack, fun v a => ofValue_eq_ok, unpack_pack,
    ?_, ?_, ?_, fun v => ofValue_of_kind⟩
  · intro bytes h
    obtain ⟨a, ha, hunits⟩ := exists_unpack h
    exact ⟨a, ha, pack_of_unpack ha, hunits⟩
  · intro bytes bytes' a h h'
    rw [← pack_of_unpack h, ← pack_of_unpack h']
  · intro bytes h
    exact ⟨unpack_of_length h, ofValue_of_length h⟩

/-- An amount with the highest bit of either word set, its last byte, one byte too many, and a value
that is no bytes. -/
theorem packed_one_to_one_high_bits :
    let a : Amount := ⟨0xFEDCBA98765432108000000000000001, by decide⟩
    let bytes : List UInt8 := [0x01, 0, 0, 0, 0, 0, 0, 0x80,
      0x10, 0x32, 0x54, 0x76, 0x98, 0xBA, 0xDC, 0xFE]
    a.pack[15]?.map UInt8.toNat = some 0xFE ∧ ofValue (.bytes bytes) = .ok a ∧
      (∃ a, unpack bytes = .ok a ∧ a.pack = bytes ∧
        a.units = 0x8000000000000001 ||| 0xFEDCBA9876543210 <<< 64) ∧
      bytes = a.pack ∧
      unpack (0 :: bytes) = .error (.badAmountLength 17) ∧
      ofValue (.uint64 1) = .error (.unexpectedKind .bytes .uint64) := by
  intro a bytes
  obtain ⟨hbyte, -, hvalue, hundone, hpacked, hsame, hlength, hkind⟩ := packed_one_to_one
  have hlast : a.units / 256 ^ 15 % 256 = 0xFE := by decide
  have hform : bytes = a.pack := by decide
  have hread : unpack bytes = .ok a := by
    rw [hform]
    exact hundone a
  refine ⟨?_, (hvalue _ _).mpr (congrArg Value.bytes hform), hpacked bytes rfl,
    hsame bytes a.pack a hread (hundone a), (hlength (0 :: bytes) (by decide)).1,
    hkind (.uint64 1) (by decide)⟩
  rw [hbyte a 15 (by decide), hlast]

end Amount

end NamedQuery
