import Mathlib.Algebra.Group.Nat.Defs
import NamedQuery.Wire.Varint

/-!
# Varints are read back

A varint is written in groups of seven bits, and a reader has room for ten of them, the last of
which holds a single bit. So a number is read back if it has at most 64 bits, whatever follows it,
and it is refused if it has more. A reader does not ask whether all the groups were needed:
`Varint.Spells` says which bytes it takes for which number, and it takes no others.
-/

namespace NamedQuery.Wire

namespace Varint

variable {room n : Nat} {bytes input : List UInt8}

theorem encode_of_lt (h : n < 128) : encode n = [UInt8.ofNat n] := by
  rw [encode, if_pos h]

theorem encode_of_le (h : 128 ≤ n) :
    encode n = UInt8.ofNat (n % 128 + 128) :: encode (n / 128) := by
  rw [encode, if_neg (Nat.not_lt.mpr h)]

theorem encode_ne_nil (n : Nat) : encode n ≠ [] := by
  rw [encode]
  split <;> exact List.cons_ne_nil _ _

/-! ## One group -/

theorem toNat_group (h : n < 256) : (UInt8.ofNat n).toNat = n := by
  rw [UInt8.toNat_ofNat', Nat.mod_eq_of_lt h]

theorem group_inj {m : Nat} (hm : m < 256) (hn : n < 256) (h : UInt8.ofNat m = UInt8.ofNat n) :
    m = n := by
  rw [← toNat_group hm, h, toNat_group hn]

theorem group_lt_iff (h : n < 256) : UInt8.ofNat n < 128 ↔ n < 128 := by
  rw [UInt8.lt_iff_toNat_lt, toNat_group h]
  rfl

theorem one_lt_group_iff (h : n < 256) : 1 < UInt8.ofNat n ↔ 1 < n := by
  rw [UInt8.lt_iff_toNat_lt, toNat_group h]
  rfl

/-- A group without a high bit ends the varint, if the last place takes it. -/
theorem readGroups_last (rest : List UInt8) (h : n < 128) :
    readGroups (room + 1) (UInt8.ofNat n :: rest) =
      if room = 0 ∧ 1 < n then none else some (.one n (UInt8.ofNat n) rest) := by
  simp only [readGroups, group_lt_iff (show n < 256 by omega), if_pos h,
    one_lt_group_iff (show n < 256 by omega), toNat_group (show n < 256 by omega)]

/-- A group with a high bit goes on. -/
theorem readGroups_more (rest : List UInt8) (h : n < 128) :
    readGroups (room + 1) (UInt8.ofNat (n + 128) :: rest) =
      (readGroups room rest).map fun r =>
        (r.withValue (n + 128 * r.value)).behind (UInt8.ofNat (n + 128)) := by
  simp only [readGroups, group_lt_iff (show n + 128 < 256 by omega),
    toNat_group (show n + 128 < 256 by omega), if_neg (show ¬n + 128 < 128 by omega),
    Nat.add_sub_cancel]
  cases readGroups room rest <;> rfl

/-! ## Whole numbers -/

/-- What the places after the first must hold. -/
theorem div_lt_iff_lt_pow : n / 128 < 2 ^ (7 * room + 1) ↔ n < 2 ^ (7 * (room + 1) + 1) := by
  rw [show 7 * (room + 1) + 1 = 7 * room + 1 + 7 by omega, Nat.pow_add 2 (7 * room + 1) 7,
    Nat.div_lt_iff_lt_mul (by decide)]

theorem readGroups_encode (rest : List UInt8) (h : n < 2 ^ (7 * room + 1)) :
    ∃ p, readGroups (room + 1) (encode n ++ rest) = some p ∧ p.value = n ∧ p.rest = rest := by
  induction room generalizing n with
  | zero =>
    -- the last place: one bit is all that is left
    rw [encode_of_lt (by omega), List.singleton_append, readGroups_last rest (by omega),
      if_neg (by omega)]
    exact ⟨_, rfl, rfl, rfl⟩
  | succ room ih =>
    rcases Nat.lt_or_ge n 128 with hn | hn
    · rw [encode_of_lt hn, List.singleton_append, readGroups_last rest hn, if_neg (by omega)]
      exact ⟨_, rfl, rfl, rfl⟩
    · obtain ⟨p, hp, hv, hr⟩ := ih (div_lt_iff_lt_pow.mpr h)
      rw [encode_of_le hn, List.cons_append, readGroups_more _ (Nat.mod_lt n (by decide)), hp]
      refine ⟨_, rfl, ?_, hr⟩
      show n % 128 + 128 * p.value = n
      rw [hv, Nat.mod_add_div]

theorem readGroups_encode_eq_none (rest : List UInt8) (h : 2 ^ (7 * room + 1) ≤ n) :
    readGroups (room + 1) (encode n ++ rest) = none := by
  induction room generalizing n with
  | zero =>
    rcases Nat.lt_or_ge n 128 with hn | hn
    · rw [encode_of_lt hn, List.singleton_append, readGroups_last rest hn, if_pos (by omega)]
    · rw [encode_of_le hn, List.cons_append, readGroups_more _ (Nat.mod_lt n (by decide))]
      rfl
  | succ room ih =>
    have hpow : 2 ^ 7 ≤ 2 ^ (7 * (room + 1) + 1) := Nat.pow_le_pow_right (by decide) (by omega)
    have hn : 128 ≤ n := Nat.le_trans hpow h
    rw [encode_of_le hn, List.cons_append, readGroups_more _ (Nat.mod_lt n (by decide)),
      ih (Nat.le_of_not_lt fun hc => Nat.not_lt.mpr h (div_lt_iff_lt_pow.mp hc))]
    rfl

/-- A varint of at most 64 bits is read back. -/
theorem read_encode (rest : List UInt8) (h : n < UInt64.size) :
    ∃ p, read (encode n ++ rest) = some p ∧ p.value = n ∧ p.rest = rest :=
  readGroups_encode rest h

/-- A varint of more than 64 bits is refused. -/
theorem read_encode_eq_none (rest : List UInt8) (h : UInt64.size ≤ n) :
    read (encode n ++ rest) = none :=
  readGroups_encode_eq_none rest h

/-! ## Superfluous groups -/

/-- `bytes` are groups of seven bits that make up `n`, needed or not. -/
inductive Groups : List UInt8 → Nat → Prop where
  | last {b : UInt8} : b < 128 → Groups [b] b.toNat
  | more {b : UInt8} {bytes : List UInt8} {n : Nat} :
      ¬b < 128 → Groups bytes n → Groups (b :: bytes) (b.toNat - 128 + 128 * n)

/-- `bytes` are a varint of `n`, with superfluous groups or without. -/
structure Spells (bytes : List UInt8) (n : Nat) : Prop where
  groups : Groups bytes n
  length_le : bytes.length ≤ maxBytes
  lt : n < UInt64.size

theorem Groups.length_pos (h : Groups bytes n) : 0 < bytes.length := by
  cases h <;> exact Nat.succ_pos _

theorem more_lt_iff (b : UInt8) :
    b.toNat - 128 + 128 * n < 2 ^ (7 * (room + 1) + 1) ↔ n < 2 ^ (7 * room + 1) := by
  have hb := b.toNat_lt
  rw [← div_lt_iff_lt_pow, show (b.toNat - 128 + 128 * n) / 128 = n by omega]

theorem readGroups_of_groups (rest : List UInt8) (h : Groups bytes n) :
    ∀ {room : Nat}, bytes.length ≤ room + 1 → n < 2 ^ (7 * room + 1) →
      ∃ p, readGroups (room + 1) (bytes ++ rest) = some p ∧ p.value = n ∧ p.rest = rest := by
  induction h with
  | @last b hb =>
    intro room _ hlt
    have hroom : ¬(room = 0 ∧ 1 < b) := by
      rintro ⟨rfl, hone⟩
      have : 1 < b.toNat := hone
      omega
    rw [List.singleton_append, readGroups, if_pos hb, if_neg hroom]
    exact ⟨_, rfl, rfl, rfl⟩
  | @more b bytes n hb hgroups ih =>
    intro room hlength hlt
    -- another group follows, so there must be room for it
    have hpos := hgroups.length_pos
    rw [List.length_cons] at hlength
    obtain ⟨room, rfl⟩ : ∃ room', room = room' + 1 := ⟨room - 1, by omega⟩
    obtain ⟨p, hp, hv, hr⟩ := ih (by omega) ((more_lt_iff b).mp hlt)
    rw [List.cons_append, readGroups, if_neg hb, hp]
    refine ⟨_, rfl, ?_, hr⟩
    show b.toNat - 128 + 128 * p.value = _
    rw [hv]

theorem groups_of_readGroups : ∀ {room : Nat} {input : List UInt8} {p : Piece Nat input},
    readGroups (room + 1) input = some p →
      ∃ bytes, input = bytes ++ p.rest ∧ Groups bytes p.value ∧ bytes.length ≤ room + 1 ∧
        p.value < 2 ^ (7 * room + 1)
  | room, b :: input, p, h => by
    rw [readGroups] at h
    split at h
    · rename_i hb
      split at h
      · cases h
      · rename_i hroom
        cases h
        refine ⟨[b], rfl, .last hb, by simp, ?_⟩
        have hlt : b.toNat < 128 := hb
        show b.toNat < _
        cases room with
        | zero =>
          have hone : ¬1 < b.toNat := fun hc => hroom ⟨rfl, hc⟩
          omega
        | succ room =>
          have hpow : 2 ^ 7 ≤ 2 ^ (7 * (room + 1) + 1) :=
            Nat.pow_le_pow_right (by decide) (by omega)
          exact Nat.lt_of_lt_of_le hlt hpow
    · rename_i hb
      split at h
      · cases h
      · rename_i r hr
        cases h
        cases room with
        | zero => simp [readGroups] at hr
        | succ room =>
          obtain ⟨bytes, hi, hgroups, hlength, hlt⟩ := groups_of_readGroups hr
          refine ⟨b :: bytes, ?_, .more hb hgroups, ?_, (more_lt_iff b).mpr hlt⟩
          · show b :: input = b :: (bytes ++ r.rest)
            rw [← hi]
          · rw [List.length_cons]
            omega

theorem read_of_spells (rest : List UInt8) (h : Spells bytes n) :
    ∃ p, read (bytes ++ rest) = some p ∧ p.value = n ∧ p.rest = rest :=
  readGroups_of_groups rest h.groups h.length_le h.lt

theorem spells_of_read {p : Piece Nat input} (h : read input = some p) :
    ∃ bytes, input = bytes ++ p.rest ∧ Spells bytes p.value := by
  obtain ⟨bytes, hi, hgroups, hlength, hlt⟩ := groups_of_readGroups h
  exact ⟨bytes, hi, hgroups, hlength, hlt⟩

theorem spells_encode (h : n < UInt64.size) : Spells (encode n) n := by
  obtain ⟨p, hp, hv, hr⟩ := read_encode [] h
  obtain ⟨bytes, hi, hspells⟩ := spells_of_read hp
  rw [hr, List.append_nil, List.append_nil] at hi
  rwa [hi, ← hv]

/-- The spelling of a number is what is read as that number to the end. -/
theorem spells_iff :
    Spells bytes n ↔ (read bytes).map (fun p => (p.value, p.rest)) = some (n, []) := by
  constructor
  · intro h
    have hread : (read (bytes ++ [])).map (fun p => (p.value, p.rest)) = some (n, []) := by
      obtain ⟨p, hp, hv, hr⟩ := read_of_spells [] h
      rw [hp, Option.map_some, hv, hr]
    rwa [List.append_nil] at hread
  · intro h
    obtain ⟨p, hp, hpair⟩ := Option.map_eq_some_iff.mp h
    obtain ⟨hv, hr⟩ := Prod.mk.inj hpair
    obtain ⟨bytes', hi, hspells⟩ := spells_of_read hp
    rw [hr, List.append_nil] at hi
    rwa [hi, ← hv]

instance : Decidable (Spells bytes n) := decidable_of_iff _ spells_iff.symm

end Varint
end NamedQuery.Wire
