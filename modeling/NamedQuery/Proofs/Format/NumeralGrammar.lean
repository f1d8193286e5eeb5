import Mathlib.Algebra.Group.Nat.Defs
import NamedQuery.Format.Amount
import NamedQuery.Proofs.Format.Numeral
import NamedQuery.Proofs.Text.Blank
import NamedQuery.Value.Read

/-!
# The grammar of decimal numerals

Which texts are read as numbers, said without the reader: decimal digits, at least one and with any
number of leading zeros, behind at most one plus sign and between blanks. A text that is not read is
told apart by what it says. Minus digits are a number below the range. A text that begins with a
number beyond the width is out of range as well, and what follows this number is not looked at, so
the text need not be a numeral. Any other text is malformed.

* `Spells`: how numbers are spelled.
* `Reading`, `parse_eq_iff`: what a text says as a number of some width, and that it is what is read.
* `parse_text_eq`, `parse_negative`: what is read of a number that was written, and behind a minus
  sign.
* `parse_iff_spells`: what texts are read, as which numbers.
* `Fault`, `parse_error_iff`: what is wrong with the others, and which of them are told so.
-/

namespace NamedQuery

theorem Width.bound_eq (w : Width) : w.bound = 2 ^ w.bits := by
  cases w <;> rfl

namespace Numeral

/-- Decimal digits, at least one. -/
structure Digits (ds : List Char) : Prop where
  ne_nil : ds ≠ []
  isDigit : ∀ c ∈ ds, c.isDigit = true

instance (ds : List Char) : Decidable (Digits ds) :=
  decidable_of_iff (ds ≠ [] ∧ ds.all Char.isDigit = true)
    ⟨fun ⟨hne, h⟩ => ⟨hne, List.all_eq_true.mp h⟩,
      fun h => ⟨h.ne_nil, List.all_eq_true.mpr h.isDigit⟩⟩

/-- How a number is spelled: in decimal digits, with a plus sign or without. -/
inductive Spells : List Char → Nat → Prop
  | plain {ds : List Char} (h : Digits ds) : Spells ds (Nat.ofDigitChars 10 ds 0)
  | signed {ds : List Char} (h : Digits ds) : Spells ('+' :: ds) (Nat.ofDigitChars 10 ds 0)

/-- What the text `t` says as a number of width `w`: a number that fits, digits behind a minus sign,
a number that does not fit and whatever follows it, or nothing of this. -/
inductive Reading (w : Width) (t : List Char) : Except NumberError Nat → Prop
  | number {n : Nat} (h : Spells t n) (hn : n < 2 ^ w.bits) : Reading w t (.ok n)
  | negative {ds : List Char} (h : Digits ds) (ht : t = '-' :: ds) :
    Reading w t (.error (.range (.negative (String.ofList t))))
  | tooLarge {front : List Char} {n : Nat} (hfront : front <+: t) (h : Spells front n)
    (hn : 2 ^ w.bits ≤ n) : Reading w t (.error (.range (.overflow (String.ofList t) w.bits)))
  | malformed (hnumber : ∀ n, ¬Spells t n) (hnegative : ∀ ds, Digits ds → t ≠ '-' :: ds)
    (hfront : ∀ front n, front <+: t → Spells front n → n < 2 ^ w.bits) :
    Reading w t (.error (.format (.badDecimal (String.ofList t))))

/-- What is wrong with the text `t` as a number of width `w` when all of it is looked at: digits
behind a minus sign, a number that does not fit and nothing else, or no number at all. -/
inductive Fault (w : Width) (t : List Char) : NumberError → Prop
  | negative {ds : List Char} (h : Digits ds) (ht : t = '-' :: ds) :
    Fault w t (.range (.negative (String.ofList t)))
  | tooLarge {n : Nat} (h : Spells t n) (hn : 2 ^ w.bits ≤ n) :
    Fault w t (.range (.overflow (String.ofList t) w.bits))
  | malformed (hnumber : ∀ n, ¬Spells t n) (hnegative : ∀ ds, Digits ds → t ≠ '-' :: ds) :
    Fault w t (.format (.badDecimal (String.ofList t)))

variable {w : Width} {bound n : Nat} {c : Char} {t ds cs front rest : List Char}

/-! ## Digits -/

/-- The digits that a text begins with are read first, and then what follows. -/
theorem readDigits_append_of_isDigit (hb : 0 < bound) (h : ∀ c ∈ ds, c.isDigit = true) :
    readDigits bound 0 (ds ++ rest) =
      if Nat.ofDigitChars 10 ds 0 < bound then
        readDigits bound (Nat.ofDigitChars 10 ds 0) rest
      else .error .tooLarge := by
  by_cases hnil : ds = []
  · rw [hnil, List.nil_append, Nat.ofDigitChars_nil, if_pos hb]
  · rw [readDigits_append, readDigits_of_isDigit hnil h]
    split <;> rfl

theorem readDigits_of_malformed (hb : 0 < bound) (hne : cs ≠ []) (hdigits : ¬Digits cs)
    (hfront : ∀ ds, ds <+: cs → Digits ds → Nat.ofDigitChars 10 ds 0 < bound) :
    readDigits bound 0 cs = .error .badDigit := by
  have hfound : ∀ c ∈ cs.takeWhile Char.isDigit, c.isDigit = true := by
    intro c hc
    exact List.all_eq_true.mp List.all_takeWhile c hc
  have hlt : Nat.ofDigitChars 10 (cs.takeWhile Char.isDigit) 0 < bound := by
    by_cases hnil : cs.takeWhile Char.isDigit = []
    · rw [hnil]
      exact hb
    · exact hfront _ (List.takeWhile_prefix _) ⟨hnil, hfound⟩
  rw [← List.takeWhile_append_dropWhile (p := Char.isDigit) (l := cs),
    readDigits_append_of_isDigit hb hfound, if_pos hlt]
  cases hrest : cs.dropWhile Char.isDigit with
  | nil =>
    -- nothing but digits
    exact absurd ⟨hne, List.dropWhile_eq_nil_iff.mp hrest⟩ hdigits
  | cons c rest =>
    have hc := List.head?_dropWhile_not Char.isDigit cs
    rw [hrest] at hc
    rw [readDigits, if_neg]
    simpa using hc

/-! ## Signs -/

theorem read_plus (h : cs ≠ []) : read bound ('+' :: cs) = readDigits bound 0 cs := by
  cases cs with
  | nil => exact absurd rfl h
  | cons c cs => rfl

/-- A number that a text begins with is read first, and then what follows. -/
theorem read_append_of_spells (hb : 0 < bound) (h : Spells front n) :
    read bound (front ++ rest) =
      if n < bound then readDigits bound n rest else .error .tooLarge := by
  cases h with
  | plain h =>
    cases front with
    | nil => exact absurd rfl h.ne_nil
    | cons c cs =>
      rw [List.cons_append, read_of_isDigit (h.isDigit c List.mem_cons_self), ← List.cons_append]
      exact readDigits_append_of_isDigit hb h.isDigit
  | @signed ds h =>
    rw [List.cons_append, read_plus (List.append_ne_nil_of_left_ne_nil h.ne_nil rest)]
    exact readDigits_append_of_isDigit hb h.isDigit

theorem read_of_malformed (hb : 0 < bound) (hnumber : ∀ n, ¬Spells t n)
    (hfront : ∀ front n, front <+: t → Spells front n → n < bound) :
    read bound t = .error .empty ∨ read bound t = .error .badDigit := by
  rcases t with _ | ⟨c, cs⟩
  · exact .inl rfl
  · right
    by_cases hc : c = '+'
    · subst hc
      rcases cs with _ | ⟨d, ds⟩
      · rfl
      · rw [read_plus (List.cons_ne_nil d ds)]
        refine readDigits_of_malformed hb (List.cons_ne_nil d ds)
          (fun h => hnumber _ (.signed h)) ?_
        intro front hprefix h
        exact hfront _ _ (List.cons_prefix_cons.mpr ⟨rfl, hprefix⟩) (.signed h)
    · rw [read_of_ne_plus hc]
      exact readDigits_of_malformed hb (List.cons_ne_nil c cs) (fun h => hnumber _ (.plain h))
        fun front hprefix h => hfront _ _ hprefix (.plain h)

theorem isNegative_iff : isNegative t = true ↔ ∃ ds, Digits ds ∧ t = '-' :: ds := by
  constructor
  · intro h
    unfold isNegative at h
    split at h
    · rename_i c cs
      exact ⟨c :: cs, ⟨List.cons_ne_nil c cs, List.all_eq_true.mp h⟩, rfl⟩
    · cases h
  · rintro ⟨ds, hds, rfl⟩
    cases ds with
    | nil => exact absurd rfl hds.ne_nil
    | cons c cs => exact List.all_eq_true.mpr hds.isDigit

/-- A text that begins with a number does not begin with a minus sign. -/
theorem isNegative_of_spells (hfront : front <+: t) (h : Spells front n) :
    isNegative t = false := by
  rw [Bool.eq_false_iff, ne_eq, isNegative_iff]
  rintro ⟨ds, -, rfl⟩
  obtain ⟨rest, hrest⟩ := hfront
  cases h with
  | plain h =>
    cases front with
    | nil => exact h.ne_nil rfl
    | cons c cs =>
      have hc := h.isDigit c List.mem_cons_self
      cases hrest
      cases hc
  | signed h => cases hrest

/-! ## Texts -/

variable {s : String} {r : Except NumberError Nat}

theorem parse_of_reading (h : Reading w (Text.trim s.toList) r) : parse w s = r := by
  have hb := w.bound_pos
  rw [parse]
  generalize Text.trim s.toList = t at h
  cases h with
  | @number n h hn =>
    have hread : read w.bound (t ++ []) = _ := read_append_of_spells hb h
    rw [List.append_nil, if_pos (w.bound_eq ▸ hn), readDigits] at hread
    simp only [isNegative_of_spells List.prefix_rfl h, Bool.false_eq_true, if_false, hread]
  | negative h ht =>
    simp only [isNegative_iff.mpr ⟨_, h, ht⟩, if_true]
  | tooLarge hfront h hn =>
    simp only [isNegative_of_spells hfront h, Bool.false_eq_true, if_false]
    obtain ⟨rest, rfl⟩ := hfront
    have hlarge : ¬_ < w.bound := Nat.not_lt.mpr (w.bound_eq ▸ hn)
    simp only [read_append_of_spells hb h, if_neg hlarge]
  | malformed hnumber hnegative hfront =>
    have hsign : isNegative t = false := by
      rw [Bool.eq_false_iff, ne_eq, isNegative_iff]
      rintro ⟨ds, hds, ht⟩
      exact hnegative ds hds ht
    simp only [hsign, Bool.false_eq_true, if_false]
    rcases read_of_malformed hb hnumber (w.bound_eq ▸ hfront) with hread | hread
    · simp only [hread]
    · simp only [hread]

/-- Every text says something. -/
theorem exists_reading (w : Width) (t : List Char) : ∃ r, Reading w t r := by
  by_cases hlarge : ∃ front n, front <+: t ∧ Spells front n ∧ 2 ^ w.bits ≤ n
  · obtain ⟨front, n, hfront, h, hn⟩ := hlarge
    exact ⟨_, .tooLarge hfront h hn⟩
  have hsmall : ∀ front n, front <+: t → Spells front n → n < 2 ^ w.bits := by
    intro front n hfront h
    by_contra hn
    exact hlarge ⟨front, n, hfront, h, Nat.le_of_not_lt hn⟩
  by_cases hnumber : ∃ n, Spells t n
  · obtain ⟨n, h⟩ := hnumber
    exact ⟨_, .number h (hsmall t n List.prefix_rfl h)⟩
  by_cases hnegative : ∃ ds, Digits ds ∧ t = '-' :: ds
  · obtain ⟨ds, h, ht⟩ := hnegative
    exact ⟨_, .negative h ht⟩
  · refine ⟨_, .malformed (fun n h => hnumber ⟨n, h⟩) ?_ hsmall⟩
    intro ds h ht
    exact hnegative ⟨ds, h, ht⟩

/-- What is read is what the text says, once the blanks at its ends are removed. -/
theorem parse_eq_iff : parse w s = r ↔ Reading w (Text.trim s.toList) r := by
  constructor
  · rintro rfl
    obtain ⟨r, hr⟩ := exists_reading w (Text.trim s.toList)
    rwa [parse_of_reading hr]
  · exact parse_of_reading

/-! ## Numerals between blanks -/

theorem eq_plus_or_isDigit_of_mem (h : Spells t n) (hc : c ∈ t) :
    c = '+' ∨ c.isDigit = true := by
  cases h with
  | plain h => exact .inr (h.isDigit c hc)
  | signed h =>
    rcases List.mem_cons.mp hc with hplus | hc
    · exact .inl hplus
    · exact .inr (h.isDigit c hc)

theorem isBlank_of_spells (h : Spells t n) : ∀ c ∈ t, Text.isBlank c = false := by
  intro c hc
  rcases eq_plus_or_isDigit_of_mem h hc with rfl | hdigit
  · rfl
  · exact isBlank_of_isDigit hdigit

/-- A numeral has no blanks, and so it is what is left when they are removed around it. -/
theorem spells_trim_iff {cs : List Char} :
    Spells (Text.trim cs) n ↔ ∃ t, Text.Padded t cs ∧ Spells t n := by
  constructor
  · intro h
    exact ⟨_, Text.padded_trim cs, h⟩
  · rintro ⟨t, hpadded, h⟩
    rwa [Text.trim_of_padded hpadded (isBlank_of_spells h)]

theorem parse_eq_ok_iff :
    parse w s = .ok n ↔ n < 2 ^ w.bits ∧ ∃ t, Text.Padded t s.toList ∧ Spells t n := by
  rw [parse_eq_iff, ← spells_trim_iff]
  constructor
  · intro h
    cases h with
    | number h hn => exact ⟨hn, h⟩
  · rintro ⟨hn, h⟩
    exact .number h hn

/-! ## Numerals that are written -/

theorem digits_write (n : Nat) : Digits (write n) :=
  ⟨write_ne_nil n, fun _ hc => isDigit_of_mem_write hc⟩

/-- What is written of a number spells it. -/
theorem spells_text (n : Nat) : Spells (text n).toList n := by
  have h := Spells.plain (digits_write n)
  rwa [ofDigitChars_write, ← String.toList_ofList (l := write n), ← text] at h

theorem toString_eq_text (n : Nat) : toString n = text n := by
  rw [text, write_eq_toDigits, Nat.toString_eq_ofList_toDigits]

/-- What is read of a number that was written. -/
theorem parse_text_eq (w : Width) (n : Nat) :
    parse w (text n) =
      if n < w.bound then .ok n else .error (.range (.overflow (text n) w.bits)) := by
  have hspells := spells_text n
  rw [parse_eq_iff, Text.trim_eq_self (isBlank_of_spells hspells), w.bound_eq]
  split
  · rename_i hn
    exact .number hspells hn
  · rename_i hn
    have h := Reading.tooLarge List.prefix_rfl hspells (Nat.le_of_not_lt hn)
    rwa [String.ofList_toList] at h

theorem parse_text {w : Width} (h : n < w.bound) : parse w (text n) = .ok n := by
  rw [parse_text_eq, if_pos h]

/-- A minus sign in front of a number is all it takes to be below the range. -/
theorem parse_negative (w : Width) (n : Nat) :
    parse w (String.ofList ('-' :: write n)) =
      .error (.range (.negative (String.ofList ('-' :: write n)))) := by
  have hblank : ∀ c ∈ '-' :: write n, Text.isBlank c = false := by
    intro c hc
    rcases List.mem_cons.mp hc with rfl | hc
    · rfl
    · exact isBlank_of_isDigit (isDigit_of_mem_write hc)
  rw [parse_eq_iff, String.toList_ofList, Text.trim_eq_self hblank]
  exact .negative (digits_write n) rfl

end Numeral

/-! ## Values and amounts -/

namespace Value

variable {s : String} {v : Value} {e : NumberError}

theorem ofDecimal_eq_ok_iff :
    ofDecimal s = .ok v ↔ ∃ n, Numeral.parse .word s = .ok n ∧ v = .uint64 (UInt64.ofNat n) := by
  rw [ofDecimal]
  cases Numeral.parse .word s with
  | error e => simp [Except.map]
  | ok n => simp [Except.map, eq_comm]

theorem ofDecimal_eq_error_iff : ofDecimal s = .error e ↔ Numeral.parse .word s = .error e := by
  rw [ofDecimal]
  cases Numeral.parse .word s with
  | error e => simp [Except.map]
  | ok n => simp [Except.map]

end Value

namespace Amount

variable {s : String} {a : Amount} {e : NumberError}

theorem parse_eq_ok_iff : parse s = .ok a ↔ Numeral.parse .doubleWord s = .ok a.units := by
  obtain ⟨units, hunits⟩ := a
  rw [parse]
  split
  · rename_i e he
    simp [he]
  · rename_i n hn
    simp [hn]

theorem parse_eq_error_iff : parse s = .error e ↔ Numeral.parse .doubleWord s = .error e := by
  rw [parse]
  split
  · rename_i e he
    simp [he]
  · rename_i n hn
    simp [hn]

end Amount

/-! ## Numbers that are read -/

namespace Numeral

variable {w : Width} {n : Nat} {front : List Char} {s : String}

/-- **A text is read as a number exactly if it spells one that fits**: decimal digits between
blanks, behind at most one plus sign and with any number of leading zeros. Values are read from the
numbers of 64 bits and amounts from those of 128. So what is written of a number is read as this
number, whatever blanks are around it. -/
theorem parse_iff_spells :
    (∀ (w : Width) (s : String) (n : Nat),
      parse w s = .ok n ↔ n < 2 ^ w.bits ∧ ∃ t, Text.Padded t s.toList ∧ Spells t n) ∧
    (∀ (s : String) (v : Value), Value.ofDecimal s = .ok v ↔
      ∃ n < 2 ^ 64, v = .uint64 (UInt64.ofNat n) ∧ ∃ t, Text.Padded t s.toList ∧ Spells t n) ∧
    (∀ (s : String) (n : Nat), (∃ a, Amount.parse s = .ok a ∧ a.units = n) ↔
      n < 2 ^ 128 ∧ ∃ t, Text.Padded t s.toList ∧ Spells t n) ∧
    (∀ (w : Width) (s : String) (n : Nat),
      n < 2 ^ w.bits → Text.Padded (toString n).toList s.toList → parse w s = .ok n) ∧
    (∀ (s : String) (n : UInt64),
      Text.Padded (toString n.toNat).toList s.toList → Value.ofDecimal s = .ok (.uint64 n)) ∧
    (∀ (s : String) (a : Amount), Text.Padded a.text.toList s.toList → Amount.parse s = .ok a) := by
  have hwritten (w : Width) (s : String) (n : Nat) (hn : n < 2 ^ w.bits)
      (hs : Text.Padded (toString n).toList s.toList) : parse w s = .ok n :=
    parse_eq_ok_iff.mpr ⟨hn, _, hs, toString_eq_text n ▸ spells_text n⟩
  refine ⟨fun _ _ _ => parse_eq_ok_iff, ?_, ?_, hwritten, ?_, ?_⟩
  · intro s v
    rw [Value.ofDecimal_eq_ok_iff]
    constructor
    · rintro ⟨n, hn, rfl⟩
      obtain ⟨hfits, hspells⟩ := parse_eq_ok_iff.mp hn
      exact ⟨n, hfits, rfl, hspells⟩
    · rintro ⟨n, hfits, rfl, hspells⟩
      exact ⟨n, parse_eq_ok_iff.mpr ⟨hfits, hspells⟩, rfl⟩
  · intro s n
    constructor
    · rintro ⟨a, ha, rfl⟩
      exact parse_eq_ok_iff.mp (Amount.parse_eq_ok_iff.mp ha)
    · rintro ⟨hfits, hspells⟩
      exact ⟨⟨n, hfits⟩, Amount.parse_eq_ok_iff.mpr (parse_eq_ok_iff.mpr ⟨hfits, hspells⟩), rfl⟩
  · intro s n hs
    rw [Value.ofDecimal_eq_ok_iff]
    exact ⟨n.toNat, hwritten .word s n.toNat n.toNat_lt hs, by rw [UInt64.ofNat_toNat]⟩
  · intro s a hs
    rw [Amount.parse_eq_ok_iff]
    refine hwritten .doubleWord s a.units a.units_lt ?_
    rwa [toString_eq_text]

/-- The largest number of each width is read, with a sign and leading zeros and between blanks, and
the next number is not. -/
theorem parse_iff_spells_largest :
    parse .word "\t+00018446744073709551615\u2003" = .ok 18446744073709551615 ∧
    parse .word "18446744073709551615\u0085" = .ok 18446744073709551615 ∧
    Value.ofDecimal "\u00a018446744073709551615\n" = .ok (.uint64 18446744073709551615) ∧
    Amount.parse " 340282366920938463463374607431768211455" =
      .ok ⟨340282366920938463463374607431768211455, by decide⟩ ∧
    ¬∃ a, Amount.parse "340282366920938463463374607431768211456" = .ok a ∧
      a.units = 340282366920938463463374607431768211456 := by
  obtain ⟨hread, -, hamount, hwritten, hvalue, hwrittenAmount⟩ := parse_iff_spells
  have hsigned : Spells "+00018446744073709551615".toList 18446744073709551615 :=
    .signed (show Digits "00018446744073709551615".toList by decide)
  refine ⟨?_, ?_, ?_, ?_, ?_⟩
  · exact (hread _ _ _).mpr ⟨by decide, _, Text.padded_of_trim (by decide), hsigned⟩
  · exact hwritten _ _ _ (by decide) (Text.padded_of_trim (by decide))
  · exact hvalue _ 18446744073709551615 (Text.padded_of_trim (by decide))
  · refine hwrittenAmount _ _ (Text.padded_of_trim ?_)
    rw [Amount.text, ← toString_eq_text]
    decide
  · rw [hamount]
    rintro ⟨hfits, -⟩
    exact absurd hfits (by decide)

/-! ## What is wrong -/

theorem parse_eq_negative_iff {text : String} :
    parse w s = .error (.range (.negative text)) ↔
      text = String.ofList (Text.trim s.toList) ∧
        ∃ ds, Digits ds ∧ Text.trim s.toList = '-' :: ds := by
  rw [parse_eq_iff]
  constructor
  · intro h
    cases h with
    | negative h ht => exact ⟨rfl, _, h, ht⟩
  · rintro ⟨rfl, ds, h, ht⟩
    exact .negative h ht

theorem parse_eq_overflow_iff {text : String} {bits : Nat} :
    parse w s = .error (.range (.overflow text bits)) ↔
      text = String.ofList (Text.trim s.toList) ∧ bits = w.bits ∧
        ∃ front n, front <+: Text.trim s.toList ∧ Spells front n ∧ 2 ^ w.bits ≤ n := by
  rw [parse_eq_iff]
  constructor
  · intro h
    cases h with
    | tooLarge hfront h hn => exact ⟨rfl, rfl, _, _, hfront, h, hn⟩
  · rintro ⟨rfl, rfl, front, n, hfront, h, hn⟩
    exact .tooLarge hfront h hn

theorem parse_eq_format_iff {e : FormatError} :
    parse w s = .error (.format e) ↔
      e = .badDecimal (String.ofList (Text.trim s.toList)) ∧
        (∀ n, ¬Spells (Text.trim s.toList) n) ∧
        (∀ ds, Digits ds → Text.trim s.toList ≠ '-' :: ds) ∧
        ∀ front n, front <+: Text.trim s.toList → Spells front n → n < 2 ^ w.bits := by
  rw [parse_eq_iff]
  constructor
  · intro h
    cases h with
    | malformed hnumber hnegative hfront => exact ⟨rfl, hnumber, hnegative, hfront⟩
  · rintro ⟨rfl, hnumber, hnegative, hfront⟩
    exact .malformed hnumber hnegative hfront

/-- A text that spells a number begins with none that does not fit, unless it does not fit itself. -/
theorem le_of_spells (hfront : front <+: Text.trim s.toList) (hlarge : Spells front n)
    (hn : 2 ^ w.bits ≤ n) {m : Nat} (h : Spells (Text.trim s.toList) m) : 2 ^ w.bits ≤ m := by
  by_contra hm
  have hread : parse w s = .ok m := parse_of_reading (.number h (Nat.lt_of_not_le hm))
  rw [parse_of_reading (.tooLarge hfront hlarge hn)] at hread
  cases hread

/-- Only behind a number that does not fit there can be something that goes unnoticed. -/
theorem parse_eq_error_iff_fault :
    (∀ e, parse w s = .error e ↔ Fault w (Text.trim s.toList) e) ↔
      (∃ n, Spells (Text.trim s.toList) n) ∨
        ∀ front n, front <+: Text.trim s.toList → Spells front n → n < 2 ^ w.bits := by
  simp only [parse_eq_iff]
  constructor
  · intro hfault
    by_cases hnumber : ∃ n, Spells (Text.trim s.toList) n
    · exact .inl hnumber
    · right
      intro front n hfront h
      by_contra hn
      cases (hfault _).mp (.tooLarge hfront h (Nat.le_of_not_lt hn)) with
      | tooLarge h _ => exact hnumber ⟨_, h⟩
  · intro hwhole e
    constructor
    · intro h
      cases h with
      | negative h ht => exact .negative h ht
      | tooLarge hfront h hn =>
        rcases hwhole with ⟨m, hm⟩ | hsmall
        · exact .tooLarge hm (le_of_spells hfront h hn hm)
        · exact absurd (hsmall _ _ hfront h) (Nat.not_lt.mpr hn)
      | malformed hnumber hnegative _ => exact .malformed hnumber hnegative
    · intro h
      cases h with
      | negative h ht => exact .negative h ht
      | tooLarge h hn => exact .tooLarge List.prefix_rfl h hn
      | malformed hnumber hnegative =>
        rcases hwhole with ⟨m, hm⟩ | hsmall
        · exact absurd hm (hnumber m)
        · exact .malformed hnumber hnegative hsmall

/-- **What is wrong with a text that is no number that fits.** It is negative exactly if it is a
minus sign and digits. It is too large exactly if it begins with a number that does not fit, and
nobody asks whether there is anything behind it. Otherwise it is malformed. So what is told is wrong
with the whole text, but for texts that begin with a number that does not fit and are no number.
Blanks around the text are not told. Values and amounts are refused for the same reasons. -/
theorem parse_error_iff (w : Width) (s : String) :
    (∀ text, parse w s = .error (.range (.negative text)) ↔
      text = String.ofList (Text.trim s.toList) ∧
        ∃ ds, Digits ds ∧ Text.trim s.toList = '-' :: ds) ∧
    (∀ text bits, parse w s = .error (.range (.overflow text bits)) ↔
      text = String.ofList (Text.trim s.toList) ∧ bits = w.bits ∧
        ∃ front n, front <+: Text.trim s.toList ∧ Spells front n ∧ 2 ^ w.bits ≤ n) ∧
    (∀ e, parse w s = .error (.format e) ↔
      e = .badDecimal (String.ofList (Text.trim s.toList)) ∧
        (∀ n, ¬Spells (Text.trim s.toList) n) ∧
        (∀ ds, Digits ds → Text.trim s.toList ≠ '-' :: ds) ∧
        ∀ front n, front <+: Text.trim s.toList → Spells front n → n < 2 ^ w.bits) ∧
    ((∀ e, parse w s = .error e ↔ Fault w (Text.trim s.toList) e) ↔
      (∃ n, Spells (Text.trim s.toList) n) ∨
        ∀ front n, front <+: Text.trim s.toList → Spells front n → n < 2 ^ w.bits) ∧
    (∀ e, Value.ofDecimal s = .error e ↔ parse .word s = .error e) ∧
    (∀ e, Amount.parse s = .error e ↔ parse .doubleWord s = .error e) := by
  refine ⟨?_, ?_, ?_, parse_eq_error_iff_fault, ?_, ?_⟩
  · intro text
    exact parse_eq_negative_iff
  · intro text bits
    exact parse_eq_overflow_iff
  · intro e
    exact parse_eq_format_iff
  · intro e
    exact Value.ofDecimal_eq_error_iff
  · intro e
    exact Amount.parse_eq_error_iff

/-- A negative number, one that is too large for two words, a letter behind a number that is not,
and one behind a number that is: the last text is no numeral. -/
theorem parse_error_iff_letter :
    parse .word " -007" = .error (.range (.negative "-007")) ∧
    Spells (Text.trim "+340282366920938463463374607431768211456".toList) (2 ^ 128) ∧
    Amount.parse "+340282366920938463463374607431768211456" =
      .error (.range (.overflow "+340282366920938463463374607431768211456" 128)) ∧
    Value.ofDecimal "18446744073709551616a" =
      .error (.range (.overflow "18446744073709551616a" 64)) := by
  obtain ⟨hnegative, -⟩ := parse_error_iff .word " -007"
  obtain ⟨-, -, -, hwhole, -, hamount⟩ :=
    parse_error_iff .doubleWord "+340282366920938463463374607431768211456"
  obtain ⟨-, hlarge, -, -, hvalue, -⟩ := parse_error_iff .word "18446744073709551616a"
  have hspells : Spells (Text.trim "+340282366920938463463374607431768211456".toList) (2 ^ 128) :=
    .signed (show Digits "340282366920938463463374607431768211456".toList by decide)
  have hfront : Spells "18446744073709551616".toList (2 ^ 64) := .plain (by decide)
  refine ⟨?_, hspells, ?_, ?_⟩
  · exact (hnegative _).mpr ⟨rfl, "007".toList, by decide, rfl⟩
  · refine (hamount _).mpr ((hwhole.mpr (.inl ⟨_, hspells⟩) _).mpr ?_)
    exact .tooLarge hspells (Nat.le_refl _)
  · exact (hvalue _).mpr ((hlarge _ _).mpr ⟨rfl, rfl, _, _, ⟨['a'], rfl⟩, hfront, Nat.le_refl _⟩)

/-- A letter behind a number that is too large goes unnoticed: the text is told to be out of range,
though what is wrong with it is that it spells no number. -/
theorem overflow_of_malformed :
    parse .word "18446744073709551616a" = .error (.range (.overflow "18446744073709551616a" 64)) ∧
      (∀ n, ¬Spells (Text.trim "18446744073709551616a".toList) n) ∧
      Fault .word (Text.trim "18446744073709551616a".toList)
        (.format (.badDecimal "18446744073709551616a")) := by
  have hnumber : ∀ n, ¬Spells (Text.trim "18446744073709551616a".toList) n := by
    intro n h
    have hletter : 'a' ∈ Text.trim "18446744073709551616a".toList := by decide
    rcases eq_plus_or_isDigit_of_mem h hletter with hplus | hdigit
    · exact absurd hplus (by decide)
    · exact absurd hdigit (by decide)
  refine ⟨rfl, hnumber, .malformed hnumber ?_⟩
  intro ds hds ht
  exact absurd (isNegative_iff.mpr ⟨ds, hds, ht⟩) (by decide)

end Numeral

end NamedQuery
