import NamedQuery.Proofs.Format.Hex

/-!
# The grammar of hexadecimal texts

Which texts are read as byte strings, said without the reader: an even number of digits of either
case, behind at most one marker. All that is lost by reading is the case of the digits and whether
the marker was there. A character outside ASCII is never a digit, though it is several bytes.

* `isDigit`, `lead`, `body`: the digits, the marker of a text, and the part of the text that must
  consist of digits.
* `readDigits_isOk_iff`: what digits are read.
* `parse_iff_digits`: what texts are read, as which byte strings, and when as the same.
-/

namespace NamedQuery.Hex

/-- The digits that are written. -/
def isLowerDigit (c : Char) : Bool := ('0' ≤ c && c ≤ '9') || ('a' ≤ c && c ≤ 'f')

/-- The digits that are read. -/
def isDigit (c : Char) : Bool := isLowerDigit c || ('A' ≤ c && c ≤ 'F')

/-- The marker, if the text begins with one. -/
def lead (s : String) : List Char := if marker <+: s.toList then marker else []

/-- A text without the marker that it may begin with. -/
def body (s : String) : List Char :=
  if marker <+: s.toList then s.toList.drop marker.length else s.toList

variable {c : Char} {b : UInt8} {n index : Nat} {ds : List Char} {bytes : List UInt8}

/-! ## Characters -/

/-- Every byte of a character outside ASCII has its high bit set. -/
theorem le_of_mem_utf8EncodeChar (h : 128 ≤ c.toNat) (hb : b ∈ String.utf8EncodeChar c) :
    128 ≤ b.toNat := by
  have hc : ¬c.val.toNat ≤ 0x7f := Nat.not_le.mpr h
  unfold String.utf8EncodeChar at hb
  simp only [if_neg hc] at hb
  split at hb
  · simp only [List.mem_cons, List.not_mem_nil, or_false] at hb
    rcases hb with rfl | rfl <;> simp only [UInt8.toNat_ofNat'] <;> omega
  · split at hb
    · simp only [List.mem_cons, List.not_mem_nil, or_false] at hb
      rcases hb with rfl | rfl | rfl <;> simp only [UInt8.toNat_ofNat'] <;> omega
    · simp only [List.mem_cons, List.not_mem_nil, or_false] at hb
      rcases hb with rfl | rfl | rfl | rfl <;> simp only [UInt8.toNat_ofNat'] <;> omega

theorem utf8EncodeChar_of_lt (h : c.toNat < 128) :
    String.utf8EncodeChar c = [UInt8.ofNat c.toNat] := by
  unfold String.utf8EncodeChar
  exact if_pos (Nat.le_of_lt_succ h)

theorem toNat_lt_of_isDigit (h : isDigit c = true) : c.toNat < 128 := by
  simp only [isDigit, isLowerDigit, Bool.or_eq_true, Bool.and_eq_true, decide_eq_true_eq,
    Char.le_def, UInt32.le_iff_toNat_le] at h
  show c.val.toNat < 128
  rcases h with (h | h) | h
  · exact Nat.lt_of_le_of_lt h.2 (by decide)
  · exact Nat.lt_of_le_of_lt h.2 (by decide)
  · exact Nat.lt_of_le_of_lt h.2 (by decide)

/-- A digit of either case has the value of the lowercase digit. -/
theorem exists_value_of_isDigit (h : isDigit c = true) :
    ∃ n < 16, value? (UInt8.ofNat c.toNat) = some n ∧ digit n = c.toLower := by
  have hall : ∀ k < 128, isDigit (Char.ofNat k) = true →
      ∃ n < 16, value? (UInt8.ofNat k) = some n ∧ digit n = (Char.ofNat k).toLower := by
    decide +kernel
  have hc := hall c.toNat (toNat_lt_of_isDigit h)
  rw [Char.ofNat_toNat] at hc
  exact hc h

/-- A byte with a value makes its character a digit. -/
theorem isDigit_of_value (hb : b ∈ String.utf8EncodeChar c) (hv : value? b = some n) :
    isDigit c = true := by
  by_cases hc : c.toNat < 128
  · have hall : ∀ k < 128, value? (UInt8.ofNat k) = none ∨ isDigit (Char.ofNat k) = true := by
      decide +kernel
    rw [utf8EncodeChar_of_lt hc, List.mem_singleton] at hb
    subst hb
    rcases hall c.toNat hc with hnone | hdigit
    · rw [hnone] at hv
      cases hv
    · rwa [Char.ofNat_toNat] at hdigit
  · have hhigh := le_of_mem_utf8EncodeChar (Nat.le_of_not_lt hc) hb
    unfold value? at hv
    simp only [show ¬(48 ≤ b.toNat ∧ b.toNat ≤ 57) by omega,
      show ¬(97 ≤ b.toNat ∧ b.toNat ≤ 102) by omega,
      show ¬(65 ≤ b.toNat ∧ b.toNat ≤ 70) by omega, if_false] at hv
    cases hv

/-! ## Digits -/

/-- As many bytes as digits. -/
theorem length_utf8_of_isDigit (h : ∀ c ∈ ds, isDigit c = true) :
    (ds.flatMap String.utf8EncodeChar).length = ds.length := by
  induction ds with
  | nil => rfl
  | cons c ds ih =>
    rw [List.forall_mem_cons] at h
    rw [List.flatMap_cons, utf8EncodeChar_of_lt (toNat_lt_of_isDigit h.1), List.singleton_append,
      List.length_cons, List.length_cons, ih h.2]

/-- Pairs of digits are read, and their bytes are written as the same digits in lowercase. -/
theorem readPairs_of_isDigit (index : Nat) : ∀ {ds : List Char}, (∀ c ∈ ds, isDigit c = true) →
    ds.length % 2 = 0 → ∃ bytes, readPairs index (ds.flatMap String.utf8EncodeChar) = .ok bytes ∧
      writeDigits bytes = ds.map Char.toLower
  | [], _, _ => ⟨[], rfl, rfl⟩
  | [_], _, heven => absurd heven Nat.one_ne_zero
  | a :: b :: ds, h, heven => by
    simp only [List.forall_mem_cons] at h
    obtain ⟨ha, hb, hds⟩ := h
    obtain ⟨hi, hhi, hhigh, hdigitHigh⟩ := exists_value_of_isDigit ha
    obtain ⟨lo, hlo, hlow, hdigitLow⟩ := exists_value_of_isDigit hb
    obtain ⟨bytes, hread, hwritten⟩ := readPairs_of_isDigit (index + 2) hds (by
      simp only [List.length_cons] at heven
      omega)
    refine ⟨UInt8.ofNat (16 * hi + lo) :: bytes, ?_, ?_⟩
    · simp only [List.flatMap_cons, utf8EncodeChar_of_lt (toNat_lt_of_isDigit ha),
        utf8EncodeChar_of_lt (toNat_lt_of_isDigit hb), List.singleton_append, readPairs, hhigh,
        hlow, hread]
      rfl
    · have hbyte : (UInt8.ofNat (16 * hi + lo)).toNat = 16 * hi + lo := by
        rw [UInt8.toNat_ofNat', Nat.mod_eq_of_lt (by omega)]
      show digit ((UInt8.ofNat (16 * hi + lo)).toNat / 16) ::
        digit ((UInt8.ofNat (16 * hi + lo)).toNat % 16) :: writeDigits bytes = _
      rw [hbyte, show (16 * hi + lo) / 16 = hi by omega, show (16 * hi + lo) % 16 = lo by omega,
        hdigitHigh, hdigitLow, hwritten, List.map_cons, List.map_cons]

/-- Every byte that is read has a value. -/
theorem exists_value_of_readPairs : ∀ {index : Nat} {input bytes : List UInt8},
    readPairs index input = .ok bytes → ∀ b ∈ input, ∃ n, value? b = some n
  | _, [], _, _ => nofun
  | index, a :: b :: rest, _, h => by
    rw [readPairs] at h
    cases ha : value? a with
    | none =>
      rw [ha] at h
      cases h
    | some hi =>
      cases hb : value? b with
      | none =>
        rw [ha, hb] at h
        cases h
      | some lo =>
        rw [ha, hb] at h
        cases hrest : readPairs (index + 2) rest with
        | error e =>
          simp only [hrest] at h
          cases h
        | ok bytes =>
          simp only [List.forall_mem_cons]
          exact ⟨⟨hi, ha⟩, ⟨lo, hb⟩, exists_value_of_readPairs hrest⟩

theorem readDigits_isOk_iff (index : Nat) (ds : List Char) :
    (∃ bytes, readDigits index ds = .ok bytes) ↔
      ds.length % 2 = 0 ∧ ∀ c ∈ ds, isDigit c = true := by
  constructor
  · rintro ⟨bytes, h⟩
    rw [readDigits] at h
    split at h
    · cases h
    · rename_i hodd
      have hdigits : ∀ c ∈ ds, isDigit c = true := by
        intro c hc
        -- a character has a first byte, and this one was read
        obtain ⟨b, hb⟩ := List.exists_mem_of_ne_nil _ (String.utf8EncodeChar_ne_nil (c := c))
        obtain ⟨n, hn⟩ := exists_value_of_readPairs h b (List.mem_flatMap.mpr ⟨c, hc, hb⟩)
        exact isDigit_of_value hb hn
      rw [length_utf8_of_isDigit hdigits] at hodd
      exact ⟨by omega, hdigits⟩
  · rintro ⟨heven, hdigits⟩
    obtain ⟨bytes, hread, -⟩ := readPairs_of_isDigit index hdigits heven
    refine ⟨bytes, ?_⟩
    rw [readDigits, length_utf8_of_isDigit hdigits, if_neg (by omega), hread]

theorem writeDigits_of_readDigits (h : readDigits index ds = .ok bytes) :
    writeDigits bytes = ds.map Char.toLower := by
  obtain ⟨heven, hdigits⟩ := (readDigits_isOk_iff index ds).mp ⟨bytes, h⟩
  obtain ⟨bytes', hread, hwritten⟩ := readPairs_of_isDigit index hdigits heven
  rw [readDigits, length_utf8_of_isDigit hdigits, if_neg (by omega), hread] at h
  cases h
  exact hwritten

/-! ## Texts -/

theorem lead_append_body (s : String) : lead s ++ body s = s.toList := by
  rw [lead, body]
  split
  case isTrue h =>
    obtain ⟨ds, hds⟩ := h
    rw [← hds, List.drop_left]
  case isFalse => rfl

/-- The digits are read from the place where they stand in the text. -/
theorem parse_eq (s : String) : parse s = readDigits (lead s).length (body s) := by
  rw [parse, parseChars]
  cases hafter : Text.after? marker s.toList with
  | some ds =>
    rw [Text.after?_eq_some_iff] at hafter
    have hmarker : marker <+: s.toList := ⟨ds, hafter.symm⟩
    rw [body, lead, if_pos hmarker, if_pos hmarker, hafter, List.drop_left]
    rfl
  | none =>
    have hmarker : ¬marker <+: s.toList := by
      rintro ⟨ds, hds⟩
      rw [Text.after?_eq_some_iff.mpr hds.symm] at hafter
      cases hafter
    rw [body, lead, if_neg hmarker, if_neg hmarker]
    rfl

theorem parse_eq_readDigits (s : String) : ∃ index, parse s = readDigits index (body s) :=
  ⟨_, parse_eq s⟩

theorem length_writeDigits (bytes : List UInt8) : (writeDigits bytes).length = 2 * bytes.length := by
  induction bytes with
  | nil => rfl
  | cons b bytes ih =>
    show (writeDigits bytes).length + 2 = 2 * (bytes.length + 1)
    omega

theorem isLowerDigit_of_mem_writeDigits (h : c ∈ writeDigits bytes) : isLowerDigit c = true := by
  have hall : ∀ n < 16, isLowerDigit (digit n) = true := by decide
  obtain ⟨n, hn, rfl⟩ := exists_digit_of_mem h
  exact hall n hn

theorem text_injective {bytes' : List UInt8} (h : text bytes = text bytes') : bytes = bytes' := by
  have hparse := parse_text bytes
  rw [h, parse_text] at hparse
  exact (Except.ok.inj hparse).symm

/-- **A text is read exactly if it is an even number of digits**, of either case and behind at most
one marker. There is a byte for each pair of them, and what is written of the bytes are the marker
and the digits in lowercase. What is written of any bytes is read as these bytes. So two texts are
read as the same bytes exactly if their digits are the same but for the case. -/
theorem parse_iff_digits :
    (∀ s, (∃ bytes, parse s = .ok bytes) ↔
      (body s).length % 2 = 0 ∧ ∀ c ∈ body s, isDigit c = true) ∧
    (∀ s bytes, parse s = .ok bytes → 2 * bytes.length = (body s).length ∧
      text bytes = "0x" ++ String.ofList ((body s).map Char.toLower)) ∧
    (∀ bytes, (∃ ds, text bytes = "0x" ++ String.ofList ds ∧ ∀ c ∈ ds, isLowerDigit c = true) ∧
      parse (text bytes) = .ok bytes) ∧
    ∀ s s' bytes bytes', parse s = .ok bytes → parse s' = .ok bytes' →
      (bytes = bytes' ↔ (body s).map Char.toLower = (body s').map Char.toLower) := by
  have hwritten (s : String) (bytes : List UInt8) (h : parse s = .ok bytes) :
      writeDigits bytes = (body s).map Char.toLower := by
    obtain ⟨index, hindex⟩ := parse_eq_readDigits s
    rw [hindex] at h
    exact writeDigits_of_readDigits h
  have htext (bytes : List UInt8) : text bytes = "0x" ++ String.ofList (writeDigits bytes) := by
    rw [text, write, String.ofList_append]
    rfl
  refine ⟨?_, ?_, ?_, ?_⟩
  · intro s
    obtain ⟨index, hindex⟩ := parse_eq_readDigits s
    rw [hindex]
    exact readDigits_isOk_iff index (body s)
  · intro s bytes h
    rw [htext, hwritten s bytes h, ← length_writeDigits, hwritten s bytes h, List.length_map]
    exact ⟨rfl, rfl⟩
  · intro bytes
    exact ⟨⟨writeDigits bytes, htext bytes, fun _ => isLowerDigit_of_mem_writeDigits⟩,
      parse_text bytes⟩
  · intro s s' bytes bytes' h h'
    rw [← hwritten s bytes h, ← hwritten s' bytes' h']
    constructor
    · rintro rfl
      rfl
    · intro hdigits
      exact text_injective (by rw [htext, htext, hdigits])

/-- Two cases and one marker make no difference, and a second marker is no digits. -/
theorem parse_iff_digits_mixed :
    parse "0xAbcD" = .ok [0xAB, 0xCD] ∧ parse "aBCd" = .ok [0xAB, 0xCD] ∧
    text [0xAB, 0xCD] = "0x" ++ String.ofList ((body "0xAbcD").map Char.toLower) ∧
    (body "0xAbcD").map Char.toLower = (body "aBCd").map Char.toLower ∧
    ¬∃ bytes, parse "0x0xab" = .ok bytes := by
  obtain ⟨hread, hwritten, -, hsame⟩ := parse_iff_digits
  have hmarked : parse "0xAbcD" = .ok [0xAB, 0xCD] := rfl
  have hplain : parse "aBCd" = .ok [0xAB, 0xCD] := rfl
  refine ⟨hmarked, hplain, (hwritten _ _ hmarked).2, (hsame _ _ _ _ hmarked hplain).mp rfl, ?_⟩
  rw [hread]
  rintro ⟨-, hdigits⟩
  exact absurd (hdigits 'x' (by decide)) (by decide)

end NamedQuery.Hex
