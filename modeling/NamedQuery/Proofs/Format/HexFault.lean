import NamedQuery.Proofs.Format.HexGrammar
import NamedQuery.Text.Encoding

/-!
# What a hexadecimal text is refused for

A text is refused for the first of its characters that is no digit, and what is told is where this
character begins. Which character it is, is told rightly for ASCII only: the digits are looked at
byte by byte, and what is reported is the character with the number of the first byte that is no
digit. Of a longer character that is not the character itself, but for one.

* `FirstFault`: the first character that is no digit, and where it begins.
* `reported`: what is reported of a character.
* `badHexCharacter_iff_firstFault`: when a character is reported, which one, and at which place.
-/

namespace NamedQuery.Hex

/-- The first character of the text that is no digit is `c`, behind the marker if there is one. It
begins at byte `index`. -/
def FirstFault (s : String) (c : Char) (index : Nat) : Prop :=
  ∃ digits after, s.toList = lead s ++ digits ++ c :: after ∧
    index = (String.ofList (lead s ++ digits)).utf8ByteSize ∧
    (∀ d ∈ digits, isDigit d = true) ∧ isDigit c = false

/-- What is reported of a character: the character whose number is its first byte. -/
def reported (c : Char) : Char :=
  Char.ofNat ((String.utf8EncodeChar c).head String.utf8EncodeChar_ne_nil).toNat

variable {s : String} {c : Char} {b : UInt8} {index : Nat} {ds : List Char}

/-! ## Bytes -/

/-- Behind bytes with a value the first byte without one is reported, in either half of its pair. -/
theorem readPairs_of_noValue (hb : value? b = none) : ∀ {front rest : List UInt8} (index : Nat),
    (∀ a ∈ front, ∃ n, value? a = some n) → (front ++ b :: rest).length % 2 = 0 →
    readPairs index (front ++ b :: rest) =
      .error (.badHexCharacter (Char.ofNat b.toNat) (index + front.length))
  | [], [], _, _, heven => absurd heven Nat.one_ne_zero
  | [], _ :: _, _, _, _ => by
    rw [List.nil_append, readPairs, hb]
    rfl
  | [a], _, _, hfront, _ => by
    obtain ⟨hi, ha⟩ := hfront a List.mem_cons_self
    rw [List.singleton_append, readPairs, ha, hb]
    rfl
  | a :: a' :: front, rest, index, hfront, heven => by
    simp only [List.forall_mem_cons] at hfront
    obtain ⟨⟨hi, ha⟩, ⟨lo, ha'⟩, hfront⟩ := hfront
    have heven' : (front ++ b :: rest).length % 2 = 0 := by
      simp only [List.cons_append, List.length_cons] at heven
      omega
    rw [List.cons_append, List.cons_append, readPairs, ha, ha']
    dsimp only
    rw [readPairs_of_noValue hb (index + 2) hfront heven', List.length_cons, List.length_cons,
      show index + 2 + front.length = index + (front.length + 1 + 1) by omega]
    rfl

theorem exists_value_of_mem_utf8 (h : ∀ c ∈ ds, isDigit c = true)
    (hb : b ∈ ds.flatMap String.utf8EncodeChar) : ∃ n, value? b = some n := by
  obtain ⟨c, hc, hb⟩ := List.mem_flatMap.mp hb
  obtain ⟨n, -, hn, -⟩ := exists_value_of_isDigit (h c hc)
  rw [utf8EncodeChar_of_lt (toNat_lt_of_isDigit (h c hc)), List.mem_singleton] at hb
  exact ⟨n, hb ▸ hn⟩

/-- No byte of a character that is no digit has a value. -/
theorem value?_eq_none (hc : isDigit c = false) (hb : b ∈ String.utf8EncodeChar c) :
    value? b = none := by
  cases hv : value? b with
  | none => rfl
  | some n =>
    rw [isDigit_of_value hb hv] at hc
    cases hc

/-! ## Characters -/

theorem readDigits_of_fault {after : List Char} (index : Nat) (hds : ∀ d ∈ ds, isDigit d = true)
    (hc : isDigit c = false)
    (heven : ((ds ++ c :: after).flatMap String.utf8EncodeChar).length % 2 = 0) :
    readDigits index (ds ++ c :: after) =
      .error (.badHexCharacter (reported c) (index + ds.length)) := by
  rw [readDigits, if_neg (by omega)]
  rw [List.flatMap_append, List.flatMap_cons] at heven ⊢
  rw [← List.cons_head_tail (String.utf8EncodeChar_ne_nil (c := c)), List.cons_append] at heven ⊢
  rw [readPairs_of_noValue (value?_eq_none hc (List.head_mem _)) index
    (fun _ => exists_value_of_mem_utf8 hds) heven, length_utf8_of_isDigit hds]
  rfl

/-! ## What is reported -/

/-- Outside ASCII there is one character whose first byte is its number. -/
theorem firstByte_eq_iff (h : 128 ≤ c.toNat) :
    ((String.utf8EncodeChar c).head String.utf8EncodeChar_ne_nil).toNat = c.toNat ↔
      c.toNat = 0xc3 := by
  have hc : 0x7f < c.val.toNat := h
  show _ = c.val.toNat ↔ c.val.toNat = 0xc3
  unfold String.utf8EncodeChar
  simp only [if_neg (Nat.not_le.mpr hc)]
  split
  · -- two bytes: the first is 192 and the bits above the lowest six
    have hhigh : c.val.toNat / 64 < 32 := by omega
    have hbyte : c.val.toNat / 64 + 192 < 256 := by omega
    simp only [List.head_cons, UInt8.toNat_ofNat', Nat.mod_eq_of_lt hhigh, Nat.mod_eq_of_lt hbyte]
    omega
  · -- with more bytes the number is too large for a byte
    split
    · simp only [List.head_cons, UInt8.toNat_ofNat']
      omega
    · simp only [List.head_cons, UInt8.toNat_ofNat']
      omega

theorem toNat_ofNat_byte (b : UInt8) : (Char.ofNat b.toNat).toNat = b.toNat := by
  have hall : ∀ n < 256, (Char.ofNat n).toNat = n := by decide +kernel
  exact hall b.toNat b.toNat_lt

/-- Of a single byte the character itself is reported, and of more bytes another character, but for
the one whose first byte is its number. -/
theorem reported_eq_self_iff (c : Char) : reported c = c ↔ c.toNat < 128 ∨ c = '\u00c3' := by
  rw [← Char.toNat_inj, ← Char.toNat_inj, reported, toNat_ofNat_byte]
  by_cases h : c.toNat < 128
  · simp only [utf8EncodeChar_of_lt h, List.head_cons, h, true_or, iff_true]
    rw [UInt8.toNat_ofNat', Nat.mod_eq_of_lt (by omega)]
  · rw [firstByte_eq_iff (Nat.le_of_not_lt h)]
    exact ⟨Or.inr, fun hc => hc.resolve_left h⟩

/-! ## Texts -/

/-- The marker and the digits take up a byte each. -/
theorem utf8ByteSize_lead (s : String) (hds : ∀ d ∈ ds, isDigit d = true) :
    (String.ofList (lead s ++ ds)).utf8ByteSize = (lead s).length + ds.length := by
  have hlead : ((lead s).flatMap String.utf8EncodeChar).length = (lead s).length := by
    rw [lead]
    split
    · decide
    · rfl
  rw [← Text.length_utf8, Text.utf8_ofList, List.flatMap_append, List.length_append, hlead,
    length_utf8_of_isDigit hds]

/-- Unless all are digits, there is a first character that is none. -/
theorem exists_firstFault (h : ¬∀ d ∈ body s, isDigit d = true) :
    ∃ c index, FirstFault s c index := by
  cases hfind : (body s).find? fun d => !isDigit d with
  | none =>
    have hall : ∀ d ∈ body s, isDigit d = true := by
      intro d hd
      simpa using List.find?_eq_none.mp hfind d hd
    exact absurd hall h
  | some c =>
    obtain ⟨hc, digits, after, hbody, hdigits⟩ := List.find?_eq_some_iff_append.mp hfind
    refine ⟨c, _, digits, after, ?_, rfl, ?_, ?_⟩
    · rw [← lead_append_body, hbody, List.append_assoc]
    · intro d hd
      simpa using hdigits d hd
    · simpa using hc

/-- Where the first fault is, counted behind the marker. -/
theorem FirstFault.body_eq (h : FirstFault s c index) : ∃ digits after,
    body s = digits ++ c :: after ∧ index = (lead s).length + digits.length ∧
      (∀ d ∈ digits, isDigit d = true) ∧ isDigit c = false := by
  obtain ⟨digits, after, hs, hindex, hdigits, hc⟩ := h
  rw [← lead_append_body, List.append_assoc] at hs
  rw [utf8ByteSize_lead s hdigits] at hindex
  exact ⟨digits, after, List.append_cancel_left hs, hindex, hdigits, hc⟩

theorem FirstFault.find?_eq (h : FirstFault s c index) :
    ((body s).find? fun d => !isDigit d) = some c := by
  obtain ⟨digits, after, hbody, -, hdigits, hc⟩ := h.body_eq
  refine List.find?_eq_some_iff_append.mpr ⟨?_, digits, after, hbody, ?_⟩
  · rw [hc]
    rfl
  · intro d hd
    rw [hdigits d hd]
    rfl

/-- There is only one character that is the first without being a digit. -/
theorem FirstFault.unique {c' : Char} {index' : Nat} (h : FirstFault s c index)
    (h' : FirstFault s c' index') : c = c' := by
  have hfind := h.find?_eq
  rw [h'.find?_eq] at hfind
  exact (Option.some.inj hfind).symm

theorem parse_of_firstFault (h : FirstFault s c index)
    (heven : ((body s).flatMap String.utf8EncodeChar).length % 2 = 0) :
    parse s = .error (.badHexCharacter (reported c) index) := by
  obtain ⟨digits, after, hbody, rfl, hdigits, hc⟩ := h.body_eq
  rw [hbody] at heven
  rw [parse_eq, hbody, readDigits_of_fault _ hdigits hc heven]

/-- **A character is reported exactly if the digits are an even number of bytes and one of them is
no digit.** The place is the byte at which the first such character begins, counted with the marker.
What is reported at this place is the character with the number of that byte, and so the one that
stands there if that is in ASCII. Of all others there is only one that is reported as itself. -/
theorem badHexCharacter_iff_firstFault (s : String) :
    (∀ shown index, parse s = .error (.badHexCharacter shown index) ↔
      ((body s).flatMap String.utf8EncodeChar).length % 2 = 0 ∧
        ∃ c, FirstFault s c index ∧ shown = reported c) ∧
    ∀ c index, FirstFault s c index →
      (FirstFault s (reported c) index ↔ c.toNat < 128 ∨ c = '\u00c3') := by
  refine ⟨fun shown index => ⟨?_, ?_⟩, ?_⟩
  · intro h
    have heven : ((body s).flatMap String.utf8EncodeChar).length % 2 = 0 := by
      rw [parse_eq, readDigits] at h
      split at h
      · cases h
      · omega
    have hfault : ¬∀ d ∈ body s, isDigit d = true := by
      -- an even number of digits would be read
      intro hdigits
      rw [length_utf8_of_isDigit hdigits] at heven
      obtain ⟨bytes, hread⟩ := (readDigits_isOk_iff (lead s).length (body s)).mpr ⟨heven, hdigits⟩
      rw [parse_eq, hread] at h
      cases h
    obtain ⟨c, index', hc⟩ := exists_firstFault hfault
    rw [parse_of_firstFault hc heven] at h
    cases h
    exact ⟨heven, c, hc, rfl⟩
  · rintro ⟨heven, c, hc, rfl⟩
    exact parse_of_firstFault hc heven
  · intro c index hc
    rw [← reported_eq_self_iff]
    constructor
    · intro hshown
      exact hshown.unique hc
    · intro hself
      rwa [hself]

/-- The place is right in either half of a pair and behind the marker. -/
example : parse "0x1g" = .error (.badHexCharacter 'g' 3) ∧
    parse "0x1\u00e92" = .error (.badHexCharacter '\u00c3' 3) := ⟨rfl, rfl⟩

/-- An acute accent is reported as a tilde: at the place there is another character. -/
theorem other_character_reported :
    parse "\u00e9" = .error (.badHexCharacter '\u00c3' 0) ∧
    FirstFault "\u00e9" '\u00e9' 0 ∧ ¬FirstFault "\u00e9" '\u00c3' 0 := by
  refine ⟨rfl, ⟨[], [], rfl, rfl, fun _ => nofun, rfl⟩, ?_⟩
  rintro ⟨digits, after, hs, -, -, -⟩
  have hmem : '\u00c3' ∈ "\u00e9".toList := by
    rw [hs]
    exact List.mem_append_right _ List.mem_cons_self
  exact absurd hmem (by decide)

end NamedQuery.Hex
