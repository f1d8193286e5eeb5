import NamedQuery.Format.Hex

/-!
# Hexadecimal digits are read back

Each digit that is written is one byte of the text and has its own value, so a byte string is read
back from its digits. The digits do not begin with the marker themselves, and so it makes no
difference whether the marker stands in front of them.
-/

namespace NamedQuery.Hex

variable {n : Nat} {bytes : List UInt8} {c : Char}

/-! ## Digits -/

theorem utf8EncodeChar_digit (h : n < 16) :
    String.utf8EncodeChar (digit n) = [UInt8.ofNat (digit n).toNat] := by
  have hall : ∀ n < 16, String.utf8EncodeChar (digit n) = [UInt8.ofNat (digit n).toNat] := by decide
  exact hall n h

theorem value?_digit (h : n < 16) : value? (UInt8.ofNat (digit n).toNat) = some n := by
  have hall : ∀ n < 16, value? (UInt8.ofNat (digit n).toNat) = some n := by decide
  exact hall n h

theorem digit_ne_x (h : n < 16) : digit n ≠ 'x' := by
  have hall : ∀ n < 16, digit n ≠ 'x' := by decide
  exact hall n h

theorem high_lt (b : UInt8) : b.toNat / 16 < 16 := by
  have hb := b.toNat_lt
  omega

theorem low_lt (b : UInt8) : b.toNat % 16 < 16 := Nat.mod_lt _ (by decide)

theorem exists_digit_of_mem (h : c ∈ writeDigits bytes) : ∃ n < 16, c = digit n := by
  obtain ⟨b, -, hc⟩ := List.mem_flatMap.mp h
  rcases List.mem_cons.mp hc with rfl | hc
  · exact ⟨_, high_lt b, rfl⟩
  · exact ⟨_, low_lt b, List.mem_singleton.mp hc⟩

/-- What holds of the letter of the marker and of every digit holds of all that is written. -/
theorem forall_mem_write {p : Char → Prop} (hletter : p 'x') (hdigit : ∀ n < 16, p (digit n))
    (bytes : List UInt8) : ∀ c ∈ write bytes, p c := by
  have hmarker : ∀ c ∈ marker, p c :=
    List.forall_mem_cons.mpr ⟨hdigit 0 (by decide), List.forall_mem_singleton.mpr hletter⟩
  intro c hc
  rcases List.mem_append.mp hc with hc | hc
  · exact hmarker c hc
  · obtain ⟨n, hn, rfl⟩ := exists_digit_of_mem hc
    exact hdigit n hn

/-! ## Byte strings -/

theorem utf8_writeDigits (b : UInt8) (bytes : List UInt8) :
    (writeDigits (b :: bytes)).flatMap String.utf8EncodeChar =
      UInt8.ofNat (digit (b.toNat / 16)).toNat :: UInt8.ofNat (digit (b.toNat % 16)).toNat ::
        (writeDigits bytes).flatMap String.utf8EncodeChar := by
  show (digit (b.toNat / 16) :: digit (b.toNat % 16) :: writeDigits bytes).flatMap _ = _
  rw [List.flatMap_cons, List.flatMap_cons, utf8EncodeChar_digit (high_lt b),
    utf8EncodeChar_digit (low_lt b)]
  rfl

theorem length_utf8_writeDigits (bytes : List UInt8) :
    ((writeDigits bytes).flatMap String.utf8EncodeChar).length = 2 * bytes.length := by
  induction bytes with
  | nil => rfl
  | cons b bytes ih =>
    rw [utf8_writeDigits, List.length_cons, List.length_cons, ih, List.length_cons]
    omega

theorem readPairs_writeDigits (index : Nat) (bytes : List UInt8) :
    readPairs index ((writeDigits bytes).flatMap String.utf8EncodeChar) = .ok bytes := by
  induction bytes generalizing index with
  | nil => rfl
  | cons b bytes ih =>
    rw [utf8_writeDigits, readPairs, value?_digit (high_lt b), value?_digit (low_lt b)]
    dsimp only
    rw [ih, Nat.div_add_mod, UInt8.ofNat_toNat]
    rfl

theorem readDigits_writeDigits (index : Nat) (bytes : List UInt8) :
    readDigits index (writeDigits bytes) = .ok bytes := by
  rw [readDigits, length_utf8_writeDigits, if_neg (by omega), readPairs_writeDigits]

/-- No digit is taken for a part of the marker. -/
theorem after?_marker_writeDigits (bytes : List UInt8) :
    Text.after? marker (writeDigits bytes) = none := by
  refine Text.after?_eq_none_of_notMem (c := 'x') (by decide) fun hx => ?_
  obtain ⟨n, hn, hdigit⟩ := exists_digit_of_mem hx
  exact digit_ne_x hn hdigit.symm

theorem parse_text (bytes : List UInt8) : parse (text bytes) = .ok bytes := by
  have hmarker : Text.after? marker (write bytes) = some (writeDigits bytes) :=
    Text.after?_eq_some_iff.mpr rfl
  rw [parse, text, String.toList_ofList, parseChars, hmarker]
  exact readDigits_writeDigits 2 bytes

theorem parse_writeDigits (bytes : List UInt8) :
    parse (String.ofList (writeDigits bytes)) = .ok bytes := by
  rw [parse, String.toList_ofList, parseChars, after?_marker_writeDigits]
  exact readDigits_writeDigits 0 bytes

end NamedQuery.Hex
