import NamedQuery.Format.Numeral

/-!
# Numerals are read back

What is written of a number is its decimal digits, at least one. A reader whose bound is above the
number reads it back; for any other the number is too large.

* `write_eq_toDigits`, `ofList_writeInt`: what is written are the decimal digits of the number.
* `readDigits_of_isDigit`: what digits are read as.
* `read_write`: what a strict reader makes of a number that was written.
-/

namespace NamedQuery.Numeral

variable {bound d n : Nat}

theorem isDigit_digitChar (h : d < 10) : (digitChar d).isDigit = true := by
  have hall : ∀ d < 10, (digitChar d).isDigit = true := by decide
  exact hall d h

theorem isDigit_of_mem_write {c : Char} (h : c ∈ write n) : c.isDigit = true := by
  induction n using Nat.strongRecOn with
  | ind n ih =>
    rw [write] at h
    split at h
    · rename_i hn
      rw [List.mem_singleton.mp h]
      exact isDigit_digitChar hn
    · rcases List.mem_append.mp h with hfront | hlast
      · exact ih (n / 10) (by omega) hfront
      · rw [List.mem_singleton.mp hlast]
        exact isDigit_digitChar (Nat.mod_lt n (by decide))

theorem write_ne_nil (n : Nat) : write n ≠ [] := by
  rw [write]
  split
  · exact List.cons_ne_nil _ _
  · exact List.append_ne_nil_of_right_ne_nil _ (List.cons_ne_nil _ _)

/-! ## Digits -/

theorem digitChar_eq (h : d < 10) : digitChar d = Nat.digitChar d := by
  have hall : ∀ d < 10, digitChar d = Nat.digitChar d := by decide
  exact hall d h

theorem write_eq_toDigits (n : Nat) : write n = Nat.toDigits 10 n := by
  induction n using Nat.strongRecOn with
  | ind n ih =>
    rw [write, Nat.toDigits_eq_if (by decide)]
    split
    · rename_i hn
      rw [digitChar_eq hn]
    · rw [ih (n / 10) (by omega), digitChar_eq (Nat.mod_lt n (by decide))]

theorem ofDigitChars_write (n : Nat) : Nat.ofDigitChars 10 (write n) 0 = n := by
  rw [write_eq_toDigits, Nat.ofDigitChars_ten_toDigits]

/-- Further digits only make a number larger. -/
theorem le_ofDigitChars (ds : List Char) (value : Nat) : value ≤ Nat.ofDigitChars 10 ds value := by
  rw [Nat.ofDigitChars_eq_ofDigitChars_zero]
  exact Nat.le_add_right_of_le (Nat.le_mul_of_pos_left _ (Nat.pow_pos (by decide)))

/-- There is no zero in front of a number. -/
theorem head_write_ne_zero (hn : 0 < n) : ∀ c ∈ (write n).head?, c ≠ '0' := by
  induction n using Nat.strongRecOn with
  | ind n ih =>
    rw [write]
    split
    case isTrue hlt =>
      intro c hc
      cases hc
      have hall : ∀ d < 10, 0 < d → digitChar d ≠ '0' := by decide
      exact hall n hlt hn
    case isFalse =>
      have ih := ih (n / 10) (by omega) (by omega)
      cases hw : write (n / 10) with
      | nil => exact absurd hw (write_ne_nil _)
      | cons c cs =>
        rw [hw] at ih
        exact ih

/-- An integer is written as usual. -/
theorem ofList_writeInt (n : Int) : String.ofList (writeInt n) = toString n := by
  cases n with
  | ofNat n =>
    show String.ofList (write n) = Nat.repr n
    rw [write_eq_toDigits, Nat.repr_eq_ofList_toDigits]
  | negSucc n =>
    show String.ofList ('-' :: write (n + 1)) = "-" ++ Nat.repr (n + 1)
    rw [write_eq_toDigits, Nat.repr_eq_ofList_toDigits, String.ofList_cons]
    rfl

/-! ## Reading -/

/-- Further digits are read only if the first are no fault. -/
theorem readDigits_append (bound value : Nat) (cs cs' : List Char) :
    readDigits bound value (cs ++ cs') =
      (readDigits bound value cs).bind fun value' => readDigits bound value' cs' := by
  induction cs generalizing value with
  | nil => rfl
  | cons c cs ih =>
    rw [List.cons_append, readDigits, readDigits]
    split
    · split
      · exact ih _
      · rfl
    · rfl

/-- Digits are read as their number, or as too large a one. -/
theorem readDigits_of_isDigit {value : Nat} {ds : List Char} (hne : ds ≠ [])
    (h : ∀ c ∈ ds, c.isDigit = true) :
    readDigits bound value ds =
      if Nat.ofDigitChars 10 ds value < bound then .ok (Nat.ofDigitChars 10 ds value)
      else .error .tooLarge := by
  induction ds generalizing value with
  | nil => exact absurd rfl hne
  | cons c cs ih =>
    rw [List.forall_mem_cons] at h
    have hcons : Nat.ofDigitChars 10 (c :: cs) value =
        Nat.ofDigitChars 10 cs (10 * value + digitValue c) := Nat.ofDigitChars_cons
    rw [readDigits, if_pos h.1, hcons]
    by_cases hlt : 10 * value + digitValue c < bound
    · rw [if_pos hlt]
      cases cs with
      | nil => rw [readDigits, Nat.ofDigitChars_nil, if_pos hlt]
      | cons c' cs => exact ih (List.cons_ne_nil c' cs) h.2
    · have hle := le_ofDigitChars cs (10 * value + digitValue c)
      rw [if_neg hlt, if_neg (by omega)]

theorem readDigits_write (bound n : Nat) :
    readDigits bound 0 (write n) = if n < bound then .ok n else .error .tooLarge := by
  rw [readDigits_of_isDigit (write_ne_nil n) fun _ hc => isDigit_of_mem_write hc,
    ofDigitChars_write]

/-- Without a plus sign in front the digits are read as they are. -/
theorem read_of_ne_plus {c : Char} {cs : List Char} (h : c ≠ '+') :
    read bound (c :: cs) = readDigits bound 0 (c :: cs) := by
  unfold read
  split <;> simp_all

theorem read_of_isDigit {c : Char} {cs : List Char} (h : c.isDigit = true) :
    read bound (c :: cs) = readDigits bound 0 (c :: cs) := by
  refine read_of_ne_plus ?_
  rintro rfl
  cases h

theorem read_write (bound n : Nat) :
    read bound (write n) = if n < bound then .ok n else .error .tooLarge := by
  cases hw : write n with
  | nil => exact absurd hw (write_ne_nil n)
  | cons c cs =>
    have hmem : c ∈ write n := by
      rw [hw]
      exact List.mem_cons_self
    rw [read_of_isDigit (isDigit_of_mem_write hmem), ← hw, readDigits_write]

theorem isBlank_of_isDigit {c : Char} (h : c.isDigit = true) : Text.isBlank c = false := by
  rw [Char.isDigit, Bool.and_eq_true, decide_eq_true_eq, decide_eq_true_eq] at h
  have hlow : 48 ≤ c.toNat := h.1
  have hhigh : c.toNat ≤ 57 := h.2
  simp [Text.isBlank, Text.inRanges, Text.blankRanges]
  omega

theorem notMem_write {c : Char} (h : c.isDigit = false) : c ∉ write n := by
  intro hmem
  cases h.symm.trans (isDigit_of_mem_write hmem)

end NamedQuery.Numeral
