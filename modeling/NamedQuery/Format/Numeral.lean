import NamedQuery.Format.Error
import NamedQuery.Format.Width
import NamedQuery.Text.Blank

/-!
# Decimal numerals

Unsigned numbers as decimal digits. `Numeral.read` takes digits from the left and stops at the first
fault: a character that is no digit, or the digit that carries the value past the bound. At one
position the first of the two wins, so a long run of digits that is already too large hides whatever
follows it. `Numeral.parse` is the lenient reader for people: it trims blanks and tells numbers that
are out of range from texts that are no numbers.
-/

namespace NamedQuery

/-- Why a text is no numeral below the bound. -/
inductive NumeralFault where
  | empty
  /-- A character is no digit, or a sign stands alone. -/
  | badDigit
  | tooLarge
  deriving DecidableEq, Repr

/-- The wording of a numeral fault. -/
def NumeralFault.message : NumeralFault → String
  | .empty => "cannot parse integer from empty string"
  | .badDigit => "invalid digit found in string"
  | .tooLarge => "number too large to fit in target type"

namespace Numeral

/-- The value of a decimal digit. -/
def digitValue (c : Char) : Nat := c.toNat - 48

/-- The digit that stands for a value below ten. -/
def digitChar (d : Nat) : Char := Char.ofNat (48 + d)

/-- The number in decimal digits, without leading zeros. -/
def write (n : Nat) : List Char :=
  if n < 10 then [digitChar n] else write (n / 10) ++ [digitChar (n % 10)]

/-- The number as a text. -/
def text (n : Nat) : String := String.ofList (write n)

/-- An integer in decimal digits, with a sign if it is below zero. -/
def writeInt : Int → List Char
  | .ofNat n => write n
  | .negSucc n => '-' :: write (n + 1)

/-- Carries on from `value` with further digits, below `bound`. -/
def readDigits (bound : Nat) : (value : Nat) → List Char → Except NumeralFault Nat
  | value, [] => .ok value
  | value, c :: cs =>
    if c.isDigit then
      if 10 * value + digitValue c < bound then readDigits bound (10 * value + digitValue c) cs
      else .error .tooLarge
    else .error .badDigit

/-- Reads an optional plus sign and at least one digit. -/
def read (bound : Nat) : List Char → Except NumeralFault Nat
  | [] => .error .empty
  | ['+'] => .error .badDigit
  | '+' :: cs => readDigits bound 0 cs
  | cs => readDigits bound 0 cs

theorem readDigits_lt {bound value n : Nat} {cs : List Char} (hv : value < bound)
    (h : readDigits bound value cs = .ok n) : n < bound := by
  induction cs generalizing value with
  | nil => simp only [readDigits, Except.ok.injEq] at h; omega
  | cons c cs ih =>
    simp only [readDigits] at h
    split at h
    · split at h
      · rename_i hlt; exact ih hlt h
      · cases h
    · cases h

/-- What is read stays below the bound. -/
theorem read_lt {bound n : Nat} {cs : List Char} (hb : 0 < bound) (h : read bound cs = .ok n) :
    n < bound := by
  unfold read at h
  split at h
  · cases h
  · cases h
  · exact readDigits_lt hb h
  · exact readDigits_lt hb h

/-- Whether the text is a minus sign before at least one digit. -/
def isNegative : List Char → Bool
  | '-' :: c :: cs => (c :: cs).all Char.isDigit
  | _ => false

/-- Reads a number of some width between blanks. A negative numeral is out of range, not malformed.
-/
def parse (w : Width) (s : String) : Except NumberError Nat :=
  let t := Text.trim s.toList
  if isNegative t then .error (.range (.negative (String.ofList t)))
  else
    match read w.bound t with
    | .ok n => .ok n
    | .error .tooLarge => .error (.range (.overflow (String.ofList t) w.bits))
    | .error _ => .error (.format (.badDecimal (String.ofList t)))

/-- What is parsed fits the width. -/
theorem parse_lt {w : Width} {n : Nat} {s : String} (h : parse w s = .ok n) : n < w.bound := by
  simp only [parse] at h
  split at h
  · cases h
  · split at h
    · rename_i m hm
      cases h
      exact read_lt w.bound_pos hm
    · cases h
    · cases h

end Numeral

end NamedQuery
