import NamedQuery.Format.Error
import NamedQuery.Text.Blank

/-!
# Hexadecimal text

Byte strings are written as lowercase digits behind the marker `0x`. Reading takes digits of either
case, with or without the marker. Digits are counted and pointed at in bytes of the text.
-/

namespace NamedQuery.Hex

/-- The marker in front of the digits. -/
def marker : List Char := ['0', 'x']

/-- The lowercase digit of a value below sixteen. -/
def digit (n : Nat) : Char := if n < 10 then Char.ofNat (48 + n) else Char.ofNat (87 + n)

/-- The value of a digit of either case, given as a byte of the text. -/
def value? (b : UInt8) : Option Nat :=
  let n := b.toNat
  if 48 ≤ n ∧ n ≤ 57 then some (n - 48)
  else if 97 ≤ n ∧ n ≤ 102 then some (n - 87)
  else if 65 ≤ n ∧ n ≤ 70 then some (n - 55)
  else none

/-- The two digits of each byte, high half first. -/
def writeDigits (bytes : List UInt8) : List Char :=
  bytes.flatMap fun b => [digit (b.toNat / 16), digit (b.toNat % 16)]

/-- The bytes as digits behind the marker. -/
def write (bytes : List UInt8) : List Char := marker ++ writeDigits bytes

/-- The bytes as a text. -/
def text (bytes : List UInt8) : String := String.ofList (write bytes)

/-- Reads pairs of digits; `index` is where the first byte stands. A byte that is no digit is
reported as the character of that number, wherever it stands in its pair. -/
def readPairs (index : Nat) : List UInt8 → Except FormatError (List UInt8)
  | [] => .ok []
  | [b] => .error (.badHexCharacter (Char.ofNat b.toNat) index)
  | a :: b :: rest =>
    match value? a, value? b with
    | none, _ => .error (.badHexCharacter (Char.ofNat a.toNat) index)
    | some _, none => .error (.badHexCharacter (Char.ofNat b.toNat) (index + 1))
    | some hi, some lo => (readPairs (index + 2) rest).map (UInt8.ofNat (16 * hi + lo) :: ·)

/-- Reads digits that start at byte `index` of the input: an even number of them, all valid. -/
def readDigits (index : Nat) (digits : List Char) : Except FormatError (List UInt8) :=
  let bytes := digits.flatMap String.utf8EncodeChar
  if bytes.length % 2 = 1 then .error (.oddLength bytes.length) else readPairs index bytes

/-- Reads digits behind at most one marker. -/
def parseChars (s : List Char) : Except FormatError (List UInt8) :=
  match Text.after? marker s with
  | some digits => readDigits 2 digits
  | none => readDigits 0 s

/-- Reads a hexadecimal text. -/
def parse (s : String) : Except FormatError (List UInt8) := parseChars s.toList

end NamedQuery.Hex
