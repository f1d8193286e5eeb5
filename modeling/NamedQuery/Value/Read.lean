import NamedQuery.Format.Hex
import NamedQuery.Format.Numeral
import NamedQuery.Value.Basic

/-!
# Values from numbers and text

Numbers of any size and texts become values here, or are refused with the reason.
-/

namespace NamedQuery.Value

/-- The number `n` as a value, if 64 bits hold it. -/
def ofInt (n : Int) : Except RangeError Value :=
  let text := String.ofList (Numeral.writeInt n)
  if n < 0 then .error (.negative text)
  else if (UInt64.size : Int) ≤ n then .error (.overflow text Width.word.bits)
  else .ok (.uint64 (UInt64.ofNat n.toNat))

/-- A number in decimal digits, blanks around them allowed. -/
def ofDecimal (s : String) : Except NumberError Value :=
  (Numeral.parse .word s).map fun n => .uint64 (UInt64.ofNat n)

/-- A byte string in hexadecimal digits. -/
def ofHex (s : String) : Except FormatError Value :=
  (Hex.parse s).map .bytes

end NamedQuery.Value
