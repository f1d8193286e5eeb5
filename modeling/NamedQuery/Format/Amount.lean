import NamedQuery.Format.Numeral
import NamedQuery.Value.Basic

/-!
# Amounts

Token amounts have 128 bits and travel as byte strings of sixteen bytes: two 64-bit words, the low
word first, each with its lowest byte first. Nothing in the bytes marks them as an amount.
-/

namespace NamedQuery

/-- An unsigned amount of 128 bits. -/
structure Amount where
  units : Nat
  units_lt : units < Width.doubleWord.bound
  deriving DecidableEq, Repr

/-- The `count` lowest bytes of a number, lowest first. -/
def littleEndian : (count n : Nat) → List UInt8
  | 0, _ => []
  | count + 1, n => UInt8.ofNat n :: littleEndian count (n / 256)

/-- The number whose bytes these are, lowest first. -/
def ofLittleEndian : List UInt8 → Nat
  | [] => 0
  | b :: bs => b.toNat + 256 * ofLittleEndian bs

/-- The least number that needs more bytes. -/
def byteBound : (count : Nat) → Nat
  | 0 => 1
  | count + 1 => 256 * byteBound count

theorem ofLittleEndian_lt (bs : List UInt8) : ofLittleEndian bs < byteBound bs.length := by
  induction bs with
  | nil => exact Nat.one_pos
  | cons b bs ih =>
    have := b.toNat_lt
    simp only [ofLittleEndian, List.length_cons, byteBound]
    omega

theorem byteBound_eight : byteBound 8 = UInt64.size := by decide

namespace Amount

/-- The number of bytes of a word. -/
def wordBytes : Nat := 8

/-- The number of bytes of a packed amount. -/
def packedLength : Nat := 16

/-- The number in two words, each with its lowest byte first. -/
def ofWords (low high : List UInt8) : Nat := ofLittleEndian low + UInt64.size * ofLittleEndian high

theorem ofWords_lt {low high : List UInt8} (hl : low.length = wordBytes)
    (hh : high.length = wordBytes) : ofWords low high < Width.doubleWord.bound := by
  have lo := ofLittleEndian_lt low
  have hi := ofLittleEndian_lt high
  rw [hl, wordBytes, byteBound_eight] at lo
  rw [hh, wordBytes, byteBound_eight] at hi
  simp only [ofWords, Width.bound, UInt64.size] at lo hi ⊢
  omega

/-- The amount as two words of eight bytes, low word first. -/
def pack (a : Amount) : List UInt8 :=
  littleEndian wordBytes (a.units % UInt64.size) ++
    littleEndian wordBytes (a.units / UInt64.size)

/-- Reads a packed amount back; any other length is refused. -/
def unpack (bytes : List UInt8) : Except FormatError Amount :=
  if h : bytes.length = packedLength then
    .ok ⟨ofWords (bytes.take wordBytes) (bytes.drop wordBytes),
      ofWords_lt (by rw [List.length_take, h]; rfl) (by rw [List.length_drop, h]; rfl)⟩
  else .error (.badAmountLength bytes.length)

/-- Reads an amount in decimal digits, blanks around them allowed. -/
def parse (s : String) : Except NumberError Amount :=
  match h : Numeral.parse .doubleWord s with
  | .error e => .error e
  | .ok n => .ok ⟨n, Numeral.parse_lt h⟩

/-- The amount in decimal digits. -/
def text (a : Amount) : String := Numeral.text a.units

/-- The amount as a value: its sixteen bytes. -/
def toValue (a : Amount) : Value := .bytes a.pack

/-- Reads an amount out of a byte string of sixteen bytes. -/
def ofValue (v : Value) : Except ValueError Amount :=
  match v.asBytes with
  | .error e => .error e
  | .ok raw => (unpack raw).mapError .format

instance : Ord Amount := ⟨fun a b => compare a.units b.units⟩

/-- No units: what an amount is when nothing is said of it. -/
def zero : Amount := ⟨0, by decide⟩

instance : Inhabited Amount := ⟨zero⟩

end Amount

end NamedQuery
