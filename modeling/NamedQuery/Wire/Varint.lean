import NamedQuery.Wire.Piece

/-!
# Varints

Numbers in groups of seven bits, the lowest group first; every byte but the last has its high bit
set. Writing uses as few bytes as possible. Reading takes up to ten bytes, needed or not, and of the
tenth only the lowest bit, so what is read fits 64 bits.
-/

namespace NamedQuery.Wire.Varint

/-- The number as a varint, without superfluous bytes. -/
def encode (n : Nat) : List UInt8 :=
  if n < 128 then [UInt8.ofNat n] else UInt8.ofNat (n % 128 + 128) :: encode (n / 128)

/-- Reads at most `room` groups; in the last of these only one bit is allowed. -/
def readGroups : (room : Nat) → (input : List UInt8) → Option (Piece Nat input)
  | 0, _ => none
  | _ + 1, [] => none
  | room + 1, b :: rest =>
    if b < 128 then
      if room = 0 ∧ 1 < b then none else some (.one b.toNat b rest)
    else
      match readGroups room rest with
      | none => none
      | some r => some ((r.withValue (b.toNat - 128 + 128 * r.value)).behind b)

/-- The most bytes that a varint takes. -/
def maxBytes : Nat := 10

/-- Reads a varint. -/
def read (input : List UInt8) : Option (Piece Nat input) := readGroups maxBytes input

end NamedQuery.Wire.Varint
