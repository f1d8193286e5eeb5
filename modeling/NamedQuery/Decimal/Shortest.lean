import NamedQuery.Format.Numeral

/-!
# Shortest decimals

The fewest decimal digits that identify a binary floating point number. A number of 64 bits stands
for an interval of reals, those nearest to it, with both ends if its significand is even. `shortest`
looks for a decimal inside the interval with one digit, then with two, and so on: on each grid of
decimals only the two neighbours of the number itself need a test. Of two hits the closer one is
taken, and of two equally close ones the even one. All arithmetic is exact.
-/

namespace NamedQuery.Decimal

/-- A positive finite number of 64 bits, `significand * 2 ^ exponent`. -/
structure Binary where
  significand : Nat
  exponent : Int
  /-- The gap to the next number below is half the gap to the next one above. -/
  narrowBelow : Bool
  deriving Repr

/-- The number of fractions: the lowest 52 bits of a number. -/
def fractions : Nat := 1 <<< 52

/-- The number of exponents: the eleven bits above the fraction. -/
def exponents : Nat := 1 <<< 11

/-- The number of magnitudes; the bit above them is the sign. -/
def magnitudes : Nat := exponents * fractions

/-- The magnitude in the bits of a finite number. -/
def Binary.ofBits (bits : UInt64) : Binary :=
  let e : Nat := (bits.toNat / fractions) % exponents
  let f : Nat := bits.toNat % fractions
  if e = 0 then ⟨f, -1074, false⟩ else ⟨fractions + f, (e : Int) - 1075, f = 0 && e > 1⟩

/-- A decimal, `digits * 10 ^ exponent`. -/
structure Scaled where
  digits : Nat
  exponent : Int
  deriving DecidableEq, Repr

/-- The number `10 ^ n`. -/
def tenTo (n : Nat) : Nat := Nat.pow 10 n

/-- Compares `a * 10 ^ i` with `b * 2 ^ j`. -/
def compareScaled (a : Nat) (i : Int) (b : Nat) (j : Int) : Ordering :=
  compare ((a * tenTo i.toNat) <<< (-j).toNat) ((b * tenTo (-i).toNat) <<< j.toNat)

/-- Whether the decimal lies in the interval of reals that `x` stands for. -/
def Binary.identifiedBy (x : Binary) (d : Scaled) : Bool :=
  let low := 4 * x.significand - (if x.narrowBelow then 1 else 2)
  let high := 4 * x.significand + 2
  let closed := x.significand % 2 = 0
  let atLow := compareScaled d.digits d.exponent low (x.exponent - 2)
  let atHigh := compareScaled d.digits d.exponent high (x.exponent - 2)
  (atLow = .gt || closed && atLow = .eq) && (atHigh = .lt || closed && atHigh = .eq)

/-- The largest multiple of `10 ^ i` that is at most `x`, in units of `10 ^ i`. -/
def Binary.floorOn (x : Binary) (i : Int) : Nat :=
  ((x.significand * tenTo (-i).toNat) <<< x.exponent.toNat) /
    (tenTo i.toNat <<< (-x.exponent).toNat)

/-- The decimal of the grid `10 ^ i` that identifies `x`, if there is one. -/
def Binary.onGrid? (x : Binary) (i : Int) : Option Scaled :=
  let below : Scaled := ⟨x.floorOn i, i⟩
  let above : Scaled := ⟨x.floorOn i + 1, i⟩
  match x.identifiedBy below, x.identifiedBy above with
  | false, false => none
  | true, false => some below
  | false, true => some above
  | true, true =>
    -- twice the number against the sum of the two candidates
    match compareScaled (2 * below.digits + 1) i (2 * x.significand) x.exponent with
    | .gt => some below
    | .lt => some above
    | .eq => some (if below.digits % 2 = 0 then below else above)

/-- The number of decimal places of the integer part of `x`, never too small and at most one too
large; not positive for numbers below one. -/
def Binary.places (x : Binary) : Int :=
  let log2 : Int := x.significand.log2 + x.exponent
  -- 30103 / 100000 is a little more than the decimal logarithm of two
  if 0 ≤ log2 then (log2 * 30103).tdiv 100000 + 2 else -((-log2 * 30102).tdiv 100000) + 2

/-- The decimal without zeros at the end of its digits; at most `room` of them are dropped. -/
def Scaled.stripped : (room : Nat) → Scaled → Scaled
  | 0, d => d
  | room + 1, d =>
    if d.digits ≠ 0 ∧ d.digits % 10 = 0 then Scaled.stripped room ⟨d.digits / 10, d.exponent + 1⟩
    else d

/-- The shortest decimal that identifies `x`, the closest of those. -/
def Binary.shortest (x : Binary) : Scaled :=
  match (List.range 22).findSome? fun (n : Nat) => x.onGrid? (x.places - n) with
  | some d => d.stripped 22
  | none => ⟨(x.significand * Nat.pow 5 (-x.exponent).toNat) <<< x.exponent.toNat,
      if 0 ≤ x.exponent then 0 else x.exponent⟩

/-! ## Layout -/

/-- Where a decimal is written with its point in place, and where with an exponent. -/
structure Layout where
  /-- The least power of ten of a leading digit that is written in place. -/
  plainFrom : Int
  /-- The least power of ten of a leading digit that is written with an exponent again. -/
  plainBelow : Int

/-- Zeros. -/
def zeros (n : Nat) : List Char := List.replicate n '0'

/-- The decimal as text: at least one place behind the point when it is written in place; otherwise
the point after the first digit, and the exponent with its sign. -/
def Scaled.write (layout : Layout) (d : Scaled) : List Char :=
  let ds := Numeral.write d.digits
  let lead : Int := d.exponent + ds.length - 1
  if layout.plainFrom ≤ lead ∧ lead < layout.plainBelow then
    if 0 ≤ d.exponent then ds ++ zeros d.exponent.toNat ++ ['.', '0']
    else if 0 ≤ lead then
      ds.take (lead.toNat + 1) ++ '.' :: ds.drop (lead.toNat + 1)
    else '0' :: '.' :: (zeros (-lead - 1).toNat ++ ds)
  else
    let mantissa := match ds with
      | a :: b :: rest => a :: '.' :: b :: rest
      | _ => ds
    let sign := if lead < 0 then '-' else '+'
    mantissa ++ 'e' :: sign :: Numeral.write lead.natAbs

/-- A finite floating point number as text; a negative zero keeps its sign. -/
def writeFloat (layout : Layout) (x : Float) : List Char :=
  let bits := x.toBits
  let negative := magnitudes ≤ bits.toNat
  let b := Binary.ofBits bits
  let magnitude := if b.significand = 0 then ['0', '.', '0'] else b.shortest.write layout
  if negative then '-' :: magnitude else magnitude

end NamedQuery.Decimal
