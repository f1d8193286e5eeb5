import NamedQuery.Bytes.Read
import NamedQuery.Json.Document
import NamedQuery.Json.Error

/-!
# Numbers in JSON

A number is a whole number if it has neither a fraction nor an exponent and 64 bits hold it; all
others are floating point numbers. Those keep the leading digits that 64 bits hold, drop the rest,
and scale once by a power of ten. A number too large for that is refused; one too small is zero.
-/

namespace NamedQuery.Json

/-- Whether the byte is a decimal digit. -/
def isDigit (b : UInt8) : Bool := 48 ≤ b && b ≤ 57

/-- The leading digits of a number, and the power of ten that scales them. -/
structure Leading where
  significand : Nat
  exponent : Int
  /-- No further digit of this part of the number is kept. -/
  full : Bool

namespace Leading

/-- The significand with one more digit, as long as 64 bits hold it. -/
def push? (s : Leading) (b : UInt8) : Option Nat :=
  let n := 10 * s.significand + (b.toNat - 48)
  if s.full || UInt64.size ≤ n then none else some n

/-- One more digit before the point. -/
def pushWhole (s : Leading) (b : UInt8) : Leading :=
  match s.push? b with
  | some n => { s with significand := n }
  | none => { s with exponent := s.exponent + 1, full := true }

/-- One more digit behind the point. -/
def pushFraction (s : Leading) (b : UInt8) : Leading :=
  match s.push? b with
  | some n => { s with significand := n, exponent := s.exponent - 1 }
  | none => { s with full := true }

/-- The digits before the point. -/
def ofWhole (digits : List UInt8) : Leading := digits.foldl pushWhole ⟨0, 0, false⟩

/-- The digits behind the point, after those before it. -/
def withFraction (s : Leading) (digits : List UInt8) : Leading :=
  digits.foldl pushFraction { s with full := false }

end Leading

/-- The floating point number `10 ^ n`. -/
def powerOfTen (n : Nat) : Float := Float.ofScientific 1 false n

/-- The largest power of ten that a floating point number holds. -/
def maxPower : Nat := 308

/-- Divides by `10 ^ n`, in steps of at most `10 ^ maxPower`. -/
def scaleDown (x : Float) (n : Nat) : Float :=
  if maxPower < n then
    if x == 0 then x else scaleDown (x / powerOfTen maxPower) (n - maxPower)
  else x / powerOfTen n
termination_by n
decreasing_by
  rename_i h _
  have : 0 < maxPower := by decide
  omega

/-- `significand * 10 ^ exponent`, unless it is too large. -/
def scale? (significand : Nat) (exponent : Int) : Option Float :=
  let x := Float.ofNat significand
  if exponent < 0 then some (scaleDown x exponent.natAbs)
  else if maxPower < exponent then if significand = 0 then some x else none
  else
    let y := x * powerOfTen exponent.toNat
    if y.isInf then none else some y

/-- The floating point number with these digits, if it is not too large. -/
def Leading.toFloat? (s : Leading) (negative : Bool) : Option Float :=
  (scale? s.significand s.exponent).map fun x => if negative then -x else x

/-- A number with neither fraction nor exponent. A zero with a sign is no whole number. -/
def Leading.toWhole (s : Leading) (negative : Bool) : Option Document :=
  if s.full then (s.toFloat? negative).map .float
  else if !negative then some (.integer s.significand)
  else if 1 ≤ s.significand ∧ s.significand ≤ UInt64.size / 2 then some (.integer (-s.significand))
  else (s.toFloat? negative).map .float

variable {input : List UInt8}

theorem length_dropWhile_le (p : UInt8 → Bool) (l : List UInt8) :
    (l.dropWhile p).length ≤ l.length :=
  (List.dropWhile_sublist p).length_le

/-- The number that was read, or the refusal of one that is too large. -/
def finish (d : Option Document) (rest : List UInt8) (h : rest.length < input.length) :
    Except ParseError (Read Document input) :=
  match d with
  | some d => .ok ⟨d, rest, h⟩
  | none => .error (.here .numberOutOfRange rest)

/-- The exponent of a number, from behind its letter. -/
def readExponent (negative : Bool) (s : Leading) (input : List UInt8) :
    Except ParseError (Read Document input) :=
  let (down, digits) : Bool × List UInt8 := match input with
    | 43 :: rest => (false, rest)
    | 45 :: rest => (true, rest)
    | _ => (false, input)
  match digits with
  | [] => .error (.here .eofValue [])
  | b :: rest =>
    if isDigit b then
      let n : Nat := (digits.takeWhile isDigit).foldl (fun n b => 10 * n + (b.toNat - 48)) 0
      let exponent : Int := if down then s.exponent - n else s.exponent + n
      let rest := digits.dropWhile isDigit
      if h : rest.length < input.length then
        finish (({ s with exponent } : Leading).toFloat? negative |>.map .float) rest h
      else .error (.here .invalidNumber rest)
    else .error (.here .invalidNumber rest)

/-- What follows the digits of a number: its exponent, if there is one. -/
def readScale (whole : Option Document) (negative : Bool) (s : Leading) (rest : List UInt8)
    (h : rest.length < input.length) : Except ParseError (Read Document input) :=
  match rest, h with
  | [], h => finish whole [] h
  | b :: exponent, h =>
    if b = 101 ∨ b = 69 then
      match readExponent negative s exponent with
      | .error e => .error e
      | .ok r => .ok (r.within (by simp only [List.length_cons] at h; omega))
    else finish whole (b :: exponent) h

/-- What follows the digits before the point. -/
def readTail (negative : Bool) (s : Leading) (rest : List UInt8)
    (h : rest.length < input.length) : Except ParseError (Read Document input) :=
  match rest, h with
  | 46 :: fraction, h =>
    let digits := fraction.takeWhile isDigit
    let after := fraction.dropWhile isDigit
    if digits.isEmpty then
      .error (if after.isEmpty then .here .eofValue [] else .next .invalidNumber after)
    else
      let s := s.withFraction digits
      readScale ((s.toFloat? negative).map .float) negative s after (by
        have : after.length ≤ fraction.length := length_dropWhile_le isDigit fraction
        simp only [List.length_cons] at h
        omega)
  | rest, h => readScale (s.toWhole negative) negative s rest h

/-- Reads a number from behind its sign. A zero in front stands alone. -/
def readNumber (negative : Bool) (input : List UInt8) : Except ParseError (Read Document input) :=
  match input with
  | [] => .error (.here .eofValue [])
  | b :: rest =>
    if b = 48 then
      if (rest.head?.map isDigit).getD false then .error (.next .invalidNumber rest)
      else readTail negative ⟨0, 0, false⟩ rest (by simp)
    else if isDigit b then
      readTail negative (.ofWhole (b :: rest.takeWhile isDigit)) (rest.dropWhile isDigit) (by
        have := length_dropWhile_le isDigit rest
        simp only [List.length_cons]
        omega)
    else .error (.here .invalidNumber rest)

end NamedQuery.Json
