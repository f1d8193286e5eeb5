/-!
# Widths

How many bits an unsigned number has: one word of 64 bits, or two of them.
-/

namespace NamedQuery

/-- The widths of unsigned numbers. -/
inductive Width where
  | word
  | doubleWord
  deriving DecidableEq, Repr

namespace Width

/-- The number of bits. -/
def bits : Width → Nat
  | word => 64
  | doubleWord => 128

/-- The least number that does not fit. -/
def bound : Width → Nat
  | word => UInt64.size
  | doubleWord => UInt64.size * UInt64.size

theorem bound_pos (w : Width) : 0 < w.bound := by cases w <;> decide

end Width

end NamedQuery
