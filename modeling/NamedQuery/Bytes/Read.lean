/-!
# Reads

What a reader finds at the start of a byte string: a value, and the bytes behind it. A read takes at
least one byte, which is why loops of reads come to an end.
-/

namespace NamedQuery

/-- A value read from the start of `input`. -/
structure Read (α : Type) (input : List UInt8) where
  value : α
  rest : List UInt8
  rest_lt : rest.length < input.length

namespace Read

variable {α β : Type} {input mid : List UInt8}

/-- The read of a later part, as a read of the whole. -/
def within (r : Read α mid) (h : mid.length ≤ input.length) : Read α input :=
  ⟨r.value, r.rest, Nat.lt_of_lt_of_le r.rest_lt h⟩

/-- A read of one byte. -/
def one (value : α) (b : UInt8) (rest : List UInt8) : Read α (b :: rest) :=
  ⟨value, rest, Nat.lt_succ_self _⟩

/-- A read behind one byte, as a read of both. -/
def behind (r : Read α input) (b : UInt8) : Read α (b :: input) := r.within (Nat.le_succ _)

/-- The same bytes with another value. -/
def withValue (r : Read α input) (b : β) : Read β input := ⟨b, r.rest, r.rest_lt⟩

/-- The second of two reads, one behind the other, as a read of both. -/
def andThen (r : Read α input) (s : Read β r.rest) : Read β input :=
  s.within (Nat.le_of_lt r.rest_lt)

end Read

end NamedQuery
