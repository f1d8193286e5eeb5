/-!
# Pieces

What a reader of a message finds at the start of its input: a value, the number of bytes that carry
it, and the bytes behind. A message that stands inside another one ends after a number of bytes, so
readers keep count of them; a piece has at least one byte, which is why loops of readers come to an
end.
-/

namespace NamedQuery.Wire

/-- Whether there are at least `n` bytes; no more than these are looked at. -/
def holds : (n : Nat) → List UInt8 → Bool
  | 0, _ => true
  | _ + 1, [] => false
  | n + 1, _ :: bytes => holds n bytes

theorem holds_iff {n : Nat} {bytes : List UInt8} : holds n bytes = true ↔ n ≤ bytes.length := by
  induction n generalizing bytes with
  | zero => exact ⟨fun _ => Nat.zero_le _, fun _ => rfl⟩
  | succ n ih =>
    cases bytes with
    | nil => exact ⟨fun h => Bool.noConfusion h, fun h => absurd h (Nat.not_succ_le_zero n)⟩
    | cons b bytes => exact ih.trans Nat.succ_le_succ_iff.symm

/-- A value read from the start of `input`. -/
structure Piece (α : Type) (input : List UInt8) where
  value : α
  size : Nat
  rest : List UInt8
  size_pos : 0 < size
  size_add_length : size + rest.length = input.length

namespace Piece

variable {α β : Type} {input : List UInt8}

theorem rest_lt (p : Piece α input) : p.rest.length < input.length := by
  have := p.size_pos
  have := p.size_add_length
  omega

/-- A piece of one byte. -/
def one (value : α) (b : UInt8) (rest : List UInt8) : Piece α (b :: rest) :=
  ⟨value, 1, rest, Nat.one_pos, Nat.add_comm 1 rest.length⟩

/-- A piece behind one byte, as a piece with it. -/
def behind (p : Piece α input) (b : UInt8) : Piece α (b :: input) :=
  ⟨p.value, p.size + 1, p.rest, Nat.succ_pos p.size, by
    have := p.size_add_length
    simp only [List.length_cons]
    omega⟩

/-- The same bytes with another value. -/
def withValue (p : Piece α input) (b : β) : Piece β input := { p with value := b }

/-- Two pieces, one behind the other, as one with the value of the second. -/
def andThen (p : Piece α input) (q : Piece β p.rest) : Piece β input :=
  ⟨q.value, p.size + q.size, q.rest, Nat.add_pos_left p.size_pos q.size, by
    have := p.size_add_length
    have := q.size_add_length
    omega⟩

/-- The next `n` bytes, if there are so many. -/
def take? (p : Piece α input) (n : Nat) : Option (Piece (List UInt8) input) :=
  if h : holds n p.rest = true then
    some ⟨p.rest.take n, p.size + n, p.rest.drop n, Nat.add_pos_left p.size_pos n, by
      have := holds_iff.mp h
      have := p.size_add_length
      simp only [List.length_drop]
      omega⟩
  else none

end Piece

end NamedQuery.Wire
