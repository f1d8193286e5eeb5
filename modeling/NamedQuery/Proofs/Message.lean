import NamedQuery.Message
import NamedQuery.Proofs.Wire.Conversion

/-!
# Which messages are received

A message is received if it is not longer than the limit; then all depends on what it is read as.
Any other is refused by its length alone. There are values and envelopes beyond the limit whose
messages could be read very well.

* `receive_of_le`, `receive_of_lt`: the two outcomes.
* `Value.bulky`: a value whose message is read but not received.
-/

namespace NamedQuery

namespace Message

variable {α : Type} {read : List UInt8 → Except Status α} {message : List UInt8} {a : α}
  {status : Status}

theorem receive_of_le (h : message.length ≤ maxBytes) : receive read message = read message :=
  if_neg (Nat.not_lt.mpr h)

theorem receive_of_lt (h : maxBytes < message.length) :
    receive read message = .error (tooLong message.length) :=
  if_pos h

theorem receive_eq_ok_iff :
    receive read message = .ok a ↔ message.length ≤ maxBytes ∧ read message = .ok a := by
  rcases Nat.lt_or_ge maxBytes message.length with h | h
  · rw [receive_of_lt h]
    exact ⟨nofun, fun hread => absurd hread.1 (Nat.not_le.mpr h)⟩
  · rw [receive_of_le h]
    exact ⟨fun hread => ⟨h, hread⟩, And.right⟩

theorem receive_eq_error_iff :
    receive read message = .error status ↔
      maxBytes < message.length ∧ status = tooLong message.length ∨
      message.length ≤ maxBytes ∧ read message = .error status := by
  rcases Nat.lt_or_ge maxBytes message.length with h | h
  · rw [receive_of_lt h]
    simp [h, Nat.not_le.mpr h, eq_comm]
  · rw [receive_of_le h]
    simp [h, Nat.not_lt.mpr h]

/-- The length of a message that is received can be told of every part of it. -/
theorem lt_size_of_le {n : Nat} (h : n ≤ maxBytes) : n < UInt64.size :=
  Nat.lt_of_le_of_lt h (by decide)

end Message

namespace Value

open Wire

theorem length_encode_bytes (raw : List UInt8) :
    (bytes raw).encode.length = raw.length + (Varint.encode raw.length).length + 3 := by
  have hdiscriminant : (Node.encodeDiscriminant Kind.bytes.discriminant).length = 2 := by
    decide +kernel
  have hkey : (Node.payloadKey (.bytes raw)).encode.length = 1 := by
    show (Key.encode ⟨4, .lengthDelimited⟩).length = 1
    decide +kernel
  show (Node.encode ⟨Kind.bytes.discriminant, some (.bytes raw), []⟩).length = _
  simp only [Node.encode, Node.encodePayload, Node.encodeContent, Node.delimited,
    Node.encodeChildren, List.length_append, List.length_nil, hdiscriminant, hkey]
  omega

/-- As many bytes as a message may have, so that there is no room for anything around them. -/
def bulky : Value := .bytes (List.replicate Message.maxBytes 0)

theorem length_encode_bulky : bulky.encode.length = Message.maxBytes + 7 := by
  have hlength : (Varint.encode Message.maxBytes).length = 4 := by decide +kernel
  rw [bulky, length_encode_bytes, List.length_replicate, hlength]

theorem maxBytes_lt_length_encode_bulky : Message.maxBytes < bulky.encode.length := by
  rw [length_encode_bulky]
  exact Nat.lt_add_of_pos_right (by decide)

/-- Nothing but the limit stands against its message. -/
theorem length_encode_bulky_lt : bulky.encode.length < UInt64.size := by
  rw [length_encode_bulky]
  decide

theorem depth_bulky : bulky.depth = 0 := by
  simp only [bulky, depth]

end Value

end NamedQuery
