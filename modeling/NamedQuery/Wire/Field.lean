import NamedQuery.Wire.Error

/-!
# Reading fields

What readers of all messages share: keys, delimited fields, fields that are skipped because nobody
knows them, and the loop over the fields of a message. A message inside a message is read straight
from the bytes of the whole, so a field may run past the end of its message; that is a fault, and it
is found only after the field itself has been read.
-/

namespace NamedQuery.Wire

variable {α : Type} {input : List UInt8}

/-- A fault outside of the known fields. -/
def Fault.error (f : Fault) : DecodeError := ⟨f, []⟩

/-- Reads a varint or reports that there is none. -/
def readVarint (input : List UInt8) : Except Fault (Piece Nat input) :=
  match Varint.read input with
  | none => .error .invalidVarint
  | some r => .ok r

/-- Reads the key of a field. -/
def readKey (input : List UInt8) : Except Fault (Piece Key input) :=
  match readVarint input with
  | .error f => .error f
  | .ok r =>
    if UInt32.size ≤ r.value then .error (.invalidKey r.value)
    else
      match WireType.ofCode? (r.value % 8) with
      | none => .error (.invalidWireType (r.value % 8))
      | some w =>
        if r.value / 8 = 0 then .error .invalidField else .ok (r.withValue ⟨r.value / 8, w⟩)

/-- Reads a length and as many bytes. -/
def readBytes (input : List UInt8) : Except Fault (Piece (List UInt8) input) :=
  match readVarint input with
  | .error f => .error f
  | .ok r =>
    match r.take? r.value with
    | none => .error .underflow
    | some s => .ok s

/-- Passes over `n` bytes, at least one. -/
def skipBytes (n : Nat) (hn : 0 < n) (input : List UInt8) : Except Fault (Piece Unit input) :=
  if h : holds n input = true then
    .ok ⟨(), n, input.drop n, hn, by
      have := holds_iff.mp h
      simp only [List.length_drop]
      omega⟩
  else .error .underflow

/-! ## Unknown fields -/

/-- Passes over the fields of a group, up to the key that ends the group with this number; `size`
bytes of the group are behind already. -/
def skipGroupFrom {start : List UInt8}
    (skip : Key → (input : List UInt8) → Except Fault (Piece Unit input)) (field size : Nat)
    (input : List UInt8) (h : size + input.length = start.length) :
    Except Fault (Piece Unit start) :=
  match readKey input with
  | .error f => .error f
  | .ok k =>
    have hk := k.size_add_length
    have hpos := k.size_pos
    if k.value.wireType = .endGroup then
      if k.value.field = field then .ok ⟨(), size + k.size, k.rest, by omega, by omega⟩
      else .error .unexpectedEndGroup
    else
      match skip k.value k.rest with
      | .error f => .error f
      | .ok p =>
        have hp := p.size_add_length
        skipGroupFrom skip field (size + k.size + p.size) p.rest (by omega)
termination_by input.length
decreasing_by omega

/-- Passes over a group whose first key has been read. -/
def skipGroup (skip : Key → (input : List UInt8) → Except Fault (Piece Unit input)) (field : Nat)
    (input : List UInt8) : Except Fault (Piece Unit input) :=
  skipGroupFrom skip field 0 input (Nat.zero_add _)

/-- Passes over a field that nobody knows; at least one level must be left, and the fields of a
group have one level less than the group. -/
def skipField : (levels : Nat) → Key → (input : List UInt8) → Except Fault (Piece Unit input)
  | 0, _, _ => .error .recursionLimit
  | levels + 1, key, input =>
    match key.wireType with
    | .varint =>
      match readVarint input with
      | .error f => .error f
      | .ok r => .ok (r.withValue ())
    | .sixtyFourBit => skipBytes 8 (by decide) input
    | .thirtyTwoBit => skipBytes 4 (by decide) input
    | .lengthDelimited =>
      match readBytes input with
      | .error f => .error f
      | .ok r => .ok (r.withValue ())
    | .startGroup => skipGroup (skipField levels) key.field input
    | .endGroup => .error .unexpectedEndGroup

/-! ## Messages -/

/-- A reader of one field of a message: given what was read of the message so far and the key, it
reads the rest of the field and gives what is known of the message then. -/
abbrev FieldReader (α : Type) :=
  (message : α) → Key → (input : List UInt8) → Except DecodeError (Piece α input)

/-- The reader of fields that nobody knows: they change nothing. -/
def skipUnknown (levels : Nat) : FieldReader α := fun message key input =>
  match skipField levels key input with
  | .error f => .error f.error
  | .ok r => .ok (r.withValue message)

/-- Reads the remaining fields of a message of `total` bytes, which began at `start`; it has `size`
more bytes. -/
def readFieldsFrom {start : List UInt8} {total : Nat} (field : FieldReader α) (size : Nat)
    (message : α) (input : List UInt8) (h : total + input.length = start.length + size) :
    Except DecodeError { r : α × List UInt8 // total + r.2.length = start.length } :=
  if hs : size = 0 then .ok ⟨(message, input), by rw [h, hs, Nat.add_zero]⟩
  else
    match readKey input with
    | .error f => .error f.error
    | .ok k =>
      match field message k.value k.rest with
      | .error e => .error e
      | .ok p =>
        have hk := k.size_add_length
        have hp := p.size_add_length
        have hpos := k.size_pos
        if hc : size < k.size + p.size then .error Fault.lengthExceeded.error
        else readFieldsFrom field (size - (k.size + p.size)) p.value p.rest (by omega)
termination_by size
decreasing_by omega

/-- Reads the fields of a message of `size` bytes. -/
def readFields (field : FieldReader α) (size : Nat) (message : α) (input : List UInt8) :
    Except DecodeError { r : α × List UInt8 // size + r.2.length = input.length } :=
  readFieldsFrom field size message input (Nat.add_comm _ _)

/-- Reads a whole input as a message. -/
def readMessage (field : FieldReader α) (message : α) (input : List UInt8) :
    Except DecodeError α :=
  match readFields field input.length message input with
  | .error e => .error e
  | .ok r => .ok r.val.1

/-- Reads a message behind its length. -/
def readDelimited (field : FieldReader α) (message : α) (input : List UInt8) :
    Except DecodeError (Piece α input) :=
  match readVarint input with
  | .error f => .error f.error
  | .ok n =>
    if holds n.value n.rest then
      match readFields field n.value message n.rest with
      | .error e => .error e
      | .ok r =>
        .ok ⟨r.val.1, n.size + n.value, r.val.2, Nat.add_pos_left n.size_pos _, by
          have := n.size_add_length
          have := r.property
          omega⟩
    else .error Fault.underflow.error

/-- Reads the content of a known field, if the key has the wire type of that field; all that is
wrong with it is located there. -/
def readKnown (location : Location) (expected : WireType) (key : Key)
    (content : Except DecodeError (Piece α input)) : Except DecodeError (Piece α input) :=
  if key.wireType = expected then content.mapError (·.inside location)
  else .error ⟨.unexpectedWireType key.wireType expected, [location]⟩

end NamedQuery.Wire
