import NamedQuery.Wire.Field

/-!
# Nodes

The message that carries a value: a discriminant, at most one payload, and further nodes as
children. Any combination of these is a node, whether it stands for a value or not. Fields are
written in the order of their numbers. The discriminant is left out when it is zero; a payload is
written whenever there is one. While a node is read its children are kept last first; `turn` puts
them in order.
-/

namespace NamedQuery.Wire

/-- What a node carries itself. -/
inductive Payload where
  | bool (b : Bool)
  | uint64 (n : UInt64)
  | bytes (raw : List UInt8)
  deriving DecidableEq, Repr

/-- A message that may stand for a value. -/
structure Node where
  discriminant : Int32
  payload : Option Payload
  children : List Node
  deriving Repr

instance : Inhabited Node := ⟨⟨0, none, []⟩⟩

namespace Node

/-- The node of an empty message. -/
def empty : Node := ⟨0, none, []⟩

/-- The key of the discriminant. -/
def discriminantKey : Key := ⟨1, .varint⟩

/-- The key of a payload. -/
def payloadKey : Payload → Key
  | .bool _ => ⟨2, .varint⟩
  | .uint64 _ => ⟨3, .varint⟩
  | .bytes _ => ⟨4, .lengthDelimited⟩

/-- The key of a child. -/
def childKey : Key := ⟨8, .lengthDelimited⟩

/-! ## Writing -/

/-- Bytes behind their length. -/
def delimited (bytes : List UInt8) : List UInt8 := Varint.encode bytes.length ++ bytes

/-- The field of the discriminant; a negative one takes all 64 bits. -/
def encodeDiscriminant (t : Int32) : List UInt8 :=
  if t = 0 then [] else discriminantKey.encode ++ Varint.encode t.toInt64.toUInt64.toNat

/-- The content of a payload's field. -/
def encodeContent : Payload → List UInt8
  | .bool b => [if b then 1 else 0]
  | .uint64 n => Varint.encode n.toNat
  | .bytes raw => delimited raw

/-- The field of the payload. -/
def encodePayload : Option Payload → List UInt8
  | none => []
  | some p => (payloadKey p).encode ++ encodeContent p

mutual

/-- The bytes of a node. -/
def encode : Node → List UInt8
  | ⟨t, p, cs⟩ => encodeDiscriminant t ++ encodePayload p ++ encodeChildren cs

/-- The fields of children, each behind its length. -/
def encodeChildren : List Node → List UInt8
  | [] => []
  | c :: cs => childKey.encode ++ delimited (encode c) ++ encodeChildren cs

end

/-! ## Reading -/

/-- The discriminant in a varint: its low 32 bits, as a signed number. -/
def discriminantOf (n : Nat) : Int32 := (UInt32.ofNat n).toInt32

/-- A varint that is read as something else. -/
def readVarintAs {α : Type} (f : Nat → α) (input : List UInt8) :
    Except DecodeError (Piece α input) :=
  match readVarint input with
  | .error e => .error e.error
  | .ok r => .ok (r.withValue (f r.value))

/-- A byte string that is read as something else. -/
def readBytesAs {α : Type} (f : List UInt8 → α) (input : List UInt8) :
    Except DecodeError (Piece α input) :=
  match readBytes input with
  | .error e => .error e.error
  | .ok r => .ok (r.withValue (f r.value))

/-- Reads one field of a node, with a reader for children, and with the number of levels at which
unknown fields are skipped. The last discriminant and the last payload count; a child is put in
front of those before it. -/
def readField (levels : Nat)
    (child : (input : List UInt8) → Except DecodeError (Piece Node input)) :
    FieldReader Node := fun node key input =>
  let payload (p : Payload) : Node := { node with payload := some p }
  match key.field with
  | 1 =>
    readKnown .discriminant .varint key
      (readVarintAs (fun n => { node with discriminant := discriminantOf n }) input)
  | 2 => readKnown .payload .varint key (readVarintAs (fun n => payload (.bool (n != 0))) input)
  | 3 =>
    readKnown .payload .varint key (readVarintAs (fun n => payload (.uint64 (.ofNat n))) input)
  | 4 =>
    readKnown .payload .lengthDelimited key (readBytesAs (fun raw => payload (.bytes raw)) input)
  | 8 =>
    readKnown .children .lengthDelimited key <|
      match child input with
      | .error e => .error e
      | .ok r => .ok (r.withValue { node with children := r.value :: node.children })
  | _ => skipUnknown levels node key input

/-- The node with its children in the opposite order. -/
def turn (node : Node) : Node := { node with children := node.children.reverse }

/-- Reads a node behind its length. Each level of nesting takes one of `levels`. -/
def readNested : (levels : Nat) → (input : List UInt8) → Except DecodeError (Piece Node input)
  | 0, _ => .error Fault.recursionLimit.error
  | levels + 1, input =>
    match readDelimited (readField levels (readNested levels)) empty input with
    | .error e => .error e
    | .ok p => .ok (p.withValue p.value.turn)

/-- The levels of nesting below a message. -/
def maxLevels : Nat := 100

/-- Reads a node. -/
def decode (input : List UInt8) : Except DecodeError Node :=
  (readMessage (readField maxLevels (readNested maxLevels)) empty input).map turn

end Node

end NamedQuery.Wire
