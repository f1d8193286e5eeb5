import NamedQuery.Value.Basic
import NamedQuery.Wire.Node

/-!
# Values as nodes

Every value has a node. A node stands for a value if its discriminant is that of a kind, its payload
is of that kind, and only a list has children; a payload that is missing stands for zero, for no
bytes or for `false`. Nodes are judged from the top down and from left to right, and of one node
first the discriminant, then the children, then the payload.
-/

namespace NamedQuery

/-- The number of a kind in messages. -/
def Kind.discriminant : Kind → Int32
  | .uint64 => 0
  | .nil => 1
  | .bool => 2
  | .bytes => 3
  | .list => 25

/-- The kind with a number. -/
def Kind.ofDiscriminant? (t : Int32) : Option Kind :=
  if t = 0 then some .uint64
  else if t = 1 then some .nil
  else if t = 2 then some .bool
  else if t = 3 then some .bytes
  else if t = 25 then some .list
  else none

theorem Kind.ofDiscriminant?_discriminant (k : Kind) : ofDiscriminant? k.discriminant = some k := by
  cases k <;> decide

namespace Wire.Node

mutual

/-- The node of a value. -/
def ofValue : Value → Node
  | .uint64 n => ⟨Kind.uint64.discriminant, some (.uint64 n), []⟩
  | .bytes raw => ⟨Kind.bytes.discriminant, some (.bytes raw), []⟩
  | .bool b => ⟨Kind.bool.discriminant, some (.bool b), []⟩
  | .nil => ⟨Kind.nil.discriminant, none, []⟩
  | .list cs => ⟨Kind.list.discriminant, none, ofValues cs⟩

/-- The nodes of values. -/
def ofValues : List Value → List Node
  | [] => []
  | v :: vs => ofValue v :: ofValues vs

end

mutual

/-- The value that a node stands for, or what is wrong with the node. -/
def toValue : Node → Except ValueError Value
  | ⟨t, p, cs⟩ =>
    match Kind.ofDiscriminant? t with
    | none => .error (.unsupportedKind t.toInt)
    | some kind =>
      if kind ≠ .list ∧ cs.isEmpty = false then .error (.mismatchedPayload kind)
      else
        match kind, p with
        | .uint64, some (.uint64 n) => .ok (.uint64 n)
        | .uint64, none => .ok (.uint64 0)
        | .bytes, some (.bytes raw) => .ok (.bytes raw)
        | .bytes, none => .ok (.bytes [])
        | .bool, some (.bool b) => .ok (.bool b)
        | .bool, none => .ok (.bool false)
        | .nil, none => .ok .nil
        | .list, none =>
          match toValues cs with
          | .error e => .error e
          | .ok vs => .ok (.list vs)
        | _, _ => .error (.mismatchedPayload kind)

/-- The values of nodes, or what is wrong with the first that stands for none. -/
def toValues : List Node → Except ValueError (List Value)
  | [] => .ok []
  | c :: cs =>
    match toValue c with
    | .error e => .error e
    | .ok v =>
      match toValues cs with
      | .error e => .error e
      | .ok vs => .ok (v :: vs)

end

theorem toValue_list (cs : List Node) :
    toValue ⟨Kind.list.discriminant, none, cs⟩ = (toValues cs).map .list := by
  show (match toValues cs with
    | .error e => Except.error e
    | .ok vs => .ok (Value.list vs)) = _
  cases toValues cs <;> rfl

end Wire.Node

/-- The bytes of a value. -/
def Value.encode (v : Value) : List UInt8 := (Wire.Node.ofValue v).encode

end NamedQuery
