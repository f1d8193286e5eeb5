import NamedQuery.Format.Amount
import NamedQuery.Value.Deposit
import NamedQuery.Value.Read
import NamedQuery.Value.Text
import NamedQuery.Wire.Conversion

/-!
# The workbench

A stack on which values are built, taken apart and looked at. A step that finds too few values
leaves the stack as it is, and so does every failing step but the two that take the top value apart.
-/

namespace NamedQuery

/-- A stack of values, the top first. -/
abbrev Workbench := List Value

namespace Workbench

/-- What one can want to see of a value. -/
inductive View where
  | kind
  | bytes
  | uint64
  | bool
  | children
  | child (index : Nat)
  | json
  | encoding
  | amount
  | deposit

/-- Where a value to be pushed comes from. -/
inductive Source where
  | value (v : Value)
  | int (n : Int)
  | decimal (s : String)
  | hex (s : String)
  | amount (a : Amount)

/-- What can be done with the top value. -/
inductive Action where
  | pop
  /-- Takes the value off and opens it as a byte string. -/
  | openBytes
  /-- Takes the value off and puts its children in its place, the last on top. -/
  | openList
  | duplicate
  | look (view : View)
  | descend (index : Nat)
  /-- Replaces the value by what is read from its message. -/
  | resend

/-- A step of work. -/
inductive Step where
  | push (source : Source)
  /-- Replaces the top `count` values by the list of them, the deepest first. -/
  | gather (count : Nat)
  /-- Replaces all values by the list of them, the deepest first. -/
  | gatherAll
  | compare
  | onTop (action : Action)

/-- What went wrong in a step. -/
inductive Problem where
  | range (e : RangeError)
  | number (e : NumberError)
  | format (e : FormatError)
  | value (e : ValueError)
  | decode (e : Wire.DecodeError)

/-- What a step has to show. -/
inductive Outcome where
  | done
  | underflow
  | value (v : Value)
  | values (vs : List Value)
  | bytes (raw : List UInt8)
  | uint64 (n : UInt64)
  | bool (b : Bool)
  | count (n : Nat)
  | kind (k : Kind)
  | json (d : Json.Document)
  | amount (a : Amount)
  | deposit (d : Deposit)
  | failed (p : Problem)

/-- The outcome of an attempt, with what a success shows. -/
def Outcome.ofExcept {ε α : Type} (problem : ε → Problem) (shown : α → Outcome) :
    Except ε α → Outcome
  | .error e => .failed (problem e)
  | .ok a => shown a

/-- What a view shows of a value. -/
def View.apply (v : Value) : View → Outcome
  | .kind => .kind v.kind
  | .bytes => .ofExcept .value .bytes v.asBytes
  | .uint64 => .ofExcept .value .uint64 v.asUInt64
  | .bool => .ofExcept .value .bool v.asBool
  | .children => .ofExcept .value .values v.asList
  | .child index => .ofExcept .value .value (v.child index)
  | .json => .json v.toJson
  | .encoding => .bytes v.encode
  | .amount => .ofExcept .value .amount (Amount.ofValue v)
  | .deposit => .ofExcept .value .deposit (Deposit.ofValue v)

/-- The value that a source gives. -/
def Source.get : Source → Except Problem Value
  | .value v => .ok v
  | .int n => (Value.ofInt n).mapError .range
  | .decimal s => (Value.ofDecimal s).mapError .number
  | .hex s => (Value.ofHex s).mapError .format
  | .amount a => .ok a.toValue

/-- The value that is read from the message of a value. -/
def reread (v : Value) : Except Problem Value :=
  match Wire.Node.decode v.encode with
  | .error e => .error (.decode e)
  | .ok node => node.toValue.mapError .value

/-- What an action on the top value shows, and the stack that it leaves. -/
def Action.apply (v : Value) (below : Workbench) : Action → Outcome × Workbench
  | .pop => (.value v, below)
  | .openBytes => (.ofExcept .value .bytes v.asBytes, below)
  | .openList =>
    match v.asList with
    | .error e => (.failed (.value e), below)
    | .ok children => (.count children.length, children.reverse ++ below)
  | .duplicate => (.done, v :: v :: below)
  | .look view => (view.apply v, v :: below)
  | .descend index =>
    match v.child index with
    | .error e => (.failed (.value e), v :: below)
    | .ok c => (.done, c :: below)
  | .resend =>
    match reread v with
    | .error p => (.failed p, v :: below)
    | .ok w => (.count v.encode.length, w :: below)

/-- What a step shows, and the stack that it leaves. -/
def step (bench : Workbench) : Step → Outcome × Workbench
  | .push source =>
    match source.get with
    | .error p => (.failed p, bench)
    | .ok v => (.done, v :: bench)
  | .gather count =>
    if bench.length < count then (.underflow, bench)
    else (.done, .list (bench.take count).reverse :: bench.drop count)
  | .gatherAll => (.done, [.list bench.reverse])
  | .compare =>
    match bench with
    | a :: b :: _ => (.bool (a.same b), bench)
    | _ => (.underflow, bench)
  | .onTop action =>
    match bench with
    | [] => (.underflow, bench)
    | v :: below => action.apply v below

/-- The outcomes of steps in turn, each with the stack that it leaves. -/
def run (bench : Workbench) : List Step → List (Outcome × Workbench)
  | [] => []
  | s :: steps =>
    let (outcome, bench) := step bench s
    (outcome, bench) :: run bench steps

end Workbench

end NamedQuery
