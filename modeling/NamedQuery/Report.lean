import NamedQuery.Client.Config
import NamedQuery.Client.Query
import NamedQuery.Text.Quoted
import NamedQuery.Value.Text

/-!
# Reports

How results and errors are shown to people. Values and documents are shown as JSON on several lines,
amounts and errors behind a label, which may be coloured: green for results, red for errors.
-/

namespace NamedQuery

/-- Whether labels are coloured. -/
inductive Palette where
  | plain
  | coloured
  deriving DecidableEq, Repr

/-- The colours of labels. -/
inductive Colour where
  | green
  | red
  deriving DecidableEq, Repr

/-- The number of a colour in terminal codes. -/
def Colour.code : Colour → String
  | .green => "32"
  | .red => "31"

/-- A label in a colour. -/
def Palette.label (p : Palette) (c : Colour) (text : String) : String :=
  match p with
  | .plain => text
  | .coloured => "\x1b[1;" ++ c.code ++ "m" ++ text ++ "\x1b[0m"

namespace Report

/-- A document. -/
def document (d : Json.Document) : String := String.ofList d.pretty

/-- A value. -/
def value (v : Value) : String := document v.toJson

/-- A deposit. -/
def deposit (d : Deposit) : String := d.text

/-- A balance. -/
def capacity (p : Palette) (n : UInt64) : String :=
  p.label .green "Capacity:" ++ " " ++ Numeral.text n.toNat

/-- A balance of tokens. -/
def tokenAmount (p : Palette) (a : Amount) : String :=
  p.label .green "UDT amount:" ++ " " ++ a.text

/-- A message between quotes, on a line of its own below a label. -/
def below (label message : String) : String := label ++ "\n\n'" ++ message ++ "'"

/-- A status. -/
def status (p : Palette) (s : Status) : String :=
  p.label .red "gRPC Failed:" ++ " code=" ++ s.code.name ++ " message=" ++ Text.quoted s.message

/-- A transport error; a status is shown as one. -/
def transportError (p : Palette) : TransportError → String
  | .status s => status p s
  | e => below (p.label .red "Transport Error:") e.message

/-- A call error; a transport error is shown as one. -/
def callError (p : Palette) : CallError → String
  | .transport e => transportError p e
  | e => below (p.label .red "Call Failed:") e.message

/-- A query error; a call error is shown as one. -/
def queryError (p : Palette) : QueryError → String
  | .call e => callError p e
  | e => below (p.label .red "Query Failed:") e.message

/-- A connect error. -/
def connectError (p : Palette) (e : ConnectError) : String :=
  below (p.label .red "Connection Error:") e.message

/-- An error under a title of the caller's choice. -/
def titled (p : Palette) (title message : String) : String :=
  below (p.label .red title ++ ":") message

end Report

end NamedQuery
