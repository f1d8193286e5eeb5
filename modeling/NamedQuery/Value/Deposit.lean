import NamedQuery.Format.Hex
import NamedQuery.Format.Numeral
import NamedQuery.Value.Basic

/-!
# Deposits

A deposit is announced as a list: the hash of its transaction, then its position in the outputs of
that transaction. Further children are of no interest.
-/

namespace NamedQuery

/-- An announced deposit. -/
structure Deposit where
  txHash : List UInt8
  index : UInt64
  deriving DecidableEq, Repr

namespace Deposit

/-- Reads a deposit out of a list, the first child before the second. -/
def ofValue (v : Value) : Except ValueError Deposit := do
  let hash ← v.child 0
  let txHash ← hash.asBytes
  let position ← v.child 1
  let index ← position.asUInt64
  return ⟨txHash, index⟩

/-- The line that announces a deposit. -/
def text (d : Deposit) : String :=
  s!"New NervosDAO deposit at tx hash: {Hex.text d.txHash}, index: {Numeral.text d.index.toNat}"

end Deposit

end NamedQuery
