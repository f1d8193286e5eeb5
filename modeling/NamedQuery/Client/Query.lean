import NamedQuery.Client.Basic
import NamedQuery.Format.Amount
import NamedQuery.Json.Parser
import NamedQuery.Value.Deposit

/-!
# Queries with a known result

Queries whose parameters and results have a fixed form: balances, transfers, and the announcement of
deposits.
-/

namespace NamedQuery

/-! ## Results -/

/-- A balance is a number. -/
def readBalance (v : Value) : Except QueryError UInt64 := v.asUInt64.mapError .value

/-- A balance of tokens is an amount. -/
def readTokenBalance (v : Value) : Except QueryError Amount := (Amount.ofValue v).mapError .value

/-- A transfer is a JSON document in a byte string. -/
def readTransfer (v : Value) : Except QueryError Json.Document :=
  match v.asBytes with
  | .error e => .error (.value e)
  | .ok raw => (Json.Document.parse raw).mapError (.json raw)

/-! ## Requests -/

namespace Request

/-- Asks for the balance under a lock. -/
def balance (lockArgs : List UInt8) : Request := (named "balance").param (.bytes lockArgs)

/-- Asks for the balance of a token under a lock. -/
def tokenBalance (typeArgs lockArgs : List UInt8) : Request :=
  ((named "balance").param (.bytes typeArgs)).param (.bytes lockArgs)

/-- Asks for a transaction that transfers tokens. -/
def transfer (typeArgs source target : List UInt8) (amount : UInt64) : Request :=
  ((((named "transfer").param (.bytes typeArgs)).param (.bytes source)).param (.bytes target)).param
    (.uint64 amount)

/-- Asks for the announcement of deposits. -/
def deposits : Request := named "nervosdao_deposits"

end Request

/-! ## Queries -/

namespace Client

/-- A call whose result is read. -/
def query {α : Type} (c : Client) (service : Script) (r : Request)
    (read : Value → Except QueryError α) : Except QueryError α × Script :=
  match c.call service r with
  | (.error e, service) => (.error (.call e), service)
  | (.ok v, service) => (read v, service)

/-- The balance under a lock. -/
def balance (c : Client) (service : Script) (lockArgs : List UInt8) :
    Except QueryError UInt64 × Script :=
  c.query service (.balance lockArgs) readBalance

/-- The balance of a token under a lock. -/
def tokenBalance (c : Client) (service : Script) (typeArgs lockArgs : List UInt8) :
    Except QueryError Amount × Script :=
  c.query service (.tokenBalance typeArgs lockArgs) readTokenBalance

/-- A transaction that transfers tokens. -/
def transfer (c : Client) (service : Script) (typeArgs source target : List UInt8)
    (amount : UInt64) : Except QueryError Json.Document × Script :=
  c.query service (.transfer typeArgs source target amount) readTransfer

/-- The stream of deposits. -/
def openDeposits (c : Client) (service : Script) : Except QueryError Cursor × Script :=
  match c.openStream service .deposits with
  | (.error e, service) => (.error (.call e), service)
  | (.ok cursor, service) => (.ok cursor, service)

end Client

/-! ## Deposits one by one -/

/-- What a stream of deposits gives. -/
inductive DepositDelivery where
  | item (d : Deposit)
  /-- An element that is no deposit, or the error that ends the stream. -/
  | failed (e : QueryError)
  | finished

/-- A delivery, read as one of deposits. -/
def Delivery.toDeposit : Delivery → DepositDelivery
  | .finished => .finished
  | .failed s => .failed (.call (.transport (.status s)))
  | .item v =>
    match Deposit.ofValue v with
    | .error e => .failed (.value e)
    | .ok d => .item d

/-- The next delivery of a stream of deposits. An element that is no deposit is an error, and the
stream goes on after it. -/
def Cursor.nextDeposit (c : Cursor) : DepositDelivery × Cursor :=
  (c.next.1.toDeposit, c.next.2)

end NamedQuery
