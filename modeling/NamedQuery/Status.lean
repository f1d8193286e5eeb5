/-!
# Statuses

How an exchange with a service ends: with a code, of which only `ok` is a success, and a message.
-/

namespace NamedQuery

/-- The ways in which an exchange ends. -/
inductive Code where
  | ok
  | cancelled
  | unknown
  | invalidArgument
  | deadlineExceeded
  | notFound
  | alreadyExists
  | permissionDenied
  | resourceExhausted
  | failedPrecondition
  | aborted
  | outOfRange
  | unimplemented
  | internal
  | unavailable
  | dataLoss
  | unauthenticated
  deriving DecidableEq, Repr

namespace Code

/-- The name of a code in messages. -/
def name : Code → String
  | ok => "Ok"
  | cancelled => "Cancelled"
  | unknown => "Unknown"
  | invalidArgument => "InvalidArgument"
  | deadlineExceeded => "DeadlineExceeded"
  | notFound => "NotFound"
  | alreadyExists => "AlreadyExists"
  | permissionDenied => "PermissionDenied"
  | resourceExhausted => "ResourceExhausted"
  | failedPrecondition => "FailedPrecondition"
  | aborted => "Aborted"
  | outOfRange => "OutOfRange"
  | unimplemented => "Unimplemented"
  | internal => "Internal"
  | unavailable => "Unavailable"
  | dataLoss => "DataLoss"
  | unauthenticated => "Unauthenticated"

/-- The codes in the order of their numbers, from zero. -/
def all : List Code :=
  [ok, cancelled, unknown, invalidArgument, deadlineExceeded, notFound, alreadyExists,
   permissionDenied, resourceExhausted, failedPrecondition, aborted, outOfRange, unimplemented,
   internal, unavailable, dataLoss, unauthenticated]

/-- The code with a number; numbers without a code are unknown errors. -/
def ofNumber : Int → Code
  | .ofNat n => all[n]?.getD unknown
  | .negSucc _ => unknown

end Code

/-- The end of an exchange. -/
structure Status where
  code : Code
  message : String
  deriving DecidableEq, Repr

namespace Status

/-- A plain success. -/
def success : Status := ⟨.ok, ""⟩

/-- Whether the exchange succeeded. -/
def isOk (s : Status) : Bool := s.code == .ok

/-- What is known after a later status: its code, and its message or, if it has none, the message of
the earlier one. -/
def following (later earlier : Status) : Status :=
  ⟨later.code, if later.message.isEmpty then earlier.message else later.message⟩

/-- An error inside the exchange itself. -/
def internal (message : String) : Status := ⟨.internal, message⟩

end Status

end NamedQuery
