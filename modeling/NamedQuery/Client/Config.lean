import NamedQuery.Address
import NamedQuery.Client.Basic

/-!
# Connections

Where a client connects to, and how long it waits. An address that is none is refused before
anything is tried.
-/

namespace NamedQuery

/-- Where to connect to, and the limits on waiting in seconds. -/
structure Config where
  url : String
  connectTimeout : Option Nat
  timeout : Option Nat
  deriving DecidableEq, Repr

/-- The address of a service when none is given. -/
def defaultUrl : String := "http://127.0.0.1:4000"

/-- A connection to an address, with no limits on waiting. -/
def Config.to (url : String) : Config := ⟨url, none, none⟩

/-- Why a client is not connected. -/
inductive ConnectError where
  | invalidUrl (url : String)
  | connectionFailed (url : String)
  deriving DecidableEq, Repr

/-- The wording of a connect error. -/
def ConnectError.message : ConnectError → String
  | .invalidUrl url => s!"Invalid URL '{url}': transport error"
  | .connectionFailed url => s!"Failed to connect to '{url}': transport error"

/-- The services that can be reached, by address. -/
abbrev Network := String → Option Script

/-- A network in which nothing can be reached. -/
def Network.silent : Network := fun _ => none

/-- A client that is connected, and the service at the other end. -/
def Config.connect (c : Config) (network : Network) : Except ConnectError (Client × Script) :=
  if !Address.isValid c.url then .error (.invalidUrl c.url)
  else
    match network c.url with
    | none => .error (.connectionFailed c.url)
    | some service => .ok (.ready, service)

end NamedQuery
