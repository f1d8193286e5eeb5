import NamedQuery.Format.Numeral
import NamedQuery.Status

/-!
# Messages

How messages are received. The length of a message is told in front of it, so one that is too long
is refused before anything of it is read, whatever it holds. Both sides of an exchange receive
messages in this way and have the same limit; nobody keeps to a limit when a message is sent.
-/

namespace NamedQuery.Message

/-- The most bytes of a message that is received. -/
def maxBytes : Nat := 4194304

/-- The refusal of a message of so many bytes. -/
def tooLong (length : Nat) : Status :=
  ⟨.outOfRange, "Error, decoded message length too large: found " ++ Numeral.text length ++
    " bytes, the limit is: " ++ Numeral.text maxBytes ++ " bytes"⟩

/-- Reads a message, unless it is too long. -/
def receive {α : Type} (read : List UInt8 → Except Status α) (message : List UInt8) :
    Except Status α :=
  if maxBytes < message.length then .error (tooLong message.length) else read message

end NamedQuery.Message
