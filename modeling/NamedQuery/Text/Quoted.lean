import NamedQuery.Text.Invisible

/-!
# Quoted texts

A text between double quotes, in which every character can be seen: quotes and backslashes are
marked, line breaks, tabs and the character zero have a letter, and all other invisible characters
are shown by their number.
-/

namespace NamedQuery.Text

/-- The quote around a text. -/
def doubleQuote : Char := '\x22'

/-- A number in lowercase hexadecimal digits, without leading zeros. -/
def writeHex (n : Nat) : List Char := Nat.toDigits 16 n

/-- A character between quotes. -/
def display (c : Char) : List Char :=
  if c = doubleQuote ∨ c = '\\' then ['\\', c]
  else if c = '\n' then ['\\', 'n']
  else if c = '\r' then ['\\', 'r']
  else if c = '\t' then ['\\', 't']
  else if c = '\x00' then ['\\', '0']
  else if isInvisible c then '\\' :: 'u' :: '\x7b' :: (writeHex c.toNat ++ ['\x7d'])
  else [c]

/-- A text between quotes. -/
def quoted (s : String) : String :=
  String.ofList (doubleQuote :: (s.toList.flatMap display ++ [doubleQuote]))

end NamedQuery.Text
