import NamedQuery.Json.Number
import NamedQuery.Text.Encoding

/-!
# Reading JSON

The strict reader of documents: blanks are space, tab, line feed and carriage return, nothing may
follow the document, and arrays and objects are nested at most 127 deep. Of members with one key the
last one counts.
-/

namespace NamedQuery.Json

/-- Whether the byte is blank between the parts of a document. -/
def isSpace (b : UInt8) : Bool := b == 32 || b == 9 || b == 10 || b == 13

/-- The input from the next byte that is not blank. -/
def skipSpace (input : List UInt8) : List UInt8 := input.dropWhile isSpace

theorem length_skipSpace_le (input : List UInt8) : (skipSpace input).length ≤ input.length :=
  length_dropWhile_le isSpace input

/-! ## Strings -/

/-- The value of a hexadecimal digit of either case. -/
def hexValue? (b : UInt8) : Option Nat :=
  let n := b.toNat
  if 48 ≤ n ∧ n ≤ 57 then some (n - 48)
  else if 97 ≤ n ∧ n ≤ 102 then some (n - 87)
  else if 65 ≤ n ∧ n ≤ 70 then some (n - 55)
  else none

/-- Reads the four digits of an escaped code. -/
def readCode : (input : List UInt8) → Except ParseError (Read Nat input)
  | a :: b :: c :: d :: rest =>
    match hexValue? a, hexValue? b, hexValue? c, hexValue? d with
    | some a, some b, some c, some d =>
      .ok ⟨((a * 16 + b) * 16 + c) * 16 + d, rest, by simp only [List.length_cons]; omega⟩
    | _, _, _, _ => .error (.here .invalidEscape rest)
  | _ => .error (.here .eofString [])

/-- The bytes of the character with this code point. -/
def encodeChar (n : Nat) : List UInt8 := String.utf8EncodeChar (Char.ofNat n)

/-- Reads the second half of a surrogate pair, an escape of its own. -/
def readLowSurrogate (high : Nat) :
    (input : List UInt8) → Except ParseError (Read (List UInt8) input)
  | [] | [92] => .error (.here .eofString [])
  | 92 :: 117 :: rest =>
    match readCode rest with
    | .error e => .error e
    | .ok r =>
      if r.value < 0xDC00 ∨ 0xDFFF < r.value then .error (.here .loneSurrogate r.rest)
      else
        .ok ((r.withValue
          (encodeChar (0x10000 + (high - 0xD800) * 0x400 + (r.value - 0xDC00)))).within
            (by simp only [List.length_cons]; omega))
  | 92 :: _ :: rest => .error (.here .missingSurrogate rest)
  | _ :: rest => .error (.here .missingSurrogate rest)

/-- Reads an escape from behind its backslash: the bytes that it stands for. -/
def readEscape : (input : List UInt8) → Except ParseError (Read (List UInt8) input)
  | [] => .error (.here .eofString [])
  | b :: rest =>
    let one (c : UInt8) : Except ParseError (Read (List UInt8) (b :: rest)) :=
      .ok (.one [c] b rest)
    if b = 34 ∨ b = 92 ∨ b = 47 then one b
    else if b = 98 then one 8
    else if b = 102 then one 12
    else if b = 110 then one 10
    else if b = 114 then one 13
    else if b = 116 then one 9
    else if b = 117 then
      match readCode rest with
      | .error e => .error e
      | .ok r =>
        if 0xDC00 ≤ r.value ∧ r.value ≤ 0xDFFF then .error (.here .loneSurrogate r.rest)
        else if 0xD800 ≤ r.value ∧ r.value ≤ 0xDBFF then
          match readLowSurrogate r.value r.rest with
          | .error e => .error e
          | .ok s => .ok ((r.andThen s).behind b)
        else .ok ((r.withValue (encodeChar r.value)).behind b)
    else .error (.here .invalidEscape rest)

/-- Reads the bytes of a string up to its closing quote. -/
def readStringBytes (input : List UInt8) : Except ParseError (Read (List UInt8) input) :=
  match input with
  | [] => .error (.here .eofString [])
  | b :: rest =>
    if b = 34 then .ok (.one [] b rest)
    else if b = 92 then
      match readEscape rest with
      | .error e => .error e
      | .ok r =>
        have := r.rest_lt
        match readStringBytes r.rest with
        | .error e => .error e
        | .ok s => .ok ((r.andThen (s.withValue (r.value ++ s.value))).behind b)
    else if b < 32 then .error (.here .controlCharacter rest)
    else
      match readStringBytes rest with
      | .error e => .error e
      | .ok s => .ok ((s.withValue (b :: s.value)).behind b)
termination_by input.length
decreasing_by
  · simp only [List.length_cons]; omega
  · simp

/-- Reads a string from behind its opening quote; its bytes must be a text. -/
def readString (input : List UInt8) : Except ParseError (Read String input) :=
  match readStringBytes input with
  | .error e => .error e
  | .ok r =>
    match Text.ofUtf8? r.value with
    | some s => .ok (r.withValue s)
    | none => .error (.here .invalidText r.rest)

/-! ## Values -/

/-- Reads the remaining letters of a word that stands for `d`. -/
def readWord (d : Document) : (word input : List UInt8) → Except ParseError (Document × List UInt8)
  | [], input => .ok (d, input)
  | _ :: _, [] => .error (.here .eofValue [])
  | a :: word, b :: rest =>
    if a = b then readWord d word rest else .error (.here .expectedWord rest)

theorem readWord_length {d d' : Document} {word input rest : List UInt8}
    (h : readWord d word input = .ok (d', rest)) : rest.length + word.length = input.length := by
  induction word generalizing input with
  | nil => cases h; simp
  | cons a word ih =>
    cases input with
    | nil => cases h
    | cons b input =>
      simp only [readWord] at h
      split at h
      · have := ih h; simp only [List.length_cons]; omega
      · cases h

/-- Reads the items of an array behind the first, from where the first one ended. -/
def readItems (item : (input : List UInt8) → Except ParseError (Read Document input))
    (input : List UInt8) : Except ParseError (Read (List Document) input) :=
  match hs : skipSpace input with
  | [] => .error (.here .eofArray [])
  | b :: rest =>
    have hrest : rest.length < input.length := by
      have := length_skipSpace_le input
      simp only [hs, List.length_cons] at this
      omega
    if b = 93 then .ok ⟨[], rest, hrest⟩
    else if b = 44 then
      let next := skipSpace rest
      have hnext : next.length ≤ rest.length := length_skipSpace_le rest
      match next.head? with
      | none => .error (.here .eofValue [])
      | some 93 => .error (.next .trailingComma next)
      | some _ =>
        match item next with
        | .error e => .error e
        | .ok r =>
          have hr := r.rest_lt
          match readItems item r.rest with
          | .error e => .error e
          | .ok s => .ok ((r.andThen (s.withValue (r.value :: s.value))).within (by omega))
    else .error (.next .expectedCommaOrBracket (b :: rest))
termination_by input.length
decreasing_by omega

/-- Reads a key with its value, from the opening quote of the key. -/
def readMember (item : (input : List UInt8) → Except ParseError (Read Document input))
    (input : List UInt8) : Except ParseError (Read (String × Document) input) :=
  match input with
  | 34 :: rest =>
    match readString rest with
    | .error e => .error e
    | .ok k =>
      match hs : skipSpace k.rest with
      | [] => .error (.here .eofObject [])
      | b :: after =>
        if b = 58 then
          match item after with
          | .error e => .error e
          | .ok r => .ok ((r.withValue (k.value, r.value)).within (by
              have := length_skipSpace_le k.rest
              have := k.rest_lt
              simp only [hs, List.length_cons] at *
              omega))
        else .error (.next .expectedColon (b :: after))
  | _ => .error (.next .keyNotString input)

/-- Reads the members of an object behind the first, from where the first one ended. -/
def readMembers (item : (input : List UInt8) → Except ParseError (Read Document input))
    (input : List UInt8) : Except ParseError (Read (List (String × Document)) input) :=
  match hs : skipSpace input with
  | [] => .error (.here .eofObject [])
  | b :: rest =>
    have hrest : rest.length < input.length := by
      have := length_skipSpace_le input
      simp only [hs, List.length_cons] at this
      omega
    if b = 125 then .ok ⟨[], rest, hrest⟩
    else if b = 44 then
      let next := skipSpace rest
      have hnext : next.length ≤ rest.length := length_skipSpace_le rest
      match next.head? with
      | none => .error (.here .eofValue [])
      | some 125 => .error (.next .trailingComma next)
      | some _ =>
        match readMember item next with
        | .error e => .error e
        | .ok r =>
          have hr := r.rest_lt
          match readMembers item r.rest with
          | .error e => .error e
          | .ok s => .ok ((r.andThen (s.withValue (r.value :: s.value))).within (by omega))
    else .error (.next .expectedCommaOrBrace (b :: rest))
termination_by input.length
decreasing_by omega

/-- Reads an array from behind its bracket. -/
def readArray (item : (input : List UInt8) → Except ParseError (Read Document input))
    (input : List UInt8) : Except ParseError (Read Document input) :=
  match hs : skipSpace input with
  | [] => .error (.here .eofArray [])
  | b :: rest =>
    if b = 93 then
      .ok ⟨.array [], rest, by have := hs ▸ length_skipSpace_le input; exact this⟩
    else
      match item (b :: rest) with
      | .error e => .error e
      | .ok r =>
        match readItems item r.rest with
        | .error e => .error e
        | .ok s =>
          .ok ((r.andThen (s.withValue (.array (r.value :: s.value)))).within
            (hs ▸ length_skipSpace_le input))

/-- Reads an object from behind its brace. -/
def readObject (item : (input : List UInt8) → Except ParseError (Read Document input))
    (input : List UInt8) : Except ParseError (Read Document input) :=
  match hs : skipSpace input with
  | [] => .error (.here .eofObject [])
  | b :: rest =>
    if b = 125 then
      .ok ⟨.object [], rest, by have := hs ▸ length_skipSpace_le input; exact this⟩
    else
      match readMember item (b :: rest) with
      | .error e => .error e
      | .ok r =>
        match readMembers item r.rest with
        | .error e => .error e
        | .ok s =>
          let members := (r.value :: s.value).foldl (fun ms m => insertMember m.1 m.2 ms) []
          .ok ((r.andThen (s.withValue (.object members))).within (hs ▸ length_skipSpace_le input))

/-- Reads a value, nested at most `levels` deep, after any blanks. -/
def readValue : (levels : Nat) → (input : List UInt8) → Except ParseError (Read Document input)
  | levels, input =>
    match hs : skipSpace input with
    | [] => .error (.here .eofValue [])
    | b :: rest =>
      have hrest : rest.length < input.length := by
        have := length_skipSpace_le input
        simp only [hs, List.length_cons] at this
        omega
      let word (d : Document) (w : List UInt8) : Except ParseError (Read Document input) :=
        match hw : readWord d w rest with
        | .error e => .error e
        | .ok (d, rest') => .ok ⟨d, rest', by have := readWord_length hw; omega⟩
      let inside (r : Except ParseError (Read Document rest)) :
          Except ParseError (Read Document input) :=
        match r with
        | .error e => .error e
        | .ok r => .ok (r.within (Nat.le_of_lt hrest))
      if b = 110 then word .null [117, 108, 108]
      else if b = 116 then word (.bool true) [114, 117, 101]
      else if b = 102 then word (.bool false) [97, 108, 115, 101]
      else if b = 34 then
        match readString rest with
        | .error e => .error e
        | .ok r => .ok ((r.withValue (.string r.value)).within (Nat.le_of_lt hrest))
      else if b = 45 then inside (readNumber true rest)
      else if isDigit b then
        match readNumber false (b :: rest) with
        | .error e => .error e
        | .ok r => .ok (r.within (by simp only [List.length_cons]; omega))
      else if b = 91 ∨ b = 123 then
        match levels with
        | 0 => .error (.next .tooDeep (b :: rest))
        | levels + 1 =>
          if b = 91 then inside (readArray (readValue levels) rest)
          else inside (readObject (readValue levels) rest)
      else .error (.next .expectedValue (b :: rest))

/-- How deep arrays and objects may be nested. -/
def maxNesting : Nat := 127

/-- Reads a document: one value and nothing else but blanks. -/
def Document.parse (input : List UInt8) : Except ParseError Document :=
  match readValue maxNesting input with
  | .error e => .error e
  | .ok r =>
    match skipSpace r.rest with
    | [] => .ok r.value
    | b :: rest => .error (.next .trailingCharacters (b :: rest))

end NamedQuery.Json
