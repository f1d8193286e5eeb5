import Mathlib.Data.Nat.Init
import Mathlib.Tactic.SplitIfs
import NamedQuery.Json.Parser
import NamedQuery.Proofs.Format.HexGrammar
import NamedQuery.Proofs.Format.Numeral

/-!
# What is read of a JSON text

What the reader makes of bytes that begin with the text of a word, a string, a whole number or an
array, with any bytes behind it. A number ends where something stands that cannot go on with it; all
others end by themselves. Arrays are read by a reader of their items, of which nothing is assumed.

* `outcome`: what was read and what is left.
* `Finds`: what one reading comes to: a value, or arrays that are nested too deep.
* `outcome_readString`, `outcome_readNumber`: strings without escapes, and whole numbers.
* `finds_readItems_next`, `finds_readArray_next`: one item of an array, and what follows it.
* `outcome_readValue`: the first byte decides what is read.
* `finds_parse`: a document is read if it is all that there is.
-/

namespace NamedQuery.Json

variable {α β : Type} {levels n : Nat} {b : UInt8} {input mid raw rest gap : List UInt8}

/-! ## Outcomes -/

/-- What was read and what is left, without the proof that this is less. -/
def outcome (r : Except ParseError (Read α input)) : Except ParseError (α × List UInt8) :=
  r.map fun p => (p.value, p.rest)

/-- What a reading comes to: `a` if `ok` holds, and if not, too many levels. -/
structure Finds (ok : Prop) (r : Except ParseError α) (a : α) : Prop where
  found : ok → r = .ok a
  failed : ¬ok → ∃ e, r = .error e ∧ e.cause = .tooDeep

theorem Finds.of_eq {r : Except ParseError α} {a : α} {ok : Prop} (h : r = .ok a) (hok : ok) :
    Finds ok r a :=
  ⟨fun _ => h, fun hno => absurd hok hno⟩

theorem Finds.iff {r : Except ParseError α} {a : α} {ok ok' : Prop} (h : Finds ok r a)
    (hok : ok ↔ ok') : Finds ok' r a :=
  ⟨fun h' => h.found (hok.mpr h'), fun h' => h.failed fun hc => h' (hok.mp hc)⟩

theorem Finds.map {r : Except ParseError α} {a : α} {ok : Prop} (h : Finds ok r a) (f : α → β) :
    Finds ok (r.map f) (f a) := by
  constructor
  · intro hok
    rw [h.found hok]
    rfl
  · intro hok
    obtain ⟨e, he, hcause⟩ := h.failed hok
    rw [he]
    exact ⟨e, rfl, hcause⟩

/-- Of two readings, one behind the other, both must find what they look for. -/
theorem Finds.bind {r : Except ParseError α} {a : α} {f : α → Except ParseError β} {b : β}
    {ok ok' : Prop} (h : Finds ok r a) (h' : Finds ok' (f a) b) :
    Finds (ok ∧ ok') (r.bind f) b := by
  by_cases hok : ok
  · rw [h.found hok]
    exact Finds.iff h' (and_iff_right hok).symm
  · obtain ⟨e, he, hcause⟩ := h.failed hok
    rw [he]
    exact ⟨fun hboth => absurd hboth.1 hok, fun _ => ⟨e, rfl, hcause⟩⟩

/-! ## Blanks and words -/

/-- Whether a value may begin here: there is neither a blank nor the end of an array. -/
def Begins (input : List UInt8) : Prop :=
  ∃ b rest, input = b :: rest ∧ isSpace b = false ∧ b ≠ 93

theorem Begins.append (h : Begins input) (rest : List UInt8) : Begins (input ++ rest) := by
  obtain ⟨b, raw, rfl, hspace, hend⟩ := h
  exact ⟨b, raw ++ rest, rfl, hspace, hend⟩

theorem skipSpace_gap (hgap : ∀ a ∈ gap, isSpace a = true) (hb : isSpace b = false)
    (rest : List UInt8) : skipSpace (gap ++ b :: rest) = b :: rest := by
  rw [skipSpace, List.dropWhile_append_of_pos hgap, List.dropWhile_cons_of_neg]
  rw [hb]
  exact Bool.false_ne_true

theorem Begins.skipSpace_gap (h : Begins input) (hgap : ∀ a ∈ gap, isSpace a = true) :
    skipSpace (gap ++ input) = input := by
  obtain ⟨b, raw, rfl, hspace, -⟩ := h
  exact Json.skipSpace_gap hgap hspace raw

theorem readWord_append (d : Document) (word rest : List UInt8) :
    readWord d word (word ++ rest) = .ok (d, rest) := by
  induction word with
  | nil => rfl
  | cons a word ih => rw [List.cons_append, readWord, if_pos rfl, ih]

theorem Begins.skipSpace_eq (h : Begins input) : skipSpace input = input :=
  @Begins.skipSpace_gap _ [] h fun _ => nofun

/-! ## Strings -/

/-- Whether a byte stands for itself inside of a string. -/
def IsPlain (b : UInt8) : Prop := b ≠ 34 ∧ b ≠ 92 ∧ ¬b < 32

instance (b : UInt8) : Decidable (IsPlain b) :=
  inferInstanceAs (Decidable (b ≠ 34 ∧ b ≠ 92 ∧ ¬b < 32))

theorem outcome_readStringBytes_cons (hb : IsPlain b) (rest : List UInt8) :
    outcome (readStringBytes (b :: rest)) =
      (outcome (readStringBytes rest)).map fun s => (b :: s.1, s.2) := by
  obtain ⟨hquote, hslash, hcontrol⟩ := hb
  rw [readStringBytes, if_neg hquote, if_neg hslash, if_neg hcontrol]
  cases readStringBytes rest with
  | error e => rfl
  | ok p => rfl

theorem outcome_readStringBytes (hraw : ∀ b ∈ raw, IsPlain b) (rest : List UInt8) :
    outcome (readStringBytes (raw ++ 34 :: rest)) = .ok (raw, rest) := by
  induction raw with
  | nil =>
    rw [List.nil_append, readStringBytes, if_pos rfl]
    rfl
  | cons b raw ih =>
    rw [List.forall_mem_cons] at hraw
    rw [List.cons_append, outcome_readStringBytes_cons hraw.1, ih hraw.2]
    rfl

/-- A string without escapes ends at the next quote. -/
theorem outcome_readString {s : String} (hs : ∀ b ∈ Text.utf8 s, IsPlain b) (rest : List UInt8) :
    outcome (readString (Text.utf8 s ++ 34 :: rest)) = .ok (s, rest) := by
  have hbytes := outcome_readStringBytes hs rest
  rw [readString]
  cases hread : readStringBytes (Text.utf8 s ++ 34 :: rest) with
  | error e =>
    rw [hread] at hbytes
    cases hbytes
  | ok p =>
    rw [hread] at hbytes
    obtain ⟨hvalue, hrest⟩ := Prod.mk.inj (Except.ok.inj hbytes)
    simp only [hvalue, Text.ofUtf8?_utf8]
    show Except.ok (s, p.rest) = .ok (s, rest)
    rw [hrest]

/-! ## Numbers -/

/-- Whether a number ends in front of these bytes: neither a digit nor a point nor the letter of an
exponent comes next. -/
def EndsNumber (rest : List UInt8) : Prop :=
  ∀ b ∈ rest.head?, isDigit b = false ∧ b ≠ 46 ∧ b ≠ 101 ∧ b ≠ 69

theorem endsNumber_nil : EndsNumber [] := fun _ hb => by cases hb

theorem outcome_readScale (d : Document) (s : Leading) (hrest : EndsNumber rest)
    (h : rest.length < input.length) :
    outcome (readScale (some d) false s rest h) = .ok (d, rest) := by
  cases rest with
  | nil => rfl
  | cons b rest =>
    obtain ⟨-, -, hlower, hupper⟩ := hrest b rfl
    have hscale : ¬(b = 101 ∨ b = 69) := not_or.mpr ⟨hlower, hupper⟩
    rw [readScale, if_neg hscale]
    rfl

theorem outcome_readTail (s : Leading) (hfull : s.full = false) (hrest : EndsNumber rest)
    (h : rest.length < input.length) :
    outcome (readTail false s rest h) = .ok (.integer s.significand, rest) := by
  have hwhole : s.toWhole false = some (.integer s.significand) := by
    rw [Leading.toWhole, hfull]
    rfl
  unfold readTail
  split
  case h_1 => exact absurd rfl (hrest 46 rfl).2.1
  case h_2 =>
    rw [hwhole]
    exact outcome_readScale _ s hrest h

/-- A decimal digit is a single byte with the number of the digit. -/
theorem utf8EncodeChar_of_isDigit {c : Char} (hc : c.isDigit = true) :
    ∃ b : UInt8, String.utf8EncodeChar c = [b] ∧ b.toNat = c.toNat ∧ isDigit b = true := by
  rw [Char.isDigit, Bool.and_eq_true, decide_eq_true_eq, decide_eq_true_eq] at hc
  have hlow : 48 ≤ c.toNat := hc.1
  have hhigh : c.toNat ≤ 57 := hc.2
  have hbyte : (UInt8.ofNat c.toNat).toNat = c.toNat := by
    rw [UInt8.toNat_ofNat', Nat.mod_eq_of_lt (by omega)]
  refine ⟨_, Hex.utf8EncodeChar_of_lt (by omega), hbyte, ?_⟩
  rw [isDigit, Bool.and_eq_true, decide_eq_true_eq, decide_eq_true_eq, UInt8.le_iff_toNat_le,
    UInt8.le_iff_toNat_le, hbyte]
  exact ⟨hlow, hhigh⟩

theorem isDigit_of_mem_utf8 {ds : List Char} (hds : ∀ c ∈ ds, c.isDigit = true)
    (hb : b ∈ ds.flatMap String.utf8EncodeChar) : isDigit b = true := by
  obtain ⟨c, hc, hb⟩ := List.mem_flatMap.mp hb
  obtain ⟨a, ha, -, hdigit⟩ := utf8EncodeChar_of_isDigit (hds c hc)
  rw [ha, List.mem_singleton] at hb
  exact hb ▸ hdigit

/-- As long as 64 bits hold the number, every digit is kept. -/
theorem foldl_pushWhole {ds : List Char} {value : Nat} (hds : ∀ c ∈ ds, c.isDigit = true)
    (hlt : Nat.ofDigitChars 10 ds value < UInt64.size) :
    (ds.flatMap String.utf8EncodeChar).foldl Leading.pushWhole ⟨value, 0, false⟩ =
      ⟨Nat.ofDigitChars 10 ds value, 0, false⟩ := by
  induction ds generalizing value with
  | nil => rfl
  | cons c ds ih =>
    rw [List.forall_mem_cons] at hds
    obtain ⟨b, hb, hnumber, -⟩ := utf8EncodeChar_of_isDigit hds.1
    have hcons : Nat.ofDigitChars 10 (c :: ds) value =
        Nat.ofDigitChars 10 ds (10 * value + (b.toNat - 48)) := by
      rw [hnumber]
      exact Nat.ofDigitChars_cons
    rw [hcons] at hlt ⊢
    have hfits : ¬UInt64.size ≤ 10 * value + (b.toNat - 48) :=
      Nat.not_le.mpr (Nat.lt_of_le_of_lt (Numeral.le_ofDigitChars ds _) hlt)
    have hpush : Leading.pushWhole ⟨value, 0, false⟩ b =
        ⟨10 * value + (b.toNat - 48), 0, false⟩ := by
      simp only [Leading.pushWhole, Leading.push?, Bool.false_or, decide_eq_true_eq, if_neg hfits]
    rw [List.flatMap_cons, hb, List.singleton_append, List.foldl_cons, hpush, ih hds.2 hlt]

/-- Digits are told from what ends them. -/
theorem span_digits (hraw : ∀ b ∈ raw, isDigit b = true) (hrest : EndsNumber rest) :
    (raw ++ rest).takeWhile isDigit = raw ∧ (raw ++ rest).dropWhile isDigit = rest := by
  rw [List.takeWhile_append_of_pos hraw, List.dropWhile_append_of_pos hraw]
  cases rest with
  | nil => exact ⟨List.append_nil raw, rfl⟩
  | cons b rest =>
    have hb : ¬isDigit b = true := by
      rw [(hrest b rfl).1]
      exact Bool.false_ne_true
    rw [List.takeWhile_cons_of_neg hb, List.dropWhile_cons_of_neg hb, List.append_nil]
    exact ⟨rfl, rfl⟩

theorem outcome_readNumber_zero (hrest : EndsNumber rest) :
    outcome (readNumber false (48 :: rest)) = .ok (.integer 0, rest) := by
  have hdigit : (rest.head?.map isDigit).getD false = false := by
    cases rest with
    | nil => rfl
    | cons b rest => exact (hrest b rfl).1
  rw [readNumber, if_pos rfl, if_neg (by rw [hdigit]; exact Bool.false_ne_true)]
  exact outcome_readTail _ rfl hrest _

/-- **A whole number of 64 bits is read exactly.** -/
theorem outcome_readNumber (hn : n < UInt64.size) (hrest : EndsNumber rest) :
    outcome (readNumber false ((Numeral.write n).flatMap String.utf8EncodeChar ++ rest)) =
      .ok (.integer n, rest) := by
  rcases Nat.eq_zero_or_pos n with rfl | hpos
  · have hzero : Numeral.write 0 = ['0'] := by
      rw [Numeral.write]
      rfl
    rw [hzero]
    exact outcome_readNumber_zero hrest
  · have hdigits : ∀ c ∈ Numeral.write n, c.isDigit = true := fun _ => Numeral.isDigit_of_mem_write
    have hfirst := Numeral.head_write_ne_zero hpos
    have hvalue := Numeral.ofDigitChars_write n
    cases hw : Numeral.write n with
    | nil => exact absurd hw (Numeral.write_ne_nil n)
    | cons c cs =>
      rw [hw] at hdigits hfirst hvalue
      have hwhole := foldl_pushWhole hdigits (hvalue.symm ▸ hn)
      rw [List.forall_mem_cons] at hdigits
      obtain ⟨b, hb, hnumber, hdigit⟩ := utf8EncodeChar_of_isDigit hdigits.1
      -- a zero in front would stand alone
      have hzero : b ≠ 48 := by
        rintro rfl
        exact hfirst c rfl (Char.toNat_inj.mp hnumber.symm)
      obtain ⟨htaken, hleft⟩ := span_digits (fun _ => isDigit_of_mem_utf8 hdigits.2) hrest
      rw [List.flatMap_cons, hb, List.singleton_append, hvalue] at hwhole
      rw [List.flatMap_cons, hb, List.singleton_append, List.cons_append, readNumber, if_neg hzero,
        if_pos hdigit]
      simp only [htaken, hleft, Leading.ofWhole, hwhole]
      exact outcome_readTail _ rfl hrest _

/-! ## Arrays -/

section Arrays

variable {item : (input : List UInt8) → Except ParseError (Read Document input)}

theorem outcome_readItems_end (hs : skipSpace input = 93 :: rest) :
    outcome (readItems item input) = .ok ([], rest) := by
  rw [readItems]
  split
  case h_1 heq =>
    rw [hs] at heq
    cases heq
  case h_2 heq =>
    rw [hs] at heq
    cases heq
    rfl

theorem outcome_readItems_next (hs : skipSpace input = 44 :: rest)
    (hnext : skipSpace rest = mid) (hmid : Begins mid) :
    outcome (readItems item input) =
      (outcome (item mid)).bind fun first =>
        (outcome (readItems item first.2)).map fun others => (first.1 :: others.1, others.2) := by
  obtain ⟨b, raw, rfl, -, hb⟩ := hmid
  rw [readItems]
  split
  case h_1 heq =>
    rw [hs] at heq
    cases heq
  case h_2 heq =>
    rw [hs] at heq
    cases heq
    rw [if_neg (by decide), if_pos rfl]
    simp only [hnext, List.head?_cons]
    rw [← hnext]
    cases item (skipSpace rest) with
    | error e => rfl
    | ok p =>
      simp only [outcome, Except.map, Except.bind]
      cases readItems item p.rest with
      | error e => rfl
      | ok q => rfl

theorem outcome_readArray_end (hs : skipSpace input = 93 :: rest) :
    outcome (readArray item input) = .ok (.array [], rest) := by
  rw [readArray]
  split
  case h_1 heq =>
    rw [hs] at heq
    cases heq
  case h_2 heq =>
    rw [hs] at heq
    cases heq
    rfl

theorem outcome_readArray_next (hs : skipSpace input = mid) (hmid : Begins mid) :
    outcome (readArray item input) =
      (outcome (item mid)).bind fun first =>
        (outcome (readItems item first.2)).map fun others =>
          (.array (first.1 :: others.1), others.2) := by
  obtain ⟨b, rest, rfl, -, hb⟩ := hmid
  rw [readArray]
  split
  case h_1 heq =>
    rw [hs] at heq
    cases heq
  case h_2 heq =>
    rw [hs] at heq
    cases heq
    rw [if_neg hb]
    cases item (b :: rest) with
    | error e => rfl
    | ok p =>
      simp only [outcome, Except.map, Except.bind]
      cases readItems item p.rest with
      | error e => rfl
      | ok q => rfl

/-- The first item of an array, between blanks and the other items. -/
theorem finds_readArray_next {ok ok' : Prop} {d : Document} {ds : List Document}
    (hgap : ∀ a ∈ gap, isSpace a = true) (hmid : Begins mid)
    (hfirst : Finds ok (outcome (item mid)) (d, raw))
    (hothers : Finds ok' (outcome (readItems item raw)) (ds, rest)) :
    Finds (ok ∧ ok') (outcome (readArray item (gap ++ mid))) (.array (d :: ds), rest) := by
  have hall := hothers.map fun others => (Document.array (d :: others.1), others.2)
  rw [outcome_readArray_next (hmid.skipSpace_gap hgap) hmid]
  exact hfirst.bind hall

/-- A further item of an array, behind a comma between blanks. -/
theorem finds_readItems_next {ok ok' : Prop} {d : Document} {ds : List Document}
    {before after : List UInt8} (hbefore : ∀ a ∈ before, isSpace a = true)
    (hafter : ∀ a ∈ after, isSpace a = true) (hmid : Begins mid)
    (hfirst : Finds ok (outcome (item mid)) (d, raw))
    (hothers : Finds ok' (outcome (readItems item raw)) (ds, rest)) :
    Finds (ok ∧ ok') (outcome (readItems item (before ++ 44 :: (after ++ mid))))
      (d :: ds, rest) := by
  have hall := hothers.map fun others => (d :: others.1, others.2)
  rw [outcome_readItems_next (skipSpace_gap hbefore rfl _) (hmid.skipSpace_gap hafter) hmid]
  exact hfirst.bind hall

end Arrays

/-! ## Values -/

/-- The first byte behind blanks decides what is read. -/
theorem outcome_readValue (hs : skipSpace input = b :: rest) :
    outcome (readValue levels input) =
      if b = 110 then readWord .null [117, 108, 108] rest
      else if b = 116 then readWord (.bool true) [114, 117, 101] rest
      else if b = 102 then readWord (.bool false) [97, 108, 115, 101] rest
      else if b = 34 then (outcome (readString rest)).map fun s => (.string s.1, s.2)
      else if b = 45 then outcome (readNumber true rest)
      else if isDigit b then outcome (readNumber false (b :: rest))
      else if b = 91 ∨ b = 123 then
        match levels with
        | 0 => .error (.next .tooDeep (b :: rest))
        | levels + 1 =>
          if b = 91 then outcome (readArray (readValue levels) rest)
          else outcome (readObject (readValue levels) rest)
      else .error (.next .expectedValue (b :: rest)) := by
  unfold readValue
  split
  case h_1 heq =>
    rw [hs] at heq
    cases heq
  case h_2 heq =>
    rw [hs] at heq
    cases heq
    dsimp only
    split_ifs with hnull htrue hfalse hquote hminus hdigit hopen harray
    · split
      case h_1 hword => exact hword.symm
      case h_2 hword => exact hword.symm
    · split
      case h_1 hword => exact hword.symm
      case h_2 hword => exact hword.symm
    · split
      case h_1 hword => exact hword.symm
      case h_2 hword => exact hword.symm
    · cases readString rest with
      | error e => rfl
      | ok p => rfl
    · cases readNumber true rest with
      | error e => rfl
      | ok p => rfl
    · cases readNumber false (b :: rest) with
      | error e => rfl
      | ok p => rfl
    · cases levels with
      | zero => rfl
      | succ levels =>
        dsimp only
        cases readArray (readValue levels) rest with
        | error e => rfl
        | ok p => rfl
    · cases levels with
      | zero => rfl
      | succ levels =>
        dsimp only
        cases readObject (readValue levels) rest with
        | error e => rfl
        | ok p => rfl
    · rfl

theorem outcome_readValue_digit (hs : skipSpace input = b :: rest) (hb : isDigit b = true) :
    outcome (readValue levels input) = outcome (readNumber false (b :: rest)) := by
  have hne : ∀ a : UInt8, isDigit a = false → b ≠ a := by
    rintro a ha rfl
    rw [hb] at ha
    cases ha
  rw [outcome_readValue hs, if_neg (hne _ rfl), if_neg (hne _ rfl), if_neg (hne _ rfl),
    if_neg (hne _ rfl), if_neg (hne _ rfl), if_pos hb]

/-- An array takes up one level. -/
theorem finds_array {r : Document × List UInt8}
    (h : ∀ levels, Finds (n ≤ levels) (outcome (readArray (readValue levels) input)) r)
    (levels : Nat) : Finds (n + 1 ≤ levels) (outcome (readValue levels (91 :: input))) r := by
  have hs : skipSpace (91 :: input) = 91 :: input := rfl
  cases levels with
  | zero =>
    refine ⟨nofun, fun _ => ⟨.next .tooDeep (91 :: input), ?_, rfl⟩⟩
    rw [outcome_readValue hs]
    rfl
  | succ levels =>
    rw [outcome_readValue hs]
    exact (h levels).iff Nat.succ_le_succ_iff.symm

/-! ## Documents -/

/-- A document is read if it is all that there is. -/
theorem parse_of_ok {d : Document} (h : outcome (readValue maxNesting input) = .ok (d, [])) :
    Document.parse input = .ok d := by
  rw [Document.parse]
  cases hread : readValue maxNesting input with
  | error e =>
    rw [hread] at h
    cases h
  | ok p =>
    rw [hread] at h
    obtain ⟨hvalue, hrest⟩ := Prod.mk.inj (Except.ok.inj h)
    dsimp only
    rw [hrest, hvalue]
    rfl

theorem parse_of_error {e : ParseError} (h : outcome (readValue maxNesting input) = .error e) :
    Document.parse input = .error e := by
  rw [Document.parse]
  cases hread : readValue maxNesting input with
  | error e' =>
    rw [hread] at h
    cases h
    rfl
  | ok p =>
    rw [hread] at h
    cases h

theorem finds_parse {ok : Prop} {d : Document}
    (h : Finds ok (outcome (readValue maxNesting input)) (d, [])) :
    Finds ok (Document.parse input) d := by
  constructor
  · intro hok
    exact parse_of_ok (h.found hok)
  · intro hno
    obtain ⟨e, he, hcause⟩ := h.failed hno
    exact ⟨e, parse_of_error he, hcause⟩

end NamedQuery.Json
