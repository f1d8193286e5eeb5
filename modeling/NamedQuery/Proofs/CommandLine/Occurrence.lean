import Mathlib.Data.List.TakeDrop
import NamedQuery.Proofs.CommandLine.Parser

/-!
# Options as they are written

An option has a name, and some have a letter as well. Its value stands in a word of its own, behind
an equals sign, or, behind a letter, at once. Only a value in a word of its own must not begin with
a hyphen. However it is written, and on whatever level that knows it, an option is read as its
argument with its value, no later than when the next word has been recognised.

* `Written`: the ways to write an option.
* `readLevel_occurrence`: what is read of one.
-/

namespace NamedQuery.CommandLine

/-- The name of an option. -/
def Argument.longName? : Argument → Option String
  | url => some "url"
  | timeout => some "timeout"
  | connectTimeout => some "connect-timeout"
  | param => some "param"
  | header => some "header"
  | limit => some "limit"
  | _ => none

/-- The letter of an option. -/
def Argument.letter? : Argument → Option Char
  | param => some 'p'
  | header => some 'H'
  | _ => none

/-- The words in which an option can be written with its value. -/
inductive Written (argument : Argument) (text : String) : List String → Prop
  | long {name : String} (hname : argument.longName? = some name)
    (htext : text.toList.head? ≠ some '-') : Written argument text ["--" ++ name, text]
  | longJoined {name : String} (hname : argument.longName? = some name) :
    Written argument text ["--" ++ name ++ "=" ++ text]
  | short {c : Char} (hletter : argument.letter? = some c)
    (htext : text.toList.head? ≠ some '-') : Written argument text [String.ofList ['-', c], text]
  | shortJoined {c : Char} (hletter : argument.letter? = some c) :
    Written argument text [String.ofList ['-', c] ++ "=" ++ text]
  | attached {c : Char} (hletter : argument.letter? = some c) (hne : text ≠ "")
    (htext : text.toList.head? ≠ some '=') :
    Written argument text [String.ofList ['-', c] ++ text]

/-- An option with its value, as it stands on a command line. -/
structure Occurrence where
  argument : Argument
  text : String
  words : List String
  written : Written argument text words
  deriving DecidableEq

/-- Whether a level knows an argument by its name and its letter. -/
structure Level.Knows (l : Level) (argument : Argument) : Prop where
  long : ∀ name, argument.longName? = some name → l.long? name = some (.option argument)
  short : ∀ c, argument.letter? = some c → l.short? c = some (.option argument)

variable {l : Level} {s s' : State} {g g' : Given} {places : List Argument} {argument : Argument}
  {name text w : String} {words ws : List String} {c : Char}

/-! ## Words -/

theorem Word.of_short {cs : List Char} (hw : w.toList = '-' :: c :: cs) (hc : c ≠ '-') :
    Word.of w = .short (c :: cs) := by
  rw [Word.of, hw]
  split
  · rename_i heq
    cases heq
    exact absurd rfl hc
  · rename_i heq
    cases heq
    exact absurd rfl hc
  · rename_i heq
    cases heq
    rfl
  · rename_i hother
    exact absurd rfl (hother c cs)

/-- What stands before a separator, and what stands from there on. -/
theorem span_separator {front : List Char} {d : Char} (rest : List Char) (hfront : d ∉ front)
    (hrest : rest.head? ∈ [none, some d]) : (front ++ rest).span (· != d) = (front, rest) := by
  have hkept : ∀ c ∈ front, (c != d) = true := by
    intro c hc
    rw [bne_iff_ne]
    rintro rfl
    exact hfront hc
  rw [List.span_eq_takeWhile_dropWhile, List.takeWhile_append_of_pos hkept,
    List.dropWhile_append_of_pos hkept]
  cases rest with
  | nil => rw [List.takeWhile_nil, List.dropWhile_nil, List.append_nil]
  | cons c rest =>
    obtain rfl : c = d := by simpa using hrest
    rw [List.takeWhile_cons_of_neg (by simp), List.dropWhile_cons_of_neg (by simp), List.append_nil]

/-- A word behind two hyphens is cut at its first equals sign. -/
theorem Word.of_hyphens {rest : List Char} (hw : w.toList = '-' :: '-' :: rest) (hne : rest ≠ []) :
    Word.of w =
      match rest.span (· != '=') with
      | (name, []) => .long (String.ofList name) none
      | (name, _ :: value) => .long (String.ofList name) (some (String.ofList value)) := by
  rw [Word.of, hw]
  split
  · rename_i heq
    cases heq
    exact absurd rfl hne
  · rename_i heq
    cases heq
    rfl
  · rename_i hother heq
    cases heq
    exact absurd rfl hother
  · rename_i hother _
    exact absurd rfl (hother rest)

/-- No name of an option has an equals sign. -/
theorem notMem_of_longName? (h : argument.longName? = some name) :
    name.toList ≠ [] ∧ '=' ∉ name.toList := by
  cases argument <;> cases h <;> decide

theorem Word.of_long (h : argument.longName? = some name) :
    Word.of ("--" ++ name) = .long name none := by
  obtain ⟨hne, hequals⟩ := notMem_of_longName? h
  have hspan : name.toList.span (· != '=') = (name.toList, []) := by
    have h := span_separator [] hequals (by decide)
    rwa [List.append_nil] at h
  have hchars : ("--" ++ name).toList = '-' :: '-' :: name.toList := String.toList_append
  rw [of_hyphens hchars hne, hspan]
  dsimp only
  rw [String.ofList_toList]

theorem Word.of_longJoined (h : argument.longName? = some name) (text : String) :
    Word.of ("--" ++ name ++ "=" ++ text) = .long name (some text) := by
  obtain ⟨hne, hequals⟩ := notMem_of_longName? h
  have hchars : ("--" ++ name ++ "=" ++ text).toList =
      '-' :: '-' :: (name.toList ++ '=' :: text.toList) := by
    rw [String.toList_append, String.toList_append, String.toList_append, List.append_assoc]
    rfl
  rw [of_hyphens hchars (List.append_ne_nil_of_left_ne_nil hne _),
    span_separator _ hequals (by simp)]
  dsimp only
  rw [String.ofList_toList, String.ofList_toList]

theorem ne_hyphen_of_letter? (h : argument.letter? = some c) : c ≠ '-' := by
  cases argument <;> cases h <;> decide

/-! ## Commands -/

/-- No word that begins with a hyphen stands in place of a command. -/
theorem isCommandWord_of_hyphen (h : w.toList.head? = some '-') : isCommandWord w = false := by
  have hplain : ∀ c ∈ CommandName.all, c.word.toList.head? ≠ some '-' := by decide
  have hhelp : helpWord.toList.head? ≠ some '-' := by decide
  rw [isCommandWord, Bool.or_eq_false_iff]
  constructor
  · rw [beq_eq_false_iff_ne]
    rintro rfl
    exact hhelp h
  · rw [CommandName.ofWord?, Option.isSome_eq_false_iff, Option.isNone_iff_eq_none,
      List.find?_eq_none]
    intro c hc heq
    rw [beq_iff_eq] at heq
    rw [← heq] at h
    exact hplain c hc h

/-! ## Readers that wait for nothing -/

/-- What stands in a state whose checks succeed. -/
theorem of_settle (h : s.settle = .ok ⟨g, none, places, false⟩) :
    s.places = places ∧ s.valuesOnly = false ∧ s.isWaiting = false := by
  obtain ⟨given, pending, places', valuesOnly⟩ := s
  cases pending with
  | none =>
    cases h
    exact ⟨rfl, rfl, rfl⟩
  | some p =>
    obtain ⟨argument, text⟩ := p
    cases text with
    | none => cases h
    | some text =>
      cases hadd : given.add argument text with
      | error e =>
        simp only [State.settle, hadd] at h
        cases h
      | ok given' =>
        simp only [State.settle, hadd] at h
        cases h
        exact ⟨rfl, rfl, rfl⟩

/-- One more word is read unless a command stands here. -/
theorem readLevel_word (h : s.word l w = .ok s')
    (hcommand : isCommandWord w = false ∨ s.isWaiting = true) :
    readLevel l s (w :: ws) = readLevel l s' ws := by
  rw [readLevel, h]
  rcases hcommand with hcommand | hcommand
  · rw [hcommand, Bool.and_false]
    rfl
  · rw [hcommand, Bool.not_true, Bool.and_false, Bool.false_and]
    rfl

/-! ## One option -/

/-- What stands at a place of its own is no option. -/
theorem longName?_ne_none (h : Written argument text words) : argument.longName? ≠ none := by
  have hletter {c : Char} (h : argument.letter? = some c) : argument.longName? ≠ none := by
    cases argument <;> cases h <;> decide
  intro hnone
  cases h with
  | long h _ => cases hnone.symm.trans h
  | longJoined h => cases hnone.symm.trans h
  | short h _ => exact hletter h hnone
  | shortJoined h => exact hletter h hnone
  | attached h _ _ => exact hletter h hnone

theorem expect_of_settle (h : s.settle = .ok ⟨g, none, places, false⟩) :
    s.expect argument none = .ok ⟨g, some ⟨argument, none⟩, places, false⟩ := by
  rw [State.expect, h]
  rfl

theorem check_of_settle (h : s.settle = .ok ⟨g, none, places, false⟩)
    (hadd : g.add argument text = .ok g') :
    s.check argument text = .ok ⟨g', none, places, false⟩ := by
  rw [State.check, h]
  show (g.add argument text).bind (fun given => .ok (State.mk given none places false)) = _
  rw [hadd]
  rfl

/-- A value in a word of its own, behind an option that waits for it. -/
theorem readLevel_value (h : s.word l w = .ok ⟨g, some ⟨argument, none⟩, places, false⟩)
    (hw : w.toList.head? = some '-') (htext : text.toList.head? ≠ some '-') :
    readLevel l s (w :: text :: ws) =
      readLevel l ⟨g, some ⟨argument, some text⟩, places, false⟩ ws := by
  have hvalue : State.word l ⟨g, some ⟨argument, none⟩, places, false⟩ text =
      .ok ⟨g, some ⟨argument, some text⟩, places, false⟩ := by
    simp only [State.word, Word.of_plain htext]
    rfl
  rw [readLevel_word h (.inl (isCommandWord_of_hyphen hw)), readLevel_word hvalue (.inr rfl)]

theorem settle_pending (hadd : g.add argument text = .ok g') :
    State.settle ⟨g, some ⟨argument, some text⟩, places, false⟩ =
      .ok ⟨g', none, places, false⟩ := by
  rw [State.settle]
  simp only [hadd]
  rfl

theorem letters_attached {d : Char} {ds : List Char} (h : l.short? c = some (.option argument))
    (hd : d ≠ '=') : s.letters l (c :: d :: ds) = s.check argument (String.ofList (d :: ds)) := by
  simp only [State.letters, h]
  split
  · rename_i heq
    cases heq
  · rename_i heq
    cases heq
    exact absurd rfl hd
  · rfl

/-- **An option is read as its argument with its value**, however it is written. -/
theorem readLevel_occurrence (o : Occurrence) (hl : l.Knows o.argument)
    (hs : s.settle = .ok ⟨g, none, places, false⟩) (hadd : g.add o.argument o.text = .ok g') :
    ∃ s', (∀ ws, readLevel l s (o.words ++ ws) = readLevel l s' ws) ∧
      s'.settle = .ok ⟨g', none, places, false⟩ := by
  obtain ⟨argument, text, words, hwritten⟩ := o
  obtain ⟨-, hvalues, -⟩ := of_settle hs
  cases hwritten with
  | @long name hname htext =>
    have hoption : s.word l ("--" ++ name) =
        .ok ⟨g, some ⟨argument, none⟩, places, false⟩ := by
      simp only [State.word, hvalues, Word.of_long hname, hl.long name hname, State.switchOn,
        expect_of_settle hs]
      rfl
    refine ⟨_, fun ws => readLevel_value hoption ?_ htext, settle_pending hadd⟩
    rw [String.toList_append]
    rfl
  | @longJoined name hname =>
    have hoption : s.word l ("--" ++ name ++ "=" ++ text) = .ok ⟨g', none, places, false⟩ := by
      simp only [State.word, hvalues, Word.of_longJoined hname, hl.long name hname,
        State.switchOn, check_of_settle hs hadd]
      rfl
    refine ⟨_, fun ws => readLevel_word hoption (.inl (isCommandWord_of_hyphen ?_)), rfl⟩
    rw [String.append_assoc, String.append_assoc, String.toList_append]
    rfl
  | @short c hletter htext =>
    have hform : Word.of (String.ofList ['-', c]) = .short [c] :=
      Word.of_short String.toList_ofList (ne_hyphen_of_letter? hletter)
    have hoption : s.word l (String.ofList ['-', c]) =
        .ok ⟨g, some ⟨argument, none⟩, places, false⟩ := by
      simp only [State.word, hvalues, hform, State.letters, hl.short c hletter,
        expect_of_settle hs]
      rfl
    refine ⟨_, fun ws => readLevel_value hoption ?_ htext, settle_pending hadd⟩
    rw [String.toList_ofList]
    rfl
  | @shortJoined c hletter =>
    have hchars : (String.ofList ['-', c] ++ "=" ++ text).toList =
        '-' :: c :: '=' :: text.toList := by
      rw [String.toList_append, String.toList_append, String.toList_ofList]
      rfl
    have hoption : s.word l (String.ofList ['-', c] ++ "=" ++ text) =
        .ok ⟨g', none, places, false⟩ := by
      simp only [State.word, hvalues, Word.of_short hchars (ne_hyphen_of_letter? hletter),
        State.letters, hl.short c hletter, String.ofList_toList, check_of_settle hs hadd]
      rfl
    refine ⟨_, fun ws => readLevel_word hoption (.inl (isCommandWord_of_hyphen ?_)), rfl⟩
    rw [hchars]
    rfl
  | @attached c hletter hne htext =>
    have hchars : (String.ofList ['-', c] ++ text).toList = '-' :: c :: text.toList := by
      rw [String.toList_append, String.toList_ofList]
      rfl
    have hoption : s.word l (String.ofList ['-', c] ++ text) =
        .ok ⟨g', none, places, false⟩ := by
      simp only [State.word, hvalues, Word.of_short hchars (ne_hyphen_of_letter? hletter)]
      cases htail : text.toList with
      | nil => exact absurd (String.toList_eq_nil_iff.mp htail) hne
      | cons d ds =>
        have hd : d ≠ '=' := by
          rintro rfl
          exact htext (congrArg List.head? htail)
        show s.letters l (c :: d :: ds) = _
        rw [letters_attached (hl.short c hletter) hd, ← htail, String.ofList_toList,
          check_of_settle hs hadd]
    refine ⟨_, fun ws => readLevel_word hoption (.inl (isCommandWord_of_hyphen ?_)), rfl⟩
    rw [hchars]
    rfl

end NamedQuery.CommandLine
