import NamedQuery.CommandLine.Parser
import NamedQuery.Proofs.Format.Numeral

/-!
# Words that are read

How a command line is read that consists of a command and of what belongs to it: word by word, and
then the value that has not been checked yet. A number is not taken for a switch. As a limit it is
read back if it fits 64 bits, and otherwise the command line is at fault.

* `parse_stream_limit`, `parse_deposits_limit`: a limit behind one of the two commands that take it.
-/

namespace NamedQuery.CommandLine

/-! ## One word -/

theorem Word.of_plain {w : String} (h : w.toList.head? ≠ some '-') : Word.of w = .plain := by
  rw [Word.of]
  split
  · rename_i hw
    rw [hw] at h
    exact absurd rfl h
  · rename_i hw
    rw [hw] at h
    exact absurd rfl h
  · rename_i hw
    rw [hw] at h
    exact absurd rfl h
  · rfl

theorem Word.of_numeral (n : Nat) : Word.of (Numeral.text n) = .plain := by
  refine of_plain ?_
  rw [Numeral.text, String.toList_ofList]
  intro h
  have hdigit := Numeral.isDigit_of_mem_write (List.mem_of_head? h)
  cases hdigit

theorem readCount_text (n : Nat) : readCount (Numeral.text n) =
    if n < UInt64.size then .ok n else .error (.badCount .tooLarge) := by
  have hread : Numeral.read Width.word.bound (Numeral.write n) =
      if n < UInt64.size then .ok n else .error .tooLarge :=
    Numeral.read_write Width.word.bound n
  rw [readCount, Numeral.text, String.toList_ofList, hread]
  split <;> rfl

/-! ## Levels and commands -/

variable {l : Level} {s s' : State} {w : String} {ws : List String} {c : CommandName}
  {command : Command} {n : Nat}

theorem readLevel_cons (hl : l.hasCommands = false) (h : s.word l w = .ok s') :
    readLevel l s (w :: ws) = readLevel l s' ws := by
  rw [readLevel, hl, h]
  rfl

theorem readCommand_of_level
    (h : readLevel (.ofCommand c) (.start (.ofCommand c)) ws = .ok (s, none)) :
    readCommand c ws = s.settle.bind fun s =>
      (s.given.command c).bind fun command => .ok (s.given, command) := by
  rw [readCommand]
  dsimp only
  rw [h]
  rfl

/-- With nothing in front of the command all depends on what stands behind it. -/
theorem parse_of_command (c : CommandName) (ws : List String) :
    parse (c.word :: ws) = (readCommand c ws).bind fun e =>
      .ok ⟨Given.config .empty e.1, Given.verbosityOf .empty e.1, e.2⟩ := by
  have hroot : readLevel .root (.start .root) (c.word :: ws) =
      .ok (.start .root, some (c, ws)) := by
    cases c <;> rfl
  rw [parse, hroot]
  rfl

/-! ## Limits -/

/-- The option for a limit at the end, and its value in a word of its own. -/
theorem readLevel_limit (n : Nat) (hl : l.hasCommands = false)
    (hlong : l.long? "limit" = some (.option .limit)) (hs : s.settle = .ok s')
    (hv : s.valuesOnly = false) (hv' : s'.valuesOnly = false) :
    readLevel l s ["--limit", Numeral.text n] =
      .ok ({ s' with pending := some ⟨.limit, some (Numeral.text n)⟩ }, none) := by
  have hform : Word.of "--limit" = .long "limit" none := rfl
  have hoption : s.word l "--limit" = .ok { s' with pending := some ⟨.limit, none⟩ } := by
    simp only [State.word, hv, hform, hlong, State.switchOn, State.expect, hs]
    rfl
  have hvalue : State.word l { s' with pending := some ⟨.limit, none⟩ } (Numeral.text n) =
      .ok { s' with pending := some ⟨.limit, some (Numeral.text n)⟩ } := by
    simp only [State.word, hv', Word.of_numeral]
    rfl
  rw [readLevel_cons hl hoption, readLevel_cons hl hvalue, readLevel]

theorem settle_limit (hp : s.pending = some ⟨.limit, some (Numeral.text n)⟩)
    (hs : s.given.limit = none) :
    s.settle =
      if n < UInt64.size then
        .ok { s with given := { s.given with limit := some n }, pending := none }
      else .error (.invalidLiteral .limit (Numeral.text n) (.badCount .tooLarge)) := by
  rw [State.settle, hp]
  simp only [Given.add, hs, Given.once, readCount_text]
  by_cases hn : n < UInt64.size
  · rw [if_pos hn, if_pos hn]
    rfl
  · rw [if_neg hn, if_neg hn]
    rfl

/-- A limit at the end is checked last, and all else is as it would be without it. -/
theorem parse_limit (h : readLevel (.ofCommand c) (.start (.ofCommand c)) ws = .ok (s, none))
    (hp : s.pending = some ⟨.limit, some (Numeral.text n)⟩) (hs : s.given.limit = none)
    (hc : ({ s.given with limit := some n } : Given).command c = .ok command) :
    parse (c.word :: ws) =
      if n < UInt64.size then
        .ok ⟨Given.config .empty s.given, Given.verbosityOf .empty s.given, command⟩
      else .error (.invalidLiteral .limit (Numeral.text n) (.badCount .tooLarge)) := by
  rw [parse_of_command, readCommand_of_level h, settle_limit hp hs]
  by_cases hn : n < UInt64.size
  · rw [if_pos hn, if_pos hn]
    show ((({ s.given with limit := some n } : Given).command c).bind _).bind _ = _
    rw [hc]
    rfl
  · rw [if_neg hn, if_neg hn]
    rfl

/-- What stands behind the word for a query up to its name. -/
theorem word_name {name : String} (hl : l.places = [.name]) (hname : name.toList.head? ≠ some '-') :
    (State.start l).word l name = .ok ⟨.empty, some ⟨.name, some name⟩, [], false⟩ := by
  simp only [State.word, Word.of_plain hname, State.start, State.value, hl]
  rfl

theorem parse_stream_limit {name : String} (n : Nat) (hname : name.toList.head? ≠ some '-') :
    parse ["stream", name, "--limit", Numeral.text n] =
      if n < UInt64.size then .ok ⟨.to defaultUrl, 0, .stream name [] [] (some n)⟩
      else .error (.invalidLiteral .limit (Numeral.text n) (.badCount .tooLarge)) := by
  have hlevel := readLevel_limit n (l := .ofCommand .stream)
    (s := ⟨.empty, some ⟨.name, some name⟩, [], false⟩) rfl rfl rfl rfl rfl
  rw [← readLevel_cons rfl (word_name rfl hname)] at hlevel
  exact parse_limit hlevel rfl rfl rfl

theorem parse_stream {name : String} (hname : name.toList.head? ≠ some '-') :
    parse ["stream", name] = .ok ⟨.to defaultUrl, 0, .stream name [] [] none⟩ := by
  have hlevel : readLevel (.ofCommand .stream) (.start (.ofCommand .stream)) [name] =
      .ok (⟨.empty, some ⟨.name, some name⟩, [], false⟩, none) := by
    rw [readLevel_cons rfl (word_name rfl hname), readLevel]
  show parse (CommandName.stream.word :: [name]) = _
  rw [parse_of_command, readCommand_of_level hlevel]
  rfl

theorem parse_deposits_limit (n : Nat) :
    parse ["deposits", "--limit", Numeral.text n] =
      if n < UInt64.size then .ok ⟨.to defaultUrl, 0, .deposits (some n)⟩
      else .error (.invalidLiteral .limit (Numeral.text n) (.badCount .tooLarge)) := by
  have hlevel := readLevel_limit n (l := .ofCommand .deposits)
    (s := .start (.ofCommand .deposits)) rfl rfl rfl rfl rfl
  exact parse_limit hlevel rfl rfl rfl

end NamedQuery.CommandLine
