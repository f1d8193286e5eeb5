import Mathlib.Data.List.Forall2
import NamedQuery.Proofs.CommandLine.Parser
import NamedQuery.Proofs.Format.Hex
import NamedQuery.Proofs.Format.NumeralGrammar
import NamedQuery.Value.Text

/-!
# Parameters on the command line

A byte string and a number can be written as they are shown to people, or behind a word that says
what they are. Whichever way is chosen, the text is read as the value that it stands for, and it is
not taken for a switch. So any number of parameters is read in order.

* `Spells`: the texts for a value.
* `readParam_of_spells`: each is read as that value.
* `parse_call_params`: a call with any number of parameters.
-/

namespace NamedQuery.CommandLine

/-! ## One parameter -/

/-- The texts for a value: as it is shown to people, or behind a word for its kind. Behind the word
the marker of a byte string may be left out. -/
inductive Spells : String → Value → Prop
  | bytes (raw : List UInt8) : Spells (Value.bytes raw).text (.bytes raw)
  | number (n : UInt64) : Spells (Value.uint64 n).text (.uint64 n)
  | namedBytes (raw : List UInt8) : Spells ("bytes:" ++ (Value.bytes raw).text) (.bytes raw)
  | bareBytes (raw : List UInt8) :
    Spells ("bytes:" ++ String.ofList (Hex.writeDigits raw)) (.bytes raw)
  | namedNumber (n : UInt64) : Spells ("u64:" ++ (Value.uint64 n).text) (.uint64 n)

variable {text : String} {texts : List String} {v : Value} {vs : List Value}

/-- Byte strings and numbers can be written as they are shown. -/
theorem spells_text (h : v.kind = .bytes ∨ v.kind = .uint64) : Spells v.text v := by
  cases v with
  | bytes raw => exact .bytes raw
  | uint64 n => exact .number n
  | _ => rcases h with h | h <;> cases h

theorem spells_texts (h : ∀ v ∈ vs, v.kind = .bytes ∨ v.kind = .uint64) :
    List.Forall₂ Spells (vs.map Value.text) vs := by
  rw [List.forall₂_map_left_iff, List.forall₂_same]
  intro v hv
  exact spells_text (h v hv)

theorem text_bytes (raw : List UInt8) : (Value.bytes raw).text = Hex.text raw := by
  rw [Value.text, Value.write, Hex.text]

theorem text_uint64 (n : UInt64) : (Value.uint64 n).text = Numeral.text n.toNat := by
  rw [Value.text, Value.write, Numeral.text]

theorem ofHex_of_parse {raw : List UInt8} (h : Hex.parse text = .ok raw) :
    Value.ofHex text = .ok (.bytes raw) := by
  rw [Value.ofHex, h]
  rfl

theorem ofDecimal_text (n : UInt64) : Value.ofDecimal (Numeral.text n.toNat) = .ok (.uint64 n) := by
  have hn : n.toNat < Width.word.bound := n.toNat_lt
  rw [Value.ofDecimal, Numeral.parse_text hn]
  show Except.ok (Value.uint64 (UInt64.ofNat n.toNat)) = _
  rw [UInt64.ofNat_toNat]

/-- Behind the word for byte strings everything is read as one. -/
theorem readParam_bytes (digits : String) :
    readParam ("bytes:" ++ digits) = (Value.ofHex digits).mapError LiteralError.badBytes := by
  have hword : Text.after? bytesWord ("bytes:" ++ digits).toList = some digits.toList := by
    rw [Text.after?_eq_some_iff, String.toList_append]
    rfl
  rw [readParam, hword]
  dsimp only
  rw [String.ofList_toList]

/-- Behind the word for numbers everything is read as one. -/
theorem readParam_number (digits : String) :
    readParam ("u64:" ++ digits) = (Value.ofDecimal digits).mapError LiteralError.badNumber := by
  have hword : Text.after? bytesWord ("u64:" ++ digits).toList = none := by
    rw [String.toList_append]
    rfl
  have hnumber : Text.after? numberWord ("u64:" ++ digits).toList = some digits.toList := by
    rw [Text.after?_eq_some_iff, String.toList_append]
    rfl
  rw [readParam, hword, hnumber]
  dsimp only
  rw [String.ofList_toList]

/-- The marker tells byte strings from numbers. -/
theorem readParam_hex (raw : List UInt8) : readParam (Hex.text raw) = .ok (.bytes raw) := by
  have hread : Value.ofHex (Hex.text raw) = .ok (.bytes raw) := ofHex_of_parse (Hex.parse_text raw)
  have htext : (Hex.text raw).toList = '0' :: 'x' :: Hex.writeDigits raw := by
    rw [Hex.text, String.toList_ofList]
    rfl
  rw [readParam, htext]
  show (Value.ofHex (Hex.text raw)).mapError LiteralError.badBytes = _
  rw [hread]
  rfl

/-- No digits begin with one of the words, or with the marker. -/
theorem readParam_numeral (n : UInt64) :
    readParam (Numeral.text n.toNat) = .ok (.uint64 n) := by
  have hword : Text.after? bytesWord (Numeral.write n.toNat) = none :=
    Text.after?_eq_none_of_notMem (c := ':') (by decide) (Numeral.notMem_write rfl)
  have hnumber : Text.after? numberWord (Numeral.write n.toNat) = none :=
    Text.after?_eq_none_of_notMem (c := ':') (by decide) (Numeral.notMem_write rfl)
  have hmarker : Text.after? Hex.marker (Numeral.write n.toNat) = none :=
    Text.after?_eq_none_of_notMem (c := 'x') (by decide) (Numeral.notMem_write rfl)
  have htext : (Numeral.text n.toNat).toList = Numeral.write n.toNat := String.toList_ofList
  rw [readParam, htext, hword, hnumber, hmarker, ofDecimal_text]
  rfl

/-- **Each text for a value is read as that value.** -/
theorem readParam_of_spells (h : Spells text v) : readParam text = .ok v := by
  cases h with
  | bytes raw => rw [text_bytes, readParam_hex]
  | number n => rw [text_uint64, readParam_numeral]
  | namedBytes raw =>
    rw [text_bytes, readParam_bytes, ofHex_of_parse (Hex.parse_text raw)]
    rfl
  | bareBytes raw =>
    rw [readParam_bytes, ofHex_of_parse (Hex.parse_writeDigits raw)]
    rfl
  | namedNumber n =>
    rw [text_uint64, readParam_number, ofDecimal_text]
    rfl

/-- A word is told by its first character, whatever is put behind it. -/
theorem Word.of_append {w rest : String} {c : Char} (hw : w.toList.head? = some c) (hc : c ≠ '-') :
    Word.of (w ++ rest) = .plain := by
  apply Word.of_plain
  rw [String.toList_append, List.head?_append, hw]
  intro h
  exact hc (Option.some.inj h)

theorem Word.of_spells (h : Spells text v) : Word.of text = .plain := by
  cases h with
  | bytes raw =>
    apply Word.of_plain
    rw [text_bytes, Hex.text, String.toList_ofList]
    intro h
    cases h
  | number n =>
    rw [text_uint64]
    exact Word.of_numeral _
  | namedBytes raw => exact Word.of_append (c := 'b') rfl (by decide)
  | bareBytes raw => exact Word.of_append (c := 'b') rfl (by decide)
  | namedNumber n => exact Word.of_append (c := 'u') rfl (by decide)

/-! ## Any number of parameters -/

variable {l : Level} {s : State} {g : Given} {places : List Argument}

/-- The words for parameters, each text behind an option of its own. -/
def paramWords (texts : List String) : List String := texts.flatMap fun text => ["-p", text]

theorem settle_param (h : Spells text v) :
    State.settle ⟨g, some ⟨.param, some text⟩, places, false⟩ =
      .ok ⟨{ g with params := g.params ++ [v] }, none, places, false⟩ := by
  rw [State.settle]
  simp only [Given.add, Given.more, readParam_of_spells h]
  rfl

/-- What is read of parameters adds up. -/
theorem readLevel_params (hl : l.hasCommands = false)
    (hshort : l.short? 'p' = some (.option .param)) (h : List.Forall₂ Spells texts vs)
    (hs : s.settle = .ok ⟨g, none, places, false⟩) (hv : s.valuesOnly = false) :
    ∃ last, readLevel l s (paramWords texts) = .ok (last, none) ∧
      last.settle = .ok ⟨{ g with params := g.params ++ vs }, none, places, false⟩ := by
  -- the last parameter is checked only when the next word has been recognised
  induction h generalizing s g with
  | nil =>
    refine ⟨s, rfl, ?_⟩
    rw [hs, List.append_nil]
  | cons hspells hrest ih =>
    rename_i text v texts vs
    have hoption : s.word l "-p" = .ok ⟨g, some ⟨.param, none⟩, places, false⟩ := by
      have hform : Word.of "-p" = .short ['p'] := rfl
      simp only [State.word, hv, hform, State.letters, hshort, State.expect, hs]
      rfl
    have hvalue : State.word l ⟨g, some ⟨.param, none⟩, places, false⟩ text =
        .ok ⟨g, some ⟨.param, some text⟩, places, false⟩ := by
      simp only [State.word, Word.of_spells hspells]
      rfl
    obtain ⟨last, hlast, hsettle⟩ := ih (settle_param hspells) rfl
    refine ⟨last, ?_, ?_⟩
    · show readLevel l s ("-p" :: text :: paramWords texts) = _
      rw [readLevel_cons hl hoption, readLevel_cons hl hvalue, hlast]
    · rw [hsettle, List.append_assoc]
      rfl

theorem parse_call_params {name : String} (hname : name.toList.head? ≠ some '-')
    (h : List.Forall₂ Spells texts vs) :
    parse ("call" :: name :: paramWords texts) = .ok ⟨.to defaultUrl, 0, .call name vs []⟩ := by
  have hready : State.settle ⟨.empty, some ⟨.name, some name⟩, [], false⟩ =
      .ok ⟨{ Given.empty with name := some name }, none, [], false⟩ := rfl
  obtain ⟨last, hlast, hsettle⟩ := readLevel_params (l := .ofCommand .call) rfl rfl h hready rfl
  rw [← readLevel_cons rfl (word_name rfl hname)] at hlast
  show parse (CommandName.call.word :: name :: paramWords texts) = _
  rw [parse_of_command, readCommand_of_level hlast, hsettle]
  rfl

end NamedQuery.CommandLine
