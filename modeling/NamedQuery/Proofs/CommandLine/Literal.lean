import NamedQuery.Proofs.CommandLine.Params
import NamedQuery.Proofs.Format.NumeralGrammar
import NamedQuery.Proofs.Value.Reading

/-!
# The grammar of parameters

A parameter is written in one of four forms: a byte string or a number, behind a word that says
which, or without a word. The word at the beginning of a text tells its form, and a number without a
word begins with none of them, so no text is in two forms. Therefore it makes no difference in which
order the words are looked for.

* `Form`, `Form.Accepts`: the forms, and what the texts of each stand for.
* `readInOrder_eq`: the words can be looked for in any order.
* `readParam_eq_ok_iff`: what is read are the texts of the four forms.
* `form_unique`: no text is in two forms.
* `readParam_iff_form`: all of this in terms of the texts.
-/

namespace NamedQuery.CommandLine

/-- The forms in which a parameter is written. -/
inductive Form where
  | namedBytes
  | namedNumber
  | bareBytes
  | bareNumber
  deriving DecidableEq, Repr

namespace Form

/-- The word that a text of the form begins with. -/
def word : Form → List Char
  | namedBytes => bytesWord
  | namedNumber => numberWord
  | bareBytes => Hex.marker
  | bareNumber => []

/-- What a text of a form stands for. -/
inductive Accepts : Form → String → Value → Prop
  | namedBytes {digits : String} {raw : List UInt8} (h : Hex.parse digits = .ok raw) :
    Accepts namedBytes ("bytes:" ++ digits) (.bytes raw)
  | namedNumber {text : String} {t : List Char} {n : UInt64} (hpadded : Text.Padded t text.toList)
    (h : Numeral.Spells t n.toNat) : Accepts namedNumber ("u64:" ++ text) (.uint64 n)
  | bareBytes {digits : String} {raw : List UInt8} (h : Hex.parse ("0x" ++ digits) = .ok raw) :
    Accepts bareBytes ("0x" ++ digits) (.bytes raw)
  | bareNumber {text : String} {t : List Char} {n : UInt64} (hpadded : Text.Padded t text.toList)
    (h : Numeral.Spells t n.toNat) : Accepts bareNumber text (.uint64 n)

/-- Reads a text as one of a form, once the word of the form was found; `rest` is what stands behind
it. -/
def read (f : Form) (s : String) (rest : List Char) : Except LiteralError Value :=
  match f with
  | namedBytes => (Value.ofHex (String.ofList rest)).mapError .badBytes
  | namedNumber => (Value.ofDecimal (String.ofList rest)).mapError .badNumber
  | bareBytes => (Value.ofHex s).mapError .badBytes
  | bareNumber => (Value.ofDecimal s).mapError (.badParam s)

end Form

/-- Reads a parameter, looking for the words of forms in an order. A text that begins with none of
them is taken for a number. -/
def readInOrder : List Form → String → Except LiteralError Value
  | [], s => Form.bareNumber.read s s.toList
  | f :: fs, s =>
    match Text.after? f.word s.toList with
    | some rest => f.read s rest
    | none => readInOrder fs s

variable {f g : Form} {fs order : List Form} {s : String} {v w : Value} {n : Nat}
  {t cs rest rest' : List Char}

/-! ## Words -/

/-- The forms that begin with a word, in the order in which the words are looked for. -/
def Form.worded : List Form := [.namedBytes, .namedNumber, .bareBytes]

/-- No two words have the same first character. -/
theorem word_unique (hf : f ∈ Form.worded) (hg : g ∈ Form.worded)
    (h : Text.after? f.word cs = some rest) (h' : Text.after? g.word cs = some rest') : f = g := by
  have hne : ∀ f ∈ Form.worded, f.word ≠ [] := by decide
  have hfirst : ∀ f ∈ Form.worded, ∀ g ∈ Form.worded, f.word.head? = g.word.head? → f = g := by
    decide
  rw [Text.after?_eq_some_iff] at h h'
  apply hfirst f hf g hg
  rw [← List.head?_append_of_ne_nil _ (hne f hf), ← h, h', List.head?_append_of_ne_nil _ (hne g hg)]

theorem readInOrder_of_word (horder : ∀ f ∈ order, f ∈ Form.worded) (hmem : f ∈ order)
    (h : Text.after? f.word s.toList = some rest) : readInOrder order s = f.read s rest := by
  induction order with
  | nil => cases hmem
  | cons g order ih =>
    rw [readInOrder]
    cases hfound : Text.after? g.word s.toList with
    | some rest' =>
      obtain rfl := word_unique (horder f hmem) (horder g List.mem_cons_self) h hfound
      rw [h] at hfound
      cases hfound
      rfl
    | none =>
      rcases List.mem_cons.mp hmem with rfl | hmem
      · rw [h] at hfound
        cases hfound
      · exact ih (fun g' hg' => horder g' (List.mem_cons_of_mem g hg')) hmem

theorem readInOrder_of_noWord (h : ∀ f ∈ order, Text.after? f.word s.toList = none) :
    readInOrder order s = Form.bareNumber.read s s.toList := by
  induction order with
  | nil => rfl
  | cons g order ih =>
    rw [List.forall_mem_cons] at h
    rw [readInOrder, h.1]
    exact ih h.2

theorem exists_word_or_none (fs : List Form) (cs : List Char) :
    (∃ f ∈ fs, ∃ rest, Text.after? f.word cs = some rest) ∨
      ∀ f ∈ fs, Text.after? f.word cs = none := by
  by_cases hword : ∃ f ∈ fs, ∃ rest, Text.after? f.word cs = some rest
  · exact .inl hword
  · right
    intro f hf
    rw [Option.eq_none_iff_forall_ne_some]
    intro rest hrest
    exact hword ⟨f, hf, rest, hrest⟩

theorem readParam_eq_readInOrder (s : String) : readParam s = readInOrder Form.worded s := rfl

/-- A text is read as one of the form whose word it begins with. -/
theorem readParam_of_word (hf : f ∈ Form.worded) (h : Text.after? f.word s.toList = some rest) :
    readParam s = f.read s rest := by
  rw [readParam_eq_readInOrder]
  exact readInOrder_of_word (fun _ hg => hg) hf h

theorem readParam_of_noWord (h : ∀ f ∈ Form.worded, Text.after? f.word s.toList = none) :
    readParam s = (Value.ofDecimal s).mapError (.badParam s) := by
  rw [readParam_eq_readInOrder, readInOrder_of_noWord h, Form.read]

/-- **The words can be looked for in any order**: what is read is the same, and so is what is wrong
with a text that is not read. -/
theorem readInOrder_eq (horder : order.Perm Form.worded) : readInOrder order s = readParam s := by
  rcases exists_word_or_none order s.toList with ⟨f, hf, rest, hrest⟩ | hnone
  · rw [readInOrder_of_word (fun g hg => horder.mem_iff.mp hg) hf hrest,
      readParam_of_word (horder.mem_iff.mp hf) hrest]
  · rw [readInOrder_of_noWord hnone,
      readParam_of_noWord fun f hf => hnone f (horder.mem_iff.mpr hf), Form.read]

/-- A number without a word begins with none of the words: each of them has a letter. -/
theorem after?_of_spells (hf : f ∈ Form.worded) (hpadded : Text.Padded t cs)
    (h : Numeral.Spells t n) : Text.after? f.word cs = none := by
  have hletter : ∃ c ∈ f.word, Text.isBlank c = false ∧ c ≠ '+' ∧ c.isDigit = false := by
    cases f with
    | namedBytes => exact ⟨'b', by decide⟩
    | namedNumber => exact ⟨'u', by decide⟩
    | bareBytes => exact ⟨'x', by decide⟩
    | bareNumber => exact absurd hf (by decide)
  obtain ⟨c, hc, hblank, hplus, hdigit⟩ := hletter
  refine Text.after?_eq_none_of_notMem hc fun hin => ?_
  obtain ⟨before, after, rfl, hbefore, hafter⟩ := hpadded
  rcases List.mem_append.mp hin with hin | hin
  · rcases List.mem_append.mp hin with hin | hin
    · exact Bool.false_ne_true (hblank.symm.trans (hbefore c hin))
    · rcases Numeral.eq_plus_or_isDigit_of_mem h hin with heq | heq
      · exact hplus heq
      · exact Bool.false_ne_true (hdigit.symm.trans heq)
  · exact Bool.false_ne_true (hblank.symm.trans (hafter c hin))

/-! ## Forms -/

theorem ofHex_eq_ok_iff : Value.ofHex s = .ok v ↔ ∃ raw, Hex.parse s = .ok raw ∧ v = .bytes raw := by
  rw [Value.ofHex]
  cases Hex.parse s with
  | error e => simp [Except.map]
  | ok raw => simp [Except.map, eq_comm]

theorem ofDecimal_eq_ok_iff_spells : Value.ofDecimal s = .ok v ↔
    ∃ n : UInt64, v = .uint64 n ∧ ∃ t, Text.Padded t s.toList ∧ Numeral.Spells t n.toNat := by
  rw [Value.ofDecimal_eq_ok_iff]
  constructor
  · rintro ⟨n, hn, rfl⟩
    obtain ⟨hfits, t, hpadded, hspells⟩ := Numeral.parse_eq_ok_iff.mp hn
    refine ⟨UInt64.ofNat n, rfl, t, hpadded, ?_⟩
    have hn : (UInt64.ofNat n).toNat = n := UInt64.toNat_ofNat_of_lt hfits
    rwa [hn]
  · rintro ⟨n, rfl, t, hpadded, hspells⟩
    refine ⟨n.toNat, Numeral.parse_eq_ok_iff.mpr ⟨n.toNat_lt, t, hpadded, hspells⟩, ?_⟩
    rw [UInt64.ofNat_toNat]

theorem accepts_of_word (hf : f ∈ Form.worded) (h : Text.after? f.word s.toList = some rest)
    (hread : f.read s rest = .ok v) : f.Accepts s v := by
  rw [Text.after?_eq_some_iff] at h
  obtain rfl : s = String.ofList f.word ++ String.ofList rest := by
    rw [← String.ofList_append, ← h, String.ofList_toList]
  cases f with
  | namedBytes =>
    rw [Form.read, mapError_eq_ok, ofHex_eq_ok_iff] at hread
    obtain ⟨raw, hraw, rfl⟩ := hread
    exact .namedBytes hraw
  | namedNumber =>
    rw [Form.read, mapError_eq_ok, ofDecimal_eq_ok_iff_spells] at hread
    obtain ⟨n, rfl, t, hpadded, hspells⟩ := hread
    exact .namedNumber hpadded hspells
  | bareBytes =>
    rw [Form.read, mapError_eq_ok, ofHex_eq_ok_iff] at hread
    obtain ⟨raw, hraw, rfl⟩ := hread
    exact .bareBytes hraw
  | bareNumber => exact absurd hf (by decide)

theorem readParam_of_accepts (h : f.Accepts s v) : readParam s = .ok v := by
  cases h with
  | namedBytes h => rw [readParam_bytes, mapError_eq_ok, ofHex_of_parse h]
  | namedNumber hpadded h =>
    rw [readParam_number, mapError_eq_ok, ofDecimal_eq_ok_iff_spells]
    exact ⟨_, rfl, _, hpadded, h⟩
  | @bareBytes digits raw h =>
    have hword : Text.after? Form.bareBytes.word ("0x" ++ digits).toList = some digits.toList := by
      rw [Text.after?_eq_some_iff, String.toList_append]
      rfl
    rw [readParam_of_word (by decide) hword, Form.read, mapError_eq_ok, ofHex_of_parse h]
  | bareNumber hpadded h =>
    rw [readParam_of_noWord fun f hf => after?_of_spells hf hpadded h, mapError_eq_ok,
      ofDecimal_eq_ok_iff_spells]
    exact ⟨_, rfl, _, hpadded, h⟩

/-- **What is read are the texts of the four forms**, each as what it stands for. -/
theorem readParam_eq_ok_iff : readParam s = .ok v ↔ ∃ f, Form.Accepts f s v := by
  constructor
  · intro h
    rcases exists_word_or_none Form.worded s.toList with ⟨f, hf, rest, hrest⟩ | hnone
    · rw [readParam_of_word hf hrest] at h
      exact ⟨f, accepts_of_word hf hrest h⟩
    · rw [readParam_of_noWord hnone, mapError_eq_ok, ofDecimal_eq_ok_iff_spells] at h
      obtain ⟨n, rfl, t, hpadded, hspells⟩ := h
      exact ⟨_, .bareNumber hpadded hspells⟩
  · rintro ⟨f, h⟩
    exact readParam_of_accepts h

/-- A text of a form that has a word begins with it. -/
theorem exists_after?_of_accepts (hf : f ∈ Form.worded) (h : f.Accepts s v) :
    ∃ rest, Text.after? f.word s.toList = some rest := by
  simp only [Text.after?_eq_some_iff]
  cases h with
  | namedBytes _ => exact ⟨_, String.toList_append⟩
  | namedNumber _ _ => exact ⟨_, String.toList_append⟩
  | bareBytes _ => exact ⟨_, String.toList_append⟩
  | bareNumber _ _ => exact absurd hf (by decide)

theorem after?_of_accepts_number (hf : f ∈ Form.worded) (h : Form.bareNumber.Accepts s v) :
    Text.after? f.word s.toList = none := by
  cases h with
  | bareNumber hpadded h => exact after?_of_spells hf hpadded h

theorem Form.mem_worded_or_eq (f : Form) : f ∈ worded ∨ f = .bareNumber := by
  cases f <;> decide

/-- **No text is in two forms.** -/
theorem form_unique (h : f.Accepts s v) (h' : g.Accepts s w) : f = g := by
  rcases f.mem_worded_or_eq with hf | rfl <;> rcases g.mem_worded_or_eq with hg | rfl
  · obtain ⟨rest, hrest⟩ := exists_after?_of_accepts hf h
    obtain ⟨rest', hrest'⟩ := exists_after?_of_accepts hg h'
    exact word_unique hf hg hrest hrest'
  · obtain ⟨rest, hrest⟩ := exists_after?_of_accepts hf h
    rw [after?_of_accepts_number hf h'] at hrest
    cases hrest
  · obtain ⟨rest, hrest⟩ := exists_after?_of_accepts hg h'
    rw [after?_of_accepts_number hg h] at hrest
    cases hrest
  · rfl

/-! ## Parameters -/

/-- **A parameter is read exactly if it is in one of the four forms**, and it is in one only. Byte
strings stand behind `bytes:`, or behind the marker alone; numbers that fit 64 bits stand behind
`u64:` or alone, between blanks and behind at most one plus sign. Nothing else is read, and no other
kind of value. In whatever order the words are looked for, what comes of a text is the same. What is
shown of a byte string or of a number is read as that. -/
theorem readParam_iff_form :
    (∀ s raw, readParam s = .ok (.bytes raw) ↔
      (∃ digits, s = "bytes:" ++ digits ∧ Hex.parse digits = .ok raw) ∨
        (∃ digits, s = "0x" ++ digits) ∧ Hex.parse s = .ok raw) ∧
    (∀ s n, readParam s = .ok (.uint64 n) ↔
      ∃ text, (s = "u64:" ++ text ∨ s = text) ∧
        ∃ t, Text.Padded t text.toList ∧ Numeral.Spells t n.toNat) ∧
    (∀ s v, readParam s = .ok v → v.kind = .bytes ∨ v.kind = .uint64) ∧
    (∀ s v, readParam s = .ok v ↔ ∃ f, Form.Accepts f s v) ∧
    (∀ s f g v w, Form.Accepts f s v → Form.Accepts g s w → f = g ∧ v = w) ∧
    (∀ s order, order.Perm Form.worded → readInOrder order s = readParam s) ∧
    ∀ v : Value, v.kind = .bytes ∨ v.kind = .uint64 → readParam v.text = .ok v := by
  refine ⟨?_, ?_, ?_, fun _ _ => readParam_eq_ok_iff, ?_, fun _ _ => readInOrder_eq, ?_⟩
  · intro s raw
    rw [readParam_eq_ok_iff]
    constructor
    · rintro ⟨f, h⟩
      cases h with
      | namedBytes h => exact .inl ⟨_, rfl, h⟩
      | bareBytes h => exact .inr ⟨⟨_, rfl⟩, h⟩
    · rintro (⟨digits, rfl, h⟩ | ⟨⟨digits, rfl⟩, h⟩)
      · exact ⟨_, .namedBytes h⟩
      · exact ⟨_, .bareBytes h⟩
  · intro s n
    rw [readParam_eq_ok_iff]
    constructor
    · rintro ⟨f, h⟩
      cases h with
      | namedNumber hpadded h => exact ⟨_, .inl rfl, _, hpadded, h⟩
      | bareNumber hpadded h => exact ⟨_, .inr rfl, _, hpadded, h⟩
    · rintro ⟨text, rfl | rfl, t, hpadded, h⟩
      · exact ⟨_, .namedNumber hpadded h⟩
      · exact ⟨_, .bareNumber hpadded h⟩
  · intro s v h
    obtain ⟨f, haccepts⟩ := readParam_eq_ok_iff.mp h
    cases haccepts with
    | namedBytes _ => exact .inl rfl
    | namedNumber _ _ => exact .inr rfl
    | bareBytes _ => exact .inl rfl
    | bareNumber _ _ => exact .inr rfl
  · intro s f g v w h h'
    have hvalue := readParam_of_accepts h
    rw [readParam_of_accepts h'] at hvalue
    exact ⟨form_unique h h', (Except.ok.inj hvalue).symm⟩
  · intro v hv
    exact readParam_of_spells (spells_text hv)

/-- A text in each form, a number that could be digits of a byte string, a text in which another word
is looked for first, and the largest number as it is shown. -/
theorem readParam_iff_form_mixed :
    readParam "bytes:0xAb" = .ok (.bytes [0xAB]) ∧
    readParam "u64:\t+07\u2003" = .ok (.uint64 7) ∧
    (readParam "0xAB" = .ok (.bytes [0xAB]) ∧
      ((Value.bytes [0xAB]).kind = .bytes ∨ (Value.bytes [0xAB]).kind = .uint64)) ∧
    (Form.Accepts .bareNumber "00" (.uint64 0) ∧ ¬Form.Accepts .bareBytes "00" (.bytes [0])) ∧
    ([.bareBytes, .namedNumber, .namedBytes].Perm Form.worded ∧
      readInOrder [.bareBytes, .namedNumber, .namedBytes] "0xzz" = readParam "0xzz") ∧
    readParam (Value.uint64 18446744073709551615).text = .ok (.uint64 18446744073709551615) := by
  obtain ⟨hbytes, hnumber, hkind, -, hunique, horder, htext⟩ := readParam_iff_form
  have hbare : readParam "0xAB" = .ok (.bytes [0xAB]) := (hbytes _ _).mpr (.inr ⟨⟨"AB", rfl⟩, rfl⟩)
  have hzero : Form.Accepts .bareNumber "00" (.uint64 0) :=
    .bareNumber (Text.padded_of_trim rfl) (.plain (by decide))
  have hperm : [Form.bareBytes, .namedNumber, .namedBytes].Perm Form.worded := by decide
  refine ⟨?_, ?_, ⟨hbare, hkind _ _ hbare⟩, ⟨hzero, ?_⟩, ⟨hperm, horder _ _ hperm⟩, ?_⟩
  · exact (hbytes _ _).mpr (.inl ⟨"0xAb", rfl, rfl⟩)
  · refine (hnumber _ _).mpr ⟨"\t+07\u2003", .inl rfl, "+07".toList, ?_, ?_⟩
    · exact Text.padded_of_trim (by decide)
    · exact .signed (show Numeral.Digits "07".toList by decide)
  · intro hbytes
    cases (hunique _ _ _ _ _ hzero hbytes).1
  · exact htext _ (.inr rfl)

end NamedQuery.CommandLine
