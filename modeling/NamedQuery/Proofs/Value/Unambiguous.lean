import NamedQuery.Proofs.Format.HexGrammar
import NamedQuery.Proofs.Format.Numeral
import NamedQuery.Value.Text

/-!
# Different values are shown as different texts

A text is cut by its brackets and commas. None of them is part of what is shown of a scalar, so a
scalar ends where the first of them stands, or where the text ends; a list says itself where it
ends. The first two characters tell the kind: a number has digits only, and so its zero is not taken
for the marker of a byte string.

* `append_inj_of_ended`: a part without marks ends where the next mark stands.
* `shownKind_write`: the kind can be seen.
* `write_append_inj`: what is shown can be told from any text that goes on with a mark.
* `text_eq_iff`: what this says of whole texts.
-/

namespace NamedQuery.Value

variable {c : Char} {s s' rest rest' : List Char}

/-! ## Marks -/

/-- The characters that cut a text. -/
def isMark (c : Char) : Bool := c == '[' || c == ',' || c == ']'

/-- Whether a text ends here or goes on with a mark. -/
def Ended (rest : List Char) : Prop := ∀ c ∈ rest.head?, isMark c = true

theorem ended_nil : Ended [] := by
  intro c hc
  cases hc

theorem ended_cons (h : isMark c = true) : Ended (c :: rest) := by
  intro d hd
  cases hd
  exact h

/-- Behind a value of a list there is a comma or the end of the list. -/
theorem ended_writeRest (cs : List Value) : Ended (writeRest cs ++ rest) := by
  cases cs with
  | nil => exact ended_cons rfl
  | cons c cs => exact ended_cons rfl

theorem takeWhile_of_ended (hs : ∀ c ∈ s, isMark c = false) (hrest : Ended rest) :
    (s ++ rest).takeWhile (fun c => !isMark c) = s := by
  have hkept : ∀ c ∈ s, (!isMark c) = true := by
    intro c hc
    rw [hs c hc]
    rfl
  rw [List.takeWhile_append_of_pos hkept]
  cases rest with
  | nil => exact List.append_nil s
  | cons c rest =>
    have hc : isMark c = true := hrest c rfl
    rw [List.takeWhile_cons_of_neg (by rw [hc]; exact Bool.false_ne_true), List.append_nil]

/-- A part without marks ends where the text ends or the next mark stands. -/
theorem append_inj_of_ended (hs : ∀ c ∈ s, isMark c = false) (hs' : ∀ c ∈ s', isMark c = false)
    (hrest : Ended rest) (hrest' : Ended rest') (h : s ++ rest = s' ++ rest') :
    s = s' ∧ rest = rest' := by
  have hsame : s = s' := by
    rw [← takeWhile_of_ended hs hrest, h, takeWhile_of_ended hs' hrest']
  refine ⟨hsame, ?_⟩
  rw [hsame] at h
  exact List.append_cancel_left h

/-! ## Scalars -/

theorem isMark_of_isDigit (h : c.isDigit = true) : isMark c = false := by
  rw [isMark, Bool.or_eq_false_iff, Bool.or_eq_false_iff]
  refine ⟨⟨?_, ?_⟩, ?_⟩
  · exact beq_eq_false_iff_ne.mpr (by rintro rfl; cases h)
  · exact beq_eq_false_iff_ne.mpr (by rintro rfl; cases h)
  · exact beq_eq_false_iff_ne.mpr (by rintro rfl; cases h)

theorem isMark_of_all {cs : List Char} (hall : cs.all (fun c => !isMark c) = true) (h : c ∈ cs) :
    isMark c = false := by
  simpa using List.all_eq_true.mp hall c h

/-- No mark is part of what is shown of a scalar. -/
theorem isMark_of_mem_write {v : Value} (hv : v.kind ≠ .list) (h : c ∈ v.write) :
    isMark c = false := by
  cases v with
  | uint64 n =>
    rw [write] at h
    exact isMark_of_isDigit (Numeral.isDigit_of_mem_write h)
  | bytes raw =>
    rw [write] at h
    have hdigit : ∀ n < 16, isMark (Hex.digit n) = false := by decide
    exact Hex.forall_mem_write (p := fun c => isMark c = false) rfl hdigit raw c h
  | bool b =>
    rw [write] at h
    cases b with
    | true => exact isMark_of_all (by decide) h
    | false => exact isMark_of_all (by decide) h
  | nil =>
    rw [write] at h
    exact isMark_of_all (by decide) h
  | list cs => exact absurd rfl hv

/-! ## Kinds -/

/-- The kind that is seen in the first characters of a text. -/
def shownKind : List Char → Kind
  | '[' :: _ => .list
  | 'n' :: _ => .nil
  | 't' :: _ => .bool
  | 'f' :: _ => .bool
  | '0' :: 'x' :: _ => .bytes
  | _ => .uint64

/-- A number is not taken for anything else, whatever stands behind its digits. -/
theorem shownKind_numeral (n : Nat) (hrest : Ended rest) :
    shownKind (Numeral.write n ++ rest) = .uint64 := by
  have hfirst : ∀ c ∈ (Numeral.write n).head?, c.isDigit = true := by
    intro c hc
    exact Numeral.isDigit_of_mem_write (List.mem_of_head? hc)
  have hx : 'x' ∉ Numeral.write n := Numeral.notMem_write rfl
  cases hw : Numeral.write n with
  | nil => exact absurd hw (Numeral.write_ne_nil n)
  | cons c cs =>
    rw [hw] at hfirst hx
    have hc : c.isDigit = true := hfirst c rfl
    rw [List.cons_append]
    unfold shownKind
    split
    case h_1 heq | h_2 heq | h_3 heq | h_4 heq =>
      cases heq
      cases hc
    case h_5 heq =>
      -- behind a zero comes another digit, or else what ends the number
      obtain ⟨rfl, htail⟩ := List.cons.inj heq
      cases cs with
      | nil =>
        rw [List.nil_append] at htail
        rw [htail] at hrest
        cases hrest 'x' rfl
      | cons d ds =>
        cases htail
        exact absurd (List.mem_cons_of_mem _ List.mem_cons_self) hx
    case h_6 => rfl

/-- **The kind of a value can be seen.** -/
theorem shownKind_write (v : Value) (hrest : Ended rest) :
    shownKind (v.write ++ rest) = v.kind := by
  cases v with
  | uint64 n =>
    rw [write]
    exact shownKind_numeral n.toNat hrest
  | bytes raw =>
    rw [write]
    rfl
  | bool b =>
    rw [write]
    cases b with
    | false => rfl
    | true => rfl
  | nil =>
    rw [write]
    rfl
  | list cs =>
    cases cs with
    | nil =>
      rw [write]
      rfl
    | cons c cs =>
      rw [write]
      rfl

/-- Nothing that is shown begins with the end of a list. -/
theorem exists_cons_of_write (v : Value) : ∃ c cs, v.write = c :: cs ∧ c ≠ ']' := by
  cases v with
  | uint64 n =>
    cases hw : Numeral.write n.toNat with
    | nil => exact absurd hw (Numeral.write_ne_nil _)
    | cons c cs =>
      have hc : c.isDigit = true := by
        apply Numeral.isDigit_of_mem_write (n := n.toNat)
        rw [hw]
        exact List.mem_cons_self
      refine ⟨c, cs, by rw [write, hw], ?_⟩
      rintro rfl
      cases hc
  | bytes raw => exact ⟨'0', 'x' :: Hex.writeDigits raw, by rw [write]; rfl, by decide⟩
  | bool b =>
    cases b with
    | false => exact ⟨'f', ['a', 'l', 's', 'e'], by rw [write]; rfl, by decide⟩
    | true => exact ⟨'t', ['r', 'u', 'e'], by rw [write]; rfl, by decide⟩
  | nil => exact ⟨'n', ['i', 'l'], by rw [write], by decide⟩
  | list cs =>
    cases cs with
    | nil => exact ⟨'[', [']'], by rw [write], by decide⟩
    | cons c cs => exact ⟨'[', _, by rw [write], by decide⟩

/-! ## Values -/

/-- Two values that are shown alike are of the same kind. -/
theorem kind_eq_of_append {v w : Value} (hrest : Ended rest) (hrest' : Ended rest')
    (h : v.write ++ rest = w.write ++ rest') : v.kind = w.kind := by
  rw [← shownKind_write v hrest, h, shownKind_write w hrest']

/-- Scalars of one kind are told apart by their content. -/
theorem eq_of_write_eq {v w : Value} (hv : v.kind ≠ .list) (hkind : v.kind = w.kind)
    (h : v.write = w.write) : v = w := by
  cases v with
  | uint64 m =>
    cases w with
    | uint64 n =>
      rw [write, write] at h
      have hnumber := congrArg (Nat.ofDigitChars 10 · 0) h
      simp only [Numeral.ofDigitChars_write] at hnumber
      rw [UInt64.toNat_inj.mp hnumber]
    | _ => cases hkind
  | bytes raw =>
    cases w with
    | bytes raw' =>
      rw [write, write] at h
      rw [Hex.text_injective (congrArg String.ofList h)]
    | _ => cases hkind
  | bool b =>
    cases w with
    | bool b' =>
      rw [write, write] at h
      have hall : ∀ b b', writeBool b = writeBool b' → b = b' := by decide
      rw [hall b b' h]
    | _ => cases hkind
  | nil =>
    cases w with
    | nil => rfl
    | _ => cases hkind
  | list cs => exact absurd rfl hv

/-- What is shown of a scalar can be told from what stands behind it. -/
theorem scalar_append_inj {v w : Value} (hv : v.kind ≠ .list) (hrest : Ended rest)
    (hrest' : Ended rest') (h : v.write ++ rest = w.write ++ rest') : v = w ∧ rest = rest' := by
  have hkind := kind_eq_of_append hrest hrest' h
  have hw : w.kind ≠ .list := hkind ▸ hv
  obtain ⟨hwritten, hrests⟩ := append_inj_of_ended (fun _ => isMark_of_mem_write hv)
    (fun _ => isMark_of_mem_write hw) hrest hrest' h
  exact ⟨eq_of_write_eq hv hkind hwritten, hrests⟩

mutual

/-- **Two values that are shown alike are the same**, and so is what stands behind them. -/
theorem write_append_inj : ∀ {v w : Value} {rest rest' : List Char}, Ended rest → Ended rest' →
    v.write ++ rest = w.write ++ rest' → v = w ∧ rest = rest'
  | .uint64 _, _, _, _, hrest, hrest', h | .bytes _, _, _, _, hrest, hrest', h
  | .bool _, _, _, _, hrest, hrest', h | .nil, _, _, _, hrest, hrest', h =>
    scalar_append_inj (by intro hkind; cases hkind) hrest hrest' h
  | .list [], w, _, _, hrest, hrest', h => by
    have hkind := kind_eq_of_append hrest hrest' h
    cases w with
    | list ds =>
      cases ds with
      | nil =>
        rw [write] at h
        exact ⟨rfl, List.append_cancel_left h⟩
      | cons d ds =>
        -- the end of the one list would be the beginning of a value in the other
        obtain ⟨c, cs, hd, hc⟩ := exists_cons_of_write d
        rw [write, write, hd] at h
        exact absurd (List.cons.inj (List.cons.inj h).2).1.symm hc
    | _ => cases hkind
  | .list (c :: cs), w, _, _, hrest, hrest', h => by
    have hkind := kind_eq_of_append hrest hrest' h
    cases w with
    | list ds =>
      cases ds with
      | nil =>
        obtain ⟨d, ds, hc, hd⟩ := exists_cons_of_write c
        rw [write, write, hc] at h
        exact absurd (List.cons.inj (List.cons.inj h).2).1 hd
      | cons d ds =>
        rw [write, write, List.cons_append, List.cons_append, List.append_assoc,
          List.append_assoc] at h
        obtain ⟨hfirst, hmore⟩ := write_append_inj (v := c) (w := d) (ended_writeRest cs)
          (ended_writeRest ds) (List.cons.inj h).2
        obtain ⟨hothers, hrests⟩ := writeRest_append_inj hmore
        rw [hfirst, hothers]
        exact ⟨rfl, hrests⟩
    | _ => cases hkind

/-- The same of what follows in a list, which ends by itself. -/
theorem writeRest_append_inj : ∀ {cs ds : List Value} {rest rest' : List Char},
    writeRest cs ++ rest = writeRest ds ++ rest' → cs = ds ∧ rest = rest'
  | [], [], rest, rest', h => by
    rw [writeRest] at h
    exact ⟨rfl, List.append_cancel_left h⟩
  | [], d :: ds, _, _, h => by
    rw [writeRest, writeRest] at h
    cases h
  | c :: cs, [], _, _, h => by
    rw [writeRest, writeRest] at h
    cases h
  | c :: cs, d :: ds, _, _, h => by
    rw [writeRest, writeRest] at h
    simp only [List.cons_append, List.append_assoc, List.cons.injEq, true_and] at h
    obtain ⟨hfirst, hmore⟩ := write_append_inj (v := c) (w := d) (ended_writeRest cs)
      (ended_writeRest ds) h
    obtain ⟨hothers, hrests⟩ := writeRest_append_inj hmore
    rw [hfirst, hothers]
    exact ⟨rfl, hrests⟩

end

/-- **Different values are shown as different texts**, however deep they are: from the text one can
tell the kind and the content of each value in it, and how the lists are nested and ordered. -/
theorem text_eq_iff (v w : Value) : v.text = w.text ↔ v = w := by
  constructor
  · intro h
    have hwrite : v.write ++ [] = w.write ++ [] := by
      rw [List.append_nil, List.append_nil]
      exact String.ofList_injective h
    exact (write_append_inj ended_nil ended_nil hwrite).1
  · rintro rfl
    rfl

/-- Lists that hold the same numbers and are nested in another way, and a zero beside an empty byte
string. -/
example : (list [list [uint64 1], uint64 2]).text = "[[1], 2]" ∧
    (list [list [uint64 1, uint64 2]]).text = "[[1, 2]]" ∧
    (list [uint64 0, bytes []]).text = "[0, 0x]" := by decide +kernel

end NamedQuery.Value
