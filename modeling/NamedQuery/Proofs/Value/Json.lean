import NamedQuery.Proofs.Json.Reading
import NamedQuery.Report

/-!
# Values as JSON lose nothing

A value is shown as a JSON document in two ways, on one line and on many. Both are texts of the same
parts with blanks between them, and with the blanks gone nothing but the parts is left. The reader
passes over blanks between parts, so from any such text it gets the document back, and the document
tells the value. Only lists within each other are limited, to as many levels as the reader has.

* `nesting`: how many lists stand within each other.
* `Spaced`: the JSON texts of a value, with blanks at will.
* `squeeze_of_spaced`: what is left of such a text without its blanks.
* `finds_of_spaced`: what is read of such a text, and when it is refused.
* `json_lossless`: what this says of the two forms.
-/

namespace NamedQuery

namespace Value

open Json (Document EndsNumber Finds IsPlain compactItems prettyItems outcome)

mutual

/-- How many lists stand within each other. -/
def nesting : Value → Nat
  | list cs => nestingAll cs + 1
  | _ => 0

/-- How many lists stand within each other in one of the values. -/
def nestingAll : List Value → Nat
  | [] => 0
  | c :: cs => max (nesting c) (nestingAll cs)

end

/-- The blanks that are printed between the parts of a document. -/
def isGap (c : Char) : Bool := c == ' ' || c == '\n'

mutual

/-- The text is a JSON text of the value, with blanks between its parts. -/
inductive Spaced : Value → List Char → Prop
  | scalar {v : Value} (hv : v.kind ≠ .list) : Spaced v v.toJson.writeLeaf
  | empty {t : List Char} (ht : SpacedRest [] t) : Spaced (list []) ('[' :: t)
  | list {c : Value} {cs : List Value} {gap s t : List Char} (hgap : ∀ a ∈ gap, isGap a = true)
    (hs : Spaced c s) (ht : SpacedRest cs t) : Spaced (list (c :: cs)) ('[' :: (gap ++ s ++ t))

/-- The text is what follows of a list behind one of its values, with blanks between the parts. -/
inductive SpacedRest : List Value → List Char → Prop
  | nil {gap : List Char} (hgap : ∀ a ∈ gap, isGap a = true) : SpacedRest [] (gap ++ [']'])
  | cons {c : Value} {cs : List Value} {before after s t : List Char}
    (hbefore : ∀ a ∈ before, isGap a = true) (hafter : ∀ a ∈ after, isGap a = true)
    (hs : Spaced c s) (ht : SpacedRest cs t) :
    SpacedRest (c :: cs) (before ++ ',' :: (after ++ s ++ t))

end

variable {v w : Value} {cs : List Value} {s t gap : List Char} {raw : List UInt8} {level n : Nat}

/-! ## The two forms -/

/-- No blanks at all. -/
theorem isGap_of_mem_nil : ∀ a ∈ ([] : List Char), isGap a = true := fun _ => nofun

theorem isGap_of_mem_newline (level : Nat) : ∀ a ∈ Json.newline level, isGap a = true := by
  intro a ha
  rcases List.mem_cons.mp ha with rfl | ha
  · rfl
  · rw [List.eq_of_mem_replicate ha]
    rfl

mutual

theorem spaced_compact : ∀ v : Value, Spaced v v.toJson.compact
  | .uint64 _ | .bytes _ | .bool _ | .nil => .scalar nofun
  | .list [] => .empty (@SpacedRest.nil [] isGap_of_mem_nil)
  | .list (c :: cs) =>
    @Spaced.list c cs [] _ _ isGap_of_mem_nil (spaced_compact c) (spacedRest_compactItems cs)

theorem spacedRest_compactItems : ∀ cs : List Value, SpacedRest cs (compactItems (toJsonItems cs))
  | [] => @SpacedRest.nil [] isGap_of_mem_nil
  | c :: cs =>
    @SpacedRest.cons c cs [] [] _ _ isGap_of_mem_nil isGap_of_mem_nil (spaced_compact c)
      (spacedRest_compactItems cs)

end

mutual

theorem spaced_prettyAt (level : Nat) : ∀ v : Value, Spaced v (v.toJson.prettyAt level)
  | .uint64 _ | .bytes _ | .bool _ | .nil => .scalar nofun
  | .list [] => .empty (@SpacedRest.nil [] isGap_of_mem_nil)
  | .list (c :: cs) =>
    .list (isGap_of_mem_newline (level + 1)) (spaced_prettyAt (level + 1) c)
      (spacedRest_prettyItems level cs)

theorem spacedRest_prettyItems (level : Nat) :
    ∀ cs : List Value, SpacedRest cs (prettyItems level (toJsonItems cs))
  | [] => .nil (isGap_of_mem_newline level)
  | c :: cs =>
    @SpacedRest.cons c cs [] _ _ _ isGap_of_mem_nil (isGap_of_mem_newline (level + 1))
      (spaced_prettyAt (level + 1) c) (spacedRest_prettyItems level cs)

end

/-! ## Without blanks -/

/-- The text without the blanks between its parts. -/
def squeeze (s : List Char) : List Char := s.filter fun c => !isGap c

theorem squeeze_append (s t : List Char) : squeeze (s ++ t) = squeeze s ++ squeeze t :=
  List.filter_append s t

theorem squeeze_gap (hgap : ∀ a ∈ gap, isGap a = true) : squeeze gap = [] := by
  refine List.filter_eq_nil_iff.mpr fun a ha => ?_
  rw [hgap a ha]
  exact Bool.false_ne_true

theorem squeeze_eq_self (hs : ∀ a ∈ s, isGap a = false) : squeeze s = s := by
  refine List.filter_eq_self.mpr fun a ha => ?_
  rw [hs a ha]
  rfl

theorem squeeze_cons {c : Char} (hc : isGap c = false) (s : List Char) :
    squeeze (c :: s) = c :: squeeze s := by
  refine List.filter_cons_of_pos ?_
  rw [hc]
  rfl

/-- Hexadecimal digits stand for themselves inside of a string. -/
theorem writeString_text (raw : List UInt8) :
    Json.writeString (Hex.text raw).toList = Json.quote :: (Hex.write raw ++ [Json.quote]) := by
  have hescape : ∀ {s : List Char}, (∀ c ∈ s, Json.escape c = [c]) → s.flatMap Json.escape = s := by
    intro s hs
    induction s with
    | nil => rfl
    | cons c s ih =>
      rw [List.forall_mem_cons] at hs
      rw [List.flatMap_cons, hs.1, ih hs.2, List.singleton_append]
  have hwrite := Hex.forall_mem_write (p := fun c => Json.escape c = [c]) rfl (by decide) raw
  rw [Json.writeString, Hex.text, String.toList_ofList, hescape hwrite]

theorem isGap_of_isDigit {c : Char} (hc : c.isDigit = true) : isGap c = false := by
  rw [isGap, Bool.or_eq_false_iff]
  constructor
  · exact beq_eq_false_iff_ne.mpr (by rintro rfl; cases hc)
  · exact beq_eq_false_iff_ne.mpr (by rintro rfl; cases hc)

/-- There are no blanks inside of what has no parts. -/
theorem squeeze_writeLeaf (v : Value) : squeeze v.toJson.writeLeaf = v.toJson.writeLeaf := by
  cases v with
  | uint64 n => exact squeeze_eq_self fun _ ha => isGap_of_isDigit (Numeral.isDigit_of_mem_write ha)
  | bytes raw =>
    have hgap := Hex.forall_mem_write (p := fun c => isGap c = false) rfl (by decide) raw
    show squeeze (Json.writeString (Hex.text raw).toList) = Json.writeString (Hex.text raw).toList
    rw [writeString_text, squeeze_cons rfl, squeeze_append, squeeze_eq_self hgap]
    rfl
  | bool b => cases b <;> rfl
  | nil => rfl
  | list cs => rfl

mutual

/-- Without its blanks a text of a value is the compact one. -/
theorem squeeze_of_spaced : ∀ {v : Value} {s : List Char}, Spaced v s →
    squeeze s = v.toJson.compact
  | v, _, .scalar hv => by
    rw [squeeze_writeLeaf]
    cases v with
    | list cs => exact absurd rfl hv
    | _ => rfl
  | _, _, .empty ht => by
    rw [squeeze_cons rfl, squeeze_of_spacedRest ht]
    rfl
  | _, _, .list hgap hs ht => by
    rw [squeeze_cons rfl, squeeze_append, squeeze_append, squeeze_gap hgap, squeeze_of_spaced hs,
      squeeze_of_spacedRest ht]
    rfl

theorem squeeze_of_spacedRest : ∀ {cs : List Value} {t : List Char}, SpacedRest cs t →
    squeeze t = compactItems (toJsonItems cs)
  | _, _, .nil hgap => by
    rw [squeeze_append, squeeze_gap hgap]
    rfl
  | _, _, .cons hbefore hafter hs ht => by
    rw [squeeze_append, squeeze_gap hbefore, squeeze_cons rfl, squeeze_append, squeeze_append,
      squeeze_gap hafter, squeeze_of_spaced hs, squeeze_of_spacedRest ht]
    rfl

end

/-! ## Reading -/

theorem isSpace_of_mem_gap (hgap : ∀ a ∈ gap, isGap a = true) :
    ∀ b ∈ gap.flatMap String.utf8EncodeChar, Json.isSpace b = true := by
  intro b hb
  obtain ⟨a, ha, hb⟩ := List.mem_flatMap.mp hb
  have hblank := hgap a ha
  rw [isGap, Bool.or_eq_true, beq_iff_eq, beq_iff_eq] at hblank
  rcases hblank with rfl | rfl
  · rw [List.mem_singleton.mp hb]
    rfl
  · rw [List.mem_singleton.mp hb]
    rfl

/-- Blanks end a number as well as what stands behind them. -/
theorem endsNumber_gap {rest : List UInt8} (hgap : ∀ a ∈ gap, isGap a = true)
    (hrest : EndsNumber rest) : EndsNumber (gap.flatMap String.utf8EncodeChar ++ rest) := by
  have hspace := isSpace_of_mem_gap hgap
  cases hbytes : gap.flatMap String.utf8EncodeChar with
  | nil => exact hrest
  | cons b raw =>
    have hb : Json.isSpace b = true := by
      apply hspace
      rw [hbytes]
      exact List.mem_cons_self
    intro a ha
    cases ha
    have hall : ∀ n < 256, Json.isSpace (UInt8.ofNat n) = true →
        Json.isDigit (UInt8.ofNat n) = false ∧ UInt8.ofNat n ≠ 46 ∧ UInt8.ofNat n ≠ 101 ∧
          UInt8.ofNat n ≠ 69 := by decide +kernel
    have hb' := hall b.toNat b.toNat_lt
    rw [UInt8.ofNat_toNat] at hb'
    exact hb' hb

/-- A number ends where the value ends that it is in a list. -/
theorem endsNumber_of_spacedRest (ht : SpacedRest cs t) (rest : List UInt8) :
    EndsNumber (t.flatMap String.utf8EncodeChar ++ rest) := by
  cases ht with
  | nil hgap =>
    rw [List.flatMap_append, List.append_assoc]
    refine endsNumber_gap hgap ?_
    intro b hb
    cases hb
    decide
  | cons hbefore hafter hs ht =>
    rw [List.flatMap_append, List.append_assoc]
    refine endsNumber_gap hbefore ?_
    intro b hb
    cases hb
    decide

theorem utf8_writeString_text (raw : List UInt8) :
    (Json.writeString (Hex.text raw).toList).flatMap String.utf8EncodeChar =
      34 :: (Text.utf8 (Hex.text raw) ++ [34]) := by
  rw [writeString_text, List.flatMap_cons, List.flatMap_append, Hex.text, Text.utf8_ofList]
  rfl

/-- The letter of the marker and the digits take up a byte each that stands for itself. -/
theorem isPlain_of_mem_text (raw : List UInt8) : ∀ b ∈ Text.utf8 (Hex.text raw), IsPlain b := by
  have hchar := Hex.forall_mem_write
    (p := fun c => c.toNat < 128 ∧ IsPlain (UInt8.ofNat c.toNat)) (by decide) (by decide) raw
  intro b hb
  rw [Hex.text, Text.utf8_ofList] at hb
  obtain ⟨c, hc, hb⟩ := List.mem_flatMap.mp hb
  obtain ⟨hlt, hplain⟩ := hchar c hc
  rw [Hex.utf8EncodeChar_of_lt hlt] at hb
  exact List.mem_singleton.mp hb ▸ hplain

theorem begins_of_isDigit {b : UInt8} (hb : Json.isDigit b = true) (raw : List UInt8) :
    Json.Begins (b :: raw) := by
  have hne : ∀ a : UInt8, Json.isDigit a = false → b ≠ a := by
    rintro a ha rfl
    rw [hb] at ha
    cases ha
  refine ⟨b, raw, rfl, ?_, hne 93 rfl⟩
  simp only [Json.isSpace, Bool.or_eq_false_iff, beq_eq_false_iff_ne]
  exact ⟨⟨⟨hne 32 rfl, hne 9 rfl⟩, hne 10 rfl⟩, hne 13 rfl⟩

/-- The digits of a number as bytes. -/
theorem exists_cons_of_uint64 (n : UInt64) :
    ∃ b raw, (Numeral.write n.toNat).flatMap String.utf8EncodeChar = b :: raw ∧
      Json.isDigit b = true := by
  have hdigits : ∀ c ∈ Numeral.write n.toNat, c.isDigit = true :=
    fun _ => Numeral.isDigit_of_mem_write
  cases hw : Numeral.write n.toNat with
  | nil => exact absurd hw (Numeral.write_ne_nil n.toNat)
  | cons c cs =>
    rw [hw, List.forall_mem_cons] at hdigits
    obtain ⟨b, hb, -, hdigit⟩ := Json.utf8EncodeChar_of_isDigit hdigits.1
    exact ⟨b, cs.flatMap String.utf8EncodeChar, by rw [List.flatMap_cons, hb]; rfl, hdigit⟩

/-- A value begins with a byte of its own. -/
theorem begins_of_spaced (hs : Spaced v s) : Json.Begins (s.flatMap String.utf8EncodeChar) := by
  cases hs with
  | scalar hv =>
    cases v with
    | uint64 n =>
      obtain ⟨b, raw, hbytes, hb⟩ := exists_cons_of_uint64 n
      show Json.Begins ((Numeral.write n.toNat).flatMap String.utf8EncodeChar)
      rw [hbytes]
      exact begins_of_isDigit hb raw
    | bytes raw =>
      show Json.Begins ((Json.writeString (Hex.text raw).toList).flatMap String.utf8EncodeChar)
      rw [utf8_writeString_text]
      exact ⟨34, _, rfl, rfl, by decide⟩
    | bool b =>
      cases b with
      | true => exact ⟨116, _, rfl, rfl, by decide⟩
      | false => exact ⟨102, _, rfl, rfl, by decide⟩
    | nil => exact ⟨110, _, rfl, rfl, by decide⟩
    | list cs => exact absurd rfl hv
  | empty ht => exact ⟨91, _, rfl, rfl, by decide⟩
  | list hgap hs ht => exact ⟨91, _, rfl, rfl, by decide⟩

/-- What has no parts is read with any number of levels. -/
theorem outcome_scalar (hv : v.kind ≠ .list) (levels : Nat) {rest : List UInt8}
    (hrest : EndsNumber rest) :
    outcome (Json.readValue levels (v.toJson.writeLeaf.flatMap String.utf8EncodeChar ++ rest)) =
      .ok (v.toJson, rest) := by
  cases v with
  | uint64 n =>
    obtain ⟨b, raw, hbytes, hb⟩ := exists_cons_of_uint64 n
    have hread := Json.outcome_readNumber n.toNat_lt hrest
    show outcome (Json.readValue levels
      ((Numeral.write n.toNat).flatMap String.utf8EncodeChar ++ rest)) = _
    rw [hbytes, List.cons_append] at hread ⊢
    rw [Json.outcome_readValue_digit (begins_of_isDigit hb _).skipSpace_eq hb]
    exact hread
  | bytes raw =>
    show outcome (Json.readValue levels
      ((Json.writeString (Hex.text raw).toList).flatMap String.utf8EncodeChar ++ rest)) = _
    rw [utf8_writeString_text, List.cons_append, List.append_assoc, Json.outcome_readValue rfl]
    show (outcome (Json.readString (Text.utf8 (Hex.text raw) ++ 34 :: rest))).map _ = _
    rw [Json.outcome_readString (isPlain_of_mem_text raw)]
    rfl
  | bool b =>
    cases b with
    | true =>
      show outcome (Json.readValue levels (116 :: ([114, 117, 101] ++ rest))) = _
      rw [Json.outcome_readValue rfl]
      exact Json.readWord_append _ _ rest
    | false =>
      show outcome (Json.readValue levels (102 :: ([97, 108, 115, 101] ++ rest))) = _
      rw [Json.outcome_readValue rfl]
      exact Json.readWord_append _ _ rest
  | nil =>
    show outcome (Json.readValue levels (110 :: ([117, 108, 108] ++ rest))) = _
    rw [Json.outcome_readValue rfl]
    exact Json.readWord_append _ _ rest
  | list cs => exact absurd rfl hv

mutual

/-- **A text of a value is read as its document**, whatever blanks there are between the parts, and
refused if there are too few levels for its lists. -/
theorem finds_of_spaced : ∀ {v : Value} {s : List Char}, Spaced v s →
    ∀ (levels : Nat) {rest : List UInt8}, EndsNumber rest →
    Finds (v.nesting ≤ levels)
      (outcome (Json.readValue levels (s.flatMap String.utf8EncodeChar ++ rest))) (v.toJson, rest)
  | v, _, .scalar hv, levels, rest, hrest => by
    refine .of_eq (outcome_scalar hv levels hrest) ?_
    cases v with
    | list cs => exact absurd rfl hv
    | _ => exact Nat.zero_le levels
  | _, _, .empty (.nil hgap), levels, rest, _ => by
    rw [List.flatMap_cons, List.flatMap_append, List.append_assoc, List.append_assoc]
    refine Json.finds_array (n := 0) (fun levels => ?_) levels
    have hend := Json.skipSpace_gap (isSpace_of_mem_gap hgap) (b := 93) rfl rest
    exact .of_eq (Json.outcome_readArray_end hend) (Nat.zero_le levels)
  | _, _, @Spaced.list c cs gap s t hgap hs ht, levels, rest, _ => by
    rw [List.flatMap_cons, List.flatMap_append, List.flatMap_append, List.append_assoc,
      List.append_assoc, List.append_assoc]
    refine Json.finds_array (fun levels => ?_) levels
    have hbegins := (begins_of_spaced hs).append (t.flatMap String.utf8EncodeChar ++ rest)
    -- what stands behind the first value ends it, should it be a number
    have hfirst := finds_of_spaced hs levels (endsNumber_of_spacedRest ht rest)
    have hothers := finds_of_spacedRest ht levels rest
    exact (Json.finds_readArray_next (isSpace_of_mem_gap hgap) hbegins hfirst hothers).iff
      Nat.max_le.symm

/-- The same of what follows in a list. -/
theorem finds_of_spacedRest : ∀ {cs : List Value} {t : List Char}, SpacedRest cs t →
    ∀ (levels : Nat) (rest : List UInt8),
    Finds (nestingAll cs ≤ levels)
      (outcome (Json.readItems (Json.readValue levels) (t.flatMap String.utf8EncodeChar ++ rest)))
      (toJsonItems cs, rest)
  | _, _, .nil hgap, levels, rest => by
    rw [List.flatMap_append, List.append_assoc]
    exact .of_eq (Json.outcome_readItems_end
      (Json.skipSpace_gap (isSpace_of_mem_gap hgap) rfl rest)) (Nat.zero_le levels)
  | _, _, @SpacedRest.cons c cs before after s t hbefore hafter hs ht, levels, rest => by
    rw [List.flatMap_append, List.flatMap_cons, List.flatMap_append, List.flatMap_append,
      List.append_assoc, List.append_assoc, List.append_assoc, List.append_assoc]
    have hbegins := (begins_of_spaced hs).append (t.flatMap String.utf8EncodeChar ++ rest)
    have hfirst := finds_of_spaced hs levels (endsNumber_of_spacedRest ht rest)
    have hothers := finds_of_spacedRest ht levels rest
    exact (Json.finds_readItems_next (isSpace_of_mem_gap hbefore) (isSpace_of_mem_gap hafter)
      hbegins hfirst hothers).iff Nat.max_le.symm

end

/-- What is read of a text of a value as a document. -/
theorem finds_parse_of_spaced (hs : Spaced v s) :
    Finds (v.nesting ≤ Json.maxNesting) (Document.parse (Text.utf8 (String.ofList s)))
      v.toJson := by
  have hread := finds_of_spaced hs Json.maxNesting Json.endsNumber_nil
  rw [List.append_nil] at hread
  rw [Text.utf8_ofList]
  exact Json.finds_parse hread

/-! ## Nothing is lost -/

mutual

/-- The document tells the value. -/
theorem toJson_injective : ∀ {v w : Value}, v.toJson = w.toJson → v = w
  | .uint64 m, w, h => by
    cases w with
    | uint64 n =>
      have hnumber := Int.ofNat.inj (Document.integer.inj h)
      rw [UInt64.toNat_inj.mp hnumber]
    | _ => cases h
  | .bytes raw, w, h => by
    cases w with
    | bytes raw' => rw [Hex.text_injective (Document.string.inj h)]
    | _ => cases h
  | .bool b, w, h => by
    cases w with
    | bool b' => rw [Document.bool.inj h]
    | _ => cases h
  | .nil, w, h => by
    cases w with
    | nil => rfl
    | _ => cases h
  | .list cs, w, h => by
    cases w with
    | list ds => rw [toJsonItems_injective (Document.array.inj h)]
    | _ => cases h

theorem toJsonItems_injective : ∀ {cs ds : List Value}, toJsonItems cs = toJsonItems ds → cs = ds
  | [], [], _ => rfl
  | [], _ :: _, h => by cases h
  | _ :: _, [], h => by cases h
  | c :: cs, d :: ds, h => by
    obtain ⟨hfirst, hothers⟩ := List.cons.inj h
    rw [toJson_injective hfirst, toJsonItems_injective hothers]

end

/-- However the parts are spaced, two values with a common text are the same: a reader with enough
levels for both gets the document of each from it. -/
theorem eq_of_spaced (hv : Spaced v s) (hw : Spaced w s) : v = w := by
  have hread := (finds_of_spaced hv (v.nesting + w.nesting) Json.endsNumber_nil).found
    (Nat.le_add_right _ _)
  have hread' := (finds_of_spaced hw (v.nesting + w.nesting) Json.endsNumber_nil).found
    (Nat.le_add_left _ _)
  rw [hread] at hread'
  exact toJson_injective (Prod.mk.inj (Except.ok.inj hread')).1

/-- **The JSON forms of a value lose nothing.** On many lines they differ from the one line by
spaces and line feeds only, and both tell any two values apart. As long as at most 127 lists stand
within each other, either form is read as the document of the value, in which a number is exact
however large it is; with more lists neither of them is read. -/
theorem json_lossless :
    (∀ v : Value, (Report.value v).toList.filter (fun c => !(c == ' ' || c == '\n')) =
      v.toJson.compact) ∧
    (∀ v w : Value, v.toJson.compact = w.toJson.compact ↔ v = w) ∧
    (∀ v w : Value, Report.value v = Report.value w ↔ v = w) ∧
    (∀ v : Value, v.nesting ≤ 127 →
      Document.parse (Text.utf8 (String.ofList v.toJson.compact)) = .ok v.toJson ∧
      Document.parse (Text.utf8 (Report.value v)) = .ok v.toJson) ∧
    (∀ v : Value, 127 < v.nesting →
      (∃ e, Document.parse (Text.utf8 (String.ofList v.toJson.compact)) = .error e ∧
        e.cause = .tooDeep) ∧
      ∃ e, Document.parse (Text.utf8 (Report.value v)) = .error e ∧ e.cause = .tooDeep) ∧
    ∀ n : UInt64,
      Document.parse (Text.utf8 (Report.value (uint64 n))) = .ok (.integer n.toNat) := by
  have hpretty (v : Value) := finds_parse_of_spaced (spaced_prettyAt 0 v)
  have hcompact (v : Value) := finds_parse_of_spaced (spaced_compact v)
  refine ⟨?_, ?_, ?_, ?_, ?_, ?_⟩
  · intro v
    rw [Report.value, Report.document, String.toList_ofList]
    exact squeeze_of_spaced (spaced_prettyAt 0 v)
  · intro v w
    constructor
    · intro h
      exact eq_of_spaced (spaced_compact v) (h ▸ spaced_compact w)
    · rintro rfl
      rfl
  · intro v w
    constructor
    · intro h
      have hsame : v.toJson.prettyAt 0 = w.toJson.prettyAt 0 := String.ofList_injective h
      exact eq_of_spaced (spaced_prettyAt 0 v) (hsame ▸ spaced_prettyAt 0 w)
    · rintro rfl
      rfl
  · intro v hv
    exact ⟨(hcompact v).found hv, (hpretty v).found hv⟩
  · intro v hv
    exact ⟨(hcompact v).failed (Nat.not_le.mpr hv), (hpretty v).failed (Nat.not_le.mpr hv)⟩
  · intro n
    exact (hpretty (.uint64 n)).found (Nat.zero_le _)

/-- A value inside of `n` lists. -/
def within (v : Value) : (n : Nat) → Value
  | 0 => v
  | n + 1 => list [within v n]

theorem nesting_within (v : Value) (n : Nat) : (within v n).nesting = v.nesting + n := by
  induction n with
  | zero => rfl
  | succ n ih =>
    rw [within, nesting, nestingAll, nestingAll, ih]
    omega

/-- The largest number and no bytes at all, in the last list that is read and in the first that is
not. -/
theorem json_lossless_nested :
    ((within (list [uint64 18446744073709551615, bytes []]) 126).nesting ≤ 127 ∧
      Document.parse
          (Text.utf8 (Report.value (within (list [uint64 18446744073709551615, bytes []]) 126))) =
        .ok (within (list [uint64 18446744073709551615, bytes []]) 126).toJson) ∧
    127 < (within (list [uint64 18446744073709551615, bytes []]) 127).nesting ∧
    ∃ e, Document.parse
        (Text.utf8 (Report.value (within (list [uint64 18446744073709551615, bytes []]) 127))) =
      .error e ∧ e.cause = .tooDeep := by
  obtain ⟨-, -, -, hread, hdeep, -⟩ := json_lossless
  have hlast : (within (list [uint64 18446744073709551615, bytes []]) 126).nesting ≤ 127 := by
    rw [nesting_within]
    decide
  have hbeyond : 127 < (within (list [uint64 18446744073709551615, bytes []]) 127).nesting := by
    rw [nesting_within]
    decide
  exact ⟨⟨hlast, (hread _ hlast).2⟩, hbeyond, (hdeep _ hbeyond).2⟩

/-- An empty list has no lines of its own. -/
example : Report.value (list [list [], list [uint64 7, bytes [0xAB]], nil]) =
    "[\n  [],\n  [\n    7,\n    \"0xab\"\n  ],\n  null\n]" := by decide +kernel

end Value

end NamedQuery
