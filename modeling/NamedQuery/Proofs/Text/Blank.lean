import Mathlib.Data.List.TakeWhile
import NamedQuery.Text.Blank

/-!
# Texts between blanks

What is left when blanks are removed from both ends of a text is the part that stands between blanks
and neither begins nor ends with one. There is only one such part.

* `Padded`: a text that stands between blanks.
* `trim_eq_iff`: what is left of a text.
-/

namespace NamedQuery.Text

variable {s t : List Char}

/-- The text `s` is `t` between blanks, if there are any. -/
def Padded (t s : List Char) : Prop :=
  ∃ before after, s = before ++ t ++ after ∧ (∀ c ∈ before, isBlank c = true) ∧
    ∀ c ∈ after, isBlank c = true

theorem dropWhile_isBlank_of_head (h : ∀ c ∈ t.head?, isBlank c = false) :
    t.dropWhile isBlank = t := by
  cases t with
  | nil => rfl
  | cons c cs => rw [List.dropWhile_cons, h c rfl, if_neg Bool.false_ne_true]

theorem dropWhile_isBlank_head (s : List Char) :
    ∀ c ∈ (s.dropWhile isBlank).head?, isBlank c = false := by
  intro c hc
  have h := List.head?_dropWhile_not isBlank s
  rw [Option.mem_def.mp hc] at h
  exact h

/-- A text is what is left of it between the blanks that are removed. -/
theorem padded_trim (s : List Char) : Padded (trim s) s := by
  refine ⟨s.takeWhile isBlank,
    ((s.dropWhile isBlank).reverse.takeWhile isBlank).reverse, ?_, ?_, ?_⟩
  · rw [trim, List.append_assoc, ← List.reverse_append, List.takeWhile_append_dropWhile,
      List.reverse_reverse, List.takeWhile_append_dropWhile]
  · intro c hc
    exact List.all_eq_true.mp List.all_takeWhile c hc
  · intro c hc
    exact List.all_eq_true.mp List.all_takeWhile c (List.mem_reverse.mp hc)

theorem padded_of_trim (h : trim s = t) : Padded t s := h ▸ padded_trim s

theorem trim_of_padded_ends (h : Padded t s) (hfirst : ∀ c ∈ t.head?, isBlank c = false)
    (hlast : ∀ c ∈ t.getLast?, isBlank c = false) : trim s = t := by
  obtain ⟨before, after, rfl, hbefore, hafter⟩ := h
  have hfront : (before ++ t ++ after).dropWhile isBlank = (t ++ after).dropWhile isBlank := by
    rw [List.append_assoc, List.dropWhile_append_of_pos hbefore]
  rw [trim, hfront]
  cases t with
  | nil =>
    rw [List.nil_append, List.dropWhile_eq_nil_iff.mpr hafter]
    rfl
  | cons c cs =>
    have hkept : (c :: cs ++ after).dropWhile isBlank = c :: cs ++ after :=
      dropWhile_isBlank_of_head hfirst
    have hreverse : ∀ b ∈ after.reverse, isBlank b = true := by
      intro b hb
      exact hafter b (List.mem_reverse.mp hb)
    rw [hkept, List.reverse_append, List.dropWhile_append_of_pos hreverse,
      dropWhile_isBlank_of_head, List.reverse_reverse]
    rw [List.head?_reverse]
    exact hlast

/-- **What is left of a text** stands in it between blanks, and no blank is at its own ends. -/
theorem trim_eq_iff :
    trim s = t ↔ Padded t s ∧ (∀ c ∈ t.head?, isBlank c = false) ∧
      ∀ c ∈ t.getLast?, isBlank c = false := by
  constructor
  · rintro rfl
    refine ⟨padded_trim s, ?_, ?_⟩
    · intro c hc
      -- what is left begins where the blanks in front were removed, if anything is left
      have hprefix : trim s <+: s.dropWhile isBlank := by
        rw [← List.reverse_suffix, trim, List.reverse_reverse]
        exact List.dropWhile_suffix isBlank
      obtain ⟨rest, hrest⟩ := hprefix
      refine dropWhile_isBlank_head s c ?_
      rw [← hrest, List.head?_append, Option.mem_def.mp hc]
      rfl
    · intro c hc
      rw [trim, List.getLast?_reverse] at hc
      exact dropWhile_isBlank_head _ c hc
  · rintro ⟨hpadded, hfirst, hlast⟩
    exact trim_of_padded_ends hpadded hfirst hlast

/-- A text without blanks is all that is left. -/
theorem trim_of_padded (h : Padded t s) (ht : ∀ c ∈ t, isBlank c = false) : trim s = t :=
  trim_eq_iff.mpr ⟨h, fun c hc => ht c (List.mem_of_mem_head? hc),
    fun c hc => ht c (List.mem_of_getLast? hc)⟩

end NamedQuery.Text
