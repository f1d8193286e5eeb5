/-!
# Blanks

White space as Unicode defines it (the property `White_Space`, 25 code points), and the text that is
left when blanks are removed from both ends.
-/

namespace NamedQuery.Text

/-- Whether `n` lies in one of the closed ranges. -/
def inRanges (ranges : List (Nat × Nat)) (n : Nat) : Bool :=
  ranges.any fun r => r.1 ≤ n && n ≤ r.2

/-- The code points with the property `White_Space`, as closed ranges in ascending order. -/
def blankRanges : List (Nat × Nat) :=
  [(0x09, 0x0D), (0x20, 0x20), (0x85, 0x85), (0xA0, 0xA0), (0x1680, 0x1680), (0x2000, 0x200A),
   (0x2028, 0x2029), (0x202F, 0x202F), (0x205F, 0x205F), (0x3000, 0x3000)]

/-- Whether the character is white space. -/
def isBlank (c : Char) : Bool := inRanges blankRanges c.toNat

/-- The text without the blanks at its two ends. -/
def trim (s : List Char) : List Char :=
  ((s.dropWhile isBlank).reverse.dropWhile isBlank).reverse

/-- Whether the text holds nothing but blanks. -/
def isBlankText (s : List Char) : Bool := s.all isBlank

/-- What follows `start` in `s`, if `s` begins with `start`. -/
def after? : (start s : List Char) → Option (List Char)
  | [], s => some s
  | _ :: _, [] => none
  | a :: start, b :: s => if a = b then after? start s else none

theorem after?_eq_some_iff {start s rest : List Char} :
    after? start s = some rest ↔ s = start ++ rest := by
  induction start generalizing s with
  | nil => simp [after?, eq_comm]
  | cons a start ih =>
    cases s with
    | nil => simp [after?]
    | cons b s =>
      by_cases h : a = b
      · subst h; simp [after?, ih]
      · simp only [after?, h, ↓reduceIte, reduceCtorEq, List.cons_append, List.cons.injEq,
          false_iff]
        intro hb; exact h hb.1.symm

/-- A text does not begin with what has a character of its own. -/
theorem after?_eq_none_of_notMem {start s : List Char} {c : Char} (hc : c ∈ start) (hs : c ∉ s) :
    after? start s = none := by
  cases h : after? start s with
  | none => rfl
  | some rest =>
    rw [after?_eq_some_iff] at h
    exact absurd (h ▸ List.mem_append_left rest hc) hs

theorem dropWhile_isBlank_eq_self {s : List Char} (h : ∀ c ∈ s, isBlank c = false) :
    s.dropWhile isBlank = s := by
  cases s with
  | nil => rfl
  | cons c cs => rw [List.dropWhile_cons, h c List.mem_cons_self, if_neg Bool.false_ne_true]

theorem trim_eq_self {s : List Char} (h : ∀ c ∈ s, isBlank c = false) : trim s = s := by
  have hreverse : ∀ c ∈ s.reverse, isBlank c = false := fun c hc => h c (List.mem_reverse.mp hc)
  rw [trim, dropWhile_isBlank_eq_self h, dropWhile_isBlank_eq_self hreverse, List.reverse_reverse]

end NamedQuery.Text
