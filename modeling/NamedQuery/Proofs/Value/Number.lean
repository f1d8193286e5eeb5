import Mathlib.Algebra.Group.Int.Defs
import NamedQuery.Proofs.Format.NumeralGrammar
import NamedQuery.Value.Read

/-!
# Numbers as values

A number that is too wide for a value comes as an integer or as a text. Both ways it is the same
number that is judged: the integer by comparison, the text digit by digit.

* `ofInt_eq`: what comes of an integer.
* `ofDecimal_toString`: the same comes of its decimal text.
-/

namespace NamedQuery.Value

theorem ofInt_eq (n : Int) :
    ofInt n =
      if n < 0 then .error (.negative (toString n))
      else if n < 2 ^ 64 then .ok (.uint64 (UInt64.ofNat n.toNat))
      else .error (.overflow (toString n) 64) := by
  have hsize : (UInt64.size : Int) = 2 ^ 64 := rfl
  rw [ofInt, Numeral.ofList_writeInt, hsize]
  by_cases hneg : n < 0
  · rw [if_pos hneg, if_pos hneg]
  · rw [if_neg hneg, if_neg hneg]
    by_cases hfits : n < 2 ^ 64
    · rw [if_pos hfits, if_neg (Int.not_le.mpr hfits)]
    · rw [if_neg hfits, if_pos (Int.not_lt.mp hfits)]
      rfl

/-- **The text of an integer and the integer itself make the same value**, or are refused for the
same reason, with the same text: a number below zero is negative, a number of more than 64 bits is
too large for them, and any other is the value. -/
theorem ofDecimal_toString (n : Int) :
    ofDecimal (toString n) = (ofInt n).mapError .range ∧
    ofInt n =
      if n < 0 then .error (.negative (toString n))
      else if n < 2 ^ 64 then .ok (.uint64 (UInt64.ofNat n.toNat))
      else .error (.overflow (toString n) 64) := by
  refine ⟨?_, ofInt_eq n⟩
  rw [ofDecimal, ofInt_eq, ← Numeral.ofList_writeInt]
  cases n with
  | ofNat n =>
    -- a number that is not negative is judged where its digits are read
    have hwritten : String.ofList (Numeral.writeInt (.ofNat n)) = Numeral.text n := rfl
    rw [hwritten, Numeral.parse_text_eq]
    have hnonneg : ¬Int.ofNat n < 0 := Int.not_lt.mpr (Int.natCast_nonneg n)
    rw [if_neg hnonneg]
    have hfits : Int.ofNat n < 2 ^ 64 ↔ n < Width.word.bound := by
      simp only [Width.bound, UInt64.size, Int.ofNat_eq_natCast]
      omega
    by_cases hn : n < Width.word.bound
    · rw [if_pos hn, if_pos (hfits.mpr hn)]
      rfl
    · rw [if_neg hn, if_neg (fun hc => hn (hfits.mp hc))]
      rfl
  | negSucc n =>
    -- a minus sign is seen before any digit
    have hwritten : Numeral.writeInt (.negSucc n) = '-' :: Numeral.write (n + 1) := rfl
    have hneg : Int.negSucc n < 0 := Int.negSucc_lt_zero n
    rw [hwritten, Numeral.parse_negative, if_pos hneg]
    rfl

end NamedQuery.Value
