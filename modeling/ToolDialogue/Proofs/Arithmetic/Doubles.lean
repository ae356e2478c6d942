import ToolDialogue.Arithmetic.Double
import ToolDialogue.Proofs.Arithmetic.Splicing
import ToolDialogue.Proofs.Decimal.Places

namespace ToolDialogue.Arithmetic

theorem isDecimal_pointed {front back : List Char} (before : ∀ c ∈ front, c.isDigit = true)
    (behind : ∀ c ∈ back, c.isDigit = true) (filled : front ≠ []) : isDecimal (front ++ '.' :: back) = true := by
  obtain ⟨c,member⟩ := List.exists_mem_of_ne_nil _ filled
  have once : (front ++ '.' :: back).count '.' = 1 := by
    have missing (text : List Char) (digits : ∀ c ∈ text, c.isDigit = true) : text.count '.' = 0 := by
      refine List.count_eq_zero_of_not_mem fun listed => ?_
      have digit := digits '.' listed
      revert digit; decide
    rw [List.count_append,List.count_cons_self,missing front before,missing back behind]
  simp only [isDecimal,Bool.and_eq_true,List.all_eq_true,List.any_eq_true,decide_eq_true_eq]
  refine ⟨⟨fun other listed => ?_,c,List.mem_append_left _ member,before c member⟩,Nat.le_of_eq once⟩
  rcases List.mem_append.mp listed with early | late
  · simp [before other early]
  rcases List.mem_cons.mp late with rfl | late
  · rfl
  · simp [behind other late]

theorem isDecimal_positional (s : Decimal.Scaled) : isDecimal (s.positional []) = true := by
  obtain ⟨front,back,spelled,-⟩ := s.positional_spelled
  obtain ⟨whole,-⟩ | pointed := spelled.joined
  · rw [whole]
    exact isDecimal_of_digits spelled.before spelled.filled
  · rw [pointed]
    exact isDecimal_pointed spelled.before spelled.behind spelled.filled

theorem isNumeral_signed {text : List Char} (negative : Bool) (unsigned : isDecimal text = true ∨ isReserved text = true) :
    isNumeral (Decimal.signed negative text) = true := by
  cases negative with
  | false =>
    have same : isNumeral text = true ∧ doubles.value text = doubles.read text := numeral_of_unsigned unsigned
    exact same.1
  | true => simpa [Decimal.signed,isNumeral] using unsigned

theorem doubles_prints : doubles.PrintsNumerals := by
  intro x
  change isNumeral (Decimal.plain.text x) = true
  unfold Decimal.Layout.text
  split
  · decide
  · exact isNumeral_signed _ (.inr (by decide))
  · exact isNumeral_signed _ (.inl (isDecimal_positional _))

end ToolDialogue.Arithmetic
