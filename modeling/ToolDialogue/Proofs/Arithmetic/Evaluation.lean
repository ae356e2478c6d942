import Mathlib.Data.List.TakeWhile
import ToolDialogue.Proofs.Arithmetic.Expansion
import ToolDialogue.Proofs.Arithmetic.Levels
import ToolDialogue.Proofs.Arithmetic.Substitution

namespace ToolDialogue.Arithmetic

variable {α : Type} {ops : Numbers α} {evaluate : List Char → Except Error α}

namespace Expression

theorem callOrder_complete (function : Function) : function ∈ callOrder := by cases function <;> decide

end Expression

def compact (expression : String) : List Char := expression.toList.filter (!Text.isBlank ·)

def Fits (expression : String) : Prop := byteLength (compact expression) ≤ maxLength

instance (expression : String) : Decidable (Fits expression) := inferInstanceAs (Decidable (_ ≤ _))

theorem compact_append (a b : String) : compact (a ++ b) = compact a ++ compact b := by
  rw [compact,String.toList_append,List.filter_append]
  rfl

theorem evaluate_of_fits {expression : String} (filled : compact expression ≠ []) (fits : Fits expression) :
    Arithmetic.evaluate ops expression =
      evaluateWithin ops (maxNesting+1) (substituteConstants (compact expression)) := by
  rw [Arithmetic.evaluate,evaluateText]
  exact (if_neg filled).trans (if_neg (Nat.not_lt.mpr fits))

theorem evaluateWithin_of_ok {expression : String} {v : α} (valued : Arithmetic.evaluate ops expression = .ok v) :
    evaluateWithin ops (maxNesting+1) (substituteConstants (compact expression)) = .ok v := by
  rw [Arithmetic.evaluate,evaluateText] at valued
  split at valued
  · cases valued
  · split at valued
    · cases valued
    · exact valued

-- Whole numbers. Roots and literals are rounded down, and every angle is taken for zero.
def integers : Numbers Int where
  add := (· + ·)
  sub := (· - ·)
  mul := (· * ·)
  div := Int.tdiv
  pow b e := b.pow e.toNat
  neg := (- ·)
  sqrt v := (List.range v.toNat).countP fun n => (n+1)*(n+1) ≤ v.toNat
  sin _ := 0
  cos _ := 1
  tan _ := 0
  isZero := (· == 0)
  print
    | .ofNat n => Nat.toDigits 10 n
    | .negSucc n => '-' :: Nat.toDigits 10 (n+1)
  read text := Nat.ofDigitChars 10 (text.takeWhile Char.isDigit) 0

theorem digit_of_decimal (n : Nat) : ∀ c ∈ Nat.toDigits 10 n, c.isDigit = true :=
  fun _ member => Nat.isDigit_of_mem_toDigits (by decide) (by decide) member

theorem isDecimal_of_digits {text : List Char} (digits : ∀ c ∈ text, c.isDigit = true) (filled : text ≠ []) :
    isDecimal text = true := by
  obtain ⟨c,member⟩ := List.exists_mem_of_ne_nil _ filled
  have point : '.' ∉ text := fun listed => by
    have digit := digits '.' listed
    revert digit; decide
  simp only [isDecimal,Bool.and_eq_true,List.all_eq_true,List.any_eq_true,decide_eq_true_eq]
  refine ⟨⟨fun other listed => by simp [digits other listed],c,member,digits c member⟩,?_⟩
  rw [List.count_eq_zero_of_not_mem point]; exact Nat.zero_le _

theorem isDecimal_decimal (n : Nat) : isDecimal (Nat.toDigits 10 n) = true :=
  isDecimal_of_digits (digit_of_decimal n) Nat.toDigits_ne_nil

theorem read_decimal (n : Nat) : integers.read (Nat.toDigits 10 n) = n := by
  have whole : (Nat.toDigits 10 n).takeWhile Char.isDigit = Nat.toDigits 10 n :=
    List.takeWhile_eq_self_iff.mpr (digit_of_decimal n)
  simp only [integers,whole,Nat.ofDigitChars_ten_toDigits]

theorem unsigned_decimal (n : Nat) (rest : List Char) : Nat.toDigits 10 n ≠ '-' :: rest := fun same => by
  have digit := digit_of_decimal n '-' (by rw [same]; exact List.mem_cons_self)
  revert digit; decide

theorem integers_lawful : integers.Lawful := by
  refine ⟨fun v => ?_,fun v => ?_⟩
  · cases v with
    | ofNat n =>
      change isNumeral (Nat.toDigits 10 n) = true
      unfold isNumeral
      split
      · next rest same => exact absurd same (unsigned_decimal n rest)
      · simp [isDecimal_decimal]
    | negSucc n =>
      change (isDecimal (Nat.toDigits 10 (n+1)) || _) = true
      rw [isDecimal_decimal]; rfl
  · cases v with
    | ofNat n =>
      change integers.value (Nat.toDigits 10 n) = _
      unfold Numbers.value
      split
      · next rest same => exact absurd same (unsigned_decimal n rest)
      · exact read_decimal n
    | negSucc n =>
      change -integers.read (Nat.toDigits 10 (n+1)) = _
      rw [read_decimal]; rfl

end ToolDialogue.Arithmetic
