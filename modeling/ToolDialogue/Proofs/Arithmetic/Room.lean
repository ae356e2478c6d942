import ToolDialogue.Proofs.Arithmetic.LastOperator
import ToolDialogue.Proofs.Arithmetic.Recursion

namespace ToolDialogue.Arithmetic

variable {α : Type} {ops : Numbers α} {evaluate group other : List Char → Except Error α} {n more : Nat}
  {text inner whole : List Char} {operators : List (List Char)}

section Congruence

theorem sideValue_congr {side : List Char} (same : side ≠ [] → evaluate side = other side) :
    sideValue evaluate whole side = sideValue other whole side := by
  unfold sideValue
  split
  · rfl
  · next filled => exact same filled

theorem foldlM_congr {β ι ε : Type} {f g : β → ι → Except ε β} {items : List ι}
    (same : ∀ left, ∀ item ∈ items, f left item = g left item) (start : β) :
    items.foldlM f start = items.foldlM g start := by
  induction items generalizing start with
  | nil => rfl
  | cons item more ih =>
    rw [List.foldlM_cons,List.foldlM_cons,same start item List.mem_cons_self]
    exact congrArg _ (funext (ih fun left other member => same left other (List.mem_cons_of_mem _ member)))

theorem sidesValue_congr {sides : Sides} (first : sides.first ≠ [] → evaluate sides.first = other sides.first)
    (rest : ∀ side ∈ sides.rest, side.2 ≠ [] → evaluate side.2 = other side.2) :
    Expression.sidesValue ops evaluate whole sides = Expression.sidesValue ops other whole sides := by
  rw [Expression.sidesValue,Expression.sidesValue,sideValue_congr first]
  refine congrArg _ (funext (foldlM_congr fun left side member => ?_))
  obtain ⟨operator,side⟩ := side
  dsimp only
  rw [sideValue_congr (rest _ member)]

theorem levelValue_bare {level : List Char} (bare : enclosed? text = none) (filled : text ≠ []) :
    levelValue ops group (level :: operators) text =
      if (sidesOf level text).rest = [] then levelValue ops group operators text
      else Expression.sidesValue ops (levelValue ops group operators) text (sidesOf level text) := by
  rw [levelValue,bare]
  exact if_neg filled

theorem levelValue_operand (bare : enclosed? text = none) (filled : text ≠ []) :
    levelValue ops group [] text = operand ops group text := by
  rw [levelValue,bare]
  exact if_neg filled

theorem levelValue_enclosed (enclosed : enclosed? text = some inner) :
    levelValue ops group operators text = group inner := by
  unfold levelValue
  rw [enclosed]

theorem levelValue_nil : levelValue ops group operators [] = .error (.missingOperand []) := by
  unfold levelValue
  rfl

variable (same : ∀ m inner, m < n → Nested m inner → group inner = other inner)
include same

theorem operand_congr (shallow : Shallow n text) : operand ops group text = operand ops other text := by
  unfold operand
  split
  · rfl
  split
  · next rest _ =>
    rw [Shallow,openWithin_cons,withinStep_plain (by decide),Option.bind_some] at shallow
    split
    · next inner enclosed =>
      obtain ⟨m,less,nested⟩ := Shallow.enclosed? shallow enclosed
      rw [same m inner less nested]
    · rfl
  · rfl

theorem levelValue_congr (known : ∀ level ∈ operators, level ∈ precedence) (shallow : Shallow n text) :
    levelValue ops group operators text = levelValue ops other operators text := by
  induction operators generalizing text with
  | nil =>
    cases enclosed : enclosed? text with
    | some inner =>
      obtain ⟨m,less,nested⟩ := shallow.enclosed? enclosed
      rw [levelValue_enclosed enclosed,levelValue_enclosed enclosed,same m inner less nested]
    | none =>
      by_cases filled : text = []
      · rw [filled,levelValue_nil,levelValue_nil]
      · rw [levelValue_operand enclosed filled,levelValue_operand enclosed filled]
        exact operand_congr same shallow
  | cons level tighter ih =>
    obtain ⟨here,later⟩ := List.forall_mem_cons.mp known
    obtain ⟨first,others⟩ := shallow.sidesOf here
    cases enclosed : enclosed? text with
    | some inner =>
      obtain ⟨m,less,nested⟩ := shallow.enclosed? enclosed
      rw [levelValue_enclosed enclosed,levelValue_enclosed enclosed,same m inner less nested]
    | none =>
      by_cases filled : text = []
      · rw [filled,levelValue_nil,levelValue_nil]
      · rw [levelValue_bare enclosed filled,levelValue_bare enclosed filled,ih later shallow,
          sidesValue_congr (fun _ => ih later first) fun side member _ => ih later (others side member)]

end Congruence

section Room

-- Room for the parentheses of a text is enough, and more of it changes nothing.
theorem arithmeticWithin_room {room : Nat} (shallow : Shallow n text) (enough : n < room) (also : n < more) :
    arithmeticWithin ops room text = arithmeticWithin ops more text := by
  induction room generalizing n more text with
  | zero => exact absurd enough (Nat.not_lt_zero n)
  | succ room ih =>
    obtain ⟨more,rfl⟩ := Nat.exists_eq_succ_of_ne_zero (Nat.ne_zero_of_lt also)
    refine levelValue_congr (fun m inner less nested => ?_) (fun _ listed => listed) shallow
    exact ih nested.shallow (by omega) (by omega)

theorem arithmetic_eq (nested : Nested n text) :
    arithmetic ops text = levelValue ops (arithmetic ops) precedence text := by
  rw [arithmetic,nested.nesting_eq]
  refine levelValue_congr (fun m inner less within => ?_) (fun _ listed => listed) nested.shallow
  rw [arithmetic,within.nesting_eq]
  exact arithmeticWithin_room within.shallow less (Nat.lt_succ_self m)

theorem evaluateWithin_room {room : Nat} (prints : ops.PrintsFlat) (nested : Nested n text) (enough : n < room)
    (also : n < more) : evaluateWithin ops room text = evaluateWithin ops more text := by
  induction room generalizing n more text with
  | zero => exact absurd enough (Nat.not_lt_zero n)
  | succ room ih =>
    obtain ⟨more,rfl⟩ := Nat.exists_eq_succ_of_ne_zero (Nat.ne_zero_of_lt also)
    have same (inner : List Char) (needs : Needs ops room text inner) :
        evaluateWithin ops room inner = evaluateWithin ops more inner := by
      obtain ⟨m,less,within⟩ := needs.nested prints nested
      exact ih within (by omega) (by omega)
    exact evaluateWithin_congr same

theorem Needs.deeper {levels : Nat} (needs : Needs ops levels text inner) (prints : ops.PrintsFlat) :
    ∃ m n, m < n ∧ n ≤ maxNesting ∧ Nested n text ∧ Nested m inner := by
  have ⟨_,passed,_,_,_⟩ := needs
  obtain ⟨n,shallow,nested⟩ := checkBalanced_nested passed
  obtain ⟨m,less,within⟩ := needs.nested prints nested
  exact ⟨m,n,less,shallow,nested,within⟩

-- Arguments are evaluated as texts of their own.
theorem evaluatePrepared_eq (prints : ops.PrintsFlat) (text : List Char) : evaluatePrepared ops text = (do
    checkBalanced text
    let expanded ← expandAll ops (evaluatePrepared ops) text
    arithmetic ops expanded) := by
  refine evaluateWithin_congr fun inner needs => ?_
  obtain ⟨m,n,less,shallow,-,within⟩ := needs.deeper prints
  exact evaluateWithin_room prints within (by omega) (by omega)

end Room

def stripped (text : List Char) : List Char :=
  match _ : enclosed? text with
  | some inner => stripped inner
  | none => text
termination_by text.length
decreasing_by exact enclosed?_shorter ‹_›

section Stripped

theorem stripped_enclosed (enclosed : enclosed? text = some inner) : stripped text = stripped inner := by
  rw [stripped]
  split
  · next found =>
    rw [enclosed] at found
    cases found
    rfl
  · next none =>
    rw [enclosed] at none
    cases none

theorem stripped_bare (bare : enclosed? text = none) : stripped text = text := by
  rw [stripped]
  split
  · next found =>
    rw [bare] at found
    cases found
  · rfl

theorem stripped_length (text : List Char) : (stripped text).length ≤ text.length := by
  induction size : text.length using Nat.strongRecOn generalizing text with
  | ind size ih =>
    subst size
    cases enclosed : enclosed? text with
    | none => rw [stripped_bare enclosed]
    | some inner =>
      have shorter := enclosed?_shorter enclosed
      rw [stripped_enclosed enclosed]
      exact Nat.le_trans (ih inner.length shorter inner rfl) (Nat.le_of_lt shorter)

theorem stripped_eq_iff : stripped text = text ↔ enclosed? text = none := by
  refine ⟨fun same => ?_,stripped_bare⟩
  cases enclosed : enclosed? text with
  | none => rfl
  | some inner =>
    have shorter := Nat.lt_of_le_of_lt (stripped_length inner) (enclosed?_shorter enclosed)
    rw [← stripped_enclosed enclosed,same] at shorter
    exact absurd shorter (Nat.lt_irrefl _)

theorem Nested.stripped (nested : Nested n text) : ∃ m, m ≤ n ∧ Nested m (stripped text) := by
  induction size : text.length using Nat.strongRecOn generalizing n text with
  | ind size ih =>
    subst size
    cases enclosed : Arithmetic.enclosed? text with
    | none =>
      rw [stripped_bare enclosed]
      exact ⟨n,Nat.le_refl n,nested⟩
    | some inner =>
      obtain ⟨k,less,within⟩ := nested.shallow.enclosed? enclosed
      obtain ⟨m,bound,own⟩ := ih inner.length (enclosed?_shorter enclosed) within rfl
      rw [stripped_enclosed enclosed]
      exact ⟨m,by omega,own⟩

theorem Nested.stripped_less (nested : Nested n text) (enclosed : enclosed? text = some inner) :
    ∃ m, m < n ∧ Nested m (Arithmetic.stripped text) := by
  obtain ⟨k,less,within⟩ := nested.shallow.enclosed? enclosed
  obtain ⟨m,bound,own⟩ := within.stripped
  rw [stripped_enclosed enclosed]
  exact ⟨m,Nat.lt_of_le_of_lt bound less,own⟩

theorem arithmetic_stripped (nested : Nested n text) : arithmetic ops (stripped text) = arithmetic ops text := by
  induction size : text.length using Nat.strongRecOn generalizing n text with
  | ind size ih =>
    subst size
    cases enclosed : enclosed? text with
    | none => rw [stripped_bare enclosed]
    | some inner =>
      obtain ⟨k,-,within⟩ := nested.shallow.enclosed? enclosed
      rw [stripped_enclosed enclosed,ih inner.length (enclosed?_shorter enclosed) within rfl,arithmetic_eq nested,
        levelValue_enclosed enclosed]

end Stripped

end ToolDialogue.Arithmetic
