import ToolDialogue.Proofs.Arithmetic.LastOperator

namespace ToolDialogue.Arithmetic

variable {operators others text : List Char} {depth : Nat} {before : Option Char}

def sidesFrom (operators : List Char) : Nat → Option Char → List Char → Sides
  | _,_,[] => ⟨[],[]⟩
  | depth,before,c :: rest =>
    (sidesFrom operators (depthBehind depth c) (some c) rest).grow
      (c,depth == 0 && operators.contains c && !isSign before c)

theorem walk_sidesFrom (walk : Walk) : (text.foldl (Walk.step operators) walk).read.foldl Sides.grow ⟨[],[]⟩ =
    walk.read.foldl Sides.grow (sidesFrom operators walk.depth walk.before text) := by
  induction text generalizing walk with
  | nil => rfl
  | cons c rest ih => exact ih (walk.step operators c)

theorem sidesOf_eq (operators text : List Char) : sidesOf operators text = sidesFrom operators 0 none text :=
  walk_sidesFrom ⟨0,none,[]⟩

theorem sidesFrom_whole :
    (sidesFrom operators depth before text).rest = [] ↔ lastSplitFrom operators depth before text = none := by
  induction text generalizing depth before with
  | nil => exact iff_of_true rfl rfl
  | cons c rest ih =>
    have later := @ih (depthBehind depth c) (some c)
    rw [sidesFrom,lastSplitFrom]
    cases separates : depth == 0 && operators.contains c && !isSign before c with
    | true =>
      have here : depth = 0 ∧ c ∈ operators ∧ isSign before c = false := by simpa [and_assoc] using separates
      refine iff_of_false (List.cons_ne_nil _ _) ?_
      split
      · exact Option.some_ne_none _
      · rw [if_pos here]
        exact Option.some_ne_none _
    | false =>
      have here : ¬(depth = 0 ∧ c ∈ operators ∧ isSign before c = false) := by
        intro apart
        simp [apart] at separates
      change (sidesFrom operators (depthBehind depth c) (some c) rest).rest = [] ↔ _
      rw [later,if_neg here]
      cases lastSplitFrom operators (depthBehind depth c) (some c) rest <;> simp

theorem sidesOf_whole_iff : (sidesOf operators text).rest = [] ↔ lastSplit? operators text = none := by
  rw [sidesOf_eq]
  exact sidesFrom_whole

theorem sidesFrom_unsplit (known : operators ∈ precedence)
    (unsplit : others = operators ∨ lastSplitFrom others depth before text = none) :
    lastSplitFrom others depth before (sidesFrom operators depth before text).first = none ∧
      ∀ side ∈ (sidesFrom operators depth before text).rest, lastSplit? others side.2 = none := by
  induction text generalizing depth before with
  | nil => exact ⟨rfl,by simp [sidesFrom]⟩
  | cons c rest ih =>
    have later : others = operators ∨ lastSplitFrom others (depthBehind depth c) (some c) rest = none := by
      refine unsplit.imp_right fun none => ?_
      rw [lastSplitFrom] at none
      split at none
      · cases none
      · assumption
    obtain ⟨first,sides⟩ := ih later
    rw [sidesFrom]
    cases separates : depth == 0 && operators.contains c && !isSign before c with
    | true =>
      obtain ⟨rfl,listed,-⟩ : depth = 0 ∧ c ∈ operators ∧ isSign before c = false := by
        simpa [and_assoc] using separates
      rw [depthBehind_operator known listed,lastSplitFrom_start known listed] at first
      refine ⟨rfl,fun side member => ?_⟩
      rcases List.mem_cons.mp member with rfl | behind
      · rwa [depthBehind_operator known listed]
      · exact sides side behind
    | false =>
      refine ⟨?_,sides⟩
      have here : ¬(depth = 0 ∧ c ∈ others ∧ isSign before c = false) := by
        intro apart
        rcases unsplit with rfl | none
        · simp [apart] at separates
        · rw [lastSplitFrom] at none
          split at none
          · cases none
          · rw [if_pos apart] at none
            cases none
      change lastSplitFrom others depth before (c :: _) = none
      rw [lastSplitFrom,first]
      exact if_neg here

def Sides.all (sides : Sides) : List (List Char) := sides.first :: sides.rest.map (·.2)

theorem Sides.forall_all {sides : Sides} {holds : List Char → Prop} :
    (∀ side ∈ sides.all, holds side) ↔ holds sides.first ∧ ∀ side ∈ sides.rest, holds side.2 := by
  rw [all,List.forall_mem_cons,List.forall_mem_map]

theorem sidesOf_unsplit (known : operators ∈ precedence) (unsplit : others = operators ∨ lastSplit? others text = none) :
    ∀ side ∈ (sidesOf operators text).all, lastSplit? others side = none := by
  rw [Sides.forall_all,sidesOf_eq]
  exact sidesFrom_unsplit known unsplit

end ToolDialogue.Arithmetic
