import Mathlib.Data.List.Basic
import ToolDialogue.Arithmetic.Call
import ToolDialogue.Arithmetic.Operator

namespace ToolDialogue.Arithmetic

inductive Nested : Nat → List Char → Prop where
  | nil : Nested 0 []
  | char {n : Nat} {c : Char} {rest : List Char} (opening : c ≠ '(') (closing : c ≠ ')')
      (on : Nested n rest) : Nested n (c :: rest)
  | group {m n : Nat} {inner rest : List Char} (within : Nested m inner) (on : Nested n rest) :
      Nested (max (m+1) n) ('(' :: (inner ++ ')' :: rest))

namespace Nested

variable {m n : Nat} {text inner : List Char}

theorem append {back : List Char} (front : Nested m text) (on : Nested n back) :
    Nested (max m n) (text ++ back) := by
  induction front with
  | nil => simpa using on
  | char opening closing _ ih => exact .char opening closing ih
  | @group _ _ inner rest within _ _ ih =>
    have whole := Nested.group within ih
    rw [← Nat.max_assoc] at whole
    simpa using whole

theorem flat (plain : ∀ c ∈ text, c ≠ '(' ∧ c ≠ ')') : Nested 0 text := by
  induction text with
  | nil => exact .nil
  | cons c rest ih =>
    obtain ⟨opening,closing⟩ := plain c List.mem_cons_self
    exact .char opening closing (ih fun other member => plain other (List.mem_cons_of_mem _ member))

theorem enclosed (within : Nested n inner) : Nested (n+1) ('(' :: (inner ++ [')'])) := by
  simpa using Nested.group within .nil

theorem balanceFrom_append (nested : Nested n text) {depth : Nat} (shallow : depth + n ≤ maxNesting)
    (rest : List Char) : balanceFrom depth (text ++ rest) = balanceFrom depth rest := by
  induction nested generalizing depth rest with
  | nil => rfl
  | char opening closing _ ih =>
    rw [List.cons_append,balanceFrom,if_neg opening,if_neg closing,ih shallow]
  | @group m n inner more _ _ within on =>
    have room : depth ≠ maxNesting := by omega
    rw [List.cons_append,List.append_assoc,balanceFrom,if_pos rfl,if_neg room,within (by omega),
      List.cons_append,balanceFrom,if_neg (by decide),if_pos rfl,if_neg (by omega),
      Nat.add_sub_cancel,on (by omega)]

theorem balanceFrom_deep (nested : Nested n text) {depth : Nat} (within : depth ≤ maxNesting)
    (deep : maxNesting < depth + n) (rest : List Char) : balanceFrom depth (text ++ rest) = .tooDeep := by
  induction nested generalizing depth rest with
  | nil => omega
  | char opening closing _ ih =>
    rw [List.cons_append,balanceFrom,if_neg opening,if_neg closing,ih within deep]
  | @group m n inner more inside _ ihi ihm =>
    rw [List.cons_append,List.append_assoc,balanceFrom,if_pos rfl]
    split
    · rfl
    · next room =>
      by_cases first : maxNesting < depth + 1 + m
      · exact ihi (by omega) first _
      · rw [inside.balanceFrom_append (by omega),List.cons_append,balanceFrom,if_neg (by decide),
          if_pos rfl,if_neg (by omega),Nat.add_sub_cancel]
        exact ihm within (by omega) rest

theorem checkBalanced_iff (nested : Nested n text) : checkBalanced text = .ok () ↔ n ≤ maxNesting := by
  constructor
  · intro passed
    by_contra deep
    have stopped := nested.balanceFrom_deep (Nat.zero_le maxNesting) (by omega) []
    rw [List.append_nil] at stopped
    rw [checkBalanced,balance,stopped] at passed
    cases passed
  · intro shallow
    have room : 0 + n ≤ maxNesting := by omega
    have scanned := nested.balanceFrom_append room []
    rw [List.append_nil] at scanned
    rw [checkBalanced,balance,scanned]
    rfl

theorem nestingFrom_append (nested : Nested n text) {depth deepest : Nat} (seen : depth ≤ deepest)
    (rest : List Char) :
    nestingFrom depth deepest (text ++ rest) = nestingFrom depth (max deepest (depth + n)) rest := by
  induction nested generalizing depth deepest rest with
  | nil => rw [Nat.add_zero,Nat.max_eq_left seen]; rfl
  | char opening closing _ ih =>
    rw [List.cons_append,nestingFrom,if_neg opening,if_neg closing,ih seen]
  | @group m n inner more _ _ within on =>
    rw [List.cons_append,List.append_assoc,nestingFrom,if_pos rfl,within (by omega),List.cons_append,
      nestingFrom,if_neg (by decide),if_pos rfl,Nat.add_sub_cancel,on (by omega)]
    congr 1; omega

theorem nesting_eq (nested : Nested n text) : nesting text = n := by
  have scanned := nested.nestingFrom_append (Nat.le_refl 0) []
  rw [List.append_nil] at scanned
  rw [nesting,scanned,nestingFrom]; omega

theorem closeFrom_append (nested : Nested n text) (depth : Nat) (held rest : List Char) :
    closeFrom depth held (text ++ rest) = closeFrom depth (text.reverse ++ held) rest := by
  induction nested generalizing depth held rest with
  | nil => rfl
  | char opening closing _ ih =>
    rw [List.cons_append,closeFrom,if_neg closing,if_neg opening,ih]; simp
  | group _ _ within on =>
    rw [List.cons_append,List.append_assoc,closeFrom,if_neg (by decide),if_pos rfl,within,
      List.cons_append,closeFrom,if_pos rfl,if_neg (by omega),Nat.add_sub_cancel,on]; simp

theorem commaFrom_within (nested : Nested n text) (depth : Nat) (before rest : List Char) :
    commaFrom (depth+1) before (text ++ rest) = commaFrom (depth+1) (text.reverse ++ before) rest := by
  induction nested generalizing depth before rest with
  | nil => rfl
  | char opening closing _ ih =>
    rw [List.cons_append,commaFrom,if_neg (by simp),if_neg opening,if_neg closing,ih]; simp
  | group _ _ within on =>
    rw [List.cons_append,List.append_assoc,commaFrom,if_neg (by simp),if_pos rfl,within,
      List.cons_append,commaFrom,if_neg (by simp),if_neg (by decide),if_pos rfl,Nat.add_sub_cancel,on]
    simp

theorem reader_within (nested : Nested n text) (name : List Char) (depth : Nat) (held : List Char)
    (pieces : List Piece) : text.foldl (Reader.step name) ⟨depth+1,held,pieces⟩ =
      ⟨depth+1,text.reverse ++ held,pieces⟩ := by
  induction nested generalizing depth held with
  | nil => rfl
  | char opening closing _ ih =>
    rw [List.foldl_cons,Reader.step,if_neg (by simp),if_neg opening,if_neg closing,ih]; simp
  | group _ _ within on =>
    rw [List.foldl_cons,List.foldl_append,Reader.step,if_neg (by simp),if_pos rfl,within,
      List.foldl_cons,Reader.step,if_neg (by simp),if_neg (by decide),if_pos rfl,
      if_neg (by simp)]
    simp only [Nat.add_sub_cancel]
    rw [on]; simp

theorem walk_within (nested : Nested n text) (operators : List Char) (depth : Nat) (before : Option Char)
    (read : List (Char × Bool)) : ∃ last, text.foldl (Walk.step operators) ⟨depth+1,before,read⟩ =
      ⟨depth+1,last,text.reverse.map (·,false) ++ read⟩ := by
  induction nested generalizing depth before read with
  | nil => exact ⟨before,rfl⟩
  | @char n c rest opening closing _ ih =>
    have step : Walk.step operators ⟨depth+1,before,read⟩ c = ⟨depth+1,some c,(c,false) :: read⟩ := by
      simp [Walk.step,opening,closing]
    obtain ⟨last,walked⟩ := ih depth (some c) ((c,false) :: read)
    exact ⟨last,by rw [List.foldl_cons,step,walked]; simp⟩
  | @group m n inner rest _ _ within on =>
    have opened : Walk.step operators ⟨depth+1,before,read⟩ '(' =
        ⟨depth+1+1,some '(',('(',false) :: read⟩ := by simp [Walk.step]
    have closed (last : Option Char) (read : List (Char × Bool)) :
        Walk.step operators ⟨depth+1+1,last,read⟩ ')' = ⟨depth+1,some ')',(')',false) :: read⟩ := by
      simp [Walk.step]
    obtain ⟨there,inside⟩ := within (depth+1) (some '(') (('(',false) :: read)
    obtain ⟨last,walked⟩ := on depth (some ')')
      ((')',false) :: (inner.reverse.map (·,false) ++ ('(',false) :: read))
    exact ⟨last,by rw [List.foldl_cons,opened,List.foldl_append,inside,List.foldl_cons,closed,walked]; simp⟩

theorem enclosed?_group (nested : Nested n inner) : enclosed? ('(' :: (inner ++ [')'])) = some inner := by
  rw [enclosed?,nested.closeFrom_append]
  simp [closeFrom]

theorem enclosed?_append (nested : Nested n text) {rest : List Char} (filled : text ≠ [])
    (more : rest ≠ []) : enclosed? (text ++ rest) = none := by
  cases nested with
  | nil => exact absurd rfl filled
  | @char _ c _ opening =>
    rw [List.cons_append]
    unfold enclosed?
    split
    · next same => exact absurd (List.cons.inj same).1 opening
    · rfl
  | @group m n inner tail within on =>
    have split : closeFrom 0 [] (inner ++ ')' :: (tail ++ rest)) = some (inner,tail ++ rest) := by
      rw [within.closeFrom_append,closeFrom,if_pos rfl,if_pos rfl]; simp
    rw [List.cons_append,List.append_assoc,List.cons_append,enclosed?,split]
    cases joined : tail ++ rest with
    | nil => exact absurd (List.append_eq_nil_iff.mp joined).2 more
    | cons c others => rfl

end Nested

end ToolDialogue.Arithmetic
