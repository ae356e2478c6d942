import Mathlib.Data.List.Chain
import Mathlib.Logic.Relation
import ToolDialogue.Proofs.Arithmetic.Doubles
import ToolDialogue.Proofs.Arithmetic.Room
import ToolDialogue.Proofs.Arithmetic.Sides

namespace ToolDialogue.Arithmetic

-- The evaluator runs itself in two ways: a text is evaluated, and a text without calls is read
-- at one of the levels. Behind the last level stand operands.
inductive Activation where
  | evaluation (text : List Char)
  | level (n : Nat) (text : List Char)

variable {α : Type}

namespace Activation

def isEvaluation : Activation → Bool
  | .evaluation _ => true
  | .level _ _ => false

def isLevel : Activation → Bool
  | .evaluation _ => false
  | .level _ _ => true

-- What holds no operator is a numeral or begins with a minus in front of a parenthesis, and then
-- the rest is read from the loosest level again.
def last (ops : Numbers α) (run : Activation → Except Error α) (text : List Char) : Except Error α :=
  if isNumeral text then .ok (ops.value text)
  else match text with
    | '-' :: '(' :: rest => ops.neg <$> run (.level 0 ('(' :: rest))
    | _ => .error (.invalidNumber text)

def step (ops : Numbers α) (run : Activation → Except Error α) : Activation → Except Error α
  | .evaluation text => do
    checkBalanced text
    let expanded ← expandAll ops (fun inner => run (.evaluation inner)) text
    run (.level 0 expanded)
  | .level n text =>
    if stripped text ≠ text then run (.level 0 (stripped text))
    else if text = [] then .error (.missingOperand text)
    else match precedence[n]? with
      | none => last ops run text
      | some operators =>
        if (sidesOf operators text).rest = [] then run (.level (n+1) text)
        else Expression.sidesValue ops (fun side => run (.level (n+1) side)) text (sidesOf operators text)

def value (ops : Numbers α) : Activation → Except Error α
  | .evaluation text => evaluatePrepared ops text
  | .level n text => levelValue ops (arithmetic ops) (precedence.drop n) text

end Activation

inductive Enters (ops : Numbers α) : Activation → Activation → Prop where
  | argument {text inner : List Char} (needs : Needs ops (maxNesting+1) text inner) :
      Enters ops (.evaluation text) (.evaluation inner)
  | expression {text out : List Char} (passed : checkBalanced text = .ok ())
      (expanded : expandAll ops (evaluatePrepared ops) text = .ok out) : Enters ops (.evaluation text) (.level 0 out)
  | group {n : Nat} {text : List Char} (around : stripped text ≠ text) :
      Enters ops (.level n text) (.level 0 (stripped text))
  | tighter {n : Nat} {operators text : List Char} (bare : stripped text = text) (filled : text ≠ [])
      (at_ : precedence[n]? = some operators) (whole : (sidesOf operators text).rest = []) :
      Enters ops (.level n text) (.level (n+1) text)
  | side {n : Nat} {operators text side : List Char} (bare : stripped text = text)
      (at_ : precedence[n]? = some operators) (apart : (sidesOf operators text).rest ≠ [])
      (member : side ∈ (sidesOf operators text).all) (filled : side ≠ []) :
      Enters ops (.level n text) (.level (n+1) side)
  | negated {n : Nat} {rest : List Char} (last : precedence[n]? = none) :
      Enters ops (.level n ('-' :: '(' :: rest)) (.level 0 ('(' :: rest))

variable {ops : Numbers α} {group : List Char → Except Error α} {operators others text inner rest : List Char}
  {remaining : List (List Char)} {n : Nat} {a b : Activation}

section Value

theorem levelValue_unsplit (bare : enclosed? text = none) (filled : text ≠ [])
    (unsplit : ∀ operators ∈ remaining, lastSplit? operators text = none) :
    levelValue ops group remaining text = operand ops group text := by
  induction remaining with
  | nil => exact levelValue_operand bare filled
  | cons operators tighter ih =>
    obtain ⟨here,later⟩ := List.forall_mem_cons.mp unsplit
    rw [levelValue_bare bare filled,if_pos (sidesOf_whole_iff.mpr here)]
    exact ih later

def Activation.Placed : Activation → Prop
  | .evaluation _ => True
  | .level n text => n ≤ precedence.length ∧ (∃ m, Nested m text) ∧
      ∀ operators ∈ precedence.take n, lastSplit? operators text = none

theorem bind_congr_ok {ε β γ : Type} {first : Except ε β} {f g : β → Except ε γ}
    (same : ∀ v, first = .ok v → f v = g v) : first >>= f = first >>= g := by
  cases first with
  | error e => rfl
  | ok v => exact same v rfl

theorem unsplit_negated (unsplit : lastSplit? operators ('-' :: text) = none) : lastSplit? operators text = none := by
  have known : ['+','-'] ∈ precedence := List.mem_cons_self
  rw [← lastSplitFrom_start known (by decide : '-' ∈ ['+','-'])]
  rw [lastSplit?,lastSplitFrom] at unsplit
  split at unsplit
  · cases unsplit
  · assumption

theorem expandAll_nested (prints : ops.PrintsFlat) (passed : checkBalanced text = .ok ())
    (expanded : expandAll ops (evaluatePrepared ops) text = .ok inner) :
    ∃ m, m ≤ nesting text ∧ Nested m inner := by
  obtain ⟨n,-,nested⟩ := checkBalanced_nested passed
  rw [nested.nesting_eq]
  exact (expandEach_shallow prints nested.shallow expanded).nested

theorem operand_unclosed : operand ops group ('(' :: rest) = .error (.invalidNumber ('(' :: rest)) := by
  have unread : isNumeral ('(' :: rest) ≠ true := fun reads => numeral_unopened reads List.mem_cons_self
  unfold operand
  rw [if_neg unread]
  rfl

theorem last_other {run : Activation → Except Error α} (unread : ¬isNumeral text = true)
    (other : ∀ rest, text ≠ '-' :: '(' :: rest) : Activation.last ops run text = .error (.invalidNumber text) := by
  unfold Activation.last
  rw [if_neg unread]
  split
  · exact absurd rfl (other _)
  · rfl

theorem operand_last (unsplit : ∀ operators ∈ precedence, lastSplit? operators text = none) :
    operand ops (arithmetic ops) text = Activation.last ops (·.value ops) text := by
  unfold operand
  split
  · next reads => exact (if_pos reads).symm
  · next unread =>
    split
    · next rest =>
      rw [Activation.last,if_neg unread]
      change _ = ops.neg <$> levelValue ops (arithmetic ops) precedence ('(' :: rest)
      split
      · next inner enclosed => rw [levelValue_enclosed enclosed]
      · next bare =>
        have loose : ∀ operators ∈ precedence, lastSplit? operators ('(' :: rest) = none :=
          fun operators known => unsplit_negated (unsplit operators known)
        rw [levelValue_unsplit bare (List.cons_ne_nil _ _) loose,operand_unclosed]
        rfl
    · next other => exact (last_other unread other).symm

theorem value_step (prints : ops.PrintsFlat) (placed : a.Placed) : a.value ops = a.step ops (·.value ops) := by
  cases a with
  | evaluation text =>
    have stepped : (Activation.evaluation text).step ops (·.value ops) = (do
        checkBalanced text
        let expanded ← expandAll ops (evaluatePrepared ops) text
        levelValue ops (arithmetic ops) precedence expanded) := rfl
    rw [stepped,Activation.value,evaluatePrepared_eq prints]
    refine bind_congr_ok fun _ passed => bind_congr_ok fun out expanded => ?_
    obtain ⟨m,-,nested⟩ := expandAll_nested prints passed expanded
    exact arithmetic_eq nested
  | level n text =>
    obtain ⟨-,⟨m,nested⟩,unsplit⟩ := placed
    rw [Activation.value,Activation.step]
    cases enclosed : enclosed? text with
    | some inner =>
      have around : stripped text ≠ text := by
        rw [ne_eq,stripped_eq_iff,enclosed]
        exact Option.some_ne_none _
      obtain ⟨k,-,within⟩ := nested.stripped
      rw [if_pos around,levelValue_enclosed enclosed]
      change _ = levelValue ops (arithmetic ops) precedence (stripped text)
      rw [← arithmetic_eq within,arithmetic_stripped nested,arithmetic_eq nested,levelValue_enclosed enclosed]
    | none =>
      rw [if_neg (not_not.mpr (stripped_bare enclosed))]
      by_cases filled : text = []
      · rw [if_pos filled,filled,levelValue_nil]
      rw [if_neg filled]
      split
      · next last =>
        have all := List.getElem?_eq_none_iff.mp last
        rw [List.drop_eq_nil_of_le all,levelValue_operand enclosed filled]
        rw [List.take_of_length_le all] at unsplit
        exact operand_last unsplit
      · next operators at_ =>
        obtain ⟨listed,rfl⟩ := List.getElem?_eq_some_iff.mp at_
        rw [List.drop_eq_getElem_cons listed,levelValue_bare enclosed filled]
        rfl

theorem step_congr {run : Activation → Except Error α} (same : ∀ b, Enters ops a b → run b = b.value ops) :
    a.step ops run = a.step ops (·.value ops) := by
  cases a with
  | evaluation text =>
    rw [Activation.step,Activation.step]
    refine bind_congr_ok fun _ passed => ?_
    have arguments : expandAll ops (fun inner => run (.evaluation inner)) text = expandAll ops (evaluatePrepared ops) text :=
      Eq.symm (expandEach_congr fun done function more between argument order before called inner asked =>
        (same _ (.argument ⟨order,passed,before,called,asked⟩)).symm)
    rw [arguments]
    exact bind_congr_ok fun out expanded => same _ (.expression passed expanded)
  | level n text =>
    rw [Activation.step,Activation.step]
    split
    · next around => exact same _ (.group around)
    · next bare =>
      have bare : stripped text = text := not_not.mp bare
      split
      · rfl
      · next filled =>
        split
        · next last =>
          unfold Activation.last
          split
          · rfl
          · split
            · rw [same _ (.negated last)]
            · rfl
        · next operators at_ =>
          split
          · next whole => exact same _ (.tighter bare filled at_ whole)
          · next apart =>
            obtain ⟨first,others⟩ := Sides.forall_all.mp fun side member filled =>
              same _ (.side bare at_ apart member filled)
            exact sidesValue_congr first others

end Value

section Placed

theorem mem_take_next (at_ : precedence[n]? = some operators) :
    others ∈ precedence.take (n+1) ↔ others ∈ precedence.take n ∨ others = operators := by
  rw [List.take_add_one,at_]
  simp

theorem Nested.side {side : List Char} (nested : Nested n text) (known : operators ∈ precedence)
    (member : side ∈ (sidesOf operators text).all) : ∃ m, m ≤ n ∧ Nested m side := by
  have shallow := nested.shallow.sidesOf known
  exact (Sides.forall_all.mpr shallow side member).nested

theorem Enters.placed (enters : Enters ops a b) (prints : ops.PrintsFlat) (placed : a.Placed) : b.Placed := by
  cases enters with
  | argument needs => trivial
  | expression passed expanded =>
    obtain ⟨m,-,nested⟩ := expandAll_nested prints passed expanded
    exact ⟨Nat.zero_le _,⟨m,nested⟩,by simp⟩
  | group around =>
    obtain ⟨-,⟨m,nested⟩,-⟩ := placed
    obtain ⟨k,-,within⟩ := nested.stripped
    exact ⟨Nat.zero_le _,⟨k,within⟩,by simp⟩
  | tighter bare filled at_ whole =>
    obtain ⟨-,nested,unsplit⟩ := placed
    refine ⟨(List.getElem?_eq_some_iff.mp at_).1,nested,fun others listed => ?_⟩
    rcases (mem_take_next at_).mp listed with looser | rfl
    · exact unsplit others looser
    · exact sidesOf_whole_iff.mp whole
  | side bare at_ apart member filled =>
    obtain ⟨-,⟨m,nested⟩,unsplit⟩ := placed
    obtain ⟨k,-,within⟩ := nested.side (List.mem_of_getElem? at_) member
    refine ⟨(List.getElem?_eq_some_iff.mp at_).1,⟨k,within⟩,fun others listed => ?_⟩
    exact sidesOf_unsplit (List.mem_of_getElem? at_) (((mem_take_next at_).mp listed).symm.imp_right (unsplit others)) _ member
  | negated last =>
    obtain ⟨-,⟨m,nested⟩,-⟩ := placed
    cases nested with
    | char _ _ on => exact ⟨Nat.zero_le _,⟨m,on⟩,by simp⟩

end Placed

def Stuck (text : List Char) : Prop :=
  text.head? = some '(' ∧ ∀ operators ∈ precedence, lastSplit? operators text = none

instance (text : List Char) : Decidable (Stuck text) := inferInstanceAs (Decidable (_ ∧ _))

namespace Activation

def evaluations : Activation → Nat
  | .evaluation text => nesting text + 1
  | .level _ _ => 0

-- A group is left for a text that is less deep. A minus leads back to the loosest level without
-- that, but then only to a group or to what is stuck.
def levels : Activation → Nat
  | .evaluation text => 5 * nesting text + 4
  | .level n text =>
    if (enclosed? text).isSome then 5 * nesting text
    else if Stuck text then 4 - n
    else 5 * nesting text + (4 - n)

end Activation

section Bounds

theorem levels_le (n : Nat) (text : List Char) : (Activation.level n text).levels ≤ 5 * nesting text + (4 - n) := by
  rw [Activation.levels]
  split
  · omega
  · split <;> omega

theorem levels_enclosed (enclosed : enclosed? text = some inner) :
    (Activation.level n text).levels = 5 * nesting text := by
  rw [Activation.levels,enclosed]
  rfl

theorem levels_bare (bare : enclosed? text = none) :
    (Activation.level n text).levels = if Stuck text then 4 - n else 5 * nesting text + (4 - n) := by
  rw [Activation.levels,bare]
  rfl

theorem Nested.opened (nested : Nested n ('(' :: rest)) : 0 < n := by
  cases nested with
  | char opening => exact absurd rfl opening
  | group => omega

theorem Enters.evaluations (enters : Enters ops a b) (prints : ops.PrintsFlat) :
    b.evaluations + (if a.isEvaluation then 1 else 0) ≤ a.evaluations := by
  cases enters with
  | @argument text inner needs =>
    obtain ⟨m,n,less,-,nested,within⟩ := needs.deeper prints
    simp only [Activation.evaluations,within.nesting_eq,nested.nesting_eq]
    exact Nat.succ_le_succ less
  | expression => exact Nat.le_add_left 1 _
  | _ => exact Nat.le_refl 0

theorem Enters.levels (enters : Enters ops a b) (prints : ops.PrintsFlat) (placed : a.Placed) :
    b.levels + (if a.isLevel then 1 else 0) ≤ a.levels := by
  have three : precedence.length = 3 := rfl
  cases enters with
  | @argument text inner needs =>
    obtain ⟨m,n,less,-,nested,within⟩ := needs.deeper prints
    change 5 * nesting inner + 4 ≤ 5 * nesting text + 4
    rw [within.nesting_eq,nested.nesting_eq]
    omega
  | @expression text out passed expanded =>
    obtain ⟨m,less,nested⟩ := expandAll_nested prints passed expanded
    have bound := levels_le 0 out
    rw [nested.nesting_eq] at bound
    change (Activation.level 0 out).levels ≤ 5 * nesting text + 4
    omega
  | @group n text around =>
    obtain ⟨-,⟨d,nested⟩,-⟩ := placed
    obtain ⟨inner,enclosed⟩ := Option.ne_none_iff_exists'.mp (mt stripped_bare around)
    obtain ⟨m,less,within⟩ := nested.stripped_less enclosed
    have bound := levels_le 0 (stripped text)
    change _ + 1 ≤ _
    rw [within.nesting_eq] at bound
    rw [levels_enclosed enclosed,nested.nesting_eq]
    omega
  | @tighter n operators text bare filled at_ whole =>
    have low := (List.getElem?_eq_some_iff.mp at_).1
    have bare := stripped_eq_iff.mp bare
    change _ + 1 ≤ _
    rw [levels_bare bare,levels_bare bare]
    by_cases stuck : Stuck text
    · rw [if_pos stuck,if_pos stuck]
      omega
    · rw [if_neg stuck,if_neg stuck]
      omega
  | @side n operators text side bare at_ apart member filled =>
    obtain ⟨-,⟨d,nested⟩,-⟩ := placed
    have low := (List.getElem?_eq_some_iff.mp at_).1
    have known := List.mem_of_getElem? at_
    have free : ¬Stuck text := fun stuck => apart (sidesOf_whole_iff.mpr (stuck.2 operators known))
    obtain ⟨m,bound,within⟩ := nested.side known member
    have least := levels_le (n+1) side
    change _ + 1 ≤ _
    rw [within.nesting_eq] at least
    rw [levels_bare (stripped_eq_iff.mp bare),if_neg free,nested.nesting_eq]
    omega
  | @negated n rest last =>
    obtain ⟨bound,⟨d,nested⟩,unsplit⟩ := placed
    have all := List.getElem?_eq_none_iff.mp last
    rw [List.take_of_length_le all] at unsplit
    have free : ¬Stuck ('-' :: '(' :: rest) := fun stuck => absurd (Option.some.inj stuck.1) (by decide)
    have loose : Stuck ('(' :: rest) := ⟨rfl,fun operators known => unsplit_negated (unsplit operators known)⟩
    have bare : enclosed? ('-' :: '(' :: rest) = none := rfl
    change _ + 1 ≤ _
    rw [levels_bare bare,if_neg free,nested.nesting_eq]
    cases nested with
    | char _ _ on =>
      have deeper := on.opened
      cases enclosed : enclosed? ('(' :: rest) with
      | some inner =>
        rw [levels_enclosed enclosed,on.nesting_eq]
        omega
      | none =>
        rw [levels_bare enclosed,if_pos loose]
        omega

theorem levels_pos (placed : a.Placed) : 0 < a.levels := by
  cases a with
  | evaluation text => exact Nat.succ_pos _
  | level n text =>
    obtain ⟨bound,⟨d,nested⟩,-⟩ := placed
    have three : precedence.length = 3 := rfl
    cases enclosed : enclosed? text with
    | some inner =>
      obtain ⟨m,less,-⟩ := nested.stripped_less enclosed
      rw [levels_enclosed enclosed,nested.nesting_eq]
      omega
    | none =>
      rw [levels_bare enclosed]
      split <;> omega

theorem countP_stack {p : Activation → Bool} {rank : Activation → Nat} (prints : ops.PrintsFlat)
    (pays : ∀ a b, a.Placed → Enters ops a b → rank b + (if p a then 1 else 0) ≤ rank a)
    (least : ∀ a, a.Placed → p a = true → 0 < rank a) {stack : List Activation} (placed : a.Placed)
    (chain : List.IsChain (Enters ops) (a :: stack)) : (a :: stack).countP p ≤ rank a := by
  induction stack generalizing a with
  | nil =>
    rw [List.countP_singleton]
    split
    · next counts => exact least a placed counts
    · exact Nat.zero_le _
  | cons b more ih =>
    obtain ⟨enters,later⟩ := List.isChain_cons_cons.mp chain
    rw [List.countP_cons]
    exact Nat.le_trans (Nat.add_le_add_right (ih (enters.placed prints placed) later) _) (pays a b placed enters)

theorem Enters.less (enters : Enters ops a b) (prints : ops.PrintsFlat) (placed : a.Placed) :
    b.evaluations + b.levels < a.evaluations + a.levels := by
  have evaluations := enters.evaluations prints
  have levels := enters.levels prints placed
  cases a <;> simp only [Activation.isEvaluation,Activation.isLevel,if_true] at evaluations levels <;> omega

theorem enters_acc (prints : ops.PrintsFlat) (placed : a.Placed) : Acc (flip (Enters ops)) a := by
  induction size : a.evaluations + a.levels using Nat.strongRecOn generalizing a with
  | ind size ih =>
    subst size
    exact ⟨a,fun b enters => ih _ (enters.less prints placed) (enters.placed prints placed) rfl⟩

end Bounds

open Relation

theorem reached_placed (prints : ops.PrintsFlat) (placed : a.Placed) (reached : ReflTransGen (Enters ops) a b) :
    b.Placed := by
  induction reached with
  | refl => exact placed
  | tail _ enters ih => exact enters.placed prints ih

theorem run_eq {run : Activation → Except Error α} (prints : ops.PrintsFlat) (placed : a.Placed)
    (steps : ∀ b, ReflTransGen (Enters ops) a b → run b = b.step ops run) : run a = a.value ops := by
  induction enters_acc prints placed with
  | intro a _ ih =>
    have later (b : Activation) (enters : Enters ops a b) : run b = b.value ops :=
      ih b enters (enters.placed prints placed) fun c reached => steps c (.head enters reached)
    rw [steps a .refl,step_congr later,← value_step prints placed]

structure Recursive (ops : Numbers α) (text : List Char) : Prop where
  deepest : checkBalanced text = .ok () → nesting text ≤ maxNesting
  shallower : ∀ inner, Enters ops (.evaluation text) (.evaluation inner) → nesting inner < nesting text
  -- a stack: each activation has been entered by the one before it
  evaluations : ∀ stack, List.IsChain (Enters ops) (.evaluation text :: stack) →
    (Activation.evaluation text :: stack).countP (·.isEvaluation) ≤ nesting text + 1
  levels : ∀ stack, List.IsChain (Enters ops) (.evaluation text :: stack) →
    (Activation.evaluation text :: stack).countP (·.isLevel) ≤ 5 * nesting text + 4
  ends : Acc (flip (Enters ops)) (.evaluation text)
  steps : ∀ a, ReflTransGen (Enters ops) (.evaluation text) a → a.value ops = a.step ops (·.value ops)
  decided : ∀ run : Activation → Except Error α,
    (∀ a, ReflTransGen (Enters ops) (.evaluation text) a → run a = a.step ops run) →
      run (.evaluation text) = evaluatePrepared ops text

theorem recursive (prints : ops.PrintsFlat) (text : List Char) : Recursive ops text := by
  have placed : (Activation.evaluation text).Placed := trivial
  refine ⟨fun passed => ?_,fun inner enters => ?_,fun stack chain => ?_,fun stack chain => ?_,
    enters_acc prints placed,fun a reached => value_step prints (reached_placed prints placed reached),
    fun run steps => run_eq prints placed steps⟩
  · obtain ⟨n,shallow,nested⟩ := checkBalanced_nested passed
    rwa [nested.nesting_eq]
  · exact Nat.le_of_succ_le_succ (enters.evaluations prints)
  · refine countP_stack prints (fun a b _ enters => enters.evaluations prints) (fun a _ counts => ?_) placed chain
    cases a with
    | evaluation text => exact Nat.succ_pos _
    | level => cases counts
  · exact countP_stack prints (fun a b placed enters => enters.levels prints placed)
      (fun a placed _ => levels_pos placed) placed chain

theorem doubles_recursive (text : List Char) : Recursive doubles text := recursive doubles_prints.flat text

-- The length of a text is no measure: a power is set in and evaluated again.
example : ∃ inner, Enters integers (.evaluation "sin(pow(9,29))".toList) (.evaluation inner) ∧
    "sin(pow(9,29))".toList.length < inner.length := by
  have order : callOrder = [.sqrt,.pow] ++ .sin :: [.cos,.tan] := rfl
  have before : expandEach integers (evaluateWithin integers (maxNesting+1)) [.sqrt,.pow] "sin(pow(9,29))".toList =
      .ok "sin(4710128697246244834921603689)".toList := by decide +kernel
  have called : .call "4710128697246244834921603689".toList ∈
      piecesOf .sin "sin(4710128697246244834921603689)".toList := by decide +kernel
  exact ⟨"4710128697246244834921603689".toList,
    .argument ⟨order,by decide +kernel,before,called,by decide +kernel⟩,by decide +kernel⟩

end ToolDialogue.Arithmetic
