import Mathlib.Data.List.Infix
import ToolDialogue.Proofs.Arithmetic.Doubles
import ToolDialogue.Proofs.Arithmetic.Recursion

namespace ToolDialogue.Arithmetic

def Error.ofParentheses : Error → Bool
  | .unmatchedParenthesis _ => true
  | .unmatchedCall _ => true
  | .tooLong => true
  | .tooDeep => true
  | _ => false

def Error.isTooComplex : Error → Bool
  | .tooLong => true
  | .tooDeep => true
  | _ => false

variable {α : Type} {ops : Numbers α} {group : List Char → Except Error α} {n depth count levels : Nat}
  {text : List Char} {c : Char} {rest : List Char} {error : Error}

section Arithmetic

theorem applyOperator_error {operator : Char} {l r : α} (failed : applyOperator ops operator l r = .error error) :
    error = .divisionByZero := by
  unfold applyOperator at failed
  split at failed
  · cases failed
  split at failed
  · cases failed
  split at failed
  · cases failed
  split at failed
  · split at failed
    · exact (Except.error.inj failed).symm
    · cases failed
  · cases failed

theorem foldlM_error {β ι : Type} {f : β → ι → Except Error β} {items : List ι} {start : β}
    (failed : items.foldlM f start = .error error) : ∃ left, ∃ item ∈ items, f left item = .error error := by
  induction items generalizing start with
  | nil => cases failed
  | cons item more ih =>
    rw [List.foldlM_cons] at failed
    cases stepped : f start item with
    | error e =>
      rw [stepped] at failed
      exact ⟨start,item,List.mem_cons_self,stepped.trans failed⟩
    | ok next =>
      rw [stepped] at failed
      obtain ⟨left,other,member,stuck⟩ := ih failed
      exact ⟨left,other,List.mem_cons_of_mem _ member,stuck⟩

theorem sideValue_error {evaluate : List Char → Except Error α} {whole side : List Char}
    (sound : evaluate side = .error error → error.ofParentheses = false)
    (failed : sideValue evaluate whole side = .error error) : error.ofParentheses = false := by
  unfold sideValue at failed
  split at failed
  · cases failed
    rfl
  · exact sound failed

variable (grouped : ∀ m inner error, m < n → Nested m inner → group inner = .error error → error.ofParentheses = false)
include grouped

theorem operand_error (shallow : Shallow n text) (failed : operand ops group text = .error error) :
    error.ofParentheses = false := by
  unfold operand at failed
  split at failed
  · cases failed
  split at failed
  · next rest =>
    split at failed
    · next inner enclosed =>
      rw [Shallow,openWithin_cons,withinStep_plain (by decide),Option.bind_some] at shallow
      obtain ⟨m,less,nested⟩ := Shallow.enclosed? shallow enclosed
      cases worth : group inner with
      | ok v => rw [worth] at failed; cases failed
      | error e =>
        rw [worth] at failed
        cases failed
        exact grouped m inner _ less nested worth
    · cases failed
      rfl
  · cases failed
    rfl

theorem levelValue_error {operators : List (List Char)} (known : ∀ level ∈ operators, level ∈ precedence)
    (shallow : Shallow n text) (failed : levelValue ops group operators text = .error error) :
    error.ofParentheses = false := by
  induction operators generalizing text error with
  | nil =>
    unfold levelValue at failed
    split at failed
    · next inner enclosed =>
      obtain ⟨m,less,nested⟩ := shallow.enclosed? enclosed
      exact grouped m inner _ less nested failed
    · split at failed
      · cases failed
        rfl
      · exact operand_error grouped shallow failed
  | cons level tighter ih =>
    obtain ⟨here,later⟩ := List.forall_mem_cons.mp known
    obtain ⟨first,others⟩ := shallow.sidesOf here
    unfold levelValue at failed
    split at failed
    · next inner enclosed =>
      obtain ⟨m,less,nested⟩ := shallow.enclosed? enclosed
      exact grouped m inner _ less nested failed
    split at failed
    · cases failed
      rfl
    dsimp only at failed
    split at failed
    · exact ih later shallow failed
    cases start : sideValue (levelValue ops group tighter) text (sidesOf level text).first with
    | error e =>
      rw [start] at failed
      cases failed
      exact sideValue_error (ih later first) start
    | ok l =>
      rw [start] at failed
      obtain ⟨left,⟨operator,side⟩,member,stuck⟩ := foldlM_error failed
      cases right : sideValue (levelValue ops group tighter) text side with
      | error e =>
        rw [right] at stuck
        cases stuck
        exact sideValue_error (ih later (others _ member)) right
      | ok r =>
        rw [right] at stuck
        rw [applyOperator_error stuck]
        rfl

end Arithmetic

theorem arithmeticWithin_error (shallow : Shallow n text) (room : n < levels)
    (failed : arithmeticWithin ops levels text = .error error) : error.ofParentheses = false := by
  induction levels generalizing n text error with
  | zero => exact absurd room (Nat.not_lt_zero n)
  | succ levels ih =>
    refine levelValue_error ?_ (fun _ listed => listed) shallow failed
    intro m inner e less nested stuck
    exact ih nested.shallow (by omega) stuck

-- Once the parentheses of a text have been checked, no evaluation that it leads to blames them.
theorem evaluateWithin_checked (prints : ops.PrintsNumerals) (nested : Nested n text) (shallow : n ≤ maxNesting)
    (room : n < levels) (failed : evaluateWithin ops levels text = .error error) : error.ofParentheses = false := by
  induction levels generalizing n text with
  | zero => exact absurd room (Nat.not_lt_zero n)
  | succ levels ih =>
    rcases evaluateWithin_error prints nested shallow failed with
      ⟨function,rfl⟩ | ⟨inner,needs,stuck⟩ | ⟨out,within,stuck⟩
    · rfl
    · obtain ⟨m,less,own⟩ := needs.nested prints.flat nested
      exact ih own (by omega) (by omega) stuck
    · obtain ⟨m,-,own⟩ := within.nested
      refine arithmeticWithin_error own.shallow ?_ stuck
      rw [own.nesting_eq]
      exact Nat.lt_succ_self m

def Reaches (depth count : Nat) (text : List Char) : Prop :=
  ∃ front, front <+: text ∧ openAfter depth front = some count

instance (depth count : Nat) (text : List Char) : Decidable (Reaches depth count text) :=
  decidable_of_iff (∃ front ∈ text.inits, openAfter depth front = some count) (by simp only [List.mem_inits,Reaches])

-- A parenthesis is closed that is not open before too many are open, or it never comes to so many
-- and some are left open.
def Unmatched (depth : Nat) (text : List Char) : Prop :=
  (∃ front, front ++ [')'] <+: text ∧ openAfter depth front = some 0 ∧ ¬Reaches depth (maxNesting+1) front) ∨
    ¬Reaches depth (maxNesting+1) text ∧ ∃ left, openAfter depth text = some (left+1)

section Scan

theorem reaches_nil : Reaches depth count [] ↔ depth = count := by
  constructor
  · rintro ⟨front,upper,counted⟩
    rw [List.prefix_nil.mp upper] at counted
    exact Option.some.inj counted
  · rintro rfl
    exact ⟨[],List.prefix_rfl,rfl⟩

theorem reaches_cons : Reaches depth count (c :: rest) ↔
    depth = count ∨ ∃ next, openStep depth c = some next ∧ Reaches next count rest := by
  constructor
  · rintro ⟨front,upper,counted⟩
    cases front with
    | nil => exact .inl (Option.some.inj counted)
    | cons first more =>
      obtain ⟨rfl,behind⟩ := List.cons_prefix_cons.mp upper
      rw [openAfter_cons] at counted
      obtain ⟨next,stepped,on⟩ := Option.bind_eq_some_iff.mp counted
      exact .inr ⟨next,stepped,more,behind,on⟩
  · rintro (rfl | ⟨next,stepped,front,upper,counted⟩)
    · exact ⟨[],List.nil_prefix,rfl⟩
    · exact ⟨c :: front,List.cons_prefix_cons.mpr ⟨rfl,upper⟩,by rw [openAfter_cons,stepped]; exact counted⟩

theorem unmatched_nil (below : depth ≠ maxNesting+1) : Unmatched depth [] ↔ depth ≠ 0 := by
  constructor
  · rintro (⟨front,upper,-⟩ | ⟨-,left,counted⟩)
    · exact absurd (List.prefix_nil.mp upper) (by simp)
    · rw [Option.some.inj counted]
      exact Nat.succ_ne_zero left
  · intro open_
    exact .inr ⟨by rw [reaches_nil]; exact below,depth-1,by rw [Nat.sub_add_cancel (Nat.pos_of_ne_zero open_)]; rfl⟩

theorem unmatched_cons (below : depth ≠ maxNesting+1) : Unmatched depth (c :: rest) ↔
    c = ')' ∧ depth = 0 ∨ ∃ next, openStep depth c = some next ∧ Unmatched next rest := by
  constructor
  · rintro (⟨front,upper,counted,never⟩ | ⟨never,left,counted⟩)
    · cases front with
      | nil => exact .inl ⟨(List.cons_prefix_cons.mp upper).1.symm,Option.some.inj counted⟩
      | cons first more =>
        obtain ⟨rfl,behind⟩ := List.cons_prefix_cons.mp upper
        rw [openAfter_cons] at counted
        obtain ⟨next,stepped,on⟩ := Option.bind_eq_some_iff.mp counted
        rw [reaches_cons] at never
        exact .inr ⟨next,stepped,.inl ⟨more,behind,on,fun later => never (.inr ⟨next,stepped,later⟩)⟩⟩
    · rw [openAfter_cons] at counted
      obtain ⟨next,stepped,on⟩ := Option.bind_eq_some_iff.mp counted
      rw [reaches_cons] at never
      exact .inr ⟨next,stepped,.inr ⟨fun later => never (.inr ⟨next,stepped,later⟩),left,on⟩⟩
  · have still (next : Nat) (stepped : openStep depth c = some next) (text : List Char)
        (never : ¬Reaches next (maxNesting+1) text) : ¬Reaches depth (maxNesting+1) (c :: text) := by
      rw [reaches_cons]
      rintro (here | ⟨other,again,later⟩)
      · exact below here
      · rw [stepped] at again
        cases again
        exact never later
    rintro (⟨rfl,rfl⟩ | ⟨next,stepped,⟨front,upper,counted,never⟩ | ⟨never,left,counted⟩⟩)
    · exact .inl ⟨[],by simp,rfl,by rw [reaches_nil]; exact below⟩
    · refine .inl ⟨c :: front,List.cons_prefix_cons.mpr ⟨rfl,upper⟩,?_,still next stepped front never⟩
      rw [openAfter_cons,stepped]
      exact counted
    · refine .inr ⟨still next stepped rest never,left,?_⟩
      rw [openAfter_cons,stepped]
      exact counted

theorem reaches_here (depth : Nat) (text : List Char) : Reaches depth depth text := ⟨[],List.nil_prefix,rfl⟩

theorem not_unmatched_full (text : List Char) : ¬Unmatched (maxNesting+1) text := by
  rintro (⟨front,-,-,never⟩ | ⟨never,-⟩)
  · exact never (reaches_here _ front)
  · exact never (reaches_here _ text)

theorem balanceFrom_tooDeep_iff (within : depth ≤ maxNesting) :
    balanceFrom depth text = .tooDeep ↔ Reaches depth (maxNesting+1) text := by
  have below : depth ≠ maxNesting+1 := by omega
  induction text generalizing depth with
  | nil =>
    rw [reaches_nil,balanceFrom]
    by_cases closed : depth = 0 <;> simp [closed,below]
  | cons c rest ih =>
    rw [balanceFrom_step within,reaches_cons]
    cases stepped : openStep depth c with
    | none => simp [below]
    | some next =>
      by_cases full : next = maxNesting+1
      · subst full
        simp [reaches_here]
      · have room : next ≤ maxNesting := by
          have least := openStep_le stepped
          omega
        simp [full,below,ih room full]

theorem balanceFrom_unmatched_iff (within : depth ≤ maxNesting) :
    balanceFrom depth text = .unmatched ↔ Unmatched depth text := by
  have below : depth ≠ maxNesting+1 := by omega
  induction text generalizing depth with
  | nil =>
    rw [unmatched_nil below,balanceFrom]
    by_cases closed : depth = 0 <;> simp [closed]
  | cons c rest ih =>
    rw [balanceFrom_step within,unmatched_cons below,← openStep_none]
    cases stepped : openStep depth c with
    | none => simp
    | some next =>
      by_cases full : next = maxNesting+1
      · subst full
        simp [not_unmatched_full]
      · have room : next ≤ maxNesting := by
          have least := openStep_le stepped
          omega
        simp [full,ih room full]

end Scan

section Constants

theorem balanceFrom_filter (depth : Nat) (text : List Char) :
    balanceFrom depth (text.filter isParenthesis) = balanceFrom depth text := by
  induction text generalizing depth with
  | nil => rfl
  | cons c rest ih =>
    rw [List.filter_cons]
    split
    · rw [balanceFrom,balanceFrom,ih,ih,ih]
    · next plain =>
      simp only [isParenthesis,Bool.or_eq_true,beq_iff_eq,not_or] at plain
      rw [ih,balanceFrom,if_neg plain.1,if_neg plain.2]

theorem balance_substituteConstants (text : List Char) : balance (substituteConstants text) = balance text := by
  rw [balance,← balanceFrom_filter,filter_substituteConstants,balanceFrom_filter]
  rfl

theorem reaches_substituteConstants :
    Reaches 0 (maxNesting+1) (substituteConstants text) ↔ Reaches 0 (maxNesting+1) text := by
  have same := balance_substituteConstants text
  rw [balance,balance] at same
  rw [← balanceFrom_tooDeep_iff (Nat.zero_le _),same,balanceFrom_tooDeep_iff (Nat.zero_le _)]

theorem unmatched_substituteConstants : Unmatched 0 (substituteConstants text) ↔ Unmatched 0 text := by
  have same := balance_substituteConstants text
  rw [balance,balance] at same
  rw [← balanceFrom_unmatched_iff (Nat.zero_le _),same,balanceFrom_unmatched_iff (Nat.zero_le _)]

end Constants

inductive Judged (ops : Numbers α) (text : List Char) : Prop where
  | tooDeep (reaches : Reaches 0 (maxNesting+1) text) (matched : ¬Unmatched 0 text)
      (stopped : ∀ levels, evaluateWithin ops (levels+1) text = .error .tooDeep)
  | unmatched (shallow : ¬Reaches 0 (maxNesting+1) text) (unmatched : Unmatched 0 text)
      (stopped : ∀ levels, evaluateWithin ops (levels+1) text = .error (.unmatchedParenthesis text))
  | passed {n : Nat} (shallow : ¬Reaches 0 (maxNesting+1) text) (matched : ¬Unmatched 0 text)
      (within : n ≤ maxNesting) (nested : Nested n text)

theorem judged (ops : Numbers α) (text : List Char) : Judged ops text := by
  have reaches : balance text = .tooDeep ↔ Reaches 0 (maxNesting+1) text := balanceFrom_tooDeep_iff (Nat.zero_le _)
  have unmatched : balance text = .unmatched ↔ Unmatched 0 text := balanceFrom_unmatched_iff (Nat.zero_le _)
  have stopped {error : Error} (stuck : checkBalanced text = .error error) (levels : Nat) :
      evaluateWithin ops (levels+1) text = .error error := by
    rw [evaluateWithin,stuck]
    rfl
  cases scanned : balance text with
  | tooDeep =>
    rw [scanned] at reaches unmatched
    exact .tooDeep (reaches.mp rfl) (unmatched.not.mp (by simp)) (stopped (by rw [checkBalanced,scanned]))
  | unmatched =>
    rw [scanned] at reaches unmatched
    exact .unmatched (reaches.not.mp (by simp)) (unmatched.mp rfl) (stopped (by rw [checkBalanced,scanned]))
  | balanced =>
    rw [scanned] at reaches unmatched
    have passed : checkBalanced text = .ok () := by rw [checkBalanced,scanned]
    obtain ⟨n,within,nested⟩ := checkBalanced_nested passed
    exact .passed (reaches.not.mp (by simp)) (unmatched.not.mp (by simp)) within nested

-- What parentheses have to do with errors: they are judged as they are typed, before
-- anything else, and nothing that follows finds fault with them.
structure ParenthesesFirst (ops : Numbers α) (expression : String) : Prop where
  tooComplex : compact expression ≠ [] → Fits expression →
    ((∃ error, Arithmetic.evaluate ops expression = .error error ∧ error.isTooComplex = true) ↔
      Reaches 0 (maxNesting+1) (compact expression))
  unmatched : compact expression ≠ [] → Fits expression → ∀ shown,
    Arithmetic.evaluate ops expression = .error (.unmatchedParenthesis shown) ↔
      Unmatched 0 (compact expression) ∧ shown = substituteConstants (compact expression)
  otherwise : compact expression ≠ [] → Fits expression → ¬Reaches 0 (maxNesting+1) (compact expression) →
    ¬Unmatched 0 (compact expression) → ∀ levels inner error,
    Runs ops (maxNesting+1) (substituteConstants (compact expression)) levels inner →
    evaluateWithin ops levels inner = .error error → error.ofParentheses = false
  closed : ∀ function, Arithmetic.evaluate ops expression ≠ .error (.unmatchedCall function)

theorem parenthesesFirst (prints : ops.PrintsNumerals) (expression : String) : ParenthesesFirst ops expression := by
  have blameless {n levels : Nat} {inner : List Char} {error : Error} (within : n ≤ maxNesting)
      (nested : Nested n (substituteConstants (compact expression)))
      (runs : Runs ops (maxNesting+1) (substituteConstants (compact expression)) levels inner)
      (failed : evaluateWithin ops levels inner = .error error) : error.ofParentheses = false := by
    obtain ⟨m,bound,room,own⟩ := runs.nested prints nested (by omega)
    exact evaluateWithin_checked prints own (by omega) room failed
  refine ⟨fun filled fits => ?_,fun filled fits shown => ?_,fun filled fits below matched levels inner error => ?_,
    fun function failed => ?_⟩
  · rw [evaluate_of_fits filled fits,← reaches_substituteConstants]
    cases judged ops (substituteConstants (compact expression)) with
    | tooDeep reaches _ stopped => exact iff_of_true ⟨_,stopped _,rfl⟩ reaches
    | unmatched below _ stopped =>
      refine iff_of_false ?_ below
      rintro ⟨error,failed,complex⟩
      rw [stopped] at failed
      cases failed
      cases complex
    | passed below _ within nested =>
      refine iff_of_false ?_ below
      rintro ⟨error,failed,complex⟩
      have other := blameless within nested .here failed
      cases error <;> simp_all [Error.isTooComplex,Error.ofParentheses]
  · rw [evaluate_of_fits filled fits,← unmatched_substituteConstants]
    cases judged ops (substituteConstants (compact expression)) with
    | tooDeep _ matched stopped => simp [stopped,matched]
    | unmatched _ unmatched stopped => simp [stopped,unmatched,eq_comm]
    | passed _ matched within nested =>
      refine iff_of_false ?_ fun both => matched both.1
      intro failed
      cases blameless within nested .here failed
  · rw [← reaches_substituteConstants] at below
    rw [← unmatched_substituteConstants] at matched
    cases judged ops (substituteConstants (compact expression)) with
    | tooDeep reaches => exact absurd reaches below
    | unmatched _ unmatched => exact absurd unmatched matched
    | passed _ _ within nested => exact blameless within nested
  · rw [Arithmetic.evaluate,evaluateText] at failed
    split at failed
    · cases failed
    split at failed
    · cases failed
    change evaluateWithin ops (maxNesting+1) (substituteConstants (compact expression)) = _ at failed
    cases judged ops (substituteConstants (compact expression)) with
    | tooDeep _ _ stopped => rw [stopped] at failed; cases failed
    | unmatched _ _ stopped => rw [stopped] at failed; cases failed
    | passed _ _ within nested => cases blameless within nested .here failed

theorem doubles_parentheses_first (expression : String) : ParenthesesFirst doubles expression :=
  parenthesesFirst doubles_prints expression

theorem doubles_parentheses_first_open :
    Arithmetic.evaluate doubles "2*(pi" = .error (.unmatchedParenthesis "2*(3.141592653589793".toList) ∧
      ∃ error, Arithmetic.evaluate doubles (String.ofList (List.replicate 65 '(')) = .error error ∧
        error.isTooComplex = true := by
  constructor
  · refine ((doubles_parentheses_first "2*(pi").unmatched (by decide) (by decide) _).mpr ⟨?_,by decide +kernel⟩
    exact .inr ⟨by decide +kernel,0,by decide⟩
  · exact ((doubles_parentheses_first _).tooComplex (by decide +kernel) (by decide +kernel)).mpr (by decide +kernel)

end ToolDialogue.Arithmetic
