import ToolDialogue.Proofs.Arithmetic.Closing
import ToolDialogue.Proofs.Arithmetic.Evaluation

namespace ToolDialogue.Arithmetic

variable {α : Type} {ops : Numbers α} {operators text inner : List Char} {level : Nat} {v : α}

-- The texts of the grammar with their values: sums of products (level 0), products of
-- powers (1), powers of operands (2) and operands (3). A chain grows at its right end,
-- so it is worth what its operations give from left to right.
inductive Reads (ops : Numbers α) : Nat → List Char → α → Prop where
  | number {digits : List Char} (unsigned : isDecimal digits = true ∨ isReserved digits = true) :
      Reads ops 3 digits (ops.read digits)
  | minus {digits : List Char} (unsigned : isDecimal digits = true ∨ isReserved digits = true) :
      Reads ops 3 ('-' :: digits) (ops.neg (ops.read digits))
  | group {inner : List Char} {v : α} (within : Reads ops 0 inner v) :
      Reads ops 3 ('(' :: (inner ++ [')'])) v
  | negated {inner : List Char} {v : α} (within : Reads ops 0 inner v) :
      Reads ops 3 ('-' :: '(' :: (inner ++ [')'])) (ops.neg v)
  | single {level : Nat} {text : List Char} {v : α} (loose : level < 3)
      (tighter : Reads ops (level+1) text v) : Reads ops level text v
  | chain {level : Nat} {operation : Operation} {front back : List Char} {l r : α}
      (same : operation.level = level) (before : Reads ops level front l)
      (behind : Reads ops (level+1) back r)
      (defined : operation = .div → ops.isZero r = false) :
      Reads ops level (front ++ operation.sign :: back) (operation.apply ops l r)

theorem numeral_of_unsigned {digits : List Char}
    (unsigned : isDecimal digits = true ∨ isReserved digits = true) :
    isNumeral digits = true ∧ ops.value digits = ops.read digits := by
  have bare : ∀ rest, digits ≠ '-' :: rest := by
    rintro rest rfl
    exact isPart_apart ((isPart_of_unsigned unsigned).2 '-' List.mem_cons_self) (by decide)
  constructor
  · unfold isNumeral
    split
    · exact absurd rfl (bare _)
    · simpa using unsigned
  · unfold Numbers.value
    split
    · exact absurd rfl (bare _)
    · rfl

theorem applyOperator_ok {operation : Operation} {l r : α} :
    applyOperator ops operation.sign l r = .ok v ↔
      (operation = .div → ops.isZero r = false) ∧ operation.apply ops l r = v := by
  rw [Expression.applyOperator_sign]
  by_cases zero : operation = .div ∧ ops.isZero r = true
  · obtain ⟨rfl,zero⟩ := zero
    simp [zero]
  · rw [if_neg (by simpa using zero)]
    simp_all

namespace Reads

theorem loosen (more : Nat) (all : level + more = 3) (reads : Reads ops 3 text v) :
    Reads ops level text v := by
  induction more generalizing level with
  | zero => cases (all : level = 3); exact reads
  | succ more ih => exact .single (by omega) (ih (by omega))

theorem tree (reads : Reads ops level text v) :
    ∃ t : Expression, t.CallFree ∧ level ≤ t.level ∧ t.text = text ∧ t.outcome ops = .ok v := by
  induction reads with
  | @number digits unsigned =>
    obtain ⟨reads,value⟩ : isNumeral digits = true ∧ ops.value digits = ops.read digits :=
      numeral_of_unsigned unsigned
    exact ⟨.numeral digits reads,fun _ => rfl,Nat.le_refl _,rfl,congrArg Except.ok value⟩
  | @minus digits unsigned =>
    have reads : isNumeral ('-' :: digits) = true := by simpa [isNumeral] using unsigned
    exact ⟨.numeral _ reads,fun _ => rfl,Nat.le_refl _,rfl,rfl⟩
  | group within ih =>
    obtain ⟨t,free,_,rfl,worth⟩ := ih
    exact ⟨.group t,free,Nat.le_refl _,rfl,worth⟩
  | negated within ih =>
    obtain ⟨t,free,_,rfl,worth⟩ := ih
    refine ⟨.negated t,free,Nat.le_refl _,rfl,?_⟩
    unfold Expression.outcome at worth ⊢
    rw [Expression.dividesByZero,Expression.value]
    split at worth
    · cases worth
    · next nonzero => cases worth; exact if_neg nonzero
  | single loose tighter ih =>
    obtain ⟨t,free,least,same,worth⟩ := ih
    exact ⟨t,free,Nat.le_of_succ_le least,same,worth⟩
  | @chain level operation front back l r same before behind defined ihl ihr =>
    obtain ⟨left,freel,leastl,rfl,worthl⟩ := ihl
    obtain ⟨right,freer,leastr,rfl,worthr⟩ := ihr
    subst same
    refine ⟨.binary operation left right,?_,Nat.le_refl _,?_,?_⟩
    · intro function
      exact Bool.or_eq_false_iff.mpr ⟨freel function,freer function⟩
    · rw [Expression.text_binary,Expression.held_of_tight leastl,Expression.held_of_tight leastr]
    · rw [← Expression.outcome_binary,worthl,worthr]
      exact applyOperator_ok.mpr ⟨defined,rfl⟩

end Reads

theorem closeFrom_split {depth : Nat} {held rest : List Char}
    (closed : closeFrom depth held text = some (inner,rest)) :
    ∃ back, inner = held.reverse ++ back ∧ text = back ++ ')' :: rest ∧ openAfter depth back = some 0 := by
  induction text generalizing depth held with
  | nil => cases closed
  | cons c more ih =>
    have further {next : Nat} (stepped : openStep depth c = some next)
        (on : closeFrom next (c :: held) more = some (inner,rest)) :
        ∃ back, inner = held.reverse ++ back ∧ c :: more = back ++ ')' :: rest ∧ openAfter depth back = some 0 := by
      obtain ⟨back,rfl,rfl,closes⟩ := ih on
      exact ⟨c :: back,by simp,rfl,by rw [openAfter_cons,stepped]; exact closes⟩
    rw [closeFrom] at closed
    split at closed
    · next closing =>
      subst closing
      split at closed
      · next last =>
        cases closed
        exact ⟨[],by simp,rfl,by rw [last]; rfl⟩
      · next deeper => exact further (if_neg deeper) closed
    · next other =>
      split at closed
      · next opening => exact further (if_pos opening) closed
      · next plain => exact further (openStep_plain (by simp [isParenthesis,plain,other])) closed

theorem enclosed?_nested (enclosed : enclosed? text = some inner) :
    text = '(' :: (inner ++ [')']) ∧ ∃ n, Nested n inner := by
  unfold enclosed? at enclosed
  split at enclosed
  · split at enclosed
    · next found =>
      cases enclosed
      obtain ⟨back,rfl,rfl,closes⟩ := closeFrom_split found
      exact ⟨rfl,nested_of_openAfter closes⟩
    · cases enclosed
  · cases enclosed

theorem enclosed?_split (enclosed : enclosed? text = some inner) : text = '(' :: (inner ++ [')']) :=
  (enclosed?_nested enclosed).1

def Sides.whole (sides : Sides) : List Char :=
  sides.first ++ sides.rest.flatMap fun (operator,side) => operator :: side

theorem grow_whole (read : List (Char × Bool)) (sides : Sides) :
    (read.foldl Sides.grow sides).whole = (read.map (·.1)).reverse ++ sides.whole := by
  induction read generalizing sides with
  | nil => rfl
  | cons mark more ih =>
    obtain ⟨c,separates⟩ := mark
    rw [List.foldl_cons,ih]
    cases separates <;> simp [Sides.grow,Sides.whole]

theorem grow_operators (read : List (Char × Bool)) (sides : Sides)
    (marked : ∀ c, (c,true) ∈ read → c ∈ operators) (listed : ∀ side ∈ sides.rest, side.1 ∈ operators) :
    ∀ side ∈ (read.foldl Sides.grow sides).rest, side.1 ∈ operators := by
  induction read generalizing sides with
  | nil => exact listed
  | cons mark more ih =>
    obtain ⟨c,separates⟩ := mark
    refine ih _ (fun other member => marked other (List.mem_cons_of_mem _ member)) ?_
    cases separates with
    | false => exact listed
    | true =>
      intro side member
      rcases List.mem_cons.mp member with rfl | old
      · exact marked c List.mem_cons_self
      · exact listed side old

theorem walk_reads (walk : Walk) (text : List Char) :
    (text.foldl (Walk.step operators) walk).read.map (·.1) = text.reverse ++ walk.read.map (·.1) := by
  induction text generalizing walk with
  | nil => rfl
  | cons c more ih => rw [List.foldl_cons,ih]; simp [Walk.step]

theorem walk_marks (walk : Walk) (text : List Char) (marked : ∀ c, (c,true) ∈ walk.read → c ∈ operators) :
    ∀ c, (c,true) ∈ (text.foldl (Walk.step operators) walk).read → c ∈ operators := by
  induction text generalizing walk with
  | nil => exact marked
  | cons c more ih =>
    refine ih _ ?_
    intro other member
    rcases List.mem_cons.mp member with new | old
    · obtain ⟨rfl,separates⟩ := Prod.mk.inj new
      simp only [Bool.true_eq,Bool.and_eq_true,List.contains_eq_mem,decide_eq_true_eq] at separates
      exact separates.1.2
    · exact marked other old

theorem sidesOf_whole (operators text : List Char) : (sidesOf operators text).whole = text := by
  rw [sidesOf,grow_whole,walk_reads]
  simp [Sides.whole]

theorem sidesOf_operators (operators text : List Char) :
    ∀ side ∈ (sidesOf operators text).rest, side.1 ∈ operators :=
  grow_operators _ _ (walk_marks _ _ (by simp)) (by simp)

theorem operation_of_operator (at_ : precedence[level]? = some operators) {c : Char}
    (listed : c ∈ operators) : ∃ operation : Operation, operation.sign = c ∧ operation.level = level := by
  have spelled : ∃ operation : Operation, operation.sign = c := by
    have known := List.mem_of_getElem? at_
    by_contra none
    refine not_operator known ?_ listed
    intro member
    simp only [List.mem_cons,List.not_mem_nil,or_false] at member
    rcases member with rfl | rfl | rfl | rfl | rfl
    · exact none ⟨.add,rfl⟩
    · exact none ⟨.sub,rfl⟩
    · exact none ⟨.mul,rfl⟩
    · exact none ⟨.div,rfl⟩
    · exact none ⟨.pow,rfl⟩
  obtain ⟨operation,rfl⟩ := spelled
  exact ⟨operation,rfl,(sign_operator at_).mp listed⟩

theorem bind_ok {ε β γ : Type} {first : Except ε β} {next : β → Except ε γ} {result : γ} :
    first >>= next = .ok result ↔ ∃ value, first = .ok value ∧ next value = .ok result := by
  cases first <;> simp [bind,Except.bind]

theorem map_ok {ε β γ : Type} {first : Except ε β} {f : β → γ} {result : γ} :
    f <$> first = .ok result ↔ ∃ value, first = .ok value ∧ f value = result := by
  cases first <;> simp

theorem sideValue_ok {evaluate : List Char → Except Error α} {whole side : List Char}
    (valued : sideValue evaluate whole side = .ok v) : evaluate side = .ok v := by
  unfold sideValue at valued
  split at valued
  · cases valued
  · exact valued

theorem reads_numeral (reads : isNumeral text = true) : Reads ops 3 text (ops.value text) := by
  unfold isNumeral at reads
  split at reads
  · exact .minus (by simpa using reads)
  · have unsigned : isDecimal text = true ∨ isReserved text = true := by simpa using reads
    rw [(numeral_of_unsigned unsigned).2]
    exact .number unsigned

section Sound

variable {group tighter : List Char → Except Error α}

theorem operand_reads (grouped : ∀ inner v, group inner = .ok v → Reads ops 0 inner v)
    (valued : operand ops group text = .ok v) : Reads ops 3 text v := by
  unfold operand at valued
  split at valued
  · next reads =>
    cases valued
    exact reads_numeral reads
  · split at valued
    · split at valued
      · next inner enclosed =>
        rw [enclosed?_split enclosed]
        cases worth : group inner with
        | error => simp [worth] at valued
        | ok value =>
          rw [worth] at valued
          cases valued
          exact .negated (grouped inner value worth)
      · cases valued
    · cases valued

theorem chain_reads (at_ : precedence[level]? = some operators)
    (tight : ∀ side v, tighter side = .ok v → Reads ops (level+1) side v) (whole : List Char)
    (rest : List (Char × List Char)) (listed : ∀ side ∈ rest, side.1 ∈ operators) {front : List Char}
    {l : α} (before : Reads ops level front l)
    (valued : rest.foldlM (fun left (operator,side) => do
      let right ← sideValue tighter whole side
      applyOperator ops operator left right) l = .ok v) :
    Reads ops level (front ++ rest.flatMap fun (operator,side) => operator :: side) v := by
  induction rest generalizing front l with
  | nil => cases valued; simpa using before
  | cons entry rest ih =>
    obtain ⟨c,side⟩ := entry
    obtain ⟨operation,rfl,same⟩ := operation_of_operator at_ (listed _ List.mem_cons_self)
    rw [List.foldlM_cons] at valued
    obtain ⟨next,stepped,valued⟩ := bind_ok.mp valued
    obtain ⟨r,behind,applied⟩ := bind_ok.mp stepped
    obtain ⟨defined,rfl⟩ := applyOperator_ok.mp applied
    have more := ih (fun other member => listed other (List.mem_cons_of_mem _ member))
      (.chain same before (tight _ _ (sideValue_ok behind)) defined) valued
    simpa using more

theorem levelValue_reads (grouped : ∀ inner v, group inner = .ok v → Reads ops 0 inner v)
    (more : Nat) (all : level + more = 3)
    (valued : levelValue ops group (precedence.drop level) text = .ok v) : Reads ops level text v := by
  induction more generalizing level text v with
  | zero =>
    cases (all : level = 3)
    have bare : precedence.drop 3 = [] := rfl
    rw [bare] at valued
    unfold levelValue at valued
    split at valued
    · next inner enclosed =>
      rw [enclosed?_split enclosed]
      exact .group (grouped _ _ valued)
    · split at valued
      · cases valued
      · exact operand_reads grouped valued
  | succ more ih =>
    have listed : level < precedence.length := by
      have three : precedence.length = 3 := rfl
      omega
    have at_ : precedence[level]? = some precedence[level] := List.getElem?_eq_getElem listed
    rw [List.drop_eq_getElem_cons listed] at valued
    unfold levelValue at valued
    split at valued
    · next inner enclosed =>
      rw [enclosed?_split enclosed]
      exact (Reads.group (grouped _ _ valued)).loosen (more+1) all
    · split at valued
      · cases valued
      · dsimp only at valued
        split at valued
        · exact .single (by omega) (ih (by omega) valued)
        · obtain ⟨l,first,valued⟩ := bind_ok.mp valued
          have before : Reads ops level (sidesOf precedence[level] text).first l :=
            .single (by omega) (ih (by omega) (sideValue_ok first))
          have whole := chain_reads at_ (fun side v worth => ih (by omega) worth) text _
            (sidesOf_operators _ text) before valued
          have joined := sidesOf_whole precedence[level] text
          rw [Sides.whole] at joined
          rwa [joined] at whole

theorem arithmeticWithin_reads (levels : Nat) (valued : arithmeticWithin ops levels text = .ok v) :
    Reads ops 0 text v := by
  induction levels generalizing text v with
  | zero => cases valued
  | succ levels ih => exact levelValue_reads (fun inner v worth => ih worth) 3 rfl valued

end Sound

theorem arithmetic_ok : arithmetic ops text = .ok v ↔ Reads ops 0 text v := by
  constructor
  · exact arithmeticWithin_reads _
  · intro reads
    obtain ⟨t,free,_,rfl,worth⟩ := reads.tree
    exact (t.arithmetic_text free).trans worth

theorem Reads.unique {w : α} (one : Reads ops 0 text v) (other : Reads ops 0 text w) : v = w :=
  Except.ok.inj ((arithmetic_ok.mpr one).symm.trans (arithmetic_ok.mpr other))

theorem Reads.checkBalanced_iff (reads : Reads ops 0 text v) :
    checkBalanced text = .ok () ↔ nesting text ≤ maxNesting := by
  obtain ⟨t,_,_,rfl,_⟩ := reads.tree
  rw [t.nesting_text]
  exact t.nested_text.checkBalanced_iff

def Uncalled (text : List Char) : Prop := ∀ function : Function, ¬function.letters ++ ['('] <:+: text

theorem read_uncalled {function : Function} (uncalled : ¬function.letters ++ ['('] <:+: text)
    (front rest : List Char) (all : front ++ rest = text) :
    rest.foldl (Reader.step function.letters) ⟨0,front.reverse,[]⟩ = ⟨0,text.reverse,[]⟩ := by
  induction rest generalizing front with
  | nil => rw [← all,List.append_nil]; rfl
  | cons c rest ih =>
    have apart : c = '(' → ¬function.letters.reverse.isPrefixOf front.reverse = true := by
      rintro rfl named
      rw [List.isPrefixOf_iff_prefix,List.reverse_prefix] at named
      obtain ⟨others,rfl⟩ := named
      exact uncalled ⟨others,rest,by rw [← all]; simp⟩
    rw [List.foldl_cons,step_push rfl apart]
    simpa [Reader.push] using ih (front ++ [c]) (by simpa using all)

theorem expandCalls_uncalled {function : Function} (uncalled : ¬function.letters ++ ['('] <:+: text)
    (evaluate : List Char → Except Error α) : expandCalls ops evaluate function text = .ok text := by
  have read := read_uncalled uncalled [] text rfl
  rw [expandCalls_output (by rw [List.reverse_nil] at read; rw [read]),← List.reverse_nil,read]
  simp only [Reader.output,gathered,Piece.written,List.reverse_reverse]
  rfl

theorem expandAll_uncalled (uncalled : Uncalled text) (evaluate : List Char → Except Error α) :
    expandAll ops evaluate text = .ok text := by
  have passes (functions : List Function) :
      functions.foldlM (fun text function => expandCalls ops evaluate function text) text = .ok text := by
    induction functions with
    | nil => rfl
    | cons function more ih =>
      rw [List.foldlM_cons,expandCalls_uncalled (uncalled function)]
      exact ih
  exact passes callOrder

-- A text without calls has a value exactly when the grammar reads it, with its
-- parentheses no deeper than allowed, and then that value.
theorem evaluatePrepared_uncalled (uncalled : Uncalled text) (v : α) :
    evaluatePrepared ops text = .ok v ↔ Reads ops 0 text v ∧ nesting text ≤ maxNesting := by
  have opened : evaluatePrepared ops text = (do checkBalanced text; arithmetic ops text) := by
    rw [evaluatePrepared,evaluateWithin,expandAll_uncalled uncalled]
    rfl
  rw [opened]
  constructor
  · intro valued
    obtain ⟨_,passed,valued⟩ := bind_ok.mp valued
    have reads := arithmetic_ok.mp valued
    exact ⟨reads,reads.checkBalanced_iff.mp passed⟩
  · rintro ⟨reads,shallow⟩
    rw [reads.checkBalanced_iff.mpr shallow]
    exact arithmetic_ok.mpr reads

theorem evaluatePrepared_uncalled_difference :
    Uncalled "2-(3-1)*-4".toList ∧ Reads integers 0 "2-(3-1)*-4".toList 10 ∧
      evaluatePrepared integers "2-(3-1)*-4".toList = .ok 10 := by
  have spelled : "2-(3-1)*-4".toList = ['2','-','(','3','-','1',')','*','-','4'] := by decide
  rw [spelled]
  have uncalled : Uncalled ['2','-','(','3','-','1',')','*','-','4'] := by
    intro function
    cases function <;> decide
  have digit (n level more : Nat) (all : level + more = 3) : Reads integers level (Nat.toDigits 10 n) n := by
    have reads : Reads integers 3 (Nat.toDigits 10 n) (integers.read (Nat.toDigits 10 n)) :=
      .number (.inl (isDecimal_decimal n))
    rw [read_decimal] at reads
    exact reads.loosen more all
  have group : Reads integers 1 ['(','3','-','1',')'] 2 :=
    (Reads.group (.chain rfl (digit 3 0 3 rfl) (digit 1 1 2 rfl) (by decide) :
      Reads integers 0 (['3'] ++ Operation.sub.sign :: ['1']) (3 - 1))).loosen 2 rfl
  have negative : Reads integers 2 ['-','4'] (-4) :=
    (Reads.minus (.inl (isDecimal_decimal 4)) : Reads integers 3 ['-','4'] (-4)).loosen 1 rfl
  have product : Reads integers 1 ['(','3','-','1',')','*','-','4'] (-8) :=
    (.chain rfl group negative (by decide) :
      Reads integers 1 (['(','3','-','1',')'] ++ Operation.mul.sign :: ['-','4']) (2 * -4))
  have whole : Reads integers 0 ['2','-','(','3','-','1',')','*','-','4'] 10 :=
    (.chain rfl (digit 2 0 3 rfl) product (by decide) :
      Reads integers 0 (['2'] ++ Operation.sub.sign :: _) (2 - -8))
  exact ⟨uncalled,whole,(evaluatePrepared_uncalled uncalled 10).mpr ⟨whole,by decide⟩⟩

end ToolDialogue.Arithmetic
