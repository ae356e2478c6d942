import ToolDialogue.Proofs.Arithmetic.Expression

namespace ToolDialogue.Arithmetic

variable {α : Type} {ops : Numbers α} {operators : List Char}

theorem not_operator (known : operators ∈ precedence) {c : Char} (plain : c ∉ ['+','-','*','/','^']) :
    c ∉ operators := by
  simp only [precedence,List.mem_cons,List.not_mem_nil,or_false] at known
  rcases known with rfl | rfl | rfl <;> simp_all

theorem sign_operator {operation : Operation} {level : Nat} (at_ : precedence[level]? = some operators) :
    operation.sign ∈ operators ↔ operation.level = level := by
  obtain _ | _ | _ | level := level
  · cases at_; cases operation <;> decide
  · cases at_; cases operation <;> decide
  · cases at_; cases operation <;> decide
  · simp [precedence] at at_

-- Behind such a character a minus separates.
def Ends (c : Char) : Prop := isSign (some c) '-' = false

theorem ends_of_part {c : Char} (part : isPart c = true) : Ends c := by
  have apart := isPart_apart part
  simp only [Ends,isSign,List.contains_eq_mem]
  simp_all

def Passes (operators : List Char) (before : Option Char) (text : List Char) : Prop :=
  ∀ read, ∃ last, Ends last ∧ text.foldl (Walk.step operators) ⟨0,before,read⟩ =
    ⟨0,some last,text.reverse.map (·,false) ++ read⟩

theorem passes_cons {before : Option Char} {c : Char} {text : List Char}
    (step : ∀ read, Walk.step operators ⟨0,before,read⟩ c = ⟨0,some c,(c,false) :: read⟩)
    (on : Passes operators (some c) text) : Passes operators before (c :: text) := by
  intro read
  obtain ⟨last,ends,walked⟩ := on ((c,false) :: read)
  exact ⟨last,ends,by rw [List.foldl_cons,step,walked]; simp⟩

theorem walk_plain {before : Option Char} {c : Char} (plain : c ∉ operators)
    (opening : c ≠ '(') (closing : c ≠ ')') (read : List (Char × Bool)) :
    Walk.step operators ⟨0,before,read⟩ c = ⟨0,some c,(c,false) :: read⟩ := by
  simp [Walk.step,plain,opening,closing]

theorem walk_sign {before : Option Char} (opens : isSign before '-' = true) (read : List (Char × Bool)) :
    Walk.step operators ⟨0,before,read⟩ '-' = ⟨0,some '-',('-',false) :: read⟩ := by
  simp [Walk.step,opens]

theorem passes_parts (known : operators ∈ precedence) {before : Option Char} {digits : List Char}
    (filled : digits ≠ []) (parts : ∀ c ∈ digits, isPart c = true) :
    Passes operators before digits := by
  induction digits generalizing before with
  | nil => exact absurd rfl filled
  | cons c rest ih =>
    have part := parts c List.mem_cons_self
    have apart := isPart_apart part
    have step (read : List (Char × Bool)) :
        Walk.step operators ⟨0,before,read⟩ c = ⟨0,some c,(c,false) :: read⟩ :=
      walk_plain (not_operator known (by simp_all)) (by simp_all) (by simp_all) read
    by_cases last : rest = []
    · subst last
      exact fun read => ⟨c,ends_of_part part,by rw [List.foldl_cons,step]; rfl⟩
    · exact passes_cons step (ih last fun other member => parts other (List.mem_cons_of_mem _ member))

theorem passes_numeral (known : operators ∈ precedence) {before : Option Char}
    (opens : isSign before '-' = true) {text : List Char} (reads : isNumeral text = true) :
    Passes operators before text := by
  obtain ⟨digits,rfl | rfl,filled,parts⟩ := numeral_parts reads
  · exact passes_parts known filled parts
  · exact passes_cons (walk_sign opens) (passes_parts known filled parts)

theorem passes_bracket (known : operators ∈ precedence) {before : Option Char} {n : Nat}
    {inner : List Char} (nested : Nested n inner) :
    Passes operators before ('(' :: (inner ++ [')'])) := by
  intro read
  have open_ : '(' ∉ operators := not_operator known (by decide)
  have close : ')' ∉ operators := not_operator known (by decide)
  obtain ⟨last,walked⟩ := nested.walk_within operators 0 (some '(') (('(',false) :: read)
  refine ⟨')',rfl,?_⟩
  have opened : Walk.step operators ⟨0,before,read⟩ '(' = ⟨0+1,some '(',('(',false) :: read⟩ := by
    simp [Walk.step,open_]
  rw [List.foldl_cons,opened,List.foldl_append,walked]
  simp [Walk.step,close]

theorem Passes.apart {before : Option Char} {front back : List Char} {operation : Operation}
    (first : Passes operators before front) (other : operation.sign ∉ operators)
    (second : Passes operators (some operation.sign) back) :
    Passes operators before (front ++ operation.sign :: back) := by
  intro read
  obtain ⟨last,-,walked⟩ := first read
  obtain ⟨stop,ends,rest⟩ := second ((operation.sign,false) :: (front.reverse.map (·,false) ++ read))
  refine ⟨stop,ends,?_⟩
  have plain : operation.sign ≠ '(' ∧ operation.sign ≠ ')' := by cases operation <;> decide
  rw [List.foldl_append,walked,List.foldl_cons,walk_plain other plain.1 plain.2]
  simpa using rest

namespace Expression

variable {t left right : Expression} {operation : Operation}

theorem level_lt (operation : Operation) : operation.level < 3 := by cases operation <;> decide

theorem passes_text {level : Nat} (at_ : precedence[level]? = some operators) (t : Expression)
    (free : t.CallFree) {before : Option Char} (opens : isSign before '-' = true)
    (tight : level < t.level) :
    Passes operators before t.text := by
  have known : operators ∈ precedence := List.mem_of_getElem? at_
  unfold text
  induction t generalizing before with
  | numeral text reads => exact passes_numeral known opens reads
  | constant which => exact passes_numeral known opens which.reads
  | binary operation left right ihl ihr =>
    simp only [Expression.level] at tight
    have side {t : Expression} (least : Nat) (lower : level < least)
        (on : ∀ {before}, isSign before '-' = true → level < t.level →
          Passes operators before (t.print Constant.numeral)) {before : Option Char}
        (opens : isSign before '-' = true) :
        Passes operators before ((t.held least).print Constant.numeral) := by
      cases Nat.lt_or_ge t.level least with
      | inl loose => rw [held_of_loose loose]; exact passes_bracket known t.nested_text
      | inr tight => rw [held_of_tight tight]; exact on opens (by omega)
    have other : operation.sign ∉ operators := by
      rw [sign_operator at_]
      omega
    have open_ : isSign (some operation.sign) '-' = true := by cases operation <;> rfl
    rw [print_binary]
    exact (side operation.level tight (ihl free.sides.1) opens).apart other
      (side (operation.level+1) (by omega) (ihr free.sides.2) open_)
  | group inner => exact passes_bracket known inner.nested_text
  | negated inner => exact passes_cons (walk_sign opens) (passes_bracket known inner.nested_text)
  | call => exact absurd free not_callFree_call
  | power => exact absurd free not_callFree_power

theorem text_ne_nil (t : Expression) : t.text ≠ [] := by
  unfold text
  cases t with
  | numeral text reads => exact numeral_ne_nil reads
  | constant which => exact numeral_ne_nil which.reads
  | binary => rw [print_binary]; simp
  | _ => simp [print]

def sidesValue (ops : Numbers α) (evaluate : List Char → Except Error α) (whole : List Char)
    (sides : Sides) : Except Error α := do
  let first ← sideValue evaluate whole sides.first
  sides.rest.foldlM (fun left (operator,side) => do
    let right ← sideValue evaluate whole side
    applyOperator ops operator left right) first

theorem sideValue_text (evaluate : List Char → Except Error α) (whole : List Char) (t : Expression) :
    sideValue evaluate whole t.text = evaluate t.text := if_neg t.text_ne_nil

theorem applyOperator_sign (operation : Operation) (l r : α) : applyOperator ops operation.sign l r =
    if operation == .div && ops.isZero r then .error .divisionByZero else .ok (operation.apply ops l r) := by
  cases operation <;> rfl

theorem outcome_binary : (do
    let l ← left.outcome ops
    let r ← right.outcome ops
    applyOperator ops operation.sign l r) = (binary operation left right).outcome ops := by
  by_cases before : left.dividesByZero ops = true
  · rw [outcome_of_zero before,outcome_of_zero (t := binary operation left right)
      (by simp [dividesByZero,before])]; rfl
  by_cases behind : right.dividesByZero ops = true
  · rw [outcome_of_nonzero before,outcome_of_zero behind,
      outcome_of_zero (t := binary operation left right) (by simp [dividesByZero,behind])]; rfl
  · rw [outcome_of_nonzero before,outcome_of_nonzero behind,outcome]
    simp only [bind,Except.bind,applyOperator_sign,dividesByZero,value]
    simp [before,behind]

theorem outcome_held (least : Nat) : (t.held least).outcome ops = t.outcome ops := by
  rw [outcome,outcome,value_held,dividesByZero_held]

theorem grow_passed (text : List Char) (sides : Sides) :
    (text.reverse.map (·,false)).foldl Sides.grow sides = ⟨text ++ sides.first,sides.rest⟩ := by
  induction text generalizing sides with
  | nil => rfl
  | cons c rest ih => rw [List.reverse_cons,List.map_append,List.foldl_append,ih]; rfl

theorem grow_behind (read : List (Char × Bool)) (sides : Sides) (behind : List (Char × List Char)) :
    read.foldl Sides.grow ⟨sides.first,sides.rest ++ behind⟩ =
      ⟨(read.foldl Sides.grow sides).first,(read.foldl Sides.grow sides).rest ++ behind⟩ := by
  induction read generalizing sides with
  | nil => rfl
  | cons mark rest ih =>
    obtain ⟨c,separates⟩ := mark
    cases separates with
    | false => exact ih ⟨c :: sides.first,sides.rest⟩
    | true => exact ih ⟨[],(c,sides.first) :: sides.rest⟩

theorem sidesOf_passed {text : List Char} (passes : Passes operators none text) :
    sidesOf operators text = ⟨text,[]⟩ := by
  obtain ⟨last,-,walked⟩ := passes []
  rw [sidesOf,walked,List.append_nil,grow_passed,List.append_nil]

theorem sidesOf_append {level : Nat} (at_ : precedence[level]? = some operators)
    (same : operation.level = level) {front back : List Char}
    (before : ∃ last read, Ends last ∧
      front.foldl (Walk.step operators) ⟨0,none,[]⟩ = ⟨0,some last,read⟩)
    (behind : Passes operators (some operation.sign) back) :
    sidesOf operators (front ++ operation.sign :: back) =
        ⟨(sidesOf operators front).first,(sidesOf operators front).rest ++ [(operation.sign,back)]⟩ ∧
      ∃ last read, Ends last ∧ (front ++ operation.sign :: back).foldl (Walk.step operators) ⟨0,none,[]⟩ =
        ⟨0,some last,read⟩ := by
  obtain ⟨last,read,ends,walked⟩ := before
  have listed : operation.sign ∈ operators := (sign_operator at_).mpr same
  have step : Walk.step operators ⟨0,some last,read⟩ operation.sign =
      ⟨0,some operation.sign,(operation.sign,true) :: read⟩ := by
    have unsigned : isSign (some last) operation.sign = false := by
      cases operation with
      | sub => exact ends
      | _ => rfl
    have plain : operation.sign ≠ '(' ∧ operation.sign ≠ ')' := by cases operation <;> decide
    simp [Walk.step,listed,unsigned,plain]
  obtain ⟨stop,closes,rest⟩ := behind ((operation.sign,true) :: read)
  have whole : (front ++ operation.sign :: back).foldl (Walk.step operators) ⟨0,none,[]⟩ =
      ⟨0,some stop,back.reverse.map (·,false) ++ (operation.sign,true) :: read⟩ := by
    rw [List.foldl_append,walked,List.foldl_cons,step,rest]
  refine ⟨?_,stop,_,closes,whole⟩
  rw [sidesOf,whole,List.foldl_append,grow_passed,List.foldl_cons,sidesOf,walked]
  simp only [List.append_nil]
  exact grow_behind read ⟨[],[]⟩ [(operation.sign,back)]

theorem sidesValue_append (evaluate : List Char → Except Error α) (whole : List Char) (sides : Sides)
    (operator : Char) (side : List Char) :
    sidesValue ops evaluate whole ⟨sides.first,sides.rest ++ [(operator,side)]⟩ = (do
      let l ← sidesValue ops evaluate whole sides
      let r ← sideValue evaluate whole side
      applyOperator ops operator l r) := by
  simp [sidesValue,List.foldlM_append]

structure Chained (ops : Numbers α) (operators : List Char) (tighter : List Char → Except Error α)
    (t : Expression) : Prop where
  walked : ∃ last read, Ends last ∧ t.text.foldl (Walk.step operators) ⟨0,none,[]⟩ = ⟨0,some last,read⟩
  worth : ∀ whole, sidesValue ops tighter whole (sidesOf operators t.text) = t.outcome ops

section Chain

variable {level bound : Nat} {tighter : List Char → Except Error α}

theorem chained_of_tighter (at_ : precedence[level]? = some operators)
    (tight : tighter t.text = t.outcome ops) (free : t.CallFree) (higher : level < t.level) :
    Chained ops operators tighter t := by
  have passes : Passes operators none t.text := passes_text at_ t free rfl higher
  obtain ⟨last,ends,walked⟩ := passes []
  refine ⟨⟨last,_,ends,walked⟩,fun whole => ?_⟩
  rw [sidesOf_passed passes,sidesValue,sideValue_text,tight]
  cases t.outcome ops <;> rfl

theorem chained_binary (at_ : precedence[level]? = some operators) (same : operation.level = level)
    (before : Chained ops operators tighter (left.held operation.level))
    (behind : tighter (right.held (operation.level+1)).text = right.outcome ops)
    (free : right.CallFree) :
    Chained ops operators tighter (binary operation left right) ∧
      (sidesOf operators (binary operation left right).text).rest ≠ [] := by
  have low := level_lt operation
  have higher : level < (right.held (operation.level+1)).level := by
    have least := level_held (t := right) (operation.level+1) low
    omega
  have passes : Passes operators (some operation.sign) (right.held (operation.level+1)).text :=
    passes_text at_ _ (free.held _) (by cases operation <;> rfl) higher
  obtain ⟨sides,walked⟩ := sidesOf_append at_ same before.walked passes
  rw [← text_binary] at sides walked
  refine ⟨⟨walked,fun whole => ?_⟩,by rw [sides]; simp⟩
  rw [sides,sidesValue_append,before.worth,outcome_held,sideValue_text,behind,outcome_binary]

theorem chained (at_ : precedence[level]? = some operators)
    (tight : ∀ t : Expression, t.CallFree → level < t.level → t.depth ≤ bound →
      tighter t.text = t.outcome ops)
    (t : Expression) (free : t.CallFree) (least : level ≤ t.level) (shallow : t.depth ≤ bound) :
    Chained ops operators tighter t ∧ (t.level = level → (sidesOf operators t.text).rest ≠ []) := by
  have listed : level < 3 := (List.getElem?_eq_some_iff.mp at_).1
  by_cases higher : level < t.level
  · exact ⟨chained_of_tighter at_ (tight t free higher shallow) free higher,fun same => by omega⟩
  have same : t.level = level := by omega
  induction t with
  | binary operation left right ihl ihr =>
    simp only [Expression.level] at same
    have deep := depth_binary ▸ shallow
    have before : Chained ops operators tighter (left.held operation.level) := by
      cases Nat.lt_or_ge left.level operation.level with
      | inl loose =>
        rw [held_of_loose loose] at deep ⊢
        exact chained_of_tighter at_ (tight _ free.sides.1 listed (by omega)) free.sides.1 listed
      | inr near =>
        rw [held_of_tight near] at deep ⊢
        by_cases higher : level < left.level
        · exact chained_of_tighter at_ (tight left free.sides.1 higher (by omega)) free.sides.1 higher
        · exact (ihl free.sides.1 (by omega) (by omega) higher (by omega)).1
    have behind : tighter (right.held (operation.level+1)).text = right.outcome ops := by
      have least := level_held (t := right) (operation.level+1) (level_lt operation)
      rw [← outcome_held (operation.level+1)]
      exact tight _ (free.sides.2.held _) (by omega) (by omega)
    have both := chained_binary at_ same before behind free.sides.2
    exact ⟨both.1,fun _ => both.2⟩
  | _ => exact absurd listed higher

end Chain

theorem enclosed?_numeral {text : List Char} (reads : isNumeral text = true) : enclosed? text = none := by
  have other : text.head? ≠ some '(' := fun starts => numeral_unopened reads (List.mem_of_head? starts)
  unfold enclosed?
  split
  · exact absurd rfl other
  · rfl

theorem enclosed?_text (t : Expression) (free : t.CallFree) (other : ∀ inner, t ≠ .group inner) :
    enclosed? t.text = none := by
  cases t with
  | numeral text reads => exact enclosed?_numeral reads
  | constant which => exact enclosed?_numeral which.reads
  | binary operation left right =>
    rw [text_binary]
    exact (left.held operation.level).nested_text.enclosed?_append (text_ne_nil _) (by simp)
  | group inner => exact absurd rfl (other inner)
  | negated inner => rfl
  | call => exact absurd free not_callFree_call
  | power => exact absurd free not_callFree_power

theorem enclosed?_of_group (inner : Expression) : enclosed? (group inner).text = some inner.text :=
  inner.nested_text.enclosed?_group

theorem isNumeral_bracket (text : List Char) : isNumeral ('-' :: '(' :: text) = false := by
  simp [isNumeral,isDecimal,isReserved]

theorem operand_text {group : List Char → Except Error α} (t : Expression) (free : t.CallFree)
    (least : 3 ≤ t.level) (other : ∀ inner, t ≠ .group inner)
    (grouped : ∀ inner, t = .negated inner → group inner.text = inner.outcome ops) :
    operand ops group t.text = t.outcome ops := by
  cases t with
  | numeral text reads => exact if_pos reads
  | constant which => exact if_pos which.reads
  | binary operation =>
    have := level_lt operation
    simp only [Expression.level] at least
    omega
  | group inner => exact absurd rfl (other inner)
  | negated inner =>
    have spelled : (negated inner).text = '-' :: '(' :: (inner.text ++ [')']) := rfl
    have enclosed : enclosed? ('(' :: (inner.text ++ [')'])) = some inner.text := enclosed?_of_group inner
    rw [spelled,operand,isNumeral_bracket,if_neg (by decide)]
    simp only [enclosed,grouped inner rfl]
    unfold outcome
    rw [dividesByZero,value]
    split <;> rfl
  | call => exact absurd free not_callFree_call
  | power => exact absurd free not_callFree_power

theorem levelValue_group (group : List Char → Except Error α) (levels : List (List Char))
    (inner : Expression) : levelValue ops group levels (Expression.group inner).text = group inner.text := by
  unfold levelValue
  simp only [enclosed?_of_group]

-- The value of a text whose groups are evaluated as their trees are, over the levels
-- that remain.
theorem levelValue_text {group : List Char → Except Error α} {bound : Nat}
    (grouped : ∀ t : Expression, t.CallFree → t.depth < bound → group t.text = t.outcome ops)
    (more level : Nat) (all : level + more = 3) (t : Expression) (free : t.CallFree)
    (least : level ≤ t.level) (shallow : t.depth ≤ bound) :
    levelValue ops group (precedence.drop level) t.text = t.outcome ops := by
  induction more generalizing level t with
  | zero =>
    cases (all : level = 3)
    by_cases other : ∀ inner, t ≠ .group inner
    · have bare : precedence.drop 3 = [] := rfl
      rw [bare]
      unfold levelValue
      simp only [enclosed?_text t free other,if_neg t.text_ne_nil]
      refine operand_text t free least other fun inner same => ?_
      subst same
      exact grouped inner free (Nat.lt_of_succ_le shallow)
    · simp only [not_forall,not_not] at other
      obtain ⟨inner,rfl⟩ := other
      rw [levelValue_group]
      exact grouped inner free (Nat.lt_of_succ_le shallow)
  | succ more ih =>
    have listed : level < precedence.length := by
      have three : precedence.length = 3 := rfl
      omega
    have at_ : precedence[level]? = some precedence[level] := List.getElem?_eq_getElem listed
    by_cases other : ∀ inner, t ≠ .group inner
    · have tight (t : Expression) (free : t.CallFree) (higher : level < t.level) (shallow : t.depth ≤ bound) :=
        ih (level+1) (by omega) t free higher shallow
      have chain := chained at_ tight t free least shallow
      rw [List.drop_eq_getElem_cons listed]
      unfold levelValue
      simp only [enclosed?_text t free other,if_neg t.text_ne_nil]
      split
      · next alone =>
        have higher : level < t.level := by
          by_contra loose
          exact chain.2 (by omega) alone
        exact tight t free higher shallow
      · exact chain.1.worth t.text
    · simp only [not_forall,not_not] at other
      obtain ⟨inner,rfl⟩ := other
      rw [levelValue_group]
      exact grouped inner free (Nat.lt_of_succ_le shallow)

theorem arithmeticWithin_text (levels : Nat) (t : Expression) (free : t.CallFree)
    (shallow : t.depth < levels) : arithmeticWithin ops levels t.text = t.outcome ops := by
  induction levels generalizing t with
  | zero => omega
  | succ levels ih =>
    rw [arithmeticWithin]
    exact levelValue_text (fun inner free deeper => ih inner free deeper) 3 0 rfl t free (Nat.zero_le _)
      (Nat.le_of_lt_succ shallow)

theorem arithmetic_text (t : Expression) (free : t.CallFree) : arithmetic ops t.text = t.outcome ops := by
  rw [arithmetic,t.nesting_text]
  exact arithmeticWithin_text _ t free (Nat.lt_succ_self _)

end Expression

end ToolDialogue.Arithmetic
