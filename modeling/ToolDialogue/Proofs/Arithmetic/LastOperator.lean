import ToolDialogue.Proofs.Arithmetic.Grammar

namespace ToolDialogue.Arithmetic

variable {α : Type} {ops : Numbers α} {operators text left right inner : List Char} {depth : Nat}
  {before : Option Char} {c : Char} {level : Nat} {v : α}

def depthBehind (depth : Nat) (c : Char) : Nat :=
  if c = '(' then depth + 1 else if c = ')' then depth - 1 else depth

-- What stands before the last operator outside parentheses, the operator, and what stands
-- behind it. A sign is no operator.
def lastSplitFrom (operators : List Char) : Nat → Option Char → List Char →
    Option (List Char × Char × List Char)
  | _,_,[] => none
  | depth,before,c :: rest =>
    match lastSplitFrom operators (depthBehind depth c) (some c) rest with
    | some (front,operator,back) => some (c :: front,operator,back)
    | none =>
      if depth = 0 ∧ c ∈ operators ∧ isSign before c = false then some ([],c,rest) else none

def lastSplit? (operators text : List Char) : Option (List Char × Char × List Char) :=
  lastSplitFrom operators 0 none text

def negatedGroup? : List Char → Option (List Char)
  | '-' :: rest => enclosed? rest
  | _ => none

theorem lastSplitFrom_whole (found : lastSplitFrom operators depth before text = some (left,c,right)) :
    text = left ++ c :: right := by
  induction text generalizing depth before left with
  | nil => cases found
  | cons first rest ih =>
    rw [lastSplitFrom] at found
    split at found
    · next further =>
      cases found
      rw [ih further,List.cons_append]
    · split at found
      · cases found
        rfl
      · cases found

theorem enclosed?_shorter (enclosed : enclosed? text = some inner) : inner.length < text.length := by
  rw [enclosed?_split enclosed]
  simp only [List.length_cons,List.length_append]
  omega

theorem negatedGroup?_split (negated : negatedGroup? text = some inner) :
    text = '-' :: '(' :: (inner ++ [')']) := by
  unfold negatedGroup? at negated
  split at negated
  · rw [enclosed?_split negated]
  · cases negated

theorem negatedGroup?_shorter (negated : negatedGroup? text = some inner) :
    inner.length < text.length := by
  rw [negatedGroup?_split negated]
  simp only [List.length_cons,List.length_append]
  omega

theorem findSplit_shorter {levels : List (List Char)}
    (found : levels.findSome? (lastSplit? · text) = some (left,c,right)) :
    left.length < text.length ∧ right.length < text.length := by
  obtain ⟨operators,_,split⟩ := List.exists_of_findSome?_eq_some found
  rw [lastSplitFrom_whole split]
  simp only [List.length_append,List.length_cons]
  omega

-- The value by the last operator: pairs of parentheses around the whole text go, then the
-- text is taken apart at the last operator of the loosest level that it has, and each of
-- the two sides is read anew.
def lastOperatorValue (ops : Numbers α) (text : List Char) : Except Error α :=
  match _ : enclosed? text with
  | some inner => lastOperatorValue ops inner
  | none =>
    if text = [] then .error (.missingOperand text)
    else match _ : precedence.findSome? (lastSplit? · text) with
      | some (left,operator,right) => do
        let l ← lastOperatorValue ops left
        let r ← lastOperatorValue ops right
        applyOperator ops operator l r
      | none =>
        if isNumeral text then .ok (ops.value text)
        else match _ : negatedGroup? text with
          | some inner => ops.neg <$> lastOperatorValue ops inner
          | none => .error (.invalidNumber text)
termination_by text.length
decreasing_by
  · exact enclosed?_shorter ‹_›
  · exact (findSplit_shorter ‹_›).1
  · exact (findSplit_shorter ‹_›).2
  · exact negatedGroup?_shorter ‹_›

theorem lastSplitFrom_append (front rest : List Char) :
    lastSplitFrom operators depth before (front ++ rest) =
      ((lastSplitFrom operators (front.foldl depthBehind depth) (front.getLast?.or before) rest).map
        fun (between,c,back) => (front ++ between,c,back)).or
      ((lastSplitFrom operators depth before front).map fun (between,c,back) => (between,c,back ++ rest)) := by
  induction front generalizing depth before with
  | nil =>
    cases lastSplitFrom operators depth before rest <;> simp [lastSplitFrom]
  | cons c front ih =>
    have last : (c :: front).getLast?.or before = front.getLast?.or (some c) := by
      rw [List.getLast?_cons]
      cases front.getLast? <;> rfl
    rw [List.cons_append,lastSplitFrom,lastSplitFrom,ih,last,List.foldl_cons]
    cases lastSplitFrom operators (front.foldl depthBehind (depthBehind depth c)) (front.getLast?.or (some c)) rest with
    | some further => rfl
    | none =>
      cases lastSplitFrom operators (depthBehind depth c) (some c) front with
      | some further => rfl
      | none =>
        simp only [Option.map_none,Option.or_none]
        split <;> rfl

theorem depthBehind_operator (known : operators ∈ precedence) (listed : c ∈ operators) :
    depthBehind depth c = depth := by
  have opening : c ≠ '(' := by
    rintro rfl
    exact not_operator known (by decide) listed
  have closing : c ≠ ')' := by
    rintro rfl
    exact not_operator known (by decide) listed
  rw [depthBehind,if_neg opening,if_neg closing]

theorem lastSplitFrom_start (known : operators ∈ precedence) (listed : c ∈ operators) (text : List Char) :
    ∀ others, lastSplitFrom others 0 (some c) text = lastSplit? others text := by
  intro others
  cases text with
  | nil => rfl
  | cons first rest =>
    have same : isSign (some c) first = isSign none first := by
      have spelled : c ∈ ['+','-','*','/','^','('] := by
        by_contra plain
        refine not_operator known ?_ listed
        intro member
        exact plain (by simp_all)
      simp only [isSign,List.contains_eq_mem,decide_eq_true spelled]
    rw [lastSplit?,lastSplitFrom,lastSplitFrom,same]

theorem Nested.foldl_depthBehind {n : Nat} (nested : Nested n text) (depth : Nat) :
    text.foldl depthBehind depth = depth := by
  induction nested generalizing depth with
  | nil => rfl
  | char opening closing _ ih => rw [List.foldl_cons,depthBehind,if_neg opening,if_neg closing,ih]
  | group _ _ within on =>
    rw [List.foldl_cons,List.foldl_append,depthBehind,if_pos rfl,within,List.foldl_cons,depthBehind,
      if_neg (by decide),if_pos rfl,Nat.add_sub_cancel,on]

section Walk

variable (walk : Walk)

theorem walk_before : (text.foldl (Walk.step operators) walk).before = text.getLast?.or walk.before := by
  induction text generalizing walk with
  | nil => rfl
  | cons c rest ih =>
    rw [List.foldl_cons,ih,List.getLast?_cons]
    cases rest.getLast? <;> rfl

theorem walk_keeps {mark : Char × Bool} (marked : mark ∈ walk.read) :
    mark ∈ (text.foldl (Walk.step operators) walk).read := by
  induction text generalizing walk with
  | nil => exact marked
  | cons c rest ih => exact ih _ (List.mem_cons_of_mem _ marked)

theorem walk_split (found : lastSplitFrom operators walk.depth walk.before text = some (left,c,right)) :
    (c,true) ∈ (text.foldl (Walk.step operators) walk).read := by
  induction text generalizing walk left with
  | nil => cases found
  | cons first rest ih =>
    rw [lastSplitFrom] at found
    rw [List.foldl_cons]
    split at found
    · next further =>
      cases found
      exact ih (walk.step operators first) further
    · split at found
      · next separates =>
        cases found
        obtain ⟨outside,listed,unsigned⟩ := separates
        apply walk_keeps
        simp [Walk.step,outside,listed,unsigned]
      · cases found

end Walk

theorem Passes.unsplit (passes : Passes operators before text) :
    lastSplitFrom operators 0 before text = none := by
  cases found : lastSplitFrom operators 0 before text with
  | none => rfl
  | some split =>
    obtain ⟨left,c,right⟩ := split
    obtain ⟨last,-,walked⟩ := passes []
    have marked := walk_split ⟨0,before,[]⟩ found
    rw [walked,List.append_nil] at marked
    obtain ⟨other,-,same⟩ := List.mem_map.mp marked
    cases same

namespace Expression

variable {t : Expression}

theorem unsplit (free : t.CallFree) (at_ : precedence[level]? = some operators) (tight : level < t.level) :
    lastSplit? operators t.text = none :=
  (passes_text at_ t free rfl tight).unsplit

theorem findSplit_none (free : t.CallFree) (least : 3 ≤ t.level) :
    precedence.findSome? (lastSplit? · t.text) = none := by
  apply List.findSome?_eq_none_iff.mpr
  intro operators known
  obtain ⟨level,listed,rfl⟩ := List.getElem_of_mem known
  have three : precedence.length = 3 := rfl
  exact unsplit free (List.getElem?_eq_getElem listed) (by omega)

end Expression

theorem lastSplit?_chain {operation : Operation} {front back : List Char} {l r : α}
    (at_ : precedence[operation.level]? = some operators) (reads : Reads ops operation.level front l)
    (behind : Reads ops (operation.level+1) back r) :
    lastSplit? operators (front ++ operation.sign :: back) = some (front,operation.sign,back) := by
  have listed : operation.sign ∈ operators := (sign_operator at_).mpr rfl
  have known : operators ∈ precedence := List.mem_of_getElem? at_
  obtain ⟨first,free,least,rfl,-⟩ := reads.tree
  obtain ⟨second,sole,tight,rfl,-⟩ := behind.tree
  obtain ⟨chained,-⟩ := Expression.chained at_ (fun t free _ _ => (t.arithmetic_text free : arithmetic ops t.text = _))
    first free least (Nat.le_refl _)
  obtain ⟨last,read,ends,walked⟩ := chained.walked
  have final : first.text.getLast?.or none = some last := by
    rw [← walk_before ⟨0,none,[]⟩,walked]
  have unsigned : isSign (some last) operation.sign = false := by
    cases operation with
    | sub => exact ends
    | _ => rfl
  have alone : lastSplitFrom operators 0 (some operation.sign) second.text = none := by
    rw [lastSplitFrom_start known listed]
    exact Expression.unsplit sole at_ tight
  rw [lastSplit?,lastSplitFrom_append,first.nested_text.foldl_depthBehind,final,lastSplitFrom,
    depthBehind_operator known listed,alone]
  simp [listed,unsigned]

theorem findSplit_iff {split : List Char × Char × List Char} :
    precedence.findSome? (lastSplit? · text) = some split ↔
      ∃ (level : Nat) (operators : List Char), precedence[level]? = some operators ∧
        lastSplit? operators text = some split ∧
        ∀ looser < level, ∀ others, precedence[looser]? = some others → lastSplit? others text = none := by
  rw [List.findSome?_eq_some_iff]
  constructor
  · rintro ⟨front,operators,back,whole,found,none⟩
    refine ⟨front.length,operators,?_,found,?_⟩
    · rw [whole,List.getElem?_append_right (Nat.le_refl _),Nat.sub_self]
      rfl
    · intro looser before others listed
      rw [whole,List.getElem?_append_left before] at listed
      exact none others (List.mem_of_getElem? listed)
  · rintro ⟨level,operators,at_,found,none⟩
    obtain ⟨listed,rfl⟩ := List.getElem?_eq_some_iff.mp at_
    refine ⟨precedence.take level,precedence[level],precedence.drop (level+1),?_,found,?_⟩
    · rw [← List.drop_eq_getElem_cons listed,List.take_append_drop]
    · intro others member
      obtain ⟨looser,bound,rfl⟩ := List.getElem_of_mem member
      rw [List.length_take,Nat.lt_min] at bound
      rw [List.getElem_take]
      exact none looser bound.1 _ (List.getElem?_eq_getElem bound.2)

section Value

theorem lastOperatorValue_group (enclosed : enclosed? text = some inner) :
    lastOperatorValue ops text = lastOperatorValue ops inner := by
  rw [lastOperatorValue]
  split
  · next other found =>
    rw [enclosed] at found
    cases found
    rfl
  · next none =>
    rw [enclosed] at none
    cases none

theorem lastOperatorValue_split (bare : enclosed? text = none) (filled : text ≠ [])
    (found : precedence.findSome? (lastSplit? · text) = some (left,c,right)) :
    lastOperatorValue ops text = (do
      let l ← lastOperatorValue ops left
      let r ← lastOperatorValue ops right
      applyOperator ops c l r) := by
  rw [lastOperatorValue]
  split
  · next other enclosed =>
    rw [bare] at enclosed
    cases enclosed
  · rw [if_neg filled]
    split
    · next same =>
      rw [found] at same
      cases same
      rfl
    · next none =>
      rw [found] at none
      cases none

theorem lastOperatorValue_operand (bare : enclosed? text = none) (filled : text ≠ [])
    (unsplit : precedence.findSome? (lastSplit? · text) = none) :
    lastOperatorValue ops text =
      if isNumeral text then .ok (ops.value text)
      else match negatedGroup? text with
        | some inner => ops.neg <$> lastOperatorValue ops inner
        | none => .error (.invalidNumber text) := by
  rw [lastOperatorValue]
  split
  · next other enclosed =>
    rw [bare] at enclosed
    cases enclosed
  · rw [if_neg filled]
    split
    · next same =>
      rw [unsplit] at same
      cases same
    · split
      · rfl
      · split
        · next inner negated => simp only [negated]
        · next none => simp only [none]

theorem lastOperatorValue_numeral (reads : isNumeral text = true) :
    lastOperatorValue ops text = .ok (ops.value text) := by
  have filled : text ≠ [] := (Expression.numeral text reads).text_ne_nil
  have unsplit : precedence.findSome? (lastSplit? · text) = none :=
    Expression.findSplit_none (t := .numeral text reads) (fun _ => rfl) (Nat.le_refl _)
  rw [lastOperatorValue_operand (Expression.enclosed?_numeral reads) filled unsplit,if_pos reads]

end Value

theorem Reads.lastOperatorValue (reads : Reads ops level text v) : lastOperatorValue ops text = .ok v := by
  induction reads with
  | number unsigned =>
    obtain ⟨numeral,value⟩ := numeral_of_unsigned unsigned
    rw [lastOperatorValue_numeral numeral,value]
  | @minus digits unsigned =>
    have numeral : isNumeral ('-' :: digits) = true := by simpa [isNumeral] using unsigned
    rw [lastOperatorValue_numeral numeral]
    rfl
  | @group inner v within ih =>
    obtain ⟨t,free,_,rfl,_⟩ := within.tree
    rw [lastOperatorValue_group t.nested_text.enclosed?_group]
    exact ih
  | @negated inner v within ih =>
    obtain ⟨t,free,_,rfl,_⟩ := within.tree
    have unsplit : precedence.findSome? (lastSplit? · ('-' :: '(' :: (t.text ++ [')']))) = none :=
      Expression.findSplit_none (t := .negated t) free (Nat.le_refl _)
    have negated : negatedGroup? ('-' :: '(' :: (t.text ++ [')'])) = some t.text := t.nested_text.enclosed?_group
    change Arithmetic.lastOperatorValue ops ('-' :: '(' :: (t.text ++ [')'])) = .ok (ops.neg v)
    rw [lastOperatorValue_operand rfl (List.cons_ne_nil _ _) unsplit,Expression.isNumeral_bracket,if_neg (by decide)]
    simp only [negated,ih]
    rfl
  | single loose tighter ih => exact ih
  | @chain level operation front back l r same before behind defined ihl ihr =>
    subst same
    have listed : operation.level < precedence.length := Expression.level_lt operation
    have at_ : precedence[operation.level]? = some precedence[operation.level] :=
      List.getElem?_eq_getElem listed
    have split := lastSplit?_chain at_ before behind
    obtain ⟨t,free,least,same,-⟩ := (Reads.chain rfl before behind defined).tree
    have bare : enclosed? (front ++ operation.sign :: back) = none := by
      obtain ⟨first,_,_,rfl,_⟩ := before.tree
      exact first.nested_text.enclosed?_append first.text_ne_nil (List.cons_ne_nil _ _)
    have looser : ∀ level, level < operation.level → ∀ operators, precedence[level]? = some operators →
        lastSplit? operators (front ++ operation.sign :: back) = none := by
      intro level lower operators listed
      rw [← same]
      exact t.unsplit free listed (Nat.lt_of_lt_of_le lower least)
    have found : precedence.findSome? (lastSplit? · (front ++ operation.sign :: back)) =
        some (front,operation.sign,back) :=
      findSplit_iff.mpr ⟨operation.level,_,at_,split,looser⟩
    rw [lastOperatorValue_split bare (by simp) found,ihl,ihr]
    exact applyOperator_ok.mpr ⟨defined,rfl⟩

end ToolDialogue.Arithmetic
