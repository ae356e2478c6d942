import ToolDialogue.Proofs.Arithmetic.Splicing

namespace ToolDialogue.Arithmetic

variable {α : Type} {ops : Numbers α} {operation : Operation} {text front back number : List Char} {v : α}

structure Unseparated (text : List Char) : Prop where
  filled : text ≠ []
  bare : enclosed? text = none
  passes : ∀ operators ∈ precedence, ∀ before, isSign before '-' = true → Passes operators before text

theorem operand_numeral (reads : isNumeral text = true) (group : List Char → Except Error α) :
    operand ops group text = .ok (ops.value text) := if_pos reads

theorem unseparated_numeral (reads : isNumeral text = true) : Unseparated text where
  filled := numeral_ne_nil reads
  bare := Expression.enclosed?_numeral reads
  passes _ known _ opens := passes_numeral known opens reads

theorem unseparated_minus (reads : isNumeral text = true) : Unseparated ('-' :: text) where
  filled := List.cons_ne_nil '-' text
  bare := rfl
  passes _ known _ opens := passes_cons (walk_sign opens) (passes_numeral known rfl reads)

theorem Unseparated.levelValue_eq (unseparated : Unseparated text) (group : List Char → Except Error α)
    {levels : List (List Char)} (known : ∀ operators ∈ levels, operators ∈ precedence) :
    levelValue ops group levels text = operand ops group text := by
  induction levels with
  | nil =>
    unfold levelValue
    simp only [unseparated.bare,if_neg unseparated.filled]
  | cons operators tighter ih =>
    obtain ⟨here,later⟩ := List.forall_mem_cons.mp known
    have sides := Expression.sidesOf_passed (unseparated.passes operators here none rfl)
    unfold levelValue
    simp only [unseparated.bare,if_neg unseparated.filled,sides,if_true]
    exact ih later

theorem Unseparated.sideValue_eq (unseparated : Unseparated text) (group : List Char → Except Error α)
    (level : Nat) (whole : List Char) :
    sideValue (levelValue ops group (precedence.drop level)) whole text = operand ops group text := by
  rw [sideValue,if_neg unseparated.filled]
  exact unseparated.levelValue_eq group fun _ member => List.mem_of_mem_drop member

theorem Unseparated.arithmetic_eq (unseparated : Unseparated text) :
    arithmetic ops text = operand ops (arithmeticWithin ops (nesting text)) text :=
  unseparated.levelValue_eq _ fun _ known => known

theorem Unseparated.sidesOf_eq (unseparated : Unseparated back) (reads : isNumeral number = true)
    {operators : List Char} {level : Nat} (at_ : precedence[level]? = some operators) :
    sidesOf operators (number ++ operation.sign :: back) =
      if operation.level = level then ⟨number,[(operation.sign,back)]⟩ else ⟨number ++ operation.sign :: back,[]⟩ := by
  have known : operators ∈ precedence := List.mem_of_getElem? at_
  have before : Passes operators none number := passes_numeral known rfl reads
  have behind := unseparated.passes operators known (some operation.sign) (by cases operation <;> rfl)
  split
  · next here =>
    have walked : ∃ last read, Ends last ∧ number.foldl (Walk.step operators) ⟨0,none,[]⟩ = ⟨0,some last,read⟩ := by
      obtain ⟨last,ends,walked⟩ := before []
      exact ⟨last,_,ends,walked⟩
    rw [(Expression.sidesOf_append at_ here walked behind).1,Expression.sidesOf_passed before]
    rfl
  · next elsewhere =>
    have other : operation.sign ∉ operators := mt (sign_operator at_).mp elsewhere
    exact Expression.sidesOf_passed (before.apart other behind)

theorem Unseparated.levelValue_operation (unseparated : Unseparated back) (reads : isNumeral number = true)
    (group : List Char → Except Error α) (more level : Nat) (all : level + more = 3)
    (least : level ≤ operation.level) :
    levelValue ops group (precedence.drop level) (number ++ operation.sign :: back) = (do
      let right ← operand ops group back
      applyOperator ops operation.sign (ops.value number) right) := by
  have bare : enclosed? (number ++ operation.sign :: back) = none :=
    (numeral_flat reads).enclosed?_append (numeral_ne_nil reads) (List.cons_ne_nil _ _)
  have filled : number ++ operation.sign :: back ≠ [] := List.append_ne_nil_of_left_ne_nil (numeral_ne_nil reads) _
  induction more generalizing level with
  | zero =>
    have low := Expression.level_lt operation
    omega
  | succ more ih =>
    have listed : level < precedence.length := by
      have three : precedence.length = 3 := rfl
      omega
    have sides : sidesOf precedence[level] (number ++ operation.sign :: back) = _ :=
      unseparated.sidesOf_eq reads (List.getElem?_eq_getElem listed)
    rw [List.drop_eq_getElem_cons listed]
    unfold levelValue
    simp only [bare,if_neg filled,sides]
    by_cases here : operation.level = level
    · have first (whole : List Char) : sideValue (levelValue ops group (precedence.drop (level+1))) whole number =
          .ok (ops.value number) := by
        rw [(unseparated_numeral reads).sideValue_eq,operand_numeral reads]
      simp only [if_pos here,if_neg (List.cons_ne_nil _ _),first,List.foldlM_cons,List.foldlM_nil,
        unseparated.sideValue_eq group (level+1),bind_pure]
      rfl
    · rw [if_neg here]
      exact ih (level+1) (by omega) (by omega)

-- What a minus in front of a printed value is worth. A value that is printed with a minus
-- leaves two of them, which no numeral has.
def negation (ops : Numbers α) (v : α) : Except Error α :=
  if (ops.print v).head? = some '-' then .error (.invalidNumber ('-' :: ops.print v)) else .ok (ops.neg v)

theorem operand_minus (lawful : ops.Lawful) (group : List Char → Except Error α) (v : α) :
    operand ops group ('-' :: ops.print v) = negation ops v := by
  have reads := lawful.reads v
  have worth := lawful.value_print v
  unfold negation
  generalize ops.print v = printed at reads worth
  unfold isNumeral at reads
  split at reads
  · next rest =>
    have twice : isNumeral ('-' :: '-' :: rest) = false := by simp [isNumeral,isDecimal,isReserved]
    unfold operand
    rw [if_neg (Bool.eq_false_iff.mp twice)]
    rfl
  · next unsigned =>
    have signed : isNumeral ('-' :: printed) = true := reads
    have bare : ¬printed.head? = some '-' := by
      intro starts
      obtain ⟨rest,rfl⟩ := List.head?_eq_some_iff.mp starts
      exact unsigned rest rfl
    have same : ops.value printed = ops.read printed := by
      unfold Numbers.value
      split
      · exact absurd rfl (unsigned _)
      · rfl
    rw [operand_numeral signed,if_neg bare,Numbers.value,← same,worth]

section Passes

variable {evaluate : List Char → Except Error α} {function other : Function} {functions : List Function}
  {n : Nat} {argument out : List Char}

theorem opening_apart (apart : other ≠ function) : ¬other.opening <:+: function.opening := by
  cases other <;> cases function <;> first | exact absurd rfl apart | decide

theorem uncalled_of_flat (flat : '(' ∉ front) (function : Function) : ¬function.opening <:+: front :=
  fun found => flat (found.subset (by simp [Function.opening]))

theorem expandEach_behind (lawful : ops.Lawful) (flat : '(' ∉ front)
    (apart : ∀ function : Function, ∀ c ∈ front.getLast?, c ∉ function.letters) (nested : Nested n text)
    (functions : List Function) : expandEach ops evaluate functions (front ++ text) = (do
      let behind ← expandEach ops evaluate functions text
      pure (front ++ behind)) := by
  induction functions generalizing n text with
  | nil => rfl
  | cons function more ih =>
    have uncalled := uncalled_of_flat flat function
    have parted := parted_of_last (apart function) text
    rw [expandEach_cons,expandEach_cons,expandCalls_append (.plain uncalled) (nested.cut function) parted,
      expandCalls_uncalled uncalled]
    cases expanded : expandCalls ops evaluate function text with
    | error e => rfl
    | ok out =>
      obtain ⟨m,-,still⟩ := nested.expandCalls lawful.prints expanded
      exact ih still

theorem expandEach_flat (flat : '(' ∉ text) (functions : List Function) :
    expandEach ops evaluate functions text = .ok text := by
  induction functions with
  | nil => rfl
  | cons function more ih =>
    rw [expandEach_cons,expandCalls_uncalled (uncalled_of_flat flat function)]
    exact ih

theorem expandCalls_around (apart : other ≠ function) (nested : Nested n argument) :
    expandCalls ops evaluate other (function.opening ++ (argument ++ [')'])) =
      (fun inner => function.opening ++ (inner ++ [')'])) <$> expandCalls ops evaluate other argument := by
  have uncalled := opening_apart apart
  have name : Parted other function.opening (argument ++ [')']) := by
    refine parted_of_last ?_ _
    intro c last
    rw [Function.opening,List.getLast?_concat] at last
    cases last
    exact paren_not_letter other
  have closing : '(' ∉ [')'] := by decide
  have tail : openAfter (0+1) (argument ++ [')']) = some 0 := by
    rw [openAfter_append,nested.openAfter]
    rfl
  rw [expandCalls_append (.plain uncalled) (cut_of_openAfter other tail) name,expandCalls_uncalled uncalled,
    expandCalls_append (nested.cut other) (.plain (uncalled_of_flat closing other)) (parted_of_flat argument closing),
    expandCalls_uncalled (uncalled_of_flat closing other)]
  cases expandCalls ops evaluate other argument <;> rfl

theorem expandCalls_own (nested : Nested n argument) :
    expandCalls ops evaluate function (function.opening ++ (argument ++ [')'])) =
      ops.print <$> callValue ops evaluate function argument := by
  have none : ¬function.opening <:+: [] := mt List.eq_nil_of_infix_nil function.opening_ne_nil
  have pass := @expandCalls_call _ ops evaluate _ _ _ _ none nested []
  rw [List.nil_append,expandCalls_uncalled none] at pass
  rw [pass]
  cases callValue ops evaluate function argument with
  | error e => rfl
  | ok v => exact congrArg Except.ok (List.append_nil (ops.print v))

theorem expandEach_call (lawful : ops.Lawful) (listed : function ∈ functions) (nested : Nested n argument)
    (expanded : expandEach ops evaluate functions (function.opening ++ (argument ++ [')'])) = .ok out) :
    ∃ v, out = ops.print v := by
  induction functions generalizing n argument with
  | nil => cases listed
  | cons other more ih =>
    rw [expandEach_cons] at expanded
    obtain ⟨next,pass,rest⟩ := bind_ok.mp expanded
    by_cases same : other = function
    · subst same
      rw [expandCalls_own nested] at pass
      obtain ⟨v,-,rfl⟩ := map_ok.mp pass
      rw [expandEach_flat (numeral_unopened (lawful.reads v))] at rest
      exact ⟨v,(Except.ok.inj rest).symm⟩
    · rw [expandCalls_around same nested] at pass
      obtain ⟨inner,within,rfl⟩ := map_ok.mp pass
      obtain ⟨m,-,still⟩ := nested.expandCalls lawful.prints within
      exact ih ((List.mem_cons.mp listed).resolve_left (Ne.symm same)) still rest

end Passes

inductive IsCall : List Char → Prop where
  | mk {n : Nat} {function : Function} {argument : List Char} (nested : Nested n argument) :
      IsCall (function.letters ++ '(' :: (argument ++ [')']))

theorem IsCall.nested (call : IsCall text) : ∃ n, Nested n text := by
  cases call with
  | @mk n function argument nested =>
    exact ⟨_,(Nested.flat (letters_plain function)).append nested.enclosed⟩

theorem IsCall.prepared (call : IsCall text) : IsCall (substituteConstants text) := by
  cases call with
  | @mk n function argument nested =>
    have closed : openAfter 0 (substituteConstants argument) = some 0 := by
      rw [openAfter_substituteConstants,nested.openAfter]
    obtain ⟨m,still⟩ := nested_of_openAfter closed
    have name : substituteConstants function.opening = function.opening :=
      ((substituted_letters function).append (.same (by simp))).whole
    have closing : substituteConstants [')'] = [')'] := substituteConstants_same (by simp)
    rw [← function.opening_append,substituteConstants_append (.inl (by simp [Function.opening])),
      substituteConstants_append (.inr (by simp)),name,closing,function.opening_append]
    exact .mk still

theorem arithmetic_print (lawful : ops.Lawful) (v : α) : arithmetic ops (ops.print v) = .ok v := by
  have reads := lawful.reads v
  rw [(unseparated_numeral reads).arithmetic_eq,operand_numeral reads,lawful.value_print]

theorem IsCall.expandAll_print (call : IsCall text) (lawful : ops.Lawful) {levels : Nat}
    (valued : evaluateWithin ops (levels+1) text = .ok v) :
    expandAll ops (evaluateWithin ops levels) text = .ok (ops.print v) := by
  obtain ⟨-,out,expanded,worth⟩ := evaluateWithin_ok.mp valued
  have printed : ∃ w, out = ops.print w := by
    cases call with
    | @mk n function argument nested =>
      rw [← function.opening_append,expandAll_eq] at expanded
      exact expandEach_call lawful (Expression.callOrder_complete function) nested expanded
  obtain ⟨w,rfl⟩ := printed
  rw [arithmetic_print lawful] at worth
  cases worth
  exact expanded

theorem IsCall.evaluateWithin_signed (call : IsCall text) (lawful : ops.Lawful) {levels : Nat}
    (valued : evaluateWithin ops (levels+1) text = .ok v) (flat : ∀ c ∈ front, c ≠ '(' ∧ c ≠ ')') :
    evaluateWithin ops (levels+1) (front ++ '-' :: text) = arithmetic ops (front ++ '-' :: ops.print v) := by
  obtain ⟨n,nested⟩ := call.nested
  have shallow := nested.checkBalanced_iff.mp (evaluateWithin_ok.mp valued).1
  have whole := (Nested.flat flat).append (.char (by decide) (by decide) nested : Nested n ('-' :: text))
  rw [Nat.zero_max] at whole
  have spelled (back : List Char) : front ++ '-' :: back = (front ++ ['-']) ++ back := by simp
  have unopened : '(' ∉ front ++ ['-'] := by
    intro member
    rcases List.mem_append.mp member with early | last
    · exact (flat '(' early).1 rfl
    · exact absurd last (by decide)
  have sign (function : Function) : ∀ c ∈ (front ++ ['-']).getLast?, c ∉ function.letters := by
    intro c last
    rw [List.getLast?_concat] at last
    cases last
    cases function <;> decide
  have expanded := call.expandAll_print lawful valued
  rw [expandAll_eq] at expanded
  rw [evaluateWithin,whole.checkBalanced_iff.mpr shallow,expandAll_eq,spelled text,
    expandEach_behind lawful unopened sign nested,expanded,spelled (ops.print v)]
  rfl

section Signed

variable {c expression : String}

theorem evaluate_signed (lawful : ops.Lawful) (call : IsCall (compact c))
    (valued : evaluate ops c = .ok v) (plain : ∀ x ∈ front, x ∉ ['(',')','p','e'])
    (whole : compact expression = front ++ '-' :: compact c) (fits : Fits expression) :
    evaluate ops expression = arithmetic ops (front ++ '-' :: ops.print v) := by
  have filled : compact expression ≠ [] := by simp [whole]
  have flat : ∀ x ∈ front, x ≠ '(' ∧ x ≠ ')' := by
    intro x member
    have apart := plain x member
    simp_all
  have same : substituteConstants (front ++ ['-']) = front ++ ['-'] := by
    refine substituteConstants_same ?_
    intro x member
    rcases List.mem_append.mp member with early | last
    · have apart := plain x early
      simp_all
    · cases List.mem_singleton.mp last
      decide
  have settled : (front ++ ['-']).getLast? ≠ some 'p' := by simp
  have prepared : substituteConstants (compact expression) =
      front ++ '-' :: substituteConstants (compact c) := by
    rw [whole,List.append_cons,substituteConstants_append (.inl settled),same,← List.append_cons]
  rw [evaluate_of_fits filled fits,prepared]
  exact call.prepared.evaluateWithin_signed lawful (evaluateWithin_of_ok valued) flat

theorem evaluate_minus (lawful : ops.Lawful) (call : IsCall (compact c))
    (valued : evaluate ops c = .ok v) (fits : Fits ("-" ++ c)) :
    evaluate ops ("-" ++ c) = negation ops v := by
  have whole : compact ("-" ++ c) = [] ++ '-' :: compact c := compact_append "-" c
  rw [evaluate_signed lawful call valued (by simp) whole fits,List.nil_append,
    (unseparated_minus (lawful.reads v)).arithmetic_eq,operand_minus lawful]

theorem evaluate_operation (lawful : ops.Lawful) (call : IsCall (compact c))
    (valued : evaluate ops c = .ok v) {number : String} (reads : isNumeral (compact number) = true)
    (operation : Operation) {between : String} (spelled : compact between = [operation.sign,'-'])
    (fits : Fits (number ++ between ++ c)) :
    evaluate ops (number ++ between ++ c) = (do
      let right ← negation ops v
      applyOperator ops operation.sign (ops.value (compact number)) right) := by
  have whole : compact (number ++ between ++ c) = (compact number ++ [operation.sign]) ++ '-' :: compact c := by
    rw [compact_append,compact_append,spelled]
    simp
  have plain : ∀ x ∈ compact number ++ [operation.sign], x ∉ ['(',')','p','e'] := by
    intro x member
    rcases List.mem_append.mp member with digit | sign
    · have apart := numeral_apart reads x digit
      simp_all
    · cases List.mem_singleton.mp sign
      cases operation <;> decide
  rw [evaluate_signed lawful call valued plain whole fits,List.append_assoc,List.singleton_append,
    ← operand_minus lawful (arithmeticWithin ops (nesting (compact number ++ operation.sign :: '-' :: ops.print v)))]
  exact (unseparated_minus (lawful.reads v)).levelValue_operation reads _ 3 0 rfl (Nat.zero_le _)

structure MinusBefore (ops : Numbers α) (c : String) (v : α) : Prop where
  leading : Fits ("-" ++ c) → evaluate ops ("-" ++ c) = negation ops v
  times : ∀ number, isNumeral (compact number) = true → Fits (number ++ "*-" ++ c) →
    evaluate ops (number ++ "*-" ++ c) = ops.mul (ops.value (compact number)) <$> negation ops v
  minus : ∀ number, isNumeral (compact number) = true → Fits (number ++ "--" ++ c) →
    evaluate ops (number ++ "--" ++ c) = ops.sub (ops.value (compact number)) <$> negation ops v

-- The minus is taken together with the text of the value. It negates the value as long as
-- that is printed without a minus of its own, and is no numeral otherwise.
theorem minus_before_call (lawful : ops.Lawful) (call : IsCall (compact c))
    (valued : evaluate ops c = .ok v) : MinusBefore ops c v where
  leading fits := evaluate_minus lawful call valued fits
  times _ reads fits := by
    rw [evaluate_operation lawful call valued reads .mul rfl fits]
    cases negation ops v <;> rfl
  minus _ reads fits := by
    rw [evaluate_operation lawful call valued reads .sub rfl fits]
    cases negation ops v <;> rfl

theorem minus_before_root :
    evaluate integers "-sqrt(16)" = .ok (-4) ∧ evaluate integers "3*-sqrt(16)" = .ok (-12) ∧
      evaluate integers "3--sqrt(16)" = .ok 7 := by
  have spelled : compact "sqrt(16)" = Function.sqrt.letters ++ '(' :: (['1','6'] ++ [')']) := by decide
  have call : IsCall (compact "sqrt(16)") := by
    rw [spelled]
    exact .mk (.flat (by simp))
  have valued : evaluate integers "sqrt(16)" = .ok 4 := by decide +kernel
  have before := minus_before_call integers_lawful call valued
  exact ⟨before.leading (by decide +kernel),before.times "3" (by decide) (by decide +kernel),
    before.minus "3" (by decide) (by decide +kernel)⟩

theorem minus_before_negative_power :
    evaluate integers "pow(-2,3)" = .ok (-8) ∧
      evaluate integers "-pow(-2,3)" = .error (.invalidNumber "--8".toList) ∧
      evaluate integers "2*-pow(-2,3)" = .error (.invalidNumber "--8".toList) ∧
      evaluate integers "2--pow(-2,3)" = .error (.invalidNumber "--8".toList) := by
  decide +kernel

end Signed

end ToolDialogue.Arithmetic
