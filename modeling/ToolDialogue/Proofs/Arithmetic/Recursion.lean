import ToolDialogue.Proofs.Arithmetic.Splicing

namespace ToolDialogue.Arithmetic

def argumentsOf (function : Function) (argument : List Char) : List (List Char) :=
  match function,comma? argument with
  | .pow,some (base,exponent) => [base,exponent]
  | .pow,none => []
  | _,some _ => []
  | _,none => [argument]

variable {α : Type} {ops : Numbers α} {evaluate other : List Char → Except Error α} {function : Function}
  {functions : List Function} {n limit depth levels : Nat} {text argument inner out : List Char} {v : α}
  {error : Error}

inductive Applies (ops : Numbers α) (function : Function) (argument : List Char) : Prop where
  | unfit (asked : argumentsOf function argument = [])
      (refused : ∀ evaluate, callValue ops evaluate function argument = .error (.wrongArity function))
  | single {inner : List Char} {f : α → α} (asked : argumentsOf function argument = [inner])
      (worth : ∀ evaluate, callValue ops evaluate function argument = f <$> evaluate inner)
  | double {base exponent : List Char} {f : α → α → α} (asked : argumentsOf function argument = [base,exponent])
      (worth : ∀ evaluate, callValue ops evaluate function argument = do
        let b ← evaluate base
        let e ← evaluate exponent
        pure (f b e))

section Call

theorem applies (ops : Numbers α) (function : Function) (argument : List Char) : Applies ops function argument := by
  cases split : comma? argument with
  | none =>
    by_cases two : function = .pow
    · subst two
      exact .unfit (by simp only [argumentsOf,split]) fun _ => by simp only [callValue,split]
    · have asked : argumentsOf function argument = [argument] := by
        cases function <;> simp_all [argumentsOf]
      have worth (evaluate : List Char → Except Error α) :
          callValue ops evaluate function argument = ops.unary function <$> evaluate argument := by
        cases function <;> simp_all [callValue]
      exact .single asked worth
  | some parts =>
    obtain ⟨base,exponent⟩ := parts
    by_cases two : function = .pow
    · subst two
      have asked : argumentsOf .pow argument = [base,exponent] := by simp only [argumentsOf,split]
      have worth (evaluate : List Char → Except Error α) : callValue ops evaluate .pow argument = (do
          let b ← evaluate base
          let e ← evaluate exponent
          pure (ops.pow b e)) := by simp only [callValue,split]
      exact .double asked worth
    · refine .unfit ?_ fun _ => ?_
      · cases function <;> simp_all [argumentsOf]
      · cases function <;> simp_all [callValue]

theorem callValue_congr (same : ∀ inner ∈ argumentsOf function argument, evaluate inner = other inner) :
    callValue ops evaluate function argument = callValue ops other function argument := by
  cases applies ops function argument with
  | unfit asked refused => rw [refused,refused]
  | single asked worth => rw [worth,worth,same _ (by simp [asked])]
  | double asked worth => rw [worth,worth,same _ (by simp [asked]),same _ (by simp [asked])]

theorem callValue_error (failed : callValue ops evaluate function argument = .error error) :
    error = .wrongArity function ∨ ∃ inner ∈ argumentsOf function argument, evaluate inner = .error error := by
  cases applies ops function argument with
  | unfit asked refused =>
    rw [refused] at failed
    exact .inl (Except.error.inj failed).symm
  | @single inner f asked worth =>
    rw [worth] at failed
    refine .inr ⟨inner,by simp [asked],?_⟩
    cases valued : evaluate inner with
    | ok v => rw [valued] at failed; cases failed
    | error e => rw [valued] at failed; exact failed
  | @double base exponent f asked worth =>
    rw [worth] at failed
    cases first : evaluate base with
    | error e =>
      rw [first] at failed
      exact .inr ⟨base,by simp [asked],first.trans failed⟩
    | ok b =>
      cases second : evaluate exponent with
      | error e =>
        rw [first,second] at failed
        exact .inr ⟨exponent,by simp [asked],second.trans failed⟩
      | ok e => rw [first,second] at failed; cases failed

theorem callValue_ok (valued : callValue ops evaluate function argument = .ok v) :
    argumentsOf function argument ≠ [] ∧ ∀ inner ∈ argumentsOf function argument, ∃ w, evaluate inner = .ok w := by
  cases applies ops function argument with
  | unfit asked refused => rw [refused] at valued; cases valued
  | single asked worth =>
    rw [worth] at valued
    obtain ⟨w,own,-⟩ := map_ok.mp valued
    simp [asked,own]
  | double asked worth =>
    rw [worth] at valued
    obtain ⟨b,first,valued⟩ := bind_ok.mp valued
    obtain ⟨e,second,-⟩ := bind_ok.mp valued
    simp [asked,first,second]

end Call

theorem commaFrom_split {before front rest : List Char} {left : Nat}
    (split : commaFrom depth before text = some (front,rest)) (closed : openAfter depth text = some left) :
    ∃ middle, front = before.reverse ++ middle ∧ text = middle ++ ',' :: rest ∧ openAfter depth middle = some 0 := by
  induction text generalizing depth before with
  | nil => cases split
  | cons c more ih =>
    rw [openAfter_cons] at closed
    obtain ⟨next,stepped,on⟩ := Option.bind_eq_some_iff.mp closed
    have further (scanned : commaFrom next (c :: before) more = some (front,rest)) :
        ∃ middle, front = before.reverse ++ middle ∧ c :: more = middle ++ ',' :: rest ∧
          openAfter depth middle = some 0 := by
      obtain ⟨middle,rfl,rfl,closes⟩ := ih scanned on
      exact ⟨c :: middle,by simp,rfl,by rw [openAfter_cons,stepped]; exact closes⟩
    rw [commaFrom] at split
    unfold openStep at stepped
    split at split
    · next here =>
      obtain ⟨rfl,rfl⟩ := here
      cases split
      exact ⟨[],by simp,rfl,rfl⟩
    · split at split
      · next opening =>
        rw [if_pos opening] at stepped
        cases stepped
        exact further split
      · next bare =>
        rw [if_neg bare] at stepped
        split at split
        · next closing =>
          rw [if_pos closing] at stepped
          split at stepped
          · cases stepped
          · cases stepped
            exact further split
        · next plain =>
          rw [if_neg plain] at stepped
          cases stepped
          exact further split

theorem Nested.comma?_split {front rest : List Char} (nested : Nested n text)
    (split : comma? text = some (front,rest)) : text = front ++ ',' :: rest ∧
      (∃ m, m ≤ n ∧ Nested m front) ∧ ∃ m, m ≤ n ∧ Nested m rest := by
  obtain ⟨middle,same,rfl,closes⟩ := commaFrom_split split (nested.openAfter 0)
  rw [List.reverse_nil,List.nil_append] at same
  subst same
  have shallow : Shallow n (front ++ ',' :: rest) := nested.shallow
  rw [Shallow,openWithin_append] at shallow
  obtain ⟨here,before,on⟩ := Option.bind_eq_some_iff.mp shallow
  have level : here = 0 := Option.some.inj ((openAfter_of_within before).symm.trans closes)
  subst level
  rw [openWithin_cons,withinStep_plain (by decide),Option.bind_some] at on
  have parts : Shallow n front ∧ Shallow n rest := ⟨before,on⟩
  exact ⟨rfl,parts.1.nested,parts.2.nested⟩

theorem argumentsOf_nested (nested : Nested n argument) (asked : inner ∈ argumentsOf function argument) :
    ∃ m, m ≤ n ∧ Nested m inner := by
  unfold argumentsOf at asked
  split at asked
  · next base exponent split =>
    obtain ⟨-,first,second⟩ := nested.comma?_split split
    rcases List.mem_cons.mp asked with rfl | later
    · exact first
    · rw [List.mem_singleton.mp later]
      exact second
  · cases asked
  · cases asked
  · rw [List.mem_singleton.mp asked]
    exact ⟨n,Nat.le_refl n,nested⟩

theorem piecesOf_uncalled (uncalled : ¬function.opening <:+: text) :
    piecesOf function text = [.plain text] := by
  have read := read_uncalled uncalled [] text rfl
  change (List.foldl (Reader.step function.letters) ⟨0,[].reverse,[]⟩ text).finish = _
  rw [read]
  simp [Reader.finish]

theorem called_nested (closed : openWithin limit depth text = some 0)
    (called : .call argument ∈ piecesOf function text) : ∃ n, n < limit ∧ Nested n argument := by
  induction cut_of_openAfter function (openAfter_of_within closed) generalizing depth with
  | plain uncalled =>
    rw [piecesOf_uncalled uncalled] at called
    simp at called
  | @call n front own rest uncalled nested on ih =>
    rw [openWithin_append] at closed
    obtain ⟨here,-,closed⟩ := Option.bind_eq_some_iff.mp closed
    rw [openWithin_call nested] at closed
    obtain ⟨room,closed⟩ := Option.ite_none_right_eq_some.mp closed
    rw [piecesOf_call uncalled nested] at called
    simp only [List.mem_cons,reduceCtorEq,false_or,Piece.call.injEq] at called
    rcases called with rfl | later
    · exact ⟨n,by omega,nested⟩
    · exact ih closed later

theorem expandCalls_error (closed : openAfter depth text = some 0)
    (failed : expandCalls ops evaluate function text = .error error) :
    ∃ argument, .call argument ∈ piecesOf function text ∧ callValue ops evaluate function argument = .error error := by
  induction cut_of_openAfter function closed generalizing depth with
  | plain uncalled =>
    rw [expandCalls_uncalled uncalled] at failed
    cases failed
  | @call n front own rest uncalled nested on ih =>
    rw [openAfter_append] at closed
    obtain ⟨here,-,closed⟩ := Option.bind_eq_some_iff.mp closed
    rw [openAfter_call nested] at closed
    rw [piecesOf_call uncalled nested]
    rw [expandCalls_call uncalled nested] at failed
    cases valued : callValue ops evaluate function own with
    | error e =>
      rw [valued] at failed
      cases failed
      exact ⟨own,by simp,valued⟩
    | ok v =>
      rw [valued] at failed
      cases later : expandCalls ops evaluate function rest with
      | ok behind =>
        rw [later] at failed
        cases failed
      | error e =>
        rw [later] at failed
        cases failed
        obtain ⟨argument,called,stuck⟩ := ih closed later
        exact ⟨argument,by simp [called],stuck⟩

theorem expandCalls_congr (same : ∀ argument, .call argument ∈ piecesOf function text →
      callValue ops evaluate function argument = callValue ops other function argument) :
    expandCalls ops evaluate function text = expandCalls ops other function text := by
  have written (pieces : List Piece) (listed : pieces ⊆ piecesOf function text) :
      pieces.mapM (·.written ops evaluate function) = pieces.mapM (·.written ops other function) := by
    induction pieces with
    | nil => rfl
    | cons piece more ih =>
      obtain ⟨here,later⟩ := List.cons_subset.mp listed
      have own : piece.written ops evaluate function = piece.written ops other function := by
        cases piece with
        | call argument => exact congrArg (ops.print <$> ·) (same argument here)
        | _ => rfl
      rw [List.mapM_cons,List.mapM_cons,own,ih later]
  rw [expandCalls,expandCalls,written _ (List.Subset.refl _)]

-- What is left to be evaluated while a text is: after some of the passes, an argument of a
-- call that the next one meets.
inductive Needs (ops : Numbers α) (levels : Nat) (text inner : List Char) : Prop where
  | argument {done more : List Function} {function : Function} {between argument : List Char}
      (order : callOrder = done ++ function :: more) (passed : checkBalanced text = .ok ())
      (before : expandEach ops (evaluateWithin ops levels) done text = .ok between)
      (called : .call argument ∈ piecesOf function between)
      (asked : inner ∈ argumentsOf function argument) : Needs ops levels text inner

theorem expandEach_shallow (prints : ops.PrintsFlat) (shallow : Shallow limit text)
    (expanded : expandEach ops evaluate functions text = .ok out) : Shallow limit out := by
  induction functions generalizing text with
  | nil => exact Except.ok.inj expanded ▸ shallow
  | cons function more ih =>
    rw [expandEach_cons] at expanded
    obtain ⟨next,pass,rest⟩ := bind_ok.mp expanded
    exact ih (expandCalls_openWithin prints shallow pass) rest

theorem Needs.nested (needs : Needs ops levels text inner) (prints : ops.PrintsFlat) (nested : Nested n text) :
    ∃ m, m < n ∧ Nested m inner := by
  obtain ⟨-,-,before,called,asked⟩ := needs
  have shallow := expandEach_shallow prints nested.shallow before
  obtain ⟨k,deeper,within⟩ := called_nested shallow called
  obtain ⟨m,bound,own⟩ := argumentsOf_nested within asked
  exact ⟨m,Nat.lt_of_le_of_lt bound deeper,own⟩

theorem expandEach_congr (same : ∀ done function more between argument, functions = done ++ function :: more →
      expandEach ops evaluate done text = .ok between → .call argument ∈ piecesOf function between →
      ∀ inner ∈ argumentsOf function argument, evaluate inner = other inner) :
    expandEach ops evaluate functions text = expandEach ops other functions text := by
  induction functions generalizing text with
  | nil => rfl
  | cons function more ih =>
    have pass : expandCalls ops evaluate function text = expandCalls ops other function text :=
      expandCalls_congr fun argument called =>
        callValue_congr (same [] function more text argument rfl rfl called)
    rw [expandEach_cons,expandEach_cons,← pass]
    cases first : expandCalls ops evaluate function text with
    | error e => rfl
    | ok next =>
      refine ih fun done later rest between argument order before called => ?_
      refine same (function :: done) later rest between argument (by rw [order]; rfl) ?_ called
      rw [expandEach_cons,first]
      exact before

theorem evaluateWithin_congr (same : ∀ inner, Needs ops levels text inner → evaluateWithin ops levels inner = other inner) :
    evaluateWithin ops (levels+1) text = (do
      checkBalanced text
      let expanded ← expandAll ops other text
      arithmetic ops expanded) := by
  rw [evaluateWithin]
  cases passed : checkBalanced text with
  | error e => rfl
  | ok =>
    have whole : expandAll ops (evaluateWithin ops levels) text = expandAll ops other text :=
      expandEach_congr fun done function more between argument order before called inner asked =>
        same inner ⟨order,passed,before,called,asked⟩
    rw [whole]

theorem expandEach_error (prints : ops.PrintsNumerals) (shallow : Shallow limit text)
    (failed : expandEach ops evaluate functions text = .error error) :
    ∃ done function more between argument, functions = done ++ function :: more ∧
      expandEach ops evaluate done text = .ok between ∧ .call argument ∈ piecesOf function between ∧
      callValue ops evaluate function argument = .error error := by
  induction functions generalizing text with
  | nil => cases failed
  | cons function more ih =>
    rw [expandEach_cons] at failed
    cases first : expandCalls ops evaluate function text with
    | error e =>
      rw [first] at failed
      cases failed
      obtain ⟨argument,called,stuck⟩ := expandCalls_error (openAfter_of_within shallow) first
      exact ⟨[],function,more,text,argument,rfl,rfl,called,stuck⟩
    | ok next =>
      rw [first] at failed
      obtain ⟨done,later,rest,between,argument,rfl,before,called,stuck⟩ :=
        ih (expandCalls_openWithin prints.flat shallow first) failed
      refine ⟨function :: done,later,rest,between,argument,rfl,?_,called,stuck⟩
      rw [expandEach_cons,first]
      exact before

theorem evaluateWithin_error (prints : ops.PrintsNumerals) (nested : Nested n text) (shallow : n ≤ maxNesting)
    (failed : evaluateWithin ops (levels+1) text = .error error) :
    (∃ function, error = .wrongArity function) ∨
      (∃ inner, Needs ops levels text inner ∧ evaluateWithin ops levels inner = .error error) ∨
      ∃ out, Shallow n out ∧ arithmetic ops out = .error error := by
  have passed := nested.checkBalanced_iff.mpr shallow
  have own : Shallow n text := nested.shallow
  rw [evaluateWithin,passed,expandAll_eq] at failed
  cases expanded : expandEach ops (evaluateWithin ops levels) callOrder text with
  | error e =>
    rw [expanded] at failed
    cases failed
    obtain ⟨done,function,more,between,argument,order,before,called,stuck⟩ := expandEach_error prints own expanded
    rcases callValue_error stuck with arity | ⟨inner,asked,stuck⟩
    · exact .inl ⟨function,arity⟩
    · exact .inr (.inl ⟨inner,⟨order,passed,before,called,asked⟩,stuck⟩)
  | ok out =>
    rw [expanded] at failed
    exact .inr (.inr ⟨out,expandEach_shallow prints.flat own expanded,failed⟩)

-- The evaluations that one evaluation runs, itself included: how many parentheses may still
-- be opened in each, and its text.
inductive Runs (ops : Numbers α) : Nat → List Char → Nat → List Char → Prop where
  | here {levels : Nat} {text : List Char} : Runs ops levels text levels text
  | deeper {levels left : Nat} {text inner last : List Char} (needs : Needs ops levels text inner)
      (on : Runs ops levels inner left last) : Runs ops (levels+1) text left last

theorem Runs.nested {left : Nat} {last : List Char} (runs : Runs ops levels text left last)
    (prints : ops.PrintsNumerals) (nested : Nested n text) (room : n < levels) :
    ∃ m, m ≤ n ∧ m < left ∧ Nested m last := by
  induction runs generalizing n with
  | here => exact ⟨n,Nat.le_refl n,room,nested⟩
  | deeper needs _ ih =>
    obtain ⟨k,less,within⟩ := needs.nested prints.flat nested
    obtain ⟨m,bound,left,own⟩ := ih within (by omega)
    exact ⟨m,by omega,left,own⟩

theorem Shallow.enclosed? (shallow : Shallow n text) (enclosed : enclosed? text = some inner) :
    ∃ m, m < n ∧ Nested m inner := by
  obtain ⟨rfl,m,nested⟩ := enclosed?_nested enclosed
  exact ⟨m,nested.enclosed.shallow_iff.mp shallow,nested⟩

theorem walk_sides {operators : List Char} (known : operators ∈ precedence) (walk : Walk)
    (closed : openWithin limit walk.depth text = some 0) :
    ∃ sides : Sides, (text.foldl (Walk.step operators) walk).read.foldl Sides.grow ⟨[],[]⟩ =
        walk.read.foldl Sides.grow sides ∧
      openWithin limit walk.depth sides.first = some 0 ∧ ∀ side ∈ sides.rest, Shallow limit side.2 := by
  induction text generalizing walk with
  | nil => exact ⟨⟨[],[]⟩,rfl,closed,by simp⟩
  | cons c rest ih =>
    rw [openWithin_cons] at closed
    obtain ⟨next,stepped,on⟩ := Option.bind_eq_some_iff.mp closed
    have depth : (Walk.step operators walk c).depth = next := by
      have counted := openStep_of_within stepped
      unfold openStep at counted
      simp only [Walk.step]
      split
      · next opening => rw [if_pos opening] at counted; exact Option.some.inj counted
      · next bare =>
        rw [if_neg bare] at counted
        split
        · next closing =>
          rw [if_pos closing] at counted
          split at counted
          · cases counted
          · exact Option.some.inj counted
        · next plain => rw [if_neg plain] at counted; exact Option.some.inj counted
    obtain ⟨sides,same,first,others⟩ := ih (Walk.step operators walk c) (depth ▸ on)
    rw [depth] at first
    refine ⟨sides.grow (c,walk.depth == 0 && operators.contains c && !isSign walk.before c),same,?_⟩
    cases separates : walk.depth == 0 && operators.contains c && !isSign walk.before c with
    | false => exact ⟨by rw [Sides.grow,openWithin_cons,stepped]; exact first,others⟩
    | true =>
      simp only [Bool.and_eq_true,beq_iff_eq,List.contains_eq_mem,decide_eq_true_eq] at separates
      obtain ⟨⟨top,listed⟩,-⟩ := separates
      have plain : isParenthesis c = false := by
        by_contra marked
        refine not_operator known ?_ listed
        simp only [isParenthesis,Bool.not_eq_false,Bool.or_eq_true,beq_iff_eq] at marked
        rcases marked with rfl | rfl <;> decide
      rw [top,withinStep_plain plain] at stepped
      cases stepped
      refine ⟨by rw [top]; rfl,fun side member => ?_⟩
      rcases List.mem_cons.mp member with rfl | later
      · exact first
      · exact others side later

theorem Shallow.sidesOf {operators : List Char} (shallow : Shallow n text) (known : operators ∈ precedence) :
    Shallow n (sidesOf operators text).first ∧ ∀ side ∈ (sidesOf operators text).rest, Shallow n side.2 := by
  obtain ⟨sides,same,first,others⟩ := walk_sides known ⟨0,none,[]⟩ shallow
  rw [Arithmetic.sidesOf,same]
  exact ⟨first,others⟩

end ToolDialogue.Arithmetic
