import ToolDialogue.Proofs.Arithmetic.Grammar

namespace ToolDialogue.Arithmetic

def Function.opening (function : Function) : List Char := function.letters ++ ['(']

theorem first_infix {α : Type} {part text : List α} (found : part <:+: text) (filled : part ≠ []) :
    ∃ front rest, text = front ++ (part ++ rest) ∧ ¬part <:+: front := by
  obtain ⟨before,behind,whole⟩ := found
  induction size : before.length using Nat.strongRecOn generalizing before behind with
  | ind size ih =>
    subst size
    by_cases earlier : part <:+: before
    · obtain ⟨front,rest,rfl⟩ := earlier
      have positive := List.length_pos_of_ne_nil filled
      exact ih front.length (by simp; omega) front (rest ++ (part ++ behind)) (by simpa using whole) rfl
    · exact ⟨before,behind,by simpa using whole.symm,earlier⟩

-- No call's beginning stands in both texts when they are put together.
def Parted (function : Function) (front back : List Char) : Prop :=
  ∀ before behind, before <:+ front → behind <+: back → before ++ behind = function.opening →
    before = [] ∨ behind = []

variable {α : Type} {ops : Numbers α} {evaluate : List Char → Except Error α} {function : Function}
  {n depth levels : Nat} {text front back argument rest : List Char} {v : α}

theorem paren_not_letter (function : Function) : '(' ∉ function.letters :=
  fun member => (letters_plain function '(' member).1 rfl

theorem parted_of_last (apart : ∀ c ∈ front.getLast?, c ∉ function.letters) (back : List Char) :
    Parted function front back := by
  intro before behind ends starts whole
  rcases List.eq_nil_or_concat before with rfl | ⟨others,last,rfl⟩
  · exact .inl rfl
  rcases List.eq_nil_or_concat behind with rfl | ⟨more,final,rfl⟩
  · exact .inr rfl
  have letters : others ++ [last] ++ more = function.letters := by
    rw [Function.opening,List.concat_eq_append,List.concat_eq_append,← List.append_assoc] at whole
    exact (List.append_inj' whole rfl).1
  obtain ⟨initial,rfl⟩ := ends
  refine absurd ?_ (apart last (by simp))
  rw [← letters]
  simp

theorem parted_of_flat (front : List Char) (flat : '(' ∉ back) : Parted function front back := by
  intro before behind ends starts whole
  rcases List.eq_nil_or_concat behind with rfl | ⟨more,final,rfl⟩
  · exact .inr rfl
  have same : final = '(' := by
    rw [Function.opening,List.concat_eq_append,← List.append_assoc] at whole
    exact List.singleton_inj.mp (List.append_inj' whole rfl).2
  refine absurd (starts.subset ?_) flat
  simp [same]

theorem infix_append (parted : Parted function front back) (found : function.opening <:+: front ++ back) :
    function.opening <:+: front ∨ function.opening <:+: back := by
  obtain ⟨before,behind,whole⟩ := found
  rw [List.append_assoc] at whole
  rcases List.append_eq_append_iff.mp whole with ⟨more,rfl,same⟩ | ⟨more,rfl,same⟩
  · rcases List.append_eq_append_iff.mp same with ⟨others,rfl,_⟩ | ⟨others,split,rfl⟩
    · exact .inl ⟨before,others,by simp⟩
    · rcases parted more others ⟨before,rfl⟩ ⟨behind,rfl⟩ split.symm with rfl | rfl
      · exact .inr ⟨[],behind,by rw [split]; rfl⟩
      · exact .inl ⟨before,[],by rw [split]; simp⟩
  · exact .inr ⟨more,behind,by rw [same]; simp⟩

inductive Cut (function : Function) : List Char → Prop where
  | plain {text : List Char} (uncalled : ¬function.opening <:+: text) : Cut function text
  | call {n : Nat} {front argument rest : List Char} (uncalled : ¬function.opening <:+: front)
      (nested : Nested n argument) (on : Cut function rest) :
      Cut function (front ++ (function.opening ++ (argument ++ ')' :: rest)))

theorem Function.opening_append (function : Function) (rest : List Char) :
    function.opening ++ rest = function.letters ++ '(' :: rest := by simp [opening]

theorem Function.opening_ne_nil (function : Function) : function.opening ≠ [] := by simp [opening]

theorem openAfter_opening (depth : Nat) (function : Function) :
    openAfter depth function.opening = some (depth+1) := by
  rw [Function.opening,openAfter_append,(Nested.flat (letters_plain function)).openAfter]
  rfl

theorem cut_of_openAfter (function : Function) (closed : openAfter depth text = some 0) : Cut function text := by
  induction size : text.length using Nat.strongRecOn generalizing text depth with
  | ind size ih =>
    subst size
    by_cases called : function.opening <:+: text
    · obtain ⟨front,tail,rfl,first⟩ := first_infix called function.opening_ne_nil
      rw [openAfter_append] at closed
      obtain ⟨here,-,closed⟩ := Option.bind_eq_some_iff.mp closed
      rw [openAfter_append,openAfter_opening,Option.bind_some] at closed
      obtain ⟨n,argument,rest,nested,rfl,on⟩ := split_closed (Nat.zero_le here) closed
      exact .call first nested (ih rest.length (by simp; omega) on rfl)
    · exact .plain called

theorem Nested.cut (nested : Nested n text) (function : Function) : Cut function text :=
  cut_of_openAfter function (nested.openAfter 0)

def Reader.onto (reader : Reader) (earlier : List Piece) : Reader :=
  { reader with pieces := reader.pieces ++ earlier }

theorem step_onto (name : List Char) (reader : Reader) (earlier : List Piece) (c : Char) :
    Reader.step name (reader.onto earlier) c = (Reader.step name reader c).onto earlier := by
  unfold Reader.step Reader.onto
  dsimp only
  split
  · split <;> rfl
  · split
    · rfl
    · split
      · split <;> rfl
      · rfl

theorem foldl_onto (name : List Char) (reader : Reader) (earlier : List Piece) (text : List Char) :
    text.foldl (Reader.step name) (reader.onto earlier) = (text.foldl (Reader.step name) reader).onto earlier := by
  induction text generalizing reader with
  | nil => rfl
  | cons c rest ih => rw [List.foldl_cons,step_onto,ih,List.foldl_cons]

theorem finish_onto (reader : Reader) (earlier : List Piece) :
    (reader.onto earlier).finish = earlier.reverse ++ reader.finish := by
  by_cases outside : reader.depth = 0 <;> simp [Reader.finish,Reader.onto,outside]

theorem piecesOf_call (uncalled : ¬function.opening <:+: front) (nested : Nested n argument) (rest : List Char) :
    piecesOf function (front ++ (function.opening ++ (argument ++ ')' :: rest))) =
      .plain front :: .call argument :: piecesOf function rest := by
  have named : ¬function.letters ++ ['('] <:+: front ++ function.letters := by
    intro found
    rcases infix_append (parted_of_flat front (paren_not_letter function)) found with earlier | later
    · exact uncalled earlier
    · exact paren_not_letter function (later.subset (by simp [Function.opening]))
  have spelled : front ++ (function.opening ++ (argument ++ ')' :: rest)) =
      (front ++ function.letters) ++ '(' :: (argument ++ ')' :: rest) := by
    simp [Function.opening]
  have opened : Reader.step function.letters ⟨0,(front ++ function.letters).reverse,[]⟩ '(' =
      ⟨1,[],[.plain front]⟩ := by
    simp [Reader.step]
  have within := nested.reader_within function.letters 0 [] [.plain front]
  have closed : Reader.step function.letters ⟨1,argument.reverse ++ [],[.plain front]⟩ ')' =
      Reader.onto ⟨0,[],[]⟩ [.call argument,.plain front] := by
    simp [Reader.step,Reader.onto]
  have name := read_uncalled named [] (front ++ function.letters) rfl
  rw [List.reverse_nil] at name
  change (List.foldl (Reader.step function.letters) ⟨0,[],[]⟩ _).finish = _
  rw [spelled,List.foldl_append,name,List.foldl_cons,opened,List.foldl_append,within,List.foldl_cons,closed,
    foldl_onto,finish_onto]
  rfl

-- The first call gives way to its printed value, and the rest is a text of its own.
theorem expandCalls_call (uncalled : ¬function.opening <:+: front) (nested : Nested n argument)
    (rest : List Char) :
    expandCalls ops evaluate function (front ++ (function.opening ++ (argument ++ ')' :: rest))) = (do
      let v ← callValue ops evaluate function argument
      let out ← expandCalls ops evaluate function rest
      pure (front ++ (ops.print v ++ out))) := by
  rw [expandCalls,piecesOf_call uncalled nested,expandCalls,List.mapM_cons,List.mapM_cons]
  generalize (piecesOf function rest).mapM (·.written ops evaluate function) = others
  change List.flatten <$> (do
    let before ← Except.ok front
    let further ← (do
      let own ← ops.print <$> callValue ops evaluate function argument
      let behind ← others
      pure (own :: behind))
    pure (before :: further)) = _
  cases callValue ops evaluate function argument with
  | error e => rfl
  | ok v => cases others <;> rfl

theorem Parted.of_suffix {more : List Char} (parted : Parted function (more ++ front) back) :
    Parted function front back :=
  fun before behind ends => parted before behind (ends.trans (List.suffix_append more front))

theorem Parted.of_prefix {more : List Char} (parted : Parted function front (back ++ more)) :
    Parted function front back :=
  fun before behind ends starts => parted before behind ends (starts.trans (List.prefix_append back more))

theorem expandCalls_append (first : Cut function front) (second : Cut function back)
    (parted : Parted function front back) : expandCalls ops evaluate function (front ++ back) = (do
      let before ← expandCalls ops evaluate function front
      let behind ← expandCalls ops evaluate function back
      pure (before ++ behind)) := by
  induction first with
  | @plain text uncalled =>
    rw [expandCalls_uncalled uncalled]
    cases second with
    | plain apart =>
      have none : ¬function.opening <:+: text ++ back := by
        intro found
        exact (infix_append parted found).elim uncalled apart
      rw [expandCalls_uncalled none,expandCalls_uncalled apart]
      rfl
    | @call n other argument rest apart nested on =>
      have none : ¬function.opening <:+: text ++ other := by
        intro found
        exact (infix_append parted.of_prefix found).elim uncalled apart
      rw [← List.append_assoc,expandCalls_call none nested,expandCalls_call apart nested]
      simp only [bind_assoc,pure_bind,List.append_assoc]
      rfl
  | @call n other argument rest apart nested on ih =>
    have spelled : other ++ (function.opening ++ (argument ++ ')' :: rest)) ++ back =
        other ++ (function.opening ++ (argument ++ ')' :: (rest ++ back))) := by simp
    have regroup : other ++ (function.opening ++ (argument ++ ')' :: rest)) =
        (other ++ (function.opening ++ (argument ++ [')']))) ++ rest := by simp
    rw [regroup] at parted
    rw [spelled,expandCalls_call apart nested,expandCalls_call apart nested,ih parted.of_suffix]
    simp only [bind_assoc,pure_bind,List.append_assoc]

def Numbers.PrintsNumerals (ops : Numbers α) : Prop := ∀ v, isNumeral (ops.print v) = true

theorem Numbers.Lawful.prints (lawful : ops.Lawful) : ops.PrintsNumerals := lawful.reads

def Numbers.PrintsFlat (ops : Numbers α) : Prop := ∀ v, ∀ c ∈ ops.print v, c ≠ '(' ∧ c ≠ ')'

theorem Numbers.PrintsNumerals.flat (prints : ops.PrintsNumerals) : ops.PrintsFlat := by
  intro v c member
  have apart := numeral_apart (prints v) c member
  simp_all

theorem openAfter_call (nested : Nested n argument) (rest : List Char) :
    openAfter depth (function.opening ++ (argument ++ ')' :: rest)) = openAfter depth rest := by
  rw [openAfter_append,openAfter_opening,Option.bind_some,openAfter_append,nested.openAfter,Option.bind_some,
    openAfter_cons,openStep_closes,Option.bind_some]

theorem openWithin_call {limit : Nat} (nested : Nested n argument) (rest : List Char) :
    openWithin limit depth (function.opening ++ (argument ++ ')' :: rest)) =
      if depth + 1 + n ≤ limit then openWithin limit depth rest else none := by
  rw [Function.opening,List.append_assoc,openWithin_append,openWithin_plain (letters_plain function),
    Option.bind_some,List.singleton_append,openWithin_cons,withinStep_opens]
  by_cases full : limit ≤ depth
  · rw [if_pos full,if_neg (by omega)]
    rfl
  rw [if_neg full,Option.bind_some,openWithin_append,nested.openWithin_eq (by omega)]
  split
  · rw [Option.bind_some,openWithin_cons,withinStep_closes,Option.bind_some]
  · rfl

theorem expandCalls_openWithin {limit : Nat} {out : List Char} (prints : ops.PrintsFlat)
    (closed : openWithin limit depth text = some 0)
    (expanded : expandCalls ops evaluate function text = .ok out) : openWithin limit depth out = some 0 := by
  induction cut_of_openAfter function (openAfter_of_within closed) generalizing depth out with
  | plain uncalled =>
    rw [expandCalls_uncalled uncalled] at expanded
    cases expanded
    exact closed
  | @call n front argument rest uncalled nested on ih =>
    rw [openWithin_append] at closed
    obtain ⟨here,before,closed⟩ := Option.bind_eq_some_iff.mp closed
    rw [openWithin_call nested] at closed
    obtain ⟨-,closed⟩ := Option.ite_none_right_eq_some.mp closed
    rw [expandCalls_call uncalled nested] at expanded
    obtain ⟨v,-,expanded⟩ := bind_ok.mp expanded
    obtain ⟨behind,later,expanded⟩ := bind_ok.mp expanded
    cases expanded
    rw [openWithin_append,before,Option.bind_some,openWithin_append,openWithin_plain (prints v)]
    exact ih closed later

theorem Nested.expandCalls {out : List Char} (nested : Nested n text) (prints : ops.PrintsNumerals)
    (expanded : expandCalls ops evaluate function text = .ok out) : ∃ m, m ≤ n ∧ Nested m out := by
  have shallow : Shallow n text := nested.shallow
  have still : Shallow n out := expandCalls_openWithin prints.flat shallow expanded
  exact still.nested

def expandEach (ops : Numbers α) (evaluate : List Char → Except Error α) (functions : List Function)
    (text : List Char) : Except Error (List Char) :=
  functions.foldlM (fun text function => expandCalls ops evaluate function text) text

theorem expandEach_cons (function : Function) (more : List Function) (text : List Char) :
    expandEach ops evaluate (function :: more) text = (do
      let out ← expandCalls ops evaluate function text
      expandEach ops evaluate more out) := List.foldlM_cons

theorem expandAll_eq (text : List Char) :
    expandAll ops evaluate text = expandEach ops evaluate callOrder text := rfl

theorem evaluateWithin_ok : evaluateWithin ops (levels+1) text = .ok v ↔ checkBalanced text = .ok () ∧
    ∃ out, expandAll ops (evaluateWithin ops levels) text = .ok out ∧ arithmetic ops out = .ok v := by
  rw [evaluateWithin,bind_ok,← exists_and_left]
  constructor
  · rintro ⟨⟨⟩,passed,valued⟩
    obtain ⟨out,expanded,worth⟩ := bind_ok.mp valued
    exact ⟨out,passed,expanded,worth⟩
  · rintro ⟨out,passed,expanded,worth⟩
    exact ⟨(),passed,bind_ok.mpr ⟨out,expanded,worth⟩⟩

end ToolDialogue.Arithmetic
