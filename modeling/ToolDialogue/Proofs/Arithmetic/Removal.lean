import ToolDialogue.Proofs.Arithmetic.Doubles
import ToolDialogue.Proofs.Arithmetic.Neighbours

namespace ToolDialogue.Arithmetic

def IsDisplayed (text : List Char) : Prop :=
  text ≠ [] ∧ (∀ c ∈ text, c.isDigit = true ∨ c = '-' ∨ c = '.') ∨
    text ∈ [['N','a','N'],['i','n','f'],['-','i','n','f']]

def Numbers.Displays {α : Type} (ops : Numbers α) : Prop := ∀ v, IsDisplayed (ops.print v)

variable {α : Type} {ops : Numbers α} {evaluate : List Char → Except Error α} {function other : Function}
  {functions : List Function} {depth : Nat} {text front back out printed : List Char}

section Displayed

theorem displayed_flat (displayed : IsDisplayed printed) : ∀ c ∈ printed, c ≠ '(' ∧ c ≠ ')' := by
  intro c member
  rcases displayed with ⟨-,parts⟩ | word
  · rcases parts c member with digit | rfl | rfl
    · constructor <;> (rintro rfl; exact absurd digit (by decide))
    · decide
    · decide
  · simp only [List.mem_cons,List.not_mem_nil,or_false] at word
    rcases word with rfl | rfl | rfl <;> simp only [List.mem_cons,List.not_mem_nil,or_false] at member <;>
      rcases member with rfl | rfl | rfl | rfl <;> decide

theorem displayed_ne_nil (displayed : IsDisplayed printed) : printed ≠ [] := by
  rcases displayed with ⟨filled,-⟩ | word
  · exact filled
  · rintro rfl
    simp at word

-- No name goes on behind a value, though one may seem to begin in it.
theorem displayed_last (displayed : IsDisplayed printed) (function : Function) :
    ∀ c ∈ printed.getLast?, c ∉ function.letters := by
  intro c last
  rcases displayed with ⟨-,parts⟩ | word
  · rcases parts c (List.mem_of_getLast? last) with digit | rfl | rfl
    · have apart : ∀ d ∈ function.letters, d.isDigit = false := by cases function <;> simp [Function.letters,Function.name]
      intro member
      exact Bool.noConfusion (digit.symm.trans (apart c member))
    · cases function <;> decide
    · cases function <;> decide
  · simp only [List.mem_cons,List.not_mem_nil,or_false] at word
    rcases word with rfl | rfl | rfl <;> cases last <;> cases function <;> decide

theorem displayed_decimal (negative : Bool) (reads : isDecimal printed = true) :
    IsDisplayed (Decimal.signed negative printed) := by
  simp only [isDecimal,Bool.and_eq_true,List.all_eq_true,List.any_eq_true,Bool.or_eq_true,beq_iff_eq] at reads
  obtain ⟨⟨parts,c,member,-⟩,-⟩ := reads
  cases negative with
  | false => exact .inl ⟨List.ne_nil_of_mem member,fun c member => (parts c member).imp_right .inr⟩
  | true =>
    refine .inl ⟨List.cons_ne_nil _ _,fun c member => ?_⟩
    rcases List.mem_cons.mp member with rfl | later
    · exact .inr (.inl rfl)
    · exact (parts c later).imp_right .inr

theorem doubles_displays : doubles.Displays := by
  intro x
  change IsDisplayed (Decimal.plain.text x)
  unfold Decimal.Layout.text
  split
  · exact .inr (by decide)
  · next negative _ => cases negative <;> exact .inr (by decide)
  · exact displayed_decimal _ (isDecimal_positional _)

theorem integers_displays : integers.Displays := by
  intro v
  cases v with
  | ofNat n => exact displayed_decimal false (isDecimal_decimal n)
  | negSucc n => exact displayed_decimal true (isDecimal_decimal (n+1))

theorem Numbers.Displays.flat (displays : ops.Displays) : ops.PrintsFlat := fun v => displayed_flat (displays v)

end Displayed

section Pass

theorem expandCalls_own_gone (displays : ops.Displays) (closed : openAfter depth text = some 0)
    (expanded : expandCalls ops evaluate function text = .ok out) : ¬function.opening <:+: out := by
  induction cut_of_openAfter function closed generalizing depth out with
  | plain uncalled =>
    rw [expandCalls_uncalled uncalled] at expanded
    cases expanded
    exact uncalled
  | @call n front argument rest uncalled nested on ih =>
    obtain ⟨here,-,closed⟩ := openAfter_front closed
    rw [openAfter_call nested] at closed
    rw [expandCalls_call uncalled nested] at expanded
    obtain ⟨v,-,expanded⟩ := bind_ok.mp expanded
    obtain ⟨behind,later,expanded⟩ := bind_ok.mp expanded
    cases expanded
    have flat : '(' ∉ ops.print v := fun member => (displays.flat v '(' member).1 rfl
    have last : ∀ c ∈ (front ++ ops.print v).getLast?, c ∉ function.letters := by
      rw [List.getLast?_append_of_ne_nil _ (displayed_ne_nil (displays v))]
      exact displayed_last (displays v) function
    intro found
    rw [← List.append_assoc] at found
    rcases infix_append (parted_of_last last behind) found with earlier | further
    · rcases infix_append (parted_of_flat front flat) earlier with before | within
      · exact uncalled before
      · exact uncalled_of_flat flat function within
    · exact ih closed later further

theorem opening_behind (displayed : IsDisplayed printed) {more : List Char}
    (whole : front ++ other.letters = text ++ (printed ++ more)) :
    ∃ between, front = text ++ (printed ++ between) ∧ more = between ++ other.letters := by
  rw [← List.append_assoc] at whole
  rcases List.append_eq_append_iff.mp whole with ⟨letters,ends,split⟩ | ⟨between,rfl,rfl⟩
  · rcases List.eq_nil_or_concat letters with rfl | ⟨initial,last,rfl⟩
    · exact ⟨[],by simpa using ends.symm,split.symm⟩
    · have shown : last ∈ printed.getLast? := by
        rw [← List.getLast?_append_of_ne_nil text (displayed_ne_nil displayed),ends]
        simp
      refine absurd ?_ (displayed_last displayed other last shown)
      rw [split]
      simp
  · exact ⟨between,by simp,rfl⟩

theorem uncalled_sides {part : List Char} (uncalled : ¬function.opening <:+: front ++ (part ++ back)) :
    ¬function.opening <:+: front ∧ ¬function.opening <:+: back := by
  have behind : back <:+ front ++ (part ++ back) := (List.suffix_append part back).trans (List.suffix_append front _)
  exact ⟨fun found => uncalled (found.trans (List.prefix_append front _).isInfix),
    fun found => uncalled (found.trans behind.isInfix)⟩

theorem expandCalls_opening (displays : ops.Displays) (closed : openAfter depth text = some 0)
    (expanded : expandCalls ops evaluate function text = .ok (front ++ (other.opening ++ back))) :
    ∃ before behind, text = before ++ (other.opening ++ behind) ∧
      expandCalls ops evaluate function before = .ok front ∧ expandCalls ops evaluate function behind = .ok back := by
  induction cut_of_openAfter function closed generalizing depth front back with
  | plain uncalled =>
    rw [expandCalls_uncalled uncalled] at expanded
    cases expanded
    obtain ⟨before,behind⟩ := uncalled_sides uncalled
    exact ⟨front,back,rfl,expandCalls_uncalled before _,expandCalls_uncalled behind _⟩
  | @call n first argument rest uncalled nested on ih =>
    obtain ⟨here,-,closed⟩ := openAfter_front closed
    rw [openAfter_call nested] at closed
    rw [expandCalls_call uncalled nested] at expanded
    obtain ⟨v,valued,expanded⟩ := bind_ok.mp expanded
    obtain ⟨last,later,expanded⟩ := bind_ok.mp expanded
    have whole : (front ++ other.letters) ++ '(' :: back = first ++ (ops.print v ++ last) := by
      have same : first ++ (ops.print v ++ last) = front ++ (other.opening ++ back) := Except.ok.inj expanded
      rw [same,other.opening_append,List.append_assoc]
    rcases part_cases whole with ⟨more,name,rfl⟩ | ⟨early,late,split,-,-⟩ | ⟨more,rfl,rfl⟩
    · -- behind the value, in what becomes of the rest
      obtain ⟨between,rfl,rfl⟩ := opening_behind (displays v) name
      have spelled : (between ++ other.letters) ++ '(' :: back = between ++ (other.opening ++ back) := by
        rw [other.opening_append,List.append_assoc]
      rw [spelled] at later
      obtain ⟨before,behind,rfl,left,right⟩ := ih closed later
      refine ⟨first ++ (function.opening ++ (argument ++ ')' :: before)),behind,by simp,?_,right⟩
      rw [expandCalls_call uncalled nested,valued,left]
      rfl
    · -- in the value, which has no parenthesis
      exact absurd rfl (displays.flat v '(' (by simp [split])).1
    · -- in front of the first call
      have spelled : (front ++ other.letters) ++ '(' :: more = front ++ (other.opening ++ more) := by
        rw [other.opening_append,List.append_assoc]
      rw [spelled] at uncalled ⊢
      obtain ⟨before,behind⟩ := uncalled_sides uncalled
      refine ⟨front,more ++ (function.opening ++ (argument ++ ')' :: rest)),by simp,expandCalls_uncalled before _,?_⟩
      rw [expandCalls_call behind nested,valued,later]
      rfl

-- What one pass makes of a text whose parentheses match. No call is put together from a value
-- and what stands beside it.
structure Cleared (ops : Numbers α) (evaluate : List Char → Except Error α) (function : Function)
    (text out : List Char) : Prop where
  closed : openAfter 0 out = some 0
  nesting : nesting out ≤ nesting text
  uncalled : ¬function.opening <:+: out
  stood : ∀ (other : Function) front back, out = front ++ (other.opening ++ back) →
    ∃ before behind, text = before ++ (other.opening ++ behind) ∧
      expandCalls ops evaluate function before = .ok front ∧ expandCalls ops evaluate function behind = .ok back

theorem expandEach_nesting (prints : ops.PrintsFlat) (closed : openAfter 0 text = some 0)
    (expanded : expandEach ops evaluate functions text = .ok out) :
    openAfter 0 out = some 0 ∧ nesting out ≤ nesting text := by
  obtain ⟨n,nested⟩ := nested_of_openAfter closed
  obtain ⟨m,less,still⟩ := (expandEach_shallow prints nested.shallow expanded).nested
  rw [still.nesting_eq,nested.nesting_eq]
  exact ⟨still.openAfter 0,less⟩

theorem expandCalls_cleared (displays : ops.Displays) (closed : openAfter 0 text = some 0)
    (expanded : expandCalls ops evaluate function text = .ok out) : Cleared ops evaluate function text out := by
  have alone : expandEach ops evaluate [function] text = .ok out := by
    rw [expandEach_cons,expanded]
    rfl
  obtain ⟨still,less⟩ := expandEach_nesting displays.flat closed alone
  refine ⟨still,less,expandCalls_own_gone displays closed expanded,?_⟩
  rintro other front back rfl
  exact expandCalls_opening displays closed expanded

theorem Cleared.kept (cleared : Cleared ops evaluate function text out) (absent : ¬other.opening <:+: text) :
    ¬other.opening <:+: out := by
  rintro ⟨front,back,whole⟩
  obtain ⟨before,behind,rfl,-⟩ := cleared.stood other front back (by simp [← whole])
  exact absent ⟨before,behind,by simp⟩

end Pass

section Passes

theorem expandEach_append {done more : List Function} : expandEach ops evaluate (done ++ more) text = .ok out ↔
    ∃ between, expandEach ops evaluate done text = .ok between ∧ expandEach ops evaluate more between = .ok out := by
  rw [expandEach,List.foldlM_append]
  exact bind_ok

theorem expandEach_kept (displays : ops.Displays) (closed : openAfter 0 text = some 0)
    (absent : ¬other.opening <:+: text) (expanded : expandEach ops evaluate functions text = .ok out) :
    ¬other.opening <:+: out := by
  induction functions generalizing text with
  | nil => exact Except.ok.inj expanded ▸ absent
  | cons function more ih =>
    rw [expandEach_cons] at expanded
    obtain ⟨next,pass,rest⟩ := bind_ok.mp expanded
    have cleared := expandCalls_cleared displays closed pass
    exact ih cleared.closed (cleared.kept absent) rest

theorem expandEach_split {done more : List Function} (displays : ops.Displays) (closed : openAfter 0 text = some 0)
    (expanded : expandEach ops evaluate (done ++ function :: more) text = .ok out) : ∃ between next,
      expandEach ops evaluate done text = .ok between ∧ expandCalls ops evaluate function between = .ok next ∧
        expandEach ops evaluate more next = .ok out ∧ Cleared ops evaluate function between next := by
  obtain ⟨between,before,behind⟩ := expandEach_append.mp expanded
  rw [expandEach_cons] at behind
  obtain ⟨next,pass,rest⟩ := bind_ok.mp behind
  have still := (expandEach_nesting displays.flat closed before).1
  exact ⟨between,next,before,pass,rest,expandCalls_cleared displays still pass⟩

theorem expandEach_uncalled (displays : ops.Displays) (closed : openAfter 0 text = some 0)
    (listed : function ∈ functions) (expanded : expandEach ops evaluate functions text = .ok out) :
    ¬function.opening <:+: out := by
  obtain ⟨done,more,rfl⟩ := List.append_of_mem listed
  obtain ⟨between,next,-,-,rest,cleared⟩ := expandEach_split displays closed expanded
  exact expandEach_kept displays cleared.closed cleared.uncalled rest

structure Expanded (ops : Numbers α) (evaluate : List Char → Except Error α) (text out : List Char) : Prop where
  closed : openAfter 0 out = some 0
  nesting : nesting out ≤ nesting text
  checked : checkBalanced text = .ok () → checkBalanced out = .ok ()
  uncalled : ∀ function : Function, ¬function.opening <:+: out
  passes : ∀ done function more, callOrder = done ++ function :: more → ∃ between next,
    expandEach ops evaluate done text = .ok between ∧ expandCalls ops evaluate function between = .ok next ∧
      expandEach ops evaluate more next = .ok out ∧ Cleared ops evaluate function between next ∧
      ∀ earlier ∈ done, ¬earlier.opening <:+: next

theorem expansion_complete (displays : ops.Displays) (closed : openAfter 0 text = some 0)
    (expanded : expandAll ops evaluate text = .ok out) : Expanded ops evaluate text out := by
  rw [expandAll_eq] at expanded
  obtain ⟨still,less⟩ := expandEach_nesting displays.flat closed expanded
  refine ⟨still,less,fun passed => ?_,fun function => ?_,fun done function more order => ?_⟩
  · obtain ⟨n,shallow,nested⟩ := checkBalanced_nested passed
    obtain ⟨m,own⟩ := nested_of_openAfter still
    rw [nested.nesting_eq,own.nesting_eq] at less
    exact own.checkBalanced_iff.mpr (Nat.le_trans less shallow)
  · exact expandEach_uncalled displays closed (Expression.callOrder_complete function) expanded
  · rw [order] at expanded
    obtain ⟨between,next,before,pass,rest,cleared⟩ := expandEach_split displays closed expanded
    refine ⟨between,next,before,pass,rest,cleared,fun earlier listed => ?_⟩
    exact cleared.kept (expandEach_uncalled displays closed listed before)

-- A value is set between letters that make a name with what stands around them.
theorem expansion_complete_between_letters :
    openAfter 0 "ssqrt(4)in(pow(2,cos(0)))".toList = some 0 ∧
      expandAll integers (evaluatePrepared integers) "ssqrt(4)in(pow(2,cos(0)))".toList = .ok "s2in(2)".toList ∧
      Expanded integers (evaluatePrepared integers) "ssqrt(4)in(pow(2,cos(0)))".toList "s2in(2)".toList :=
  ⟨by decide,by decide +kernel,expansion_complete integers_displays (by decide) (by decide +kernel)⟩

end Passes

end ToolDialogue.Arithmetic
