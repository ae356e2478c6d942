import ToolDialogue.Proofs.Arithmetic.Recursion
import ToolDialogue.Proofs.Arithmetic.SignedCall

namespace ToolDialogue.Arithmetic

-- The characters that can stand in front of a call in a text that has a value, and those
-- that can stand behind one. Besides separators these are parts of decimals and, in front,
-- the parenthesis that closes a group or another call.
def precedes (c : Char) : Bool := c.isDigit || ['+','-','*','/','^','(',',',')','.'].contains c

def follows (c : Char) : Bool := c.isDigit || ['+','-','*','/','^',')',',','.'].contains c

def Precedes (front : List Char) : Prop := ∀ c ∈ front.getLast?, precedes c = true

-- Neither of the words `inf` and `NaN` is in the text. A prepared text has them only as its
-- caller typed them.
def Wordless (text : List Char) : Prop := ∀ word, isReserved word = true → ¬word <:+: text

def Leads (front : List Char) : Prop := Precedes front ∨ ∃ word, isReserved word = true ∧ word <:+ front

def Trails (back : List Char) : Prop :=
  (∀ c ∈ back.head?, follows c = true) ∨ ∃ function : Function, function.opening <+: back

variable {α : Type} {ops : Numbers α} {evaluate : List Char → Except Error α} {function : Function}
  {n depth left levels : Nat} {text front back part argument rest out : List Char} {c : Char} {v : α}

section Positions

theorem part_cases {γ : Type} {c : γ} {before behind front part back : List γ}
    (whole : before ++ c :: behind = front ++ (part ++ back)) :
    (∃ rest, before = front ++ (part ++ rest) ∧ back = rest ++ c :: behind) ∨
      (∃ early late, part = early ++ c :: late ∧ before = front ++ early ∧ behind = late ++ back) ∨
      ∃ rest, front = before ++ c :: rest ∧ behind = rest ++ (part ++ back) := by
  have within {more : List γ} (same : part ++ back = more ++ c :: behind) :
      (∃ rest, more = part ++ rest ∧ back = rest ++ c :: behind) ∨
        ∃ early late, part = early ++ c :: late ∧ more = early ∧ behind = late ++ back := by
    rcases List.append_eq_append_iff.mp same with ⟨rest,rfl,tail⟩ | ⟨rest,rfl,tail⟩
    · exact .inl ⟨rest,rfl,tail⟩
    · cases rest with
      | nil => exact .inl ⟨[],by simp,tail.symm⟩
      | cons d rest =>
        obtain ⟨rfl,rfl⟩ := List.cons.inj tail
        exact .inr ⟨more,rest,rfl,rfl,rfl⟩
  rcases List.append_eq_append_iff.mp whole with ⟨more,rfl,same⟩ | ⟨more,rfl,same⟩
  · cases more with
    | nil =>
      rcases @within [] same.symm with ⟨rest,split,tail⟩ | ⟨early,late,split,empty,tail⟩
      · exact .inl ⟨rest,by simp [← split],tail⟩
      · exact .inr (.inl ⟨early,late,split,by simp [← empty],tail⟩)
    | cons d more =>
      obtain ⟨rfl,tail⟩ := List.cons.inj same
      exact .inr (.inr ⟨more,rfl,tail⟩)
  · rcases within same with ⟨rest,rfl,tail⟩ | ⟨early,late,split,rfl,tail⟩
    · exact .inl ⟨rest,rfl,tail⟩
    · exact .inr (.inl ⟨more,late,split,rfl,tail⟩)

theorem first_unique {γ : Type} {c : γ} {x s z t : List γ} (here : c ∉ x) (there : c ∉ z)
    (same : x ++ c :: s = z ++ c :: t) : x = z ∧ s = t := by
  rcases List.append_eq_append_iff.mp same with ⟨more,rfl,tail⟩ | ⟨more,rfl,tail⟩
  · cases more with
    | nil => exact ⟨by simp,(List.cons.inj tail).2⟩
    | cons d more => exact absurd (by rw [(List.cons.inj tail).1]; simp) there
  · cases more with
    | nil => exact ⟨by simp,(List.cons.inj tail).2.symm⟩
    | cons d more => exact absurd (by rw [(List.cons.inj tail).1]; simp) here

theorem opening_unique {other : Function} {s t : List Char} (same : function.opening ++ s = other.opening ++ t) :
    function = other ∧ s = t := by
  rw [function.opening_append,other.opening_append] at same
  obtain ⟨letters,rfl⟩ := first_unique (paren_not_letter function) (paren_not_letter other) same
  refine ⟨?_,rfl⟩
  cases function <;> cases other <;> first | rfl | exact absurd letters (by decide)

theorem closing_unique {m : Nat} {a b s t : List Char} (first : Nested n a) (second : Nested m b)
    (same : a ++ ')' :: s = b ++ ')' :: t) : a = b ∧ s = t := by
  have one := first.closeFrom_append 0 [] (')' :: s)
  have other := second.closeFrom_append 0 [] (')' :: t)
  rw [same,other] at one
  simpa [closeFrom,eq_comm] using one

theorem letters_suffix {other : Function} (ends : function.letters <:+ other.letters) : function = other := by
  revert ends
  cases function <;> cases other <;> first | exact fun _ => rfl | exact fun ends => absurd ends (by decide)

end Positions

section Neighbours

theorem leads_nil : Leads [] := .inl fun _ last => by cases last

theorem leads_behind (marks : precedes c = true) (behind : Leads back) : Leads (front ++ c :: back) := by
  rcases behind with plain | ⟨word,reserved,ends⟩
  · refine .inl fun d last => ?_
    rw [List.getLast?_append,List.getLast?_cons] at last
    cases ends : back.getLast? with
    | none =>
      rw [ends] at last
      cases last
      exact marks
    | some e =>
      rw [ends] at last
      cases last
      exact plain _ ends
  · exact .inr ⟨word,reserved,ends.trans ((List.suffix_cons c back).trans (List.suffix_append front _))⟩

theorem Leads.wordless (leads : Leads front) (wordless : Wordless text) (within : front <+: text) : Precedes front :=
  leads.resolve_right fun ⟨word,reserved,ends⟩ => wordless word reserved (ends.isInfix.trans within.isInfix)

-- The last character is in no name, so no call can begin in the text and end behind it.
def Unlettered (front : List Char) : Prop := ∀ c ∈ front.getLast?, ∀ function : Function, c ∉ function.letters

theorem not_precedes_of_letter (function : Function) : ∀ c ∈ function.letters, precedes c = false := by
  cases function <;> simp [Function.letters,Function.name,precedes]

theorem Leads.unlettered (leads : Leads front) : Unlettered front := by
  intro c last function member
  rcases leads with plain | ⟨word,reserved,rest,rfl⟩
  · exact Bool.noConfusion ((plain c last).symm.trans (not_precedes_of_letter function c member))
  · have letter : c = 'f' ∨ c = 'N' := by
      simp only [isReserved,Bool.or_eq_true,beq_iff_eq] at reserved
      rcases reserved with rfl | rfl <;> simp at last <;> simp [← last]
    rcases letter with rfl | rfl <;> cases function <;> exact absurd member (by decide)

theorem Unlettered.of_append (unlettered : Unlettered (front ++ back)) : Unlettered back := by
  intro c last
  refine unlettered c ?_
  rw [List.getLast?_append,Option.mem_def.mp last]
  rfl

theorem Unlettered.parted (unlettered : Unlettered front) (back : List Char) : Parted function front back :=
  parted_of_last (fun c last => unlettered c last function) back

theorem Unlettered.not_within (unlettered : Unlettered part) (filled : part ≠ []) (function : Function) :
    ¬part <:+: function.letters := by
  intro found
  obtain ⟨front,last,rfl⟩ := (List.eq_nil_or_concat part).resolve_left filled
  exact unlettered last (by simp) function (found.subset (by simp))

theorem trails_nil : Trails [] := .inl fun _ head => by cases head

theorem trails_cons (marks : follows c = true) (back : List Char) : Trails (c :: back) :=
  .inl fun _ head => by cases head; exact marks

theorem Trails.append (first : Trails back) (second : Trails rest) : Trails (back ++ rest) := by
  rcases first with head | ⟨function,starts⟩
  · cases back with
    | nil => exact second
    | cons c more => exact trails_cons (head c rfl) _
  · exact .inr ⟨function,starts.trans (List.prefix_append back rest)⟩

theorem not_trails_of_word {word : List Char} (reserved : isReserved word = true) (cut : part <:+ word)
    (filled : part ≠ []) (other : part ≠ word) (back : List Char) : ¬Trails (part ++ back) := by
  have letter : ∃ c rest, part = c :: rest ∧ c ∈ ['n','f','a','N'] := by
    simp only [isReserved,Bool.or_eq_true,beq_iff_eq] at reserved
    rcases reserved with rfl | rfl <;> simp [List.suffix_cons_iff,filled,other] at cut <;>
      rcases cut with rfl | rfl <;> simp
  obtain ⟨c,rest,rfl,listed⟩ := letter
  simp only [List.mem_cons,List.not_mem_nil,or_false] at listed
  rintro (head | ⟨function,starts⟩)
  · have marks := head c rfl
    rcases listed with rfl | rfl | rfl | rfl <;> exact absurd marks (by decide)
  · obtain ⟨first,letters⟩ : ∃ first, function.opening.head? = some first := by cases function <;> exact ⟨_,rfl⟩
    obtain ⟨more,whole⟩ := starts
    have same := congrArg List.head? whole
    rw [List.head?_append,letters] at same
    cases same
    rcases listed with rfl | rfl | rfl | rfl <;> cases function <;> exact absurd letters (by decide)

theorem unsigned_leads {digits : List Char} (unsigned : isDecimal digits = true ∨ isReserved digits = true) :
    Leads digits := by
  rcases unsigned with decimal | reserved
  · refine .inl fun c last => ?_
    simp only [isDecimal,Bool.and_eq_true,List.all_eq_true] at decimal
    have own := decimal.1.1 c (List.mem_of_getLast? last)
    simp only [Bool.or_eq_true,beq_iff_eq] at own
    rcases own with digit | rfl
    · simp [precedes,digit]
    · rfl
  · exact .inr ⟨digits,reserved,List.suffix_rfl⟩

theorem numeral_leads (reads : isNumeral text = true) : Leads text := by
  unfold isNumeral at reads
  split at reads
  · have own : Leads _ := unsigned_leads (by simpa using reads)
    have signed : Leads ([] ++ '-' :: _) := leads_behind (by decide) own
    exact signed
  · exact unsigned_leads (by simpa using reads)

end Neighbours

inductive Atom : List Char → Prop where
  | numeral {text : List Char} (reads : isNumeral text = true) : Atom text
  | call {n : Nat} {function : Function} {argument : List Char} (nested : Nested n argument) :
      Atom (function.opening ++ (argument ++ [')']))

section Atoms

theorem Atom.filled (atom : Atom part) : part ≠ [] := by
  cases atom with
  | numeral reads => exact numeral_ne_nil reads
  | call => simp

theorem Atom.leads (atom : Atom part) : Leads part := by
  cases atom with
  | numeral reads => exact numeral_leads reads
  | @call n function argument nested =>
    rw [← List.append_assoc]
    exact leads_behind (by decide) leads_nil

theorem Atom.open_within {early late : List Char} (atom : Atom part) (split : part = early ++ c :: late)
    (marks : c = ')' ∨ c = ',') : ∃ more, openAfter 0 early = some (more+1) := by
  cases atom with
  | numeral reads =>
    have apart := numeral_apart reads c (by simp [split])
    rcases marks with rfl | rfl <;> exact absurd apart (by decide)
  | @call n function argument nested =>
    have strange : c ∉ function.opening := by
      intro member
      rcases List.mem_append.mp member with letter | last
      · have apart := letters_apart function c letter
        rcases marks with rfl | rfl <;> exact absurd apart (by decide)
      · rcases marks with rfl | rfl <;> exact absurd last (by decide)
    have behind : ∃ within, early = function.opening ++ within ∧ argument ++ [')'] = within ++ c :: late := by
      rcases List.append_eq_append_iff.mp split with ⟨within,rfl,tail⟩ | ⟨more,name,tail⟩
      · exact ⟨within,rfl,tail⟩
      · cases more with
        | nil => exact ⟨[],by simp [name],tail.symm⟩
        | cons d more =>
          rw [name,(List.cons.inj tail).1] at strange
          simp at strange
    obtain ⟨within,rfl,tail⟩ := behind
    have inside : ∃ more, argument = within ++ more := by
      rcases List.append_eq_append_iff.mp tail with ⟨more,rfl,last⟩ | ⟨more,rfl,-⟩
      · cases more with
        | nil => exact ⟨[],by simp⟩
        | cons d more => simp at last
      · exact ⟨more,rfl⟩
    obtain ⟨more,rfl⟩ := inside
    obtain ⟨between,counted,-⟩ := openAfter_front (nested.openAfter 0)
    refine ⟨between,?_⟩
    rw [openAfter_append,openAfter_opening]
    exact openAfter_add 1 counted

theorem Atom.within {outer inner early late : List Char} (atom : Atom outer) (other : Atom inner)
    (called : '(' ∈ outer ∨ '(' ∈ inner) (split : outer = early ++ late) (filled : late ≠ [])
    (whole : late ++ back = inner ++ rest) :
    (early = [] ∧ outer = inner ∧ back = rest) ∨
      ∃ (function : Function) (before behind : List Char) (n : Nat), Nested n (before ++ (inner ++ behind)) ∧
        outer = function.opening ++ (before ++ (inner ++ behind) ++ [')']) ∧
        early = function.opening ++ before ∧ rest = behind ++ ')' :: back := by
  have suffix : Unlettered late := Unlettered.of_append (split ▸ atom.leads.unlettered)
  cases atom with
  | numeral reads =>
    have opened : '(' ∈ inner := called.resolve_left (numeral_unopened reads)
    cases other with
    | numeral reads => exact absurd opened (numeral_unopened reads)
    | @call m g a nested =>
      have same : g.letters ++ '(' :: (a ++ ')' :: rest) = [] ++ (late ++ back) := by
        simpa [Function.opening] using whole.symm
      rcases part_cases same with ⟨r,name,-⟩ | ⟨e,l,rfl,-⟩ | ⟨r,empty,-⟩
      · exact absurd ⟨[],r,by rw [name]; simp⟩ (suffix.not_within filled g)
      · exact absurd (by simp [split]) (numeral_unopened reads)
      · simp at empty
  | @call n h a' nested =>
    have same : h.letters ++ '(' :: (a' ++ [')']) = early ++ (late ++ []) := by
      rw [List.append_nil,← split,h.opening_append]
    rcases part_cases same with ⟨r,-,empty⟩ | ⟨e,l,rfl,name,tail⟩ | ⟨before,rfl,tail⟩
    · simp at empty
    · -- it would begin in the name, unless it is the call itself
      rw [List.append_nil] at tail
      subst tail
      cases other with
      | numeral reads =>
        have apart : e ++ '(' :: (a' ++ ')' :: back) = [] ++ (inner ++ rest) := by simpa using whole
        rcases part_cases apart with ⟨r,rfl,-⟩ | ⟨_,_,rfl,-⟩ | ⟨r,empty,-⟩
        · exact absurd ⟨early,r,by rw [name]; simp⟩ ((numeral_leads reads).unlettered.not_within (numeral_ne_nil reads) h)
        · exact absurd (by simp) (numeral_unopened reads)
        · simp at empty
      | @call m g a other =>
        have apart : e ++ '(' :: (a' ++ ')' :: back) = g.letters ++ '(' :: (a ++ ')' :: rest) := by
          simpa [Function.opening] using whole
        have plain : '(' ∉ e := fun member => paren_not_letter h (by rw [name]; simp [member])
        obtain ⟨rfl,closed⟩ := first_unique plain (paren_not_letter g) apart
        have ends : g.letters <:+ h.letters := ⟨early,name.symm⟩
        cases letters_suffix ends
        obtain ⟨rfl,rfl⟩ := closing_unique nested other closed
        exact .inl ⟨by simpa using name,rfl,rfl⟩
    · -- it begins in the argument, where it must end
      rw [List.append_nil] at tail
      obtain ⟨o,last,rfl⟩ := (List.eq_nil_or_concat late).resolve_left filled
      rw [List.concat_eq_append,← List.append_assoc] at tail
      obtain ⟨rfl,final⟩ := List.append_inj' tail rfl
      cases final
      have closing : o ++ ')' :: back = [] ++ (inner ++ rest) := by simpa using whole
      rcases part_cases closing with ⟨behind,rfl,rfl⟩ | ⟨e,l,part,rfl,-⟩ | ⟨r,empty,-⟩
      · exact .inr ⟨h,before,behind,n,nested,by simp,by rw [h.opening_append],rfl⟩
      · obtain ⟨more,counted⟩ := other.open_within part (.inl rfl)
        obtain ⟨between,-,closes⟩ := openAfter_front (nested.openAfter 0)
        have deeper := openAfter_add between counted
        rw [Nat.zero_add,closes] at deeper
        have equal := Option.some.inj deeper
        omega
      · simp at empty

inductive Meets (front part back before other behind : List Char) : Prop where
  | earlier {rest : List Char} (own : before = front ++ (part ++ rest)) (tail : back = rest ++ (other ++ behind))
  | later {rest : List Char} (own : front = before ++ (other ++ rest)) (tail : behind = rest ++ (part ++ back))
  | same (own : front = before) (part : part = other) (tail : back = behind)
  | around {n : Nat} {function : Function} {early late : List Char} (nested : Nested n (early ++ (other ++ late)))
      (own : part = function.opening ++ (early ++ (other ++ late) ++ [')']))
      (begins : before = front ++ (function.opening ++ early)) (tail : behind = late ++ ')' :: back)
  | inside {n : Nat} {function : Function} {early late : List Char} (nested : Nested n (early ++ (part ++ late)))
      (own : other = function.opening ++ (early ++ (part ++ late) ++ [')']))
      (begins : front = before ++ (function.opening ++ early)) (tail : back = late ++ ')' :: behind)

theorem Atom.meets {before other behind : List Char} (one : Atom part) (two : Atom other)
    (called : '(' ∈ part ∨ '(' ∈ other) (whole : front ++ (part ++ back) = before ++ (other ++ behind)) :
    Meets front part back before other behind := by
  rcases List.append_eq_append_iff.mp whole with ⟨more,rfl,same⟩ | ⟨more,rfl,same⟩
  · rcases List.append_eq_append_iff.mp same with ⟨rest,rfl,tail⟩ | ⟨late,split,tail⟩
    · exact .earlier rfl tail
    by_cases filled : late = []
    · subst filled
      have begins : front ++ more = front ++ (part ++ []) := by rw [split,List.append_nil,List.append_nil]
      exact .earlier begins tail.symm
    rcases one.within two called split filled tail.symm with ⟨rfl,rfl,rfl⟩ | ⟨function,early,late,n,nested,rfl,rfl,rfl⟩
    · exact .same (by simp) rfl rfl
    · exact .around nested rfl rfl rfl
  · rcases List.append_eq_append_iff.mp same with ⟨rest,rfl,tail⟩ | ⟨late,split,tail⟩
    · exact .later rfl tail
    by_cases filled : late = []
    · subst filled
      have begins : before ++ more = before ++ (other ++ []) := by rw [split,List.append_nil,List.append_nil]
      exact .later begins tail.symm
    rcases two.within one called.symm split filled tail.symm with ⟨rfl,rfl,rfl⟩ | ⟨function,early,late,n,nested,rfl,rfl,rfl⟩
    · exact .same (by simp) rfl rfl
    · exact .inside nested rfl rfl rfl

end Atoms

def Neighboured (text : List Char) : Prop :=
  ∀ front part back, Atom part → text = front ++ (part ++ back) → Leads front ∧ Trails back

section Passes

variable {between : List Char}

-- A word that ends between two numerals does not begin in the first: what is left of it could
-- not stand behind that.
theorem leads_behind_numeral {printed : List Char} (leads : Leads (front ++ (printed ++ part)))
    (trails : Trails (part ++ back)) : Leads part := by
  by_cases filled : part = []
  · rw [filled]
    exact leads_nil
  rw [← List.append_assoc] at leads
  rcases leads with plain | ⟨word,reserved,ends⟩
  · refine .inl fun c last => plain c ?_
    rw [List.getLast?_append,Option.mem_def.mp last]
    rfl
  rcases List.suffix_or_suffix_of_suffix ends (List.suffix_append (front ++ printed) part) with within | cut
  · exact .inr ⟨word,reserved,within⟩
  by_cases whole : part = word
  · exact .inr ⟨word,reserved,whole ▸ List.suffix_rfl⟩
  · exact absurd trails (not_trails_of_word reserved cut filled whole back)

theorem Neighboured.behind_numeral {printed : List Char} (neighboured : Neighboured (front ++ (printed ++ back)))
    (reads : isNumeral printed = true) : Neighboured back := by
  intro before part behind atom split
  obtain ⟨-,own⟩ := neighboured front printed back (.numeral reads) rfl
  obtain ⟨leads,trails⟩ := neighboured (front ++ (printed ++ before)) part behind atom (by simp [split])
  rw [split] at own
  exact ⟨leads_behind_numeral leads own,trails⟩

theorem Neighboured.comma {base exponent : List Char} (nested : Nested n base) (first : Neighboured base)
    (second : Neighboured exponent) : Neighboured (base ++ ',' :: exponent) := by
  intro front part back atom split
  rcases part_cases split with ⟨rest,rfl,rfl⟩ | ⟨early,late,own,rfl,-⟩ | ⟨rest,rfl,rfl⟩
  · obtain ⟨leads,trails⟩ := first front part rest atom rfl
    exact ⟨leads,trails.append (trails_cons (by decide) exponent)⟩
  · obtain ⟨more,counted⟩ := atom.open_within own (.inr rfl)
    obtain ⟨depth,-,closes⟩ := openAfter_front (nested.openAfter 0)
    have deeper := openAfter_add depth counted
    rw [Nat.zero_add,closes] at deeper
    have equal := Option.some.inj deeper
    omega
  · obtain ⟨leads,trails⟩ := second rest part back atom rfl
    exact ⟨leads_behind (by decide) leads,trails⟩

theorem opening_of_print {printed : List Char} {other : Function} (reads : isNumeral printed = true)
    (filled : front ≠ []) (starts : other.opening <+: front ++ (printed ++ back)) : other.opening <+: front := by
  have cut {x y : List Char} (parted : Parted other x y) (filled : x ≠ []) (starts : other.opening <+: x ++ y) :
      other.opening <+: x := by
    obtain ⟨rest,whole⟩ := starts
    rcases List.append_eq_append_iff.mp whole with ⟨more,rfl,-⟩ | ⟨more,split,rfl⟩
    · exact ⟨more,rfl⟩
    · rcases parted x more List.suffix_rfl ⟨rest,rfl⟩ split.symm with empty | rfl
      · exact absurd empty filled
      · exact ⟨[],by simpa using split⟩
  have ends : Unlettered (front ++ printed) := by
    intro c last
    rw [List.getLast?_append_of_ne_nil _ (numeral_ne_nil reads)] at last
    exact (numeral_leads reads).unlettered c last
  rw [← List.append_assoc] at starts
  have within := cut (ends.parted back) (by simp [filled]) starts
  exact cut (parted_of_flat front (numeral_unopened reads)) filled within

theorem expandCalls_trails (prints : ops.PrintsNumerals) (cut : Cut function back)
    (expanded : expandCalls ops evaluate function back = .ok out) (trails : Trails out) : Trails back := by
  cases cut with
  | plain uncalled =>
    rw [expandCalls_uncalled uncalled] at expanded
    cases expanded
    exact trails
  | @call n front argument rest uncalled nested on =>
    rw [expandCalls_call uncalled nested] at expanded
    obtain ⟨v,-,expanded⟩ := bind_ok.mp expanded
    obtain ⟨behind,-,expanded⟩ := bind_ok.mp expanded
    cases expanded
    cases front with
    | nil => exact .inr ⟨function,⟨_,rfl⟩⟩
    | cons c more =>
      rcases trails with head | ⟨other,starts⟩
      · exact trails_cons (head c rfl) _
      · have own := opening_of_print (prints v) (List.cons_ne_nil c more) starts
        exact .inr ⟨other,own.trans (List.prefix_append _ _)⟩

theorem expandCalls_closing {inner : List Char} (ends : openAfter depth inner = some 0) (second : Cut function back) :
    expandCalls ops evaluate function (inner ++ ')' :: back) = (do
      let before ← expandCalls ops evaluate function inner
      let behind ← expandCalls ops evaluate function back
      pure (before ++ ')' :: behind)) := by
  have flat : '(' ∉ [')'] := by decide
  have closed : openAfter (depth+1) (inner ++ [')']) = some 0 := by
    rw [openAfter_append,openAfter_add 1 ends]
    rfl
  have leads : Leads (inner ++ [')']) := leads_behind (by decide) leads_nil
  rw [List.append_cons,expandCalls_append (cut_of_openAfter function closed) second (leads.unlettered.parted back),
    expandCalls_append (cut_of_openAfter function ends) (.plain (uncalled_of_flat flat function))
      (parted_of_flat inner flat),expandCalls_uncalled (uncalled_of_flat flat function)]
  cases expandCalls ops evaluate function inner with
  | error e => rfl
  | ok before => cases expandCalls ops evaluate function back <;> simp [bind,Except.bind,pure,Except.pure]

theorem expandCalls_neighboured (prints : ops.PrintsNumerals) (closed : openAfter depth text = some 0)
    (expanded : expandCalls ops evaluate function text = .ok out) (neighboured : Neighboured out)
    (arguments : ∀ argument v, callValue ops evaluate function argument = .ok v → ∀ n, Nested n argument →
      Neighboured argument) : Neighboured text := by
  induction cut_of_openAfter function closed generalizing depth out with
  | plain uncalled =>
    rw [expandCalls_uncalled uncalled] at expanded
    cases expanded
    exact neighboured
  | @call n before argument rest uncalled nested on ih =>
    obtain ⟨here,-,closes⟩ := openAfter_front closed
    rw [openAfter_call nested] at closes
    rw [expandCalls_call uncalled nested] at expanded
    obtain ⟨v,valued,expanded⟩ := bind_ok.mp expanded
    obtain ⟨next,later,expanded⟩ := bind_ok.mp expanded
    cases expanded
    have own : Atom (function.opening ++ (argument ++ [')'])) := .call nested
    have called : '(' ∈ function.opening ++ (argument ++ [')']) := by simp [Function.opening]
    intro front part back atom split
    have whole : front ++ (part ++ back) = before ++ ((function.opening ++ (argument ++ [')'])) ++ rest) := by
      rw [← split]
      simp
    cases atom.meets own (.inr called) whole with
    | @earlier between begins tail =>
      subst begins tail
      have apart : ¬function.opening <:+: between :=
        fun found => uncalled (found.trans ⟨front ++ part,[],by simp⟩)
      have pass : expandCalls ops evaluate function (between ++ (function.opening ++ (argument ++ ')' :: rest))) =
          .ok (between ++ (ops.print v ++ next)) := by
        rw [expandCalls_call apart nested,valued,later]
        rfl
      obtain ⟨leads,trails⟩ := neighboured front part (between ++ (ops.print v ++ next)) atom (by simp)
      have still := expandCalls_trails prints (.call apart nested on) pass trails
      exact ⟨leads,by simpa using still⟩
    | same begins same tail =>
      subst begins tail
      obtain ⟨leads,trails⟩ := neighboured front (ops.print v) next (.numeral (prints v)) rfl
      exact ⟨leads,expandCalls_trails prints on later trails⟩
    | @later between begins tail =>
      subst begins tail
      have after := neighboured.behind_numeral (prints v)
      obtain ⟨leads,trails⟩ := ih closes later after between part back atom rfl
      have closing : before ++ (function.opening ++ (argument ++ [')']) ++ between) =
          (before ++ (function.opening ++ argument)) ++ ')' :: between := by simp
      exact ⟨closing ▸ leads_behind (by decide) leads,trails⟩
    | @around m other early late outer own begins tail =>
      subst own begins tail
      have apart : ¬function.opening <:+: early :=
        fun found => uncalled (found.trans ⟨front ++ other.opening,[],by simp⟩)
      have spelled : early ++ (function.opening ++ (argument ++ [')']) ++ late) =
          early ++ (function.opening ++ (argument ++ ')' :: late)) := by simp
      rw [spelled] at outer
      obtain ⟨_,_,ends⟩ := openAfter_front (outer.openAfter 0)
      rw [openAfter_call nested] at ends
      obtain ⟨_,_,tail⟩ := openAfter_front closes
      rw [openAfter_cons] at tail
      obtain ⟨_,_,tail⟩ := Option.bind_eq_some_iff.mp tail
      have cut := cut_of_openAfter function tail
      rw [expandCalls_closing ends cut] at later
      obtain ⟨inner,within,later⟩ := bind_ok.mp later
      obtain ⟨behind,further,later⟩ := bind_ok.mp later
      cases later
      have pass : expandCalls ops evaluate function (early ++ (function.opening ++ (argument ++ ')' :: late))) =
          .ok (early ++ (ops.print v ++ inner)) := by
        rw [expandCalls_call apart nested,valued,within]
        rfl
      obtain ⟨_,_,still⟩ := outer.expandCalls prints pass
      have call : Atom (other.opening ++ (early ++ (ops.print v ++ inner) ++ [')'])) := .call still
      obtain ⟨leads,trails⟩ := neighboured front _ behind call (by simp)
      exact ⟨leads,expandCalls_trails prints cut further trails⟩
    | @inside m other early late within own begins tail =>
      obtain ⟨rfl,same⟩ := opening_unique own
      cases List.append_cancel_right same
      subst begins tail
      obtain ⟨leads,trails⟩ := arguments _ v valued n nested early part late atom rfl
      have opening : before ++ (function.opening ++ early) = (before ++ function.letters) ++ '(' :: early := by
        simp [Function.opening]
      exact ⟨opening ▸ leads_behind (by decide) leads,trails.append (trails_cons (by decide) rest)⟩

theorem expandEach_neighboured {functions : List Function} (prints : ops.PrintsNumerals)
    (closed : Shallow n text) (expanded : expandEach ops evaluate functions text = .ok out)
    (neighboured : Neighboured out)
    (arguments : ∀ function argument v, callValue ops evaluate function argument = .ok v → ∀ n, Nested n argument →
      Neighboured argument) : Neighboured text := by
  induction functions generalizing text with
  | nil =>
    cases expanded
    exact neighboured
  | cons function more ih =>
    rw [expandEach_cons] at expanded
    obtain ⟨next,pass,rest⟩ := bind_ok.mp expanded
    have after := ih (expandCalls_openWithin prints.flat closed pass) rest
    exact expandCalls_neighboured prints (openAfter_of_within closed) pass after (arguments function)

end Passes

section Grammar

variable {digits : List Char} {level : Nat}

def Numbered (text : List Char) : Prop :=
  ∀ front part back, isNumeral part = true → text = front ++ (part ++ back) → Leads front ∧ Trails back

theorem numbered_unsigned (unsigned : isDecimal digits = true ∨ isReserved digits = true) : Numbered digits := by
  intro front part back reads split
  rcases unsigned with decimal | reserved
  · simp only [isDecimal,Bool.and_eq_true,List.all_eq_true] at decimal
    have plain (c : Char) (member : c ∈ digits) : precedes c = true ∧ follows c = true := by
      have own := decimal.1.1 c member
      simp only [Bool.or_eq_true,beq_iff_eq] at own
      rcases own with digit | rfl
      · simp [precedes,follows,digit]
      · exact ⟨rfl,rfl⟩
    refine ⟨.inl fun c last => (plain c ?_).1,.inl fun c head => (plain c ?_).2⟩
    · rw [split]
      exact List.mem_append_left _ (List.mem_of_getLast? last)
    · rw [split]
      exact List.mem_append_right _ (List.mem_append_right _ (List.mem_of_mem_head? head))
  · -- a reserved word is a numeral as a whole only
    have letters : ∀ c ∈ digits, c ∈ ['i','n','f','N','a'] := by
      simp only [isReserved,Bool.or_eq_true,beq_iff_eq] at reserved
      rcases reserved with rfl | rfl <;> simp
    have three {word : List Char} (reserved : isReserved word = true) : word.length = 3 := by
      simp only [isReserved,Bool.or_eq_true,beq_iff_eq] at reserved
      rcases reserved with rfl | rfl <;> rfl
    have inside (c : Char) (member : c ∈ part) : c ∈ ['i','n','f','N','a'] := letters c (by simp [split,member])
    have word : isReserved part = true := by
      unfold isNumeral at reads
      split at reads
      · exact absurd (inside '-' List.mem_cons_self) (by decide)
      · refine (Bool.or_eq_true_iff.mp reads).resolve_left fun decimal => ?_
        simp only [isDecimal,Bool.and_eq_true,List.any_eq_true] at decimal
        obtain ⟨⟨-,c,member,digit⟩,-⟩ := decimal
        have letter := inside c member
        simp only [List.mem_cons,List.not_mem_nil,or_false] at letter
        rcases letter with rfl | rfl | rfl | rfl | rfl <;> exact absurd digit (by decide)
    have lengths := congrArg List.length split
    rw [List.length_append,List.length_append,three reserved,three word] at lengths
    have alone : front = [] ∧ back = [] :=
      ⟨List.length_eq_zero_iff.mp (by omega),List.length_eq_zero_iff.mp (by omega)⟩
    rw [alone.1,alone.2]
    exact ⟨leads_nil,trails_nil⟩

theorem numeral_operator {early late : List Char} (reads : isNumeral (early ++ c :: late) = true)
    (listed : c ∈ ['+','-','*','/','^']) : early = [] ∧ isNumeral late = true := by
  obtain ⟨digits,spelled,-,parts⟩ := numeral_parts reads
  have apart : c ∉ digits := by
    intro member
    have own := isPart_apart (parts c member)
    simp_all
  rcases spelled with same | same
  · exact absurd (by simp [← same]) apart
  · cases early with
    | nil =>
      cases same
      have unsigned : isDecimal late = true ∨ isReserved late = true := by simpa [isNumeral] using reads
      have bare : isNumeral late = true ∧ integers.value late = integers.read late := numeral_of_unsigned unsigned
      exact ⟨rfl,bare.1⟩
    | cons d early =>
      exact absurd (by simp [← (List.cons.inj same).2]) apart

theorem Numbered.operator (before : Numbered front) (leads : Leads front) (behind : Numbered back)
    (listed : c ∈ ['+','-','*','/','^']) : Numbered (front ++ c :: back) := by
  have marks : precedes c = true ∧ follows c = true := by
    simp only [List.mem_cons,List.not_mem_nil,or_false] at listed
    rcases listed with rfl | rfl | rfl | rfl | rfl <;> decide
  intro first part last reads split
  rcases part_cases split with ⟨rest,rfl,rfl⟩ | ⟨early,late,rfl,rfl,rfl⟩ | ⟨rest,rfl,rfl⟩
  · obtain ⟨leads,trails⟩ := before first part rest reads rfl
    exact ⟨leads,trails.append (trails_cons marks.2 back)⟩
  · obtain ⟨rfl,unsigned⟩ := numeral_operator reads listed
    rw [List.append_nil] at leads
    exact ⟨leads,(behind [] late last unsigned rfl).2⟩
  · obtain ⟨leads,trails⟩ := behind rest part last reads rfl
    exact ⟨leads_behind marks.1 leads,trails⟩

theorem Numbered.bracket (inner : Numbered text) : Numbered ('(' :: (text ++ [')'])) := by
  intro first part last reads split
  have apart := numeral_apart reads
  have filled := numeral_ne_nil reads
  rcases part_cases (show [] ++ '(' :: (text ++ [')']) = first ++ (part ++ last) from split) with
    ⟨rest,empty,-⟩ | ⟨early,late,rfl,-⟩ | ⟨rest,rfl,tail⟩
  · exact absurd (by simp_all) filled
  · exact absurd (apart '(' (by simp)) (by decide)
  rcases part_cases tail with ⟨more,rfl,rfl⟩ | ⟨early,late,rfl,-⟩ | ⟨more,-,empty⟩
  · obtain ⟨leads,trails⟩ := inner rest part more reads rfl
    exact ⟨leads_behind (by decide) leads,trails.append (trails_cons (by decide) [])⟩
  · exact absurd (apart ')' (by simp)) (by decide)
  · exact absurd (by simp_all) filled

theorem Reads.leads (reads : Reads ops level text v) : Leads text := by
  induction reads with
  | number unsigned => exact unsigned_leads unsigned
  | minus unsigned =>
    have whole : Leads ([] ++ '-' :: _) := leads_behind (by decide) (unsigned_leads unsigned)
    exact whole
  | @group inner v _ _ =>
    have whole : Leads (('(' :: inner) ++ ')' :: []) := leads_behind (by decide) leads_nil
    exact whole
  | @negated inner v _ _ =>
    have whole : Leads (('-' :: '(' :: inner) ++ ')' :: []) := leads_behind (by decide) leads_nil
    exact whole
  | single _ _ ih => exact ih
  | @chain level operation front back l r _ _ _ _ _ ih => exact leads_behind (by cases operation <;> decide) ih

theorem Reads.numbered (reads : Reads ops level text v) : Numbered text := by
  have signed {text : List Char} (own : Numbered text) : Numbered ('-' :: text) := by
    have none : Numbered [] := fun front part back reads split => by simp_all [numeral_ne_nil reads]
    exact none.operator leads_nil own (by decide)
  induction reads with
  | number unsigned => exact numbered_unsigned unsigned
  | minus unsigned => exact signed (numbered_unsigned unsigned)
  | group _ ih => exact ih.bracket
  | negated _ ih => exact signed ih.bracket
  | single _ _ ih => exact ih
  | @chain level operation front back l r _ before _ _ ihl ihr =>
    exact ihl.operator before.leads ihr (by cases operation <;> decide)

theorem Reads.characters (reads : Reads ops level text v) :
    ∀ c ∈ text, isPart c = true ∨ c ∈ ['+','-','*','/','^','(',')'] := by
  induction reads with
  | number unsigned => exact fun c member => .inl ((isPart_of_unsigned unsigned).2 c member)
  | minus unsigned =>
    intro c member
    rcases List.mem_cons.mp member with rfl | digit
    · exact .inr (by decide)
    · exact .inl ((isPart_of_unsigned unsigned).2 c digit)
  | group _ ih =>
    intro c member
    simp only [List.mem_cons,List.mem_append,List.not_mem_nil,or_false] at member
    rcases member with rfl | inner | rfl
    · exact .inr (by decide)
    · exact ih c inner
    · exact .inr (by decide)
  | negated _ ih =>
    intro c member
    simp only [List.mem_cons,List.mem_append,List.not_mem_nil,or_false] at member
    rcases member with rfl | rfl | inner | rfl
    · exact .inr (by decide)
    · exact .inr (by decide)
    · exact ih c inner
    · exact .inr (by decide)
  | single _ _ ih => exact ih
  | @chain level operation front back l r _ _ _ _ ihl ihr =>
    intro c member
    rcases List.mem_append.mp member with early | late
    · exact ihl c early
    rcases List.mem_cons.mp late with rfl | late
    · exact .inr (by cases operation <;> decide)
    · exact ihr c late

theorem Reads.neighboured (reads : Reads ops level text v) : Neighboured text := by
  intro front part back atom split
  cases atom with
  | numeral own => exact reads.numbered front part back own split
  | @call n function argument nested =>
    have strange : ∃ c ∈ function.letters, ¬(isPart c = true ∨ c ∈ ['+','-','*','/','^','(',')']) := by
      cases function <;> exact ⟨_,List.mem_cons_self,by decide⟩
    obtain ⟨c,member,apart⟩ := strange
    exact absurd (reads.characters c (by simp [split,Function.opening,member])) apart

end Grammar

theorem callValue_neighboured (nested : Nested n argument)
    (valued : callValue ops evaluate function argument = .ok v)
    (each : ∀ inner w, evaluate inner = .ok w → Neighboured inner) : Neighboured argument := by
  obtain ⟨filled,values⟩ := callValue_ok valued
  generalize listed : argumentsOf function argument = inners at filled values
  unfold argumentsOf at listed
  split at listed
  · next base exponent parted =>
    obtain ⟨rfl,⟨m,-,first⟩,-⟩ := nested.comma?_split parted
    obtain ⟨b,before⟩ := values base (by simp [← listed])
    obtain ⟨e,behind⟩ := values exponent (by simp [← listed])
    exact (each base b before).comma first (each exponent e behind)
  · exact absurd listed.symm filled
  · exact absurd listed.symm filled
  · obtain ⟨w,whole⟩ := values argument (by simp [← listed])
    exact each argument w whole

theorem evaluateWithin_neighboured (prints : ops.PrintsNumerals) (valued : evaluateWithin ops levels text = .ok v) :
    Neighboured text := by
  induction levels generalizing text v with
  | zero => cases valued
  | succ levels ih =>
    obtain ⟨passed,out,expanded,worth⟩ := evaluateWithin_ok.mp valued
    obtain ⟨n,-,nested⟩ := checkBalanced_nested passed
    refine expandEach_neighboured prints nested.shallow expanded
      (arithmetic_ok.mp worth).neighboured ?_
    exact fun function argument w valued m nested => callValue_neighboured nested valued fun _ _ => ih

-- What stands beside the calls of a text that has a value, after blanks are removed and
-- constants replaced. Where the caller types one of the words, that may stand in front.
theorem call_neighbours (prints : ops.PrintsNumerals) {expression : String}
    (valued : Arithmetic.evaluate ops expression = .ok v) (nested : Nested n argument)
    (whole : substituteConstants (compact expression) =
      front ++ (function.opening ++ (argument ++ ')' :: back))) :
    Leads front ∧ Trails back ∧ (Wordless (substituteConstants (compact expression)) → Precedes front) := by
  have call : Atom (function.opening ++ (argument ++ [')'])) := .call nested
  obtain ⟨leads,trails⟩ :=
    evaluateWithin_neighboured prints (evaluateWithin_of_ok valued) front _ back call (by rw [whole]; simp)
  refine ⟨leads,trails,fun wordless => leads.wordless wordless ?_⟩
  rw [whole]
  exact List.prefix_append front _

theorem call_neighbours_nested : Arithmetic.evaluate integers "2sqrt(16.sqrt(4))*3" = .ok 72 ∧
    (Precedes ['2'] ∧ Trails ['*','3']) ∧ Precedes ['2','s','q','r','t','(','1','6','.'] ∧ Trails [')','*','3'] := by
  have valued : Arithmetic.evaluate integers "2sqrt(16.sqrt(4))*3" = .ok 72 := by decide +kernel
  have inner : Nested 0 ['4'] := .flat (by simp)
  have outer : Nested 1 ['1','6','.','s','q','r','t','(','4',')'] :=
    (Nested.flat (by simp) : Nested 0 ['1','6','.','s','q','r','t']).append inner.enclosed
  have first : substituteConstants (compact "2sqrt(16.sqrt(4))*3") = ['2'] ++ (Function.sqrt.opening ++
      (['1','6','.','s','q','r','t','(','4',')'] ++ ')' :: ['*','3'])) := by decide +kernel
  have second : substituteConstants (compact "2sqrt(16.sqrt(4))*3") = ['2','s','q','r','t','(','1','6','.'] ++
      (Function.sqrt.opening ++ (['4'] ++ ')' :: [')','*','3'])) := by decide +kernel
  have wordless : Wordless (substituteConstants (compact "2sqrt(16.sqrt(4))*3")) := by
    intro word reserved
    simp only [isReserved,Bool.or_eq_true,beq_iff_eq] at reserved
    rcases reserved with rfl | rfl <;> decide +kernel
  obtain ⟨-,behind,front⟩ := call_neighbours integers_lawful.prints valued outer first
  obtain ⟨-,behind',front'⟩ := call_neighbours integers_lawful.prints valued inner second
  exact ⟨valued,⟨front wordless,behind⟩,front' wordless,behind'⟩

section Fused

variable {expression : String} {value : Int}

def CallBetween (expression : String) (value : Int) (front : List Char) (function : Function)
    (argument back : List Char) : Prop :=
  Arithmetic.evaluate integers expression = .ok value ∧
    substituteConstants (compact expression) = front ++ (function.opening ++ (argument ++ ')' :: back))

instance : Decidable (CallBetween expression value front function argument back) :=
  inferInstanceAs (Decidable (_ ∧ _))

def StandsAlone (front back : List Char) : Prop :=
  front.getLast?.all ['+','-','*','/','^','(',','].contains = true ∧
    back.head?.all ['+','-','*','/','^',')',','].contains = true

instance : Decidable (StandsAlone front back) := inferInstanceAs (Decidable (_ ∧ _))

-- The value of a call is read together with the text beside it: digits make one number, and
-- a minus in front of the value subtracts.
theorem calls_fuse :
    (CallBetween "2sqrt(4)" 22 ['2'] .sqrt ['4'] [] ∧ ¬StandsAlone ['2'] []) ∧
    (CallBetween "5.sqrt(4)" 5 ['5','.'] .sqrt ['4'] [] ∧ ¬StandsAlone ['5','.'] []) ∧
    (CallBetween "(1)pow(-2,3)" (-7) ['(','1',')'] .pow ['-','2',',','3'] [] ∧ ¬StandsAlone ['(','1',')'] []) ∧
    (CallBetween "sqrt(4)3" 23 [] .sqrt ['4'] ['3'] ∧ ¬StandsAlone [] ['3']) ∧
    (CallBetween "sqrt(4).5" 2 [] .sqrt ['4'] ['.','5'] ∧ ¬StandsAlone [] ['.','5']) ∧
    (CallBetween "sqrt(4)sqrt(9)" 23 [] .sqrt ['4'] ['s','q','r','t','(','9',')'] ∧
      ¬StandsAlone [] ['s','q','r','t','(','9',')']) ∧
    -- words that the caller types
    (CallBetween "infpow(-2,3)" (-8) ['i','n','f'] .pow ['-','2',',','3'] [] ∧ ¬StandsAlone ['i','n','f'] []) ∧
    CallBetween "NaNpow(-2,3)" (-8) ['N','a','N'] .pow ['-','2',',','3'] [] ∧ ¬StandsAlone ['N','a','N'] [] := by
  decide +kernel

end Fused

end ToolDialogue.Arithmetic
