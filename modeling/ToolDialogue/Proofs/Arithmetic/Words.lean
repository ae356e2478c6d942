import ToolDialogue.Proofs.Arithmetic.Neighbours
import ToolDialogue.Proofs.Arithmetic.Rendered

namespace ToolDialogue.Arithmetic

def isFigure (c : Char) : Bool := c.isDigit || c == '.'

def isPlain (c : Char) : Bool := isFigure c || ['+','-','*','/','^','(',')'].contains c

-- Between these two texts the character belongs to no constant: it is no `e` and no letter of `pi`.
def Outside (front : List Char) (c : Char) (back : List Char) : Prop :=
  c ≠ 'e' ∧ (c = 'p' → back.head? ≠ some 'i') ∧ (c = 'i' → front.getLast? ≠ some 'p')

def openers : List Char := ['+','-','*','/','^','(']
def closers : List Char := ['+','-','*','/','^',')']

def Alone (before after : List Char) : Prop :=
  (∀ c ∈ before.getLast?, c ∈ openers) ∧ ∀ c ∈ after.head?, c ∈ closers

-- The character is one of a reserved word that stands alone.
def InWord (front : List Char) (c : Char) (back : List Char) : Prop :=
  ∃ before early late after, front = before ++ early ∧ back = late ++ after ∧
    isReserved (early ++ c :: late) = true ∧ Alone before after

section Constants

variable {text out before after part front back : List Char} {c : Char}

theorem substituteConstants_constant (which : Constant) (rest : List Char) :
    substituteConstants (which.name ++ rest) = which.numeral ++ substituteConstants rest := by
  have apart : which.name.getLast? ≠ some 'p' := by cases which <;> decide
  rw [substituteConstants_append (.inl apart),(substituted_constant which).whole]

theorem substituteConstants_kept (other : c ≠ 'e') (rest : List Char) (open_ : c = 'p' → rest.head? ≠ some 'i') :
    substituteConstants (c :: rest) = c :: substituteConstants rest := by
  have single : substituteConstants [c] = [c] := by
    rw [substituteConstants_eq,List.foldl_cons,piStep_of_settled (by simp)]
    simp [eStep,other]
  have apart : [c].getLast? ≠ some 'p' ∨ rest.head? ≠ some 'i' := by
    by_cases same : c = 'p'
    · exact .inr (open_ same)
    · exact .inl (by simpa using same)
  exact (substituteConstants_append apart).trans (by rw [single]; rfl)

theorem substituteConstants_outside (outside : Outside front c back) :
    substituteConstants (front ++ c :: back) = substituteConstants front ++ c :: substituteConstants back := by
  obtain ⟨other,open_,behind⟩ := outside
  have apart : front.getLast? ≠ some 'p' ∨ (c :: back).head? ≠ some 'i' := by
    by_cases same : c = 'i'
    · exact .inl (behind same)
    · exact .inr (by simpa using same)
  rw [substituteConstants_append apart,substituteConstants_kept other back open_]

inductive Spelled : List Char → List Char → Prop where
  | nil : Spelled [] []
  | constant (which : Constant) {rest out : List Char} (behind : Spelled rest out) :
      Spelled (which.name ++ rest) (which.numeral ++ out)
  | kept (c : Char) {rest out : List Char} (behind : Spelled rest out) : Spelled (c :: rest) (c :: out)

theorem spelled (text : List Char) : Spelled text (substituteConstants text) := by
  induction size : text.length using Nat.strong_induction_on generalizing text with
  | _ size ih =>
    have shorter (rest : List Char) (less : rest.length < text.length) : Spelled rest (substituteConstants rest) :=
      ih rest.length (size ▸ less) rest rfl
    have constant (which : Constant) (rest : List Char) (whole : text = which.name ++ rest) :
        Spelled text (substituteConstants text) := by
      have less : rest.length < text.length := by
        rw [whole]
        cases which <;> simp [Constant.name]
      rw [whole,substituteConstants_constant]
      exact .constant which (shorter rest less)
    cases text with
    | nil => exact .nil
    | cons c rest =>
      by_cases letter : c = 'e'
      · exact constant .e rest (by rw [letter]; rfl)
      by_cases open_ : c = 'p' ∧ rest.head? = some 'i'
      · obtain ⟨rfl,head⟩ := open_
        obtain ⟨more,rfl⟩ := List.head?_eq_some_iff.mp head
        exact constant .pi more rfl
      · rw [substituteConstants_kept letter rest (not_and.mp open_)]
        exact .kept c (shorter rest (by simp))

theorem constant_figures (which : Constant) : ∀ c ∈ which.numeral, isFigure c = true := by
  have decimal : isDecimal which.numeral = true := by cases which <;> decide +kernel
  simp only [isDecimal,Bool.and_eq_true,List.all_eq_true] at decimal
  exact decimal.1.1

theorem Spelled.split (spelled : Spelled text (before ++ c :: after)) (letter : isFigure c = false) :
    ∃ front back, text = front ++ c :: back ∧ Spelled front before ∧ Spelled back after := by
  generalize whole : before ++ c :: after = out at spelled
  induction spelled generalizing before with
  | nil => simp at whole
  | @constant which rest out behind ih =>
    rcases List.append_eq_append_iff.mp whole with ⟨more,same,tail⟩ | ⟨more,same,tail⟩
    · cases more with
      | nil =>
        obtain ⟨front,back,rfl,first,second⟩ := ih (show [] ++ c :: after = out from tail)
        refine ⟨which.name ++ front,back,by simp,?_,second⟩
        rw [List.append_nil] at same
        have joined := Spelled.constant which first
        rwa [List.append_nil,same] at joined
      | cons d more =>
        obtain ⟨rfl,-⟩ := List.cons.inj tail
        have figure := constant_figures which c (by simp [same])
        rw [letter] at figure
        cases figure
    · subst same
      obtain ⟨front,back,rfl,first,second⟩ := ih tail.symm
      exact ⟨which.name ++ front,back,by simp,.constant which first,second⟩
  | @kept d rest out behind ih =>
    cases before with
    | nil =>
      obtain ⟨rfl,rfl⟩ := List.cons.inj whole
      exact ⟨[],rest,rfl,.nil,behind⟩
    | cons e before =>
      obtain ⟨rfl,tail⟩ := List.cons.inj whole
      obtain ⟨front,back,rfl,first,second⟩ := ih tail
      exact ⟨e :: front,back,rfl,.kept e first,second⟩

theorem Spelled.eq_nil (spelled : Spelled text []) : text = [] := by
  generalize whole : [] = out at spelled
  cases spelled with
  | nil => rfl
  | constant which behind => exact absurd (List.append_eq_nil_iff.mp whole.symm).1 (numeral_ne_nil which.reads)
  | kept c behind => cases whole

theorem Spelled.first_kept (spelled : Spelled text (c :: after)) (letter : isFigure c = false) :
    ∃ back, text = c :: back ∧ Spelled back after := by
  obtain ⟨front,back,rfl,none,behind⟩ := (show Spelled text ([] ++ c :: after) from spelled).split letter
  exact ⟨back,by simp [none.eq_nil],behind⟩

theorem Spelled.back_kept (spelled : Spelled text (part ++ after)) (letters : ∀ c ∈ part, isFigure c = false) :
    ∃ back, text = part ++ back ∧ Spelled back after := by
  induction part generalizing text with
  | nil => exact ⟨text,rfl,spelled⟩
  | cons c more ih =>
    obtain ⟨own,others⟩ := List.forall_mem_cons.mp letters
    obtain ⟨back,rfl,behind⟩ := spelled.first_kept own
    obtain ⟨rest,rfl,tail⟩ := ih behind others
    exact ⟨rest,rfl,tail⟩

theorem Spelled.front_kept (spelled : Spelled text (before ++ part)) (letters : ∀ c ∈ part, isFigure c = false) :
    ∃ front, text = front ++ part ∧ Spelled front before := by
  cases part with
  | nil => exact ⟨text,by simp,by simpa using spelled⟩
  | cons c more =>
    obtain ⟨own,others⟩ := List.forall_mem_cons.mp letters
    obtain ⟨front,back,rfl,first,behind⟩ := spelled.split own
    obtain ⟨rest,rfl,none⟩ := (show Spelled back (more ++ []) by simpa using behind).back_kept others
    exact ⟨front,by simp [none.eq_nil],first⟩

theorem Alone.kept (alone : Alone before after) (first : Spelled front before) (second : Spelled back after) :
    Alone front back := by
  have marks {c : Char} (listed : c ∈ openers ∨ c ∈ closers) :
      isFigure c = false := by
    simp only [openers,closers,List.mem_cons,List.not_mem_nil,or_false] at listed
    rcases listed with (rfl | rfl | rfl | rfl | rfl | rfl) | rfl | rfl | rfl | rfl | rfl | rfl <;> decide
  constructor
  · intro c last
    rcases List.eq_nil_or_concat before with rfl | ⟨others,d,rfl⟩
    · rw [first.eq_nil] at last
      cases last
    · rw [List.concat_eq_append] at first alone
      have listed := alone.1 d (by simp)
      obtain ⟨more,rest,rfl,-,none⟩ := first.split (marks (.inl listed))
      rw [none.eq_nil] at last
      have same : d = c := by simpa using last
      rwa [← same]
  · intro c head
    cases after with
    | nil =>
      rw [second.eq_nil] at head
      cases head
    | cons d others =>
      have listed := alone.2 d rfl
      obtain ⟨more,rfl,-⟩ := second.first_kept (marks (.inr listed))
      have same : d = c := by simpa using head
      rwa [← same]

end Constants

section Grammar

variable {α : Type} {ops : Numbers α} {level : Nat} {v : α} {text front back more rest : List Char} {c d : Char}

def Worded (text : List Char) : Prop :=
  ∀ front c back, text = front ++ c :: back → isPlain c = true ∨ InWord front c back

theorem worded_nil : Worded [] := by
  intro front c back split
  simp at split

theorem InWord.within (inside : InWord front c back) (opens : ∀ c ∈ more.getLast?, c ∈ openers)
    (closes : ∀ c ∈ rest.head?, c ∈ closers) : InWord (more ++ front) c (back ++ rest) := by
  obtain ⟨before,early,late,after,rfl,rfl,reserved,left,right⟩ := inside
  refine ⟨more ++ before,early,late,after ++ rest,by simp,by simp,reserved,?_,?_⟩
  · intro e last
    rw [List.getLast?_append] at last
    cases ends : before.getLast? with
    | none => exact opens e (by simpa [ends] using last)
    | some f => exact left e (by simpa [ends] using last)
  · intro e head
    rw [List.head?_append] at head
    cases starts : after.head? with
    | none => exact closes e (by simpa [starts] using head)
    | some f => exact right e (by simpa [starts] using head)

theorem Worded.join (before : Worded front) (behind : Worded back) (plain : isPlain d = true)
    (closes : front = [] ∨ d ∈ closers) (opens : back = [] ∨ d ∈ openers) :
    Worded (front ++ d :: back) := by
  intro first c last split
  rcases part_cases (show first ++ c :: last = front ++ ([d] ++ back) from split.symm) with ⟨more,rfl,rfl⟩ | ⟨early,late,single,-,-⟩ | ⟨more,rfl,rfl⟩
  · refine (behind more c last rfl).imp_right fun inside => ?_
    have listed := opens.resolve_left (by simp)
    have joined : InWord ((front ++ [d]) ++ more) c (last ++ []) := inside.within (by simpa using listed) (by simp)
    simpa using joined
  · cases early with
    | nil =>
      obtain ⟨rfl,-⟩ := List.cons.inj single
      exact .inl plain
    | cons e early => simp at single
  · refine (before first c more rfl).imp_right fun inside => ?_
    have listed := closes.resolve_left (by simp)
    have joined : InWord ([] ++ first) c (more ++ d :: back) := inside.within (by simp) (by simpa using listed)
    exact joined

theorem worded_unsigned (unsigned : isDecimal text = true ∨ isReserved text = true) : Worded text := by
  intro front c back split
  rcases unsigned with decimal | reserved
  · simp only [isDecimal,Bool.and_eq_true,List.all_eq_true] at decimal
    have figure : isFigure c = true := decimal.1.1 c (by simp [split])
    exact .inl (by rw [isPlain,figure]; rfl)
  · exact .inr ⟨[],front,back,[],rfl,by simp,split ▸ reserved,by simp,by simp⟩

theorem Reads.worded (reads : Reads ops level text v) : Worded text := by
  have signed {text : List Char} (own : Worded text) : Worded ('-' :: text) :=
    worded_nil.join own rfl (.inl rfl) (.inr (by decide))
  have bracket {text : List Char} (own : Worded text) : Worded ('(' :: (text ++ [')'])) :=
    worded_nil.join (own.join worded_nil rfl (.inr (by decide)) (.inl rfl)) rfl (.inl rfl) (.inr (by decide))
  induction reads with
  | number unsigned => exact worded_unsigned unsigned
  | minus unsigned => exact signed (worded_unsigned unsigned)
  | group _ ih => exact bracket ih
  | negated _ ih => exact signed (bracket ih)
  | single _ _ ih => exact ih
  | @chain level operation front back l r _ _ _ _ ihl ihr =>
    apply ihl.join ihr
    · cases operation <;> rfl
    · exact .inr (by cases operation <;> decide)
    · exact .inr (by cases operation <;> decide)

end Grammar

section Typed

variable {α : Type} {ops : Numbers α} {expression : String} {v : α} {front back : List Char} {c : Char}

theorem uncalled_substituteConstants {text : List Char} (uncalled : Uncalled text) :
    Uncalled (substituteConstants text) := by
  intro function found
  obtain ⟨before,after,whole⟩ := found
  have letters : ∀ c ∈ function.letters ++ ['('], isFigure c = false := by
    cases function <;> simp [Function.letters,Function.name,isFigure]
  have start := spelled text
  rw [← whole,List.append_assoc] at start
  cases opening : function.letters ++ ['('] with
  | nil => simp at opening
  | cons c more =>
    rw [opening] at start letters
    obtain ⟨front,rest,rfl,-,behind⟩ := start.split (letters c List.mem_cons_self)
    obtain ⟨back,rfl,-⟩ := behind.back_kept fun d member => letters d (List.mem_cons_of_mem _ member)
    exact uncalled function ⟨front,back,by rw [opening]; simp⟩

theorem InWord.kept (inside : InWord (substituteConstants front) c (substituteConstants back)) : InWord front c back := by
  obtain ⟨before,early,late,after,left,right,reserved,alone⟩ := inside
  have letters : ∀ d ∈ early ++ c :: late, isFigure d = false := by
    simp only [isReserved,Bool.or_eq_true,beq_iff_eq] at reserved
    rcases reserved with same | same <;> simp [same,isFigure]
  obtain ⟨outer,rfl,first⟩ := (left ▸ spelled front).front_kept fun d member => letters d (by simp [member])
  obtain ⟨others,rfl,second⟩ := (right ▸ spelled back).back_kept fun d member => letters d (by simp [member])
  exact ⟨outer,early,late,others,rfl,rfl,reserved,alone.kept first second⟩

-- In an expression that has a value and calls nothing, what is neither a blank nor part of a
-- constant is plain, or one letter of the words `inf` and `NaN`, which then stand alone as operands.
-- So it is plain throughout exactly when neither word occurs.
theorem typed_characters (uncalled : Uncalled (compact expression))
    (valued : Arithmetic.evaluate ops expression = .ok v) :
    (∀ front c back, compact expression = front ++ c :: back → Outside front c back →
      isPlain c = true ∨ InWord front c back) ∧
    ((∀ front c back, compact expression = front ++ c :: back → Outside front c back → isPlain c = true) ↔
      ∀ word, isReserved word = true → ¬word <:+: compact expression) := by
  have reads : Reads ops 0 (substituteConstants (compact expression)) v :=
    ((evaluatePrepared_uncalled (uncalled_substituteConstants uncalled) v).mp (evaluateWithin_of_ok valued)).1
  have words : ∀ front c back, compact expression = front ++ c :: back → Outside front c back →
      isPlain c = true ∨ InWord front c back := by
    intro front c back split outside
    have replaced := substituteConstants_outside outside
    rw [← split] at replaced
    exact (reads.worded _ c _ replaced).imp_right InWord.kept
  refine ⟨words,?_,?_⟩
  · intro plain word reserved found
    obtain ⟨front,back,whole⟩ := found
    simp only [isReserved,Bool.or_eq_true,beq_iff_eq] at reserved
    rcases reserved with rfl | rfl
    · have letter := plain (front ++ ['i','n']) 'f' back (by simp [← whole]) ⟨by decide,by simp,by simp⟩
      exact absurd letter (by decide)
    · have letter := plain front 'N' ('a' :: 'N' :: back) (by simp [← whole]) ⟨by decide,by simp,by simp⟩
      exact absurd letter (by decide)
  · intro wordless front c back split outside
    refine (words front c back split outside).resolve_right ?_
    rintro ⟨before,early,late,after,rfl,rfl,reserved,-⟩
    exact wordless _ reserved ⟨before,after,by simp [split]⟩

theorem typed_characters_around_a_word : Uncalled (compact "pi* - inf -e") ∧
    Arithmetic.evaluate integers "pi* - inf -e" = .ok (-2) ∧
    InWord ['p','i','*','-','i'] 'n' ['f','-','e'] ∧
    ¬∀ front c back, compact "pi* - inf -e" = front ++ c :: back → Outside front c back → isPlain c = true := by
  have whole : compact "pi* - inf -e" = ['p','i','*','-','i','n','f','-','e'] := by decide +kernel
  have uncalled : Uncalled (compact "pi* - inf -e") := by
    rw [whole]
    intro function
    cases function <;> decide
  have valued : Arithmetic.evaluate integers "pi* - inf -e" = .ok (-2) := by decide +kernel
  obtain ⟨words,plain⟩ := typed_characters uncalled valued
  have outside : Outside ['p','i','*','-','i'] 'n' ['f','-','e'] := ⟨by decide,by decide,by decide⟩
  refine ⟨uncalled,valued,(words _ 'n' _ whole outside).resolve_left (by decide),?_⟩
  rw [plain]
  intro wordless
  exact wordless ['i','n','f'] rfl ⟨['p','i','*','-'],['-','e'],whole.symm⟩

theorem reserved_words_are_numbers : (∃ v, Uncalled (compact "inf") ∧ Arithmetic.evaluate doubles "inf" = .ok v ∧
      compact "inf" = ['i','n'] ++ 'f' :: [] ∧ Outside ['i','n'] 'f' [] ∧ isPlain 'f' = false) ∧
    ∃ v, Uncalled (compact "NaN") ∧ Arithmetic.evaluate doubles "NaN" = .ok v ∧
      compact "NaN" = [] ++ 'N' :: ['a','N'] ∧ Outside [] 'N' ['a','N'] ∧ isPlain 'N' = false := by
  have first : Arithmetic.evaluate doubles "inf" = .ok (doubles.value ['i','n','f']) := (evaluate_numeral rfl (by decide)).1
  have second : Arithmetic.evaluate doubles "NaN" = .ok (doubles.value ['N','a','N']) := (evaluate_numeral rfl (by decide)).1
  have letters : compact "inf" = ['i','n','f'] ∧ compact "NaN" = ['N','a','N'] := by decide +kernel
  refine ⟨⟨_,?_,first,letters.1,⟨by decide,by decide,by decide⟩,by decide⟩,
    ⟨_,?_,second,letters.2,⟨by decide,by decide,by decide⟩,by decide⟩⟩
  · rw [letters.1]
    exact uncalled_of_flat (by decide)
  · rw [letters.2]
    exact uncalled_of_flat (by decide)

end Typed

end ToolDialogue.Arithmetic
