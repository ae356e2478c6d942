import ToolDialogue.Proofs.Arithmetic.Expression

namespace ToolDialogue.Arithmetic

-- Texts whose constants are replaced by numerals. What stands before one never ends in
-- a letter that the replacement could take along.
def piStep (done : List Char) (c : Char) : List Char :=
  match c,done with
  | 'i','p' :: rest => piText.reverse ++ rest
  | _,_ => c :: done

def eStep (c : Char) : List Char := if c = 'e' then eText else [c]

theorem substituteConstants_eq (text : List Char) :
    substituteConstants text = (text.foldl piStep []).reverse.flatMap eStep := rfl

def Substituted (before after : List Char) : Prop :=
  ∃ middle : List Char, middle.flatMap eStep = after ∧ ∀ done : List Char, done.head? ≠ some 'p' →
    before.foldl piStep done = middle.reverse ++ done ∧ (middle.reverse ++ done).head? ≠ some 'p'

theorem Substituted.whole {before after : List Char} (substituted : Substituted before after) :
    substituteConstants before = after := by
  obtain ⟨middle,same,folded⟩ := substituted
  rw [substituteConstants_eq,(folded [] (by simp)).1]
  simpa using same

theorem Substituted.append {front back front' back' : List Char} (first : Substituted front front')
    (second : Substituted back back') : Substituted (front ++ back) (front' ++ back') := by
  obtain ⟨middle,rfl,before⟩ := first
  obtain ⟨other,rfl,behind⟩ := second
  refine ⟨middle ++ other,List.flatMap_append,fun done settled => ?_⟩
  obtain ⟨folded,still⟩ := before done settled
  rw [List.foldl_append,folded,List.reverse_append,List.append_assoc]
  exact behind _ still

theorem piStep_of_settled {done : List Char} (settled : done.head? ≠ some 'p') (c : Char) :
    piStep done c = c :: done := by
  unfold piStep
  split
  · exact absurd rfl settled
  · rfl

theorem Substituted.same {text : List Char} (plain : ∀ c ∈ text, c ≠ 'p' ∧ c ≠ 'e') :
    Substituted text text := by
  refine ⟨text,?_,fun done settled => ?_⟩
  · induction text with
    | nil => rfl
    | cons c rest ih =>
      rw [List.flatMap_cons,eStep,if_neg (plain c (by simp)).2,
        ih fun other member => plain other (by simp [member])]; rfl
  · induction text generalizing done with
    | nil => exact ⟨rfl,settled⟩
    | cons c rest ih =>
      have next := ih (fun other member => plain other (by simp [member])) (c :: done)
        (by simpa using (plain c (by simp)).1)
      rw [List.foldl_cons,piStep_of_settled settled]
      simpa using next

theorem Substituted.cons {c : Char} {back back' : List Char} (plain : c ≠ 'p' ∧ c ≠ 'e')
    (behind : Substituted back back') : Substituted (c :: back) (c :: back') := by
  have first : Substituted [c] [c] := .same fun other member => List.mem_singleton.mp member ▸ plain
  exact first.append behind

theorem Substituted.bracket {text text' : List Char} (inner : Substituted text text') :
    Substituted ('(' :: (text ++ [')'])) ('(' :: (text' ++ [')'])) :=
  .cons (by decide) (inner.append (.same (by simp)))

theorem substituted_letters (function : Function) : Substituted function.letters function.letters := by
  cases function with
  | pow =>
    refine ⟨['p','o','w'],rfl,fun done _ => ⟨rfl,by simp⟩⟩
  | _ => exact .same (by simp [Function.letters,Function.name])

theorem piText_eq :
    piText = ['3','.','1','4','1','5','9','2','6','5','3','5','8','9','7','9','3'] := rfl

theorem substituted_constant (which : Constant) : Substituted which.name which.numeral := by
  cases which with
  | pi => exact ⟨piText,by decide +kernel,fun done _ => ⟨rfl,by rw [piText_eq]; simp⟩⟩
  | e => exact ⟨['e'],by decide +kernel,fun done settled => ⟨piStep_of_settled settled 'e',by simp⟩⟩

theorem Expression.substituted (t : Expression) : Substituted t.typed t.text := by
  unfold typed text
  induction t with
  | numeral text reads =>
    refine .same ?_
    intro c member
    have apart := numeral_apart reads c member
    simp_all
  | constant which => exact substituted_constant which
  | binary operation left right before behind =>
    have bracket {t : Expression} (inner : Substituted (t.print Constant.name) (t.print Constant.numeral))
        (least : Nat) :=
      held_cases (motive := fun t => Substituted (t.print Constant.name) (t.print Constant.numeral)) least
        inner inner.bracket
    rw [print_binary,print_binary]
    exact (bracket before _).append (.cons (by cases operation <;> decide) (bracket behind _))
  | group inner ih => exact ih.bracket
  | negated inner ih => exact .cons (by decide) ih.bracket
  | call function single argument ih => exact (substituted_letters function).append ih.bracket
  | power base exponent before behind =>
    have arguments := before.append (.cons (by decide) behind : Substituted (',' :: _) (',' :: _))
    have whole := (substituted_letters .pow).append arguments.bracket
    simpa [print] using whole

theorem piStep_eq (done : List Char) (c : Char) : piStep done c =
    if c = 'i' ∧ done.head? = some 'p' then piText.reverse ++ done.tail else c :: done := by
  unfold piStep
  split
  · rfl
  · next apart =>
    refine (if_neg ?_).symm
    rintro ⟨rfl,open_⟩
    obtain ⟨others,rfl⟩ := List.head?_eq_some_iff.mp open_
    exact apart others rfl rfl

theorem piStep_ne_nil (done : List Char) (c : Char) : piStep done c ≠ [] := by
  rw [piStep_eq,piText_eq]
  split <;> simp

theorem piStep_append {front : List Char} (filled : front ≠ []) (done : List Char) (c : Char) :
    piStep (front ++ done) c = piStep front c ++ done := by
  obtain ⟨last,others,rfl⟩ := List.exists_cons_of_ne_nil filled
  have same : (last :: others ++ done).head? = (last :: others).head? := rfl
  rw [piStep_eq,piStep_eq (last :: others)]
  by_cases constant : c = 'i' ∧ (last :: others).head? = some 'p'
  · rw [if_pos constant,if_pos (same ▸ constant)]
    exact (List.append_assoc ..).symm
  · rw [if_neg constant,if_neg (same ▸ constant)]
    rfl

theorem foldl_piStep_append {front : List Char} (filled : front ≠ []) (done text : List Char) :
    text.foldl piStep (front ++ done) = text.foldl piStep front ++ done := by
  induction text generalizing front with
  | nil => rfl
  | cons c rest ih =>
    rw [List.foldl_cons,List.foldl_cons,piStep_append filled]
    exact ih (piStep_ne_nil front c)

theorem foldl_piStep_apart {text done : List Char} (apart : done.head? ≠ some 'p' ∨ text.head? ≠ some 'i') :
    text.foldl piStep done = text.foldl piStep [] ++ done := by
  cases text with
  | nil => rfl
  | cons c rest =>
    have other : ¬(c = 'i' ∧ done.head? = some 'p') := by
      rintro ⟨rfl,open_⟩
      exact apart.elim (absurd open_) (absurd rfl)
    have first : piStep done c = piStep [] c ++ done := by
      rw [piStep_eq,if_neg other,piStep_of_settled (by simp)]
      rfl
    rw [List.foldl_cons,List.foldl_cons,first]
    exact foldl_piStep_append (piStep_ne_nil [] c) done rest

theorem head?_piStep {done : List Char} {c : Char} (open_ : (piStep done c).head? = some 'p') : c = 'p' := by
  rw [piStep_eq,piText_eq] at open_
  split at open_
  · cases open_
  · exact Option.some.inj open_

theorem head?_foldl_piStep {text : List Char} (open_ : (text.foldl piStep []).head? = some 'p') :
    text.getLast? = some 'p' := by
  rcases List.eq_nil_or_concat text with rfl | ⟨front,last,rfl⟩
  · cases open_
  · rw [List.concat_eq_append] at open_ ⊢
    rw [List.foldl_append] at open_
    rw [List.getLast?_append,head?_piStep open_]
    rfl

theorem substituteConstants_append {front back : List Char}
    (apart : front.getLast? ≠ some 'p' ∨ back.head? ≠ some 'i') :
    substituteConstants (front ++ back) = substituteConstants front ++ substituteConstants back := by
  have split : back.foldl piStep (front.foldl piStep []) = back.foldl piStep [] ++ front.foldl piStep [] :=
    foldl_piStep_apart (apart.imp_left (mt head?_foldl_piStep))
  rw [substituteConstants_eq,List.foldl_append,split,List.reverse_append,List.flatMap_append]
  rfl

theorem substituteConstants_same {text : List Char} (plain : ∀ c ∈ text, c ≠ 'p' ∧ c ≠ 'e') :
    substituteConstants text = text :=
  (Substituted.same plain).whole

end ToolDialogue.Arithmetic
