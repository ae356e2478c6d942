import ToolDialogue.Proofs.Arithmetic.Substitution

namespace ToolDialogue.Arithmetic

def isParenthesis (c : Char) : Bool := c == '(' || c == ')'

-- How many parentheses are open behind a text, given how many are in front of it; none
-- where one is closed that has not been opened.
def openStep (depth : Nat) (c : Char) : Option Nat :=
  if c = '(' then some (depth+1)
  else if c = ')' then if depth = 0 then none else some (depth-1)
  else some depth

def openAfter (depth : Nat) (text : List Char) : Option Nat := text.foldlM openStep depth

variable {n depth left : Nat} {text front middle back : List Char}

theorem openAfter_cons (depth : Nat) (c : Char) (rest : List Char) :
    openAfter depth (c :: rest) = (openStep depth c).bind fun depth => openAfter depth rest :=
  List.foldlM_cons

theorem openAfter_append (depth : Nat) (front back : List Char) :
    openAfter depth (front ++ back) = (openAfter depth front).bind fun depth => openAfter depth back :=
  List.foldlM_append

theorem openAfter_front (counted : openAfter depth (front ++ back) = some left) :
    ∃ between, openAfter depth front = some between ∧ openAfter between back = some left := by
  rw [openAfter_append] at counted
  exact Option.bind_eq_some_iff.mp counted

theorem openAfter_add (more : Nat) (counted : openAfter depth text = some left) :
    openAfter (depth+more) text = some (left+more) := by
  induction text generalizing depth with
  | nil => rw [Option.some.inj counted]; rfl
  | cons c rest ih =>
    rw [openAfter_cons] at counted
    obtain ⟨next,stepped,on⟩ := Option.bind_eq_some_iff.mp counted
    have further : openStep (depth+more) c = some (next+more) := by
      unfold openStep at stepped ⊢
      split at stepped
      · cases stepped
        rw [if_pos ‹_›]
        congr 1; omega
      split at stepped
      · split at stepped
        · cases stepped
        · cases stepped
          rw [if_neg ‹_›,if_pos ‹_›,if_neg (by omega)]
          congr 1; omega
      · cases stepped
        rw [if_neg ‹_›,if_neg ‹_›]
    rw [openAfter_cons,further]
    exact ih on

theorem openStep_plain {c : Char} (plain : isParenthesis c = false) : openStep depth c = some depth := by
  simp only [isParenthesis,Bool.or_eq_false_iff,beq_eq_false_iff_ne] at plain
  rw [openStep,if_neg plain.1,if_neg plain.2]

theorem openStep_opens : openStep depth '(' = some (depth+1) := rfl

theorem openStep_closes : openStep (depth+1) ')' = some depth := rfl

theorem Nested.openAfter (nested : Nested n text) (depth : Nat) : openAfter depth text = some depth := by
  induction nested generalizing depth with
  | nil => rfl
  | char opening closing _ ih =>
    rw [openAfter_cons,openStep_plain (by simp [isParenthesis,opening,closing])]
    exact ih depth
  | group _ _ within on =>
    rw [openAfter_cons,openStep_opens,Option.bind_some,openAfter_append,within,Option.bind_some,
      openAfter_cons,openStep_closes]
    exact on depth

theorem split_closed (more : left ≤ depth) (closed : openAfter (depth+1) text = some left) :
    ∃ n inner rest, Nested n inner ∧ text = inner ++ ')' :: rest ∧ openAfter depth rest = some left := by
  induction size : text.length using Nat.strongRecOn generalizing text depth with
  | ind size ih =>
    subst size
    cases text with
    | nil =>
      cases closed
      exact absurd more (Nat.not_succ_le_self depth)
    | cons c rest =>
      rw [openAfter_cons] at closed
      have shorter : rest.length < (c :: rest).length := Nat.lt_succ_self rest.length
      by_cases closing : c = ')'
      · subst closing
        exact ⟨0,[],rest,.nil,rfl,closed⟩
      by_cases opening : c = '('
      · -- the group that is opened here is closed first
        subst opening
        obtain ⟨m,inner,behind,within,rfl,on⟩ := ih _ shorter (Nat.le_succ_of_le more) closed rfl
        obtain ⟨n,next,last,nested,rfl,done⟩ := ih behind.length (by simp; omega) more on rfl
        exact ⟨_,_,last,.group within nested,by simp,done⟩
      · rw [openStep_plain (by simp [isParenthesis,opening,closing])] at closed
        obtain ⟨n,inner,behind,within,rfl,on⟩ := ih _ shorter more closed rfl
        exact ⟨n,c :: inner,behind,.char opening closing within,rfl,on⟩

theorem nested_of_openAfter (closed : openAfter 0 text = some 0) : ∃ n, Nested n text := by
  induction size : text.length using Nat.strongRecOn generalizing text with
  | ind size ih =>
    subst size
    cases text with
    | nil => exact ⟨0,.nil⟩
    | cons c rest =>
      rw [openAfter_cons] at closed
      by_cases closing : c = ')'
      · subst closing
        cases closed
      by_cases opening : c = '('
      · subst opening
        obtain ⟨m,inner,behind,within,rfl,on⟩ := split_closed (Nat.le_refl 0) closed
        obtain ⟨n,nested⟩ := ih behind.length (by simp; omega) on rfl
        exact ⟨_,.group within nested⟩
      · rw [openStep_plain (by simp [isParenthesis,opening,closing])] at closed
        obtain ⟨n,nested⟩ := ih rest.length (Nat.lt_succ_self _) closed rfl
        exact ⟨n,.char opening closing nested⟩

def withinStep (limit depth : Nat) (c : Char) : Option Nat :=
  if c = '(' ∧ limit ≤ depth then none else openStep depth c

def openWithin (limit depth : Nat) (text : List Char) : Option Nat := text.foldlM (withinStep limit) depth

def Shallow (limit : Nat) (text : List Char) : Prop := openWithin limit 0 text = some 0

instance (limit : Nat) (text : List Char) : Decidable (Shallow limit text) :=
  inferInstanceAs (Decidable (_ = _))

section Within

variable {limit : Nat}

theorem openWithin_cons (limit depth : Nat) (c : Char) (rest : List Char) :
    openWithin limit depth (c :: rest) = (withinStep limit depth c).bind fun depth => openWithin limit depth rest :=
  List.foldlM_cons

theorem openWithin_append (limit depth : Nat) (front back : List Char) :
    openWithin limit depth (front ++ back) =
      (openWithin limit depth front).bind fun depth => openWithin limit depth back :=
  List.foldlM_append

theorem withinStep_plain {c : Char} (plain : isParenthesis c = false) : withinStep limit depth c = some depth := by
  have other : c ≠ '(' := by rintro rfl; cases plain
  rw [withinStep,if_neg (fun opens => other opens.1),openStep_plain plain]

theorem openWithin_plain (plain : ∀ c ∈ text, c ≠ '(' ∧ c ≠ ')') : openWithin limit depth text = some depth := by
  induction text with
  | nil => rfl
  | cons c rest ih =>
    obtain ⟨opening,closing⟩ := plain c List.mem_cons_self
    rw [openWithin_cons,withinStep_plain (by simp [isParenthesis,opening,closing])]
    exact ih fun other member => plain other (List.mem_cons_of_mem _ member)

theorem withinStep_opens : withinStep limit depth '(' = if limit ≤ depth then none else some (depth+1) := by
  by_cases full : limit ≤ depth <;> simp [withinStep,full,openStep_opens]

theorem withinStep_closes : withinStep limit (depth+1) ')' = some depth := by
  rw [withinStep,if_neg (fun opens => absurd opens.1 (by decide)),openStep_closes]

theorem openStep_of_within {c : Char} (stepped : withinStep limit depth c = some left) :
    openStep depth c = some left := by
  unfold withinStep at stepped
  split at stepped
  · cases stepped
  · exact stepped

theorem openAfter_of_within (within : openWithin limit depth text = some left) :
    openAfter depth text = some left := by
  induction text generalizing depth with
  | nil => exact within
  | cons c rest ih =>
    rw [openWithin_cons] at within
    obtain ⟨next,stepped,on⟩ := Option.bind_eq_some_iff.mp within
    rw [openAfter_cons,openStep_of_within stepped]
    exact ih on

theorem Nested.openWithin_eq (nested : Nested n text) (room : depth ≤ limit) :
    openWithin limit depth text = if depth + n ≤ limit then some depth else none := by
  induction nested generalizing depth with
  | nil => rw [if_pos (by omega)]; rfl
  | char opening closing _ ih =>
    rw [openWithin_cons,withinStep_plain (by simp [isParenthesis,opening,closing])]
    exact ih room
  | @group m n inner rest _ _ within on =>
    rw [openWithin_cons,withinStep_opens]
    by_cases full : limit ≤ depth
    · rw [if_pos full,if_neg (by omega)]
      rfl
    rw [if_neg full,Option.bind_some,openWithin_append,within (by omega)]
    by_cases deep : depth + 1 + m ≤ limit
    · rw [if_pos deep,Option.bind_some,openWithin_cons,withinStep_closes,Option.bind_some,on room]
      have same : depth + n ≤ limit ↔ depth + max (m+1) n ≤ limit := by omega
      simp only [same]
    · rw [if_neg deep,if_neg (by omega)]
      rfl

theorem Nested.shallow_iff (nested : Nested n text) : Shallow limit text ↔ n ≤ limit := by
  rw [Shallow,nested.openWithin_eq (Nat.zero_le limit),Nat.zero_add]
  by_cases deep : n ≤ limit <;> simp [deep]

theorem Nested.shallow (nested : Nested n text) : Shallow n text := nested.shallow_iff.mpr (Nat.le_refl n)

theorem Shallow.nested (shallow : Shallow limit text) : ∃ n, n ≤ limit ∧ Nested n text := by
  obtain ⟨n,nested⟩ := nested_of_openAfter (openAfter_of_within shallow)
  exact ⟨n,nested.shallow_iff.mp shallow,nested⟩

end Within

section Check

variable {c : Char} {next : Nat}

theorem openStep_le (stepped : openStep depth c = some next) : next ≤ depth+1 := by
  unfold openStep at stepped
  split at stepped
  · exact Nat.le_of_eq (Option.some.inj stepped).symm
  split at stepped
  · split at stepped
    · cases stepped
    · have less := Option.some.inj stepped
      omega
  · have same := Option.some.inj stepped
    omega

theorem openStep_none : openStep depth c = none ↔ c = ')' ∧ depth = 0 := by
  unfold openStep
  split
  · next opening => simp [opening]
  · split
    · next closing => simp [closing]
    · next plain => simp [plain]

theorem balanceFrom_step (within : depth ≤ maxNesting) (c : Char) (rest : List Char) :
    balanceFrom depth (c :: rest) =
      match openStep depth c with
      | none => .unmatched
      | some next => if next = maxNesting+1 then .tooDeep else balanceFrom next rest := by
  rw [balanceFrom]
  unfold openStep
  split
  · by_cases full : depth = maxNesting <;> simp [full]
  · split
    · split
      · rfl
      · exact (if_neg (by omega)).symm
    · exact (if_neg (by omega)).symm

theorem openAfter_of_balanced (within : depth ≤ maxNesting) (balanced : balanceFrom depth text = .balanced) :
    openAfter depth text = some 0 := by
  induction text generalizing depth with
  | nil =>
    rw [balanceFrom] at balanced
    split at balanced
    · next closed => rw [closed]; rfl
    · cases balanced
  | cons c rest ih =>
    rw [balanceFrom_step within] at balanced
    rw [openAfter_cons]
    split at balanced
    · cases balanced
    · next next stepped =>
      split at balanced
      · cases balanced
      · have least := openStep_le stepped
        rw [stepped]
        exact ih (by omega) balanced

theorem checkBalanced_nested (passed : checkBalanced text = .ok ()) : ∃ n, n ≤ maxNesting ∧ Nested n text := by
  have balanced : balance text = .balanced := by
    unfold checkBalanced at passed
    cases scanned : balance text <;> rw [scanned] at passed <;> first | rfl | cases passed
  obtain ⟨n,nested⟩ := nested_of_openAfter (openAfter_of_balanced (Nat.zero_le _) balanced)
  exact ⟨n,nested.checkBalanced_iff.mp passed,nested⟩

end Check

theorem openAfter_filter (depth : Nat) (text : List Char) :
    openAfter depth (text.filter isParenthesis) = openAfter depth text := by
  induction text generalizing depth with
  | nil => rfl
  | cons c rest ih =>
    rw [List.filter_cons,openAfter_cons]
    split
    · rw [openAfter_cons]
      exact congrArg (Option.bind _) (funext ih)
    · next plain =>
      rw [openStep_plain (Bool.eq_false_iff.mpr plain)]
      exact ih depth

theorem filter_foldl_piStep (done text : List Char) :
    (text.foldl piStep done).reverse.filter isParenthesis =
      done.reverse.filter isParenthesis ++ text.filter isParenthesis := by
  induction text generalizing done with
  | nil => simp
  | cons c rest ih =>
    rw [List.foldl_cons,ih,List.filter_cons]
    unfold piStep
    split
    · next others =>
      have unmarked : piText.filter isParenthesis = [] := by rw [piText_eq]; rfl
      simp [unmarked,isParenthesis]
    · by_cases marked : isParenthesis c = true <;> simp [marked]

theorem filter_flatMap_eStep (text : List Char) :
    (text.flatMap eStep).filter isParenthesis = text.filter isParenthesis := by
  induction text with
  | nil => rfl
  | cons c rest ih =>
    have same : (eStep c).filter isParenthesis = [c].filter isParenthesis := by
      unfold eStep
      split
      · next constant => subst constant; rfl
      · rfl
    rw [List.flatMap_cons,List.filter_append,ih,same,← List.filter_append,List.singleton_append]

theorem filter_substituteConstants (text : List Char) :
    (substituteConstants text).filter isParenthesis = text.filter isParenthesis := by
  rw [substituteConstants_eq,filter_flatMap_eStep,filter_foldl_piStep]
  simp

theorem openAfter_substituteConstants (depth : Nat) (text : List Char) :
    openAfter depth (substituteConstants text) = openAfter depth text := by
  rw [← openAfter_filter,filter_substituteConstants,openAfter_filter]

end ToolDialogue.Arithmetic
