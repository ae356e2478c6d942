import Mathlib.Data.List.Infix
import Mathlib.Data.List.TakeWhile
import ToolDialogue.File.Confinement
import ToolDialogue.Proofs.File.Segments

namespace ToolDialogue.File

theorem sizeOf_append (front rest : List Char) : sizeOf (front ++ rest) = sizeOf front + sizeOf rest := by
  have counted (text : List Char) (n : Nat) :
      text.foldl (fun n c => n + c.utf8Size) n = n + sizeOf text := by
    rw [sizeOf]
    induction text generalizing n with
    | nil => rfl
    | cons c rest ih => rw [List.foldl_cons,List.foldl_cons,ih,ih (0 + c.utf8Size)]; omega
  rw [sizeOf,List.foldl_append,counted]; rfl

theorem Named.dropWhile_reverse {location : Location} (named : Named location) :
    location.reverse.dropWhile isIdle = location.reverse := by
  cases turned : location.reverse with
  | nil => rfl
  | cons name rest =>
    have listed : name ∈ location := List.mem_reverse.mp (by rw [turned]; simp)
    simp [(named name listed).2.1]

theorem pop?_root : pop? (pathOf []) = none := rfl

theorem pop?_pathOf {location : Location} {name : Name} (named : Named (location ++ [name])) :
    pop? (pathOf (location ++ [name])) = some (pathOf location,name) := by
  have last : isIdle name = false := (named name (by simp)).2.1
  have upper := (named.of_prefix (List.prefix_append location [name])).dropWhile_reverse
  simp only [pop?,segments_pathOf named,List.append_eq_nil_iff,reduceCtorEq,and_false,if_false,
    List.reverse_append,List.reverse_singleton,List.singleton_append,List.dropWhile_cons,last,upper,
    Bool.false_eq_true,List.reverse_reverse]
  cases location with
  | nil => rfl
  | cons first rest => rw [pathOf_eq_joined (by simp)]

theorem pop?_slashed {location : Location} {name : Name} (named : Named (location ++ [name])) :
    pop? (pathOf (location ++ [name]) ++ ['/']) = some (pathOf location,name) := by
  have whole := pop?_pathOf named
  have idle : isIdle [] = true := rfl
  simpa only [pop?,segments_slashed named (by simp),segments_pathOf named,List.append_eq_nil_iff,
    reduceCtorEq,and_false,if_false,List.reverse_append,List.reverse_singleton,
    List.singleton_append,List.dropWhile_cons,idle,if_true] using whole

theorem climbFrom_pathOf {location : Location} (named : Named location) {steps : Nat}
    (enough : location.length ≤ steps) (below : List Name) :
    (climbFrom steps (pathOf location) below).map (·.1) = location.inits.reverse.map pathOf := by
  induction location using List.reverseRecOn generalizing steps below with
  | nil => cases steps <;> simp [climbFrom,pop?_root]
  | append_singleton front name ih =>
    cases steps with
    | zero => simp at enough
    | succ steps =>
      have upper := ih (named.of_prefix (List.prefix_append front [name])) (by simpa using enough)
        (name :: below)
      simp [climbFrom,pop?_pathOf named,upper,List.inits_append]

theorem climb_pathOf {location : Location} (named : Named location) :
    (climb (pathOf location)).map (·.1) = location.inits.reverse.map pathOf := by
  refine climbFrom_pathOf named ?_ []
  induction location with
  | nil => simp
  | cons name rest ih =>
    have lower := ih fun other member => named other (by simp [member])
    by_cases last : rest = []
    · simp [pathOf,last]
    · simp only [pathOf,List.length_cons,joined_cons last,List.length_append] at lower ⊢
      omega

theorem pop?_absolute {path parent : Path} {last : Name} (absolute : isAbsolute path)
    (popped : pop? path = some (parent,last)) :
    ∃ kept idle behind, segments path = [] :: (kept ++ idle ++ last :: behind) ∧
      (∀ segment ∈ idle, isIdle segment) ∧ (∀ segment ∈ behind, isIdle segment) ∧
      isIdle last = false ∧ (∀ segment, kept.getLast? = some segment → isIdle segment = false) ∧
      parent = if kept = [] then ['/'] else joined ([] :: kept) := by
  obtain ⟨tail,spelled,-⟩ := segments_absolute absolute
  rw [pop?,spelled] at popped
  dsimp only at popped
  cases found : tail.reverse.dropWhile isIdle with
  | nil => rw [found] at popped; simp at popped
  | cons name before =>
    rw [found] at popped
    have back : tail = before.reverse ++ name :: (tail.reverse.takeWhile isIdle).reverse := by
      have whole : tail.reverse.takeWhile isIdle ++ name :: before = tail.reverse := by
        rw [← found,List.takeWhile_append_dropWhile]
      rw [← List.reverse_inj]; simp [whole]
    have front : before.reverse = (before.dropWhile isIdle).reverse ++ (before.takeWhile isIdle).reverse := by
      rw [← List.reverse_append,List.takeWhile_append_dropWhile]
    have real : isIdle name = false := by
      have head := List.head?_dropWhile_not isIdle tail.reverse
      simpa [found] using head
    have same : name = last := by
      dsimp only at popped; split at popped <;> (injection popped with pair; injection pair)
    subst same
    refine ⟨(before.dropWhile isIdle).reverse,(before.takeWhile isIdle).reverse,
      (tail.reverse.takeWhile isIdle).reverse,?_,?_,?_,real,?_,?_⟩
    · rw [spelled,← front,← back]
    · intro segment member; exact List.mem_takeWhile_imp (List.mem_reverse.mp member)
    · intro segment member; exact List.mem_takeWhile_imp (List.mem_reverse.mp member)
    · intro segment ends
      rw [List.getLast?_reverse] at ends
      have head := List.head?_dropWhile_not isIdle before
      simpa [ends] using head
    · dsimp only at popped
      split at popped
      · next none => injection popped with pair; injection pair with same; simp [← same,none]
      · next other =>
        injection popped with pair; injection pair with same; rw [if_neg other]; exact same.symm

theorem joined_whole {kept : List Name} (some : kept ≠ []) : isAbsolute (joined ([] :: kept)) := by
  rw [joined_cons some]; rfl

def endsIdle (path : Path) : Bool := ((segments path).getLast?.map isIdle).getD true

structure Upper (path : Path) (step : Path × List Name) : Prop where
  absolute : isAbsolute step.1
  names : ∀ name ∈ step.2, '/' ∉ name ∧ isIdle name = false
  size : sizeOf step.1 ≤ sizeOf path
  ends : step = (path,[]) ∨ step.1 = pathOf [] ∨ endsIdle step.1 = false

theorem Upper.start {path : Path} (absolute : isAbsolute path) : Upper path (path,[]) :=
  ⟨absolute,by simp,le_refl _,.inl rfl⟩

theorem Upper.remainder {path : Path} {step : Path × List Name} (upper : Upper path step) :
    step.2.foldl append [] = joined step.2 :=
  foldl_append fun name member => ⟨(upper.names name member).1,by
    rintro rfl; exact absurd (upper.names [] member).2 (by decide)⟩

theorem Upper.taken {path : Path} {step : Path × List Name} (upper : Upper path step) {parent : Path}
    {last : Name} (popped : pop? step.1 = some (parent,last)) : Upper path (parent,last :: step.2) := by
  obtain ⟨kept,idle,behind,spelled,-,-,real,ends,rfl⟩ := pop?_absolute upper.absolute popped
  have whole : '/' ∉ last := segments_whole step.1 (by simp [spelled])
  have listed : ∀ name ∈ kept, '/' ∉ name := fun name member =>
    segments_whole step.1 (by simp [spelled,member])
  refine ⟨?_,?_,le_trans ?_ upper.size,?_⟩
  · dsimp only; split
    · rfl
    · next some => exact joined_whole some
  · intro name member
    rcases List.mem_cons.mp member with rfl | old
    · exact ⟨whole,real⟩
    · exact upper.names name old
  · have text := joined_segments step.1
    rw [spelled] at text
    rw [← text]; dsimp only; split
    · next none =>
      subst none
      rw [joined_cons (by simp)]
      have slash : sizeOf ('/' :: joined (idle ++ last :: behind)) =
          sizeOf ['/'] + sizeOf (joined (idle ++ last :: behind)) := sizeOf_append ['/'] _
      simp only [List.nil_append]
      omega
    · next some =>
      rw [List.append_assoc,← List.cons_append,joined_append (by simp) (by simp),sizeOf_append]
      omega
  · dsimp only; split
    · exact .inr (.inl rfl)
    · next some =>
      refine .inr (.inr ?_)
      rw [endsIdle,segments_joined (by simp) (by simpa using listed)]
      rw [List.getLast?_cons_of_ne_nil some,List.getLast?_eq_some_getLast some]
      exact ends _ (List.getLast?_eq_some_getLast some)

theorem climbFrom_upper {path : Path} {steps : Nat} {start : Path × List Name}
    (upper : Upper path start) : ∀ step ∈ climbFrom steps start.1 start.2, Upper path step := by
  induction steps generalizing start with
  | zero => intro step member; simpa [climbFrom] using (List.mem_singleton.mp member) ▸ upper
  | succ steps ih =>
    intro step member
    rcases List.mem_cons.mp member with rfl | above
    · exact upper
    · cases popped : pop? start.1 with
      | none => simp [popped] at above
      | some pair =>
        obtain ⟨parent,last⟩ := pair
        rw [popped] at above
        exact ih (upper.taken popped) step above

theorem climbFrom_split {steps : Nat} {path : Path} {below : List Name} {before after : List (Path × List Name)}
    {step : Path × List Name} (split : climbFrom steps path below = before ++ step :: after) :
    step = (path,below) ∨ ∃ lower ∈ before, ∃ last, pop? lower.1 = some (step.1,last) ∧
      step.2 = last :: lower.2 := by
  induction steps generalizing path below before with
  | zero =>
    cases before with
    | nil => injection split with same; exact .inl same.symm
    | cons _ before => injection split with _ none; simp at none
  | succ steps ih =>
    cases before with
    | nil => injection split with same; exact .inl same.symm
    | cons first before =>
      obtain ⟨rfl,rest⟩ := List.cons.inj split
      cases popped : pop? path with
      | none => simp [popped] at rest
      | some pair =>
        obtain ⟨parent,last⟩ := pair
        rw [popped] at rest
        rcases ih rest with rfl | ⟨lower,listed,taken⟩
        · exact .inr ⟨(path,below),by simp,last,popped,rfl⟩
        · exact .inr ⟨lower,by simp [listed],taken⟩

-- The way up from a path to one of its ancestors, and the names taken off on it.
inductive Ascends : Path → Path → List Name → Prop where
  | here {path : Path} : Ascends path path []
  | up {path parent ancestor : Path} {last : Name} {names : List Name}
      (popped : pop? path = some (parent,last)) (on : Ascends parent ancestor names) :
      Ascends path ancestor (names ++ [last])

theorem Ascends.popped {path ancestor : Path} {front : List Name} {last : Name}
    (ascends : Ascends path ancestor (front ++ [last])) :
    ∃ parent, pop? path = some (parent,last) ∧ Ascends parent ancestor front := by
  generalize taken : front ++ [last] = names at ascends
  cases ascends with
  | here => simp at taken
  | up popped on =>
    obtain ⟨rfl,same⟩ := List.append_inj' taken rfl
    injection same with same
    subst same
    exact ⟨_,popped,on⟩

theorem climbFrom_ascends {steps : Nat} {path : Path} {below : List Name} :
    ∀ step ∈ climbFrom steps path below, ∃ names, step.2 = names ++ below ∧ Ascends path step.1 names := by
  induction steps generalizing path below with
  | zero => intro step member; rw [List.mem_singleton.mp member]; exact ⟨[],rfl,.here⟩
  | succ steps ih =>
    intro step member
    rcases List.mem_cons.mp member with rfl | above
    · exact ⟨[],rfl,.here⟩
    · cases popped : pop? path with
      | none => simp [popped] at above
      | some pair =>
        obtain ⟨parent,last⟩ := pair
        rw [popped] at above
        obtain ⟨names,spelled,on⟩ := ih step above
        exact ⟨names ++ [last],by simp [spelled],.up popped on⟩

theorem climb_ascends {path : Path} {step : Path × List Name} (member : step ∈ climb path) :
    Ascends path step.1 step.2 := by
  obtain ⟨names,spelled,ascends⟩ := climbFrom_ascends step member
  rwa [spelled,List.append_nil]

theorem climbFrom_ne_nil (steps : Nat) (path : Path) (below : List Name) :
    climbFrom steps path below ≠ [] := by cases steps <;> simp [climbFrom]

theorem deepest_split (tree : Tree) (path : Path) : ∃ before after,
    climb path = before ++ tree.deepest path :: after ∧
      ∀ step ∈ before, tree.hasEntry step.1 = false := by
  rw [Tree.deepest]
  cases found : (climb path).find? (tree.hasEntry ·.1) with
  | some step =>
    obtain ⟨-,before,after,split,bare⟩ := List.find?_eq_some_iff_append.mp found
    exact ⟨before,after,split,fun step member => by simpa using bare step member⟩
  | none =>
    have bare := List.find?_eq_none.mp found
    have some : climb path ≠ [] := climbFrom_ne_nil path.length path []
    refine ⟨(climb path).dropLast,[],?_,fun step member => ?_⟩
    · simp only [List.getLast?_eq_some_getLast some,Option.getD_some]
      exact (List.dropLast_append_getLast some).symm
    · simpa using bare step (List.dropLast_subset _ member)

-- The path right under the deepest standing one has no entry. It is the whole path
-- or ends in a name.
theorem deepest_upper (tree : Tree) {path : Path} (absolute : isAbsolute path) :
    Upper path (tree.deepest path) ∧
      (tree.deepest path = (path,[]) ∨ ∃ lower last, Upper path lower ∧
        pop? lower.1 = some ((tree.deepest path).1,last) ∧
        (tree.deepest path).2 = last :: lower.2 ∧ tree.hasEntry lower.1 = false ∧
        (lower = (path,[]) ∨ endsIdle lower.1 = false)) := by
  obtain ⟨before,after,split,bare⟩ := deepest_split tree path
  have upper : ∀ step ∈ climb path, Upper path step := climbFrom_upper (.start absolute)
  refine ⟨upper _ (by simp [split]),?_⟩
  rcases climbFrom_split split with whole | ⟨lower,listed,last,popped,taken⟩
  · exact .inl whole
  · have known : Upper path lower := upper _ (by simp [split,listed])
    refine .inr ⟨lower,last,known,popped,taken,bare _ listed,?_⟩
    rcases known.ends with whole | top | named
    · exact .inl whole
    · rw [top,pop?_root] at popped; cases popped
    · exact .inr named

end ToolDialogue.File
