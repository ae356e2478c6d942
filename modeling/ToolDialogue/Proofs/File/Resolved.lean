import ToolDialogue.Proofs.File.Confined

namespace ToolDialogue.File

theorem pop?_absolute_parent {path parent : Path} {last : Name} (absolute : isAbsolute path)
    (popped : pop? path = some (parent,last)) : isAbsolute parent :=
  ((Upper.start absolute).taken popped).absolute

-- What is taken off a path is no empty text, so the search up a path comes to an end.
theorem pop?_shorter {path parent : Path} {last : Name} (absolute : isAbsolute path)
    (popped : pop? path = some (parent,last)) : parent.length < path.length := by
  obtain ⟨kept,idle,behind,spelled,-,-,real,-,rfl⟩ := pop?_absolute absolute popped
  rw [← joined_segments path,spelled]
  split
  · next none =>
    subst none
    obtain ⟨c,rest,rfl⟩ := List.exists_cons_of_ne_nil (show last ≠ [] by rintro rfl; cases real)
    have listed : c :: rest ∈ [] ++ idle ++ (c :: rest) :: behind := by simp
    have filled := List.length_pos_of_mem (mem_joined_of_mem listed List.mem_cons_self)
    rw [joined_cons (by simp)]
    simpa using filled
  · rw [List.append_assoc,← List.cons_append,joined_append (by simp) (by simp)]
    simp

theorem climbFrom_ends {steps : Nat} {path : Path} {below : List Name} (absolute : isAbsolute path)
    (enough : path.length ≤ steps) :
    ∃ highest, (climbFrom steps path below).getLast? = some highest ∧ pop? highest.1 = none := by
  induction steps generalizing path below with
  | zero =>
    rw [List.eq_nil_of_length_eq_zero (Nat.le_zero.mp enough)] at absolute
    cases absolute
  | succ steps ih =>
    rw [climbFrom]
    cases popped : pop? path with
    | none => exact ⟨_,rfl,popped⟩
    | some pair =>
      obtain ⟨parent,last⟩ := pair
      have shorter := pop?_shorter absolute popped
      obtain ⟨highest,ends,top⟩ : ∃ highest, (climbFrom steps parent (last :: below)).getLast? =
          some highest ∧ pop? highest.1 = none := ih (pop?_absolute_parent absolute popped) (by omega)
      exact ⟨highest,by simp [List.getLast?_cons,ends],top⟩

theorem components_absolute {path : Path} {tail : List Name} (absolute : isAbsolute path)
    (spelled : segments path = [] :: tail) :
    components path = .root :: (tail.filter (!isIdle ·)).map componentOf := by
  simp [components,spelled,absolute]

theorem filter_idles {idle : List Name} (idles : ∀ segment ∈ idle, isIdle segment) :
    idle.filter (!isIdle ·) = [] :=
  List.filter_eq_nil_iff.mpr fun segment member => by simp [idles segment member]

theorem pop?_components {path parent : Path} {last : Name} (absolute : isAbsolute path)
    (popped : pop? path = some (parent,last)) :
    components parent ++ [componentOf last] = components path := by
  have above := pop?_absolute_parent absolute popped
  obtain ⟨kept,idle,behind,spelled,idles,rests,real,-,rfl⟩ := pop?_absolute absolute popped
  have whole : ∀ segment ∈ kept, '/' ∉ segment := fun segment member =>
    segments_whole path (by simp [spelled,member])
  have upper : components (if kept = [] then ['/'] else joined ([] :: kept)) =
      .root :: (kept.filter (!isIdle ·)).map componentOf := by
    split
    · next none => subst none; rfl
    · next some =>
      exact components_absolute (joined_whole some) (segments_joined (by simp) (by simpa using whole))
  rw [upper,components_absolute absolute spelled]
  simp [filter_idles idles,filter_idles rests,real]

theorem Ascends.components {path ancestor : Path} {names : List Name}
    (ascends : Ascends path ancestor names) (absolute : isAbsolute path) :
    components ancestor ++ names.map componentOf = components path := by
  induction ascends with
  | here => simp
  | up popped _ ih =>
    rw [List.map_append,← List.append_assoc,ih (pop?_absolute_parent absolute popped)]
    exact pop?_components absolute popped

theorem components_joined {names : List Name} (plain : ∀ name ∈ names, '/' ∉ name ∧ isIdle name = false) :
    components (joined names) = names.map componentOf := by
  cases names with
  | nil => rfl
  | cons first rest =>
    have real (name : Name) (member : name ∈ first :: rest) : name ≠ [] ∧ name ≠ ['.'] := by
      have active := (plain name member).2
      simpa [isIdle] using active
    have kept : rest.filter (!isIdle ·) = rest :=
      List.filter_eq_self.mpr fun name member => by simp [(plain name (by simp [member])).2]
    rw [components,segments_joined (by simp) fun name member => (plain name member).1]
    simp [real first (by simp),kept]

-- A search up an absolute path: it ends at a path that nothing can be taken off, every
-- path on the way and what was taken off so far make up the whole, and the first of
-- them with an entry is taken.
structure Searched (tree : Tree) (path : Path) : Prop where
  ends : ∃ highest, (climb path).getLast? = some highest ∧ pop? highest.1 = none
  whole : ∀ step ∈ climb path,
    components step.1 ++ components (step.2.foldl append []) = components path
  first : ∃ before after, climb path = before ++ tree.deepest path :: after ∧
    ∀ step ∈ before, tree.hasEntry step.1 = false

theorem searched (tree : Tree) {path : Path} (absolute : isAbsolute path) : Searched tree path where
  ends := climbFrom_ends absolute (le_refl _)
  whole step member := by
    have upper := climbFrom_upper (.start absolute) step member
    rw [upper.remainder,components_joined upper.names]
    exact (climb_ascends member).components absolute
  first := deepest_split tree path

section

variable {tree : Tree}

theorem hasEntry_top {path : Path} (absolute : isAbsolute path) (top : pop? path = none)
    (fits : checkPath path = .ok ()) : tree.hasEntry path = true := by
  obtain ⟨tail,spelled,-⟩ := segments_absolute absolute
  have idles : ∀ segment ∈ segments path, isIdle segment := by
    rw [pop?,spelled] at top
    dsimp only at top
    cases found : tail.reverse.dropWhile isIdle with
    | nil =>
      rw [spelled]
      simpa [List.dropWhile_eq_nil_iff,isIdle] using found
    | cons last before => rw [found] at top; dsimp only at top; split at top <;> cases top
  have way : tree.Leads linkLimit [] (segments path) linkLimit [] := .idles idles
  obtain ⟨stop,ended⟩ := way.itself
  have found : tree.find .itself path = .ok (.present stop) := by
    rw [Tree.find,fits,Tree.start,if_pos absolute]; exact ended
  exact hasEntry_of_find found

theorem deepest_hasEntry {path : Path} (absolute : isAbsolute path) {standing : Location}
    (located : tree.locate .meaning (tree.deepest path).1 = .ok standing) :
    tree.hasEntry (tree.deepest path).1 = true := by
  have fits := (find_parts (locate_ok.mp located)).1
  have upper := (deepest_upper tree absolute).1
  rw [Tree.deepest] at fits upper ⊢
  cases found : (climb path).find? (tree.hasEntry ·.1) with
  | some step =>
    have entry := List.find?_some found
    exact entry
  | none =>
    obtain ⟨highest,ends,top⟩ : ∃ highest, (climb path).getLast? = some highest ∧ pop? highest.1 = none :=
      climbFrom_ends absolute (le_refl _)
    simp only [found,ends,Option.getD_some] at fits upper ⊢
    exact hasEntry_top upper.absolute top fits

namespace Resolved

variable {top standing : Location} {path target : Path}

theorem target_eq (resolved : Resolved tree top path target standing) :
    target = if (tree.deepest path).2 = [] then append (pathOf standing) []
      else pathOf (standing ++ (tree.deepest path).2) := by
  have upper : Named standing := resolved.named.of_prefix (List.prefix_append standing _)
  rw [resolved.spelled]
  split
  · next none => rw [none]; rfl
  · next some =>
    exact append_pathOf upper (resolved.named.of_suffix (List.suffix_append standing _)) some

theorem components_target (resolved : Resolved tree top path target standing) :
    components target = .root :: (standing ++ (tree.deepest path).2).map .name := by
  have upper : Named standing := resolved.named.of_prefix (List.prefix_append standing _)
  rw [resolved.target_eq]
  split
  · next none => rw [components_slashed upper,components_pathOf upper,none,List.append_nil]
  · exact components_pathOf resolved.named

-- The place that stands is inside the root already: a name that leads on to the root
-- would be a directory's, and such a name is not overlooked.
theorem inside (rooted : tree.Rooted) (directory : tree.node? top = some .directory)
    (short : sizeOf path < pathLimit) (resolved : Resolved tree top path target standing) :
    top <+: standing := by
  rcases List.prefix_or_prefix_of_prefix resolved.under (List.prefix_append standing _) with
    below | ⟨more,rfl⟩
  · exact below
  cases more with
  | nil => simp
  | cons first more =>
    exfalso
    obtain ⟨rest,split⟩ := (List.prefix_append_right_inj standing).mp resolved.under
    have onto : standing ++ [first] <+: standing ++ first :: more := by simp
    have stands : tree.node? (standing ++ [first]) = some .directory := by
      by_cases here : standing ++ [first] = standing ++ first :: more
      · rw [here,directory]
      · exact rooted.above onto here directory
    rcases resolved.hidden first (more ++ rest) _ split.symm stands with long | ⟨-,-,other⟩
    · omega
    · exact other rfl

theorem unlinked (rooted : tree.Rooted) (short : sizeOf path < pathLimit)
    (resolved : Resolved tree top path target standing) {first : Name} {rest : List Name}
    (below : (tree.deepest path).2 = first :: rest) {link : Location}
    (way : link <+: (standing ++ first :: rest).dropLast) (target' : Path) :
    tree.node? link ≠ some (.link target') := by
  intro linked
  obtain ⟨⟨node,there⟩,unlinked⟩ := locate_stands rooted resolved.located
  obtain ⟨⟨other,stands⟩,last⟩ := link_below rooted there (fun target same => unlinked target (same ▸ there))
    (way.trans (List.dropLast_prefix _)) linked
  rcases resolved.hidden first rest other below stands with long | ⟨none,-,-⟩
  · omega
  · have shorter := way.length_le
    rw [last none,List.length_dropLast] at shorter
    simp only [List.length_append,List.length_cons] at shorter
    omega

theorem made (rooted : tree.Rooted) (short : sizeOf path < pathLimit)
    (resolved : Resolved tree top path target standing) {location : Location}
    (changed : (CreateFile.makeParents tree target).2.node? location ≠ tree.node? location) :
    standing <+: location ∧ location ≠ standing ∧ tree.node? location = none ∧
      (CreateFile.makeParents tree target).2.node? location = some .directory := by
  obtain ⟨⟨node,there⟩,-⟩ := locate_stands rooted resolved.located
  have spelled := resolved.target_eq
  cases below : (tree.deepest path).2 with
  | nil =>
    rw [if_pos below] at spelled
    rw [spelled,makeParents_standing rooted there] at changed
    exact absurd rfl changed
  | cons first rest =>
    have named := resolved.named
    rw [if_neg (by simp [below]),below] at spelled
    rw [below] at named
    obtain ⟨front,last,goal⟩ := (List.eq_nil_or_concat' (standing ++ first :: rest)).resolve_left (by simp)
    have plain (link : Location) (way : link <+: front) (target' : Path) :
        tree.node? link ≠ some (.link target') :=
      resolved.unlinked rooted short below (by rwa [goal,List.dropLast_concat]) target'
    rw [goal] at named spelled
    have upper : Named front := named.of_prefix (List.prefix_append front [last])
    have parents : CreateFile.makeParents tree target = tree.makeDirectories (pathOf front) := by
      simp only [spelled,CreateFile.makeParents,parent?,pop?_pathOf named,Option.map_some]
      rfl
    rw [parents] at changed ⊢
    obtain ⟨above,spot,misses,grows⟩ | ⟨-,same⟩ := makeDirectories_pathOf rooted upper
    · have missing := misses.bare rooted upper
      have under : spot <+: location := by
        by_contra apart; exact changed (grows.apart location apart)
      have bare := rooted.bare under missing
      have spotted : spot <+: standing ++ first :: rest := by
        obtain ⟨directory,name,rfl,ended⟩ := misses.walk_vacant upper
        have onto := ((walked _ _ _ ended).plain (upper.of_prefix misses.upper) fun link way target' =>
          plain link (way.trans misses.upper) target').2
        exact (onto.trans misses.upper).trans (goal ▸ List.prefix_append front [last])
      have lower : standing <+: spot :=
        (List.prefix_or_prefix_of_prefix spotted (List.prefix_append standing _)).resolve_left fun higher => by
          rw [rooted.bare higher missing] at there; cases there
      refine ⟨lower.trans under,?_,bare,?_⟩
      · rintro rfl; rw [bare] at there; cases there
      · cases stands : (tree.makeDirectories (pathOf front)).2.node? location with
        | none => rw [stands,bare] at changed; exact absurd rfl changed
        | some node => rw [grows.bare location node under stands]
    · rw [same] at changed; exact absurd rfl changed

end Resolved

end

structure Accepted (tree : Tree) (top : Location) (path target : Path) : Prop where
  within : isWithin target (pathOf top) = true
  level : Component.up ∉ components target
  entry : tree.hasEntry (tree.deepest path).1 = true
  resolved : ∃ standing, tree.canonical (tree.deepest path).1 = .ok standing ∧
    isWithin standing (pathOf top) = true ∧
    components target = components standing ++ components ((tree.deepest path).2.foldl append [])
  made : ∀ location, (CreateFile.makeParents tree target).2.node? location ≠ tree.node? location →
    top <+: location ∧ location ≠ top ∧ tree.node? location = none ∧
      (CreateFile.makeParents tree target).2.node? location = some .directory

theorem Resolved.accepted {tree : Tree} {top standing : Location} {path target : Path}
    (rooted : tree.Rooted) (directory : tree.node? top = some .directory) (absolute : isAbsolute path)
    (short : sizeOf path < pathLimit) (resolved : Resolved tree top path target standing) :
    Accepted tree top path target := by
  have upper := rooted.named directory
  have inner := resolved.named.of_prefix (List.prefix_append standing _)
  have onto := resolved.inside rooted directory short
  have climbed := (deepest_upper tree absolute).1
  have spelled := resolved.components_target
  have plain : (tree.deepest path).2.map componentOf = (tree.deepest path).2.map .name :=
    List.map_congr_left fun name member => by
      simp [componentOf,(resolved.named name (by simp [member])).2.2]
  refine ⟨?_,?_,deepest_hasEntry absolute resolved.located,?_,fun location changed => ?_⟩
  · rw [isWithin,spelled,← components_pathOf resolved.named,← isWithin]
    exact (isWithin_pathOf upper resolved.named).mpr resolved.under
  · rw [spelled]; simp
  · refine ⟨pathOf standing,by rw [Tree.canonical,resolved.located]; rfl,
      (isWithin_pathOf upper inner).mpr onto,?_⟩
    rw [spelled,climbed.remainder,components_joined climbed.names,plain,components_pathOf inner]
    simp
  · obtain ⟨below,other,bare,stands⟩ := resolved.made rooted short changed
    refine ⟨onto.trans below,?_,bare,stands⟩
    rintro rfl
    rw [bare] at directory; cases directory

-- What a configured root accepts, for every request and every tree.
theorem resolve_accepts {rules : Confinement} {tree : Tree} {root : String} {top : Location}
    (rooted : tree.Rooted) (confined : rules.root = some root)
    (stands : tree.locate .meaning root.toList = .ok top)
    (directory : tree.node? top = some .directory) (requested : String) :
    Searched tree (absolutePath top requested.toList) ∧
    ∀ target, sizeOf (absolutePath top requested.toList) < pathLimit →
      rules.resolve tree requested = .ok target →
      Accepted tree top (absolutePath top requested.toList) target := by
  have absolute := absolutePath_absolute top requested.toList
  refine ⟨searched tree absolute,fun target short resolved => ?_⟩
  rw [Confinement.resolve,confined] at resolved
  split at resolved
  · cases resolved
  · obtain ⟨standing,known⟩ := resolveWithin_resolved rooted stands resolved
    exact known.accepted rooted directory absolute short

def linkedInside : Tree where
  nodes := [([['r']],.directory),([['r'],['d']],.directory),([['r'],['l']],.link ['d'])]
  working := []

theorem resolve_accepts_linked :
    (⟨some "/r",true⟩ : Confinement).resolve linkedInside "l/n/./m" = .ok "/r/d/n/m".toList ∧
    Accepted linkedInside [['r']] "/r/l/n/./m".toList "/r/d/n/m".toList := by
  have rooted : linkedInside.Rooted := ⟨by decide +kernel,by decide +kernel,by decide +kernel⟩
  have resolved : (⟨some "/r",true⟩ : Confinement).resolve linkedInside "l/n/./m" =
    .ok "/r/d/n/m".toList := by decide +kernel
  exact ⟨resolved,(resolve_accepts rooted rfl (by decide +kernel) (by decide +kernel) "l/n/./m").2 _
    (by decide +kernel) resolved⟩

end ToolDialogue.File
