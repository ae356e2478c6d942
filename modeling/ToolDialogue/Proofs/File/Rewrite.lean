import ToolDialogue.Proofs.File.Edited

namespace ToolDialogue.File

structure Wrote (tree after : Tree) (spot : Location) (content : String) : Prop where
  free : ∀ node, tree.node? spot = some node → ∃ old, node = .file old
  holds : after.node? spot = some (.file content)
  kept : ∀ other, other ≠ spot → after.node? other = tree.node? other

namespace Wrote

variable {tree after : Tree} {spot : Location} {content : String}

theorem lasts (wrote : Wrote tree after spot content) {location : Location} {node : Node}
    (lasting : ∀ content, node ≠ .file content) (stands : tree.node? location = some node) :
    after.node? location = some node := by
  rw [wrote.kept location ?_,stands]
  rintro rfl
  obtain ⟨old,same⟩ := wrote.free node stands
  exact lasting old same

theorem walk_again (wrote : Wrote tree after spot content) (links : Nat) (place : Location)
    (names : List Name) {found : Found} (ended : walk tree .writing links place names = .ok found)
    (here : found.spot = spot) : walk after .writing links place names = .ok (.present spot) := by
  match names with
  | [] => rw [walk_nil] at ended ⊢; cases ended; rw [← here]; rfl
  | segment :: rest =>
    rw [walk_cons] at ended ⊢
    split at ended
    · next idle => rw [if_pos idle]; exact wrote.walk_again links place rest ended here
    next real =>
    rw [if_neg real]
    split at ended
    · next up => rw [if_pos up]; exact wrote.walk_again links place.dropLast rest ended here
    next proper =>
    rw [if_neg proper]
    split at ended
    · cases ended
    next on =>
    rw [if_neg on]
    split at ended
    · cases ended
    next size =>
    rw [if_neg size]
    split at ended
    · next missing =>
      split at ended
      · next slashes =>
        cases ended
        have last : rest = [] := by by_contra more; exact on ⟨rfl,more,slashes⟩
        rw [show place ++ [segment] = spot from here,wrote.holds]; simp [last]
      · cases ended
    · next stands =>
      rw [wrote.lasts (by simp) stands]
      exact wrote.walk_again links (place ++ [segment]) rest ended here
    · next old stands =>
      split at ended
      · next last =>
        cases ended
        rw [show place ++ [segment] = spot from here,wrote.holds]; simp [last]
      · cases ended
    · next target stands =>
      rw [wrote.lasts (by simp) stands]
      simp only [reduceCtorEq,and_false,if_false] at ended ⊢
      obtain ⟨fewer,spent,on⟩ := relinked_ok ended
      subst spent
      exact wrote.walk_again fewer _ _ on here
termination_by (links,names.length)

-- With more behind it the same walk comes to nothing: a file holds no names.
theorem walk_beyond (rooted : tree.Rooted) (wrote : Wrote tree after spot content) {links fewer : Nat}
    {place : Location} {names behind : List Name} {found : Found}
    (ended : tree.Walked .writing links place names found) (here : found.spot = spot)
    (directory : tree.node? place = some .directory) (less : fewer ≤ links) (more : behind ≠ []) :
    ∃ cause, walk after .itself fewer place (names ++ behind) = .error cause := by
  induction ended generalizing fewer with
  | stop =>
    obtain ⟨old,same⟩ := wrote.free .directory (here ▸ directory)
    cases same
  | idle idle _ ih => rw [List.cons_append,walk_idle idle]; exact ih here directory less
  | up _ ih =>
    rw [List.cons_append,walk_cons,if_neg (by decide),if_pos rfl]
    exact ih here (rooted.parent directory) less
  | @vacant _ place segment rest sought =>
    have file : after.node? (place ++ [segment]) = some (.file content) := by rw [← wrote.holds,← here]; rfl
    exact ⟨.notDirectory,by rw [List.cons_append,walk_sought sought (by simp),file]; simp [more]⟩
  | down sought stands _ ih =>
    rw [List.cons_append,walk_sought sought (by simp),wrote.lasts (by simp) stands]
    exact ih here stands less
  | @file _ place segment old sought =>
    have file : after.node? (place ++ [segment]) = some (.file content) := by rw [← wrote.holds,← here]; rfl
    exact ⟨.notDirectory,by rw [List.cons_append,walk_sought sought (by simp),file]; simp [more]⟩
  | link _ _ unfollowed => cases unfollowed
  | @follow _ _ segment rest target _ sought stands _ _ ih =>
    rw [List.cons_append,walk_sought sought (by simp),wrote.lasts (by simp) stands]
    simp only [List.append_eq_nil_iff,more,and_false,false_and,if_false]
    cases fewer with
    | zero => exact ⟨_,rfl⟩
    | succ fewer =>
      rw [relinked,← List.append_assoc]
      refine ih here ?_ (by omega)
      split
      · exact tree.node?_root
      · exact directory

end Wrote

theorem write_wrote {tree after : Tree} {path : Path} {content : String} (sound : tree.Sound)
    (ended : tree.write path content = .ok after) :
    ∃ found, tree.find .writing path = .ok found ∧ Wrote tree after found.spot content := by
  rcases write_cases ended with ⟨directory,name,found,rfl⟩ | ⟨spot,old,found,file,rfl⟩
  · have missing := ((find_parts found).2.fair sound.toRooted (sound.start path)).2
    refine ⟨_,found,fun node stands => ?_,?_,fun other apart => ?_⟩
    · rw [Found.spot,missing] at stands; cases stands
    · rw [Found.spot,tree.node?_put (by simp),if_pos rfl]
    · rw [tree.node?_put (by simp)]; exact if_neg apart
  · have below := tree.below_of_file file
    refine ⟨_,found,fun node stands => ⟨old,?_⟩,?_,fun other apart => ?_⟩
    · rw [Found.spot,file] at stands; injection stands with same; exact same.symm
    · rw [Found.spot,tree.node?_put below,if_pos rfl]
    · rw [tree.node?_put below]; exact if_neg apart

theorem write_again {tree after : Tree} {path : Path} {content : String} (sound : tree.Sound)
    (ended : tree.write path content = .ok after) : after.write path content = .ok after := by
  obtain ⟨found,reached,wrote⟩ := write_wrote sound ended
  have working := (sound.write ended).working
  have fits := (find_parts reached).1
  have again : after.find .writing path = .ok (.present found.spot) := by
    rw [Tree.find,fits] at reached
    rw [Tree.find,fits,Tree.start,working]
    exact wrote.walk_again _ _ _ reached rfl
  rw [Tree.write,again]
  simp only [bind,Except.bind,wrote.holds]
  rw [Tree.put_same (after.below_of_file wrote.holds) wrote.holds]

section

variable {tree : Tree}

def slashed (location : Location) : Path := pathOf location ++ ['/']

def slashCause (location : Location) : Cause :=
  if sizeOf (slashed location) < pathLimit then .isDirectory else .nameTooLong

theorem free_pathOf (rooted : tree.Rooted) {location : Location} {node : Node}
    (stands : tree.node? location = some node) : Char.ofNat 0 ∉ pathOf location := by
  intro nul
  rcases List.mem_cons.mp nul with slash | inner
  · exact absurd slash (by decide)
  · rcases mem_joined inner with slash | ⟨name,listed,within⟩
    · exact absurd slash (by decide)
    · exact (rooted.held stands name listed).2.1 within

theorem checkPath_long {path : Path} (free : Char.ofNat 0 ∉ path) (filled : path ≠ [])
    (long : ¬sizeOf path < pathLimit) : checkPath path = .error .nameTooLong := by
  have taken : ¬path.contains (Char.ofNat 0) = true := by simpa using free
  rw [checkPath,if_neg taken,if_neg filled,if_pos (Nat.not_lt.mp long)]

theorem leads_standing (rooted : tree.Rooted) {location : Location}
    (stands : tree.node? location = some .directory) : tree.Leads linkLimit [] location linkLimit location := by
  induction location using List.reverseRecOn with
  | nil => exact .here
  | append_singleton front last ih =>
    have parent := rooted.parent stands
    rw [List.dropLast_concat] at parent
    have held := rooted.held stands last (by simp)
    exact (ih parent).append (.down ⟨held.1.2.1,held.1.2.2,held.2.2⟩ stands .here)

theorem makeDirectories_stood (rooted : tree.Rooted) {location : Location}
    (stands : tree.node? location = some .directory) : tree.makeDirectories (pathOf location) =
      if sizeOf (pathOf location) < pathLimit then (.ok (),tree) else (.error .nameTooLong,tree) := by
  have named := rooted.named stands
  have free := free_pathOf rooted stands
  split
  · next short =>
    have fits : checkPath (pathOf location) = .ok () := checkPath_ok.mpr ⟨free,by simp [pathOf],short⟩
    exact makeDirectories_standing rooted named
      ((isDirectory_pathOf rooted named).mpr ⟨fits,_,_,leads_standing rooted stands⟩)
  · next long =>
    have unfit := checkPath_long free (by simp [pathOf]) long
    rw [Tree.makeDirectories,climb_pathOf named,← upward,climbMissing_unfit named unfit]

theorem place_slashed (rooted : tree.Rooted) {location : Location} {node : Node} (below : location ≠ [])
    (stands : tree.node? location = some node) (content : String) :
    CreateFile.place tree (slashed location) content = (.error (slashCause location),tree) := by
  have named := rooted.named stands
  have free := free_pathOf rooted stands
  obtain ⟨front,last,rfl⟩ := (List.eq_nil_or_concat' location).resolve_left below
  have parent := rooted.parent stands
  rw [List.dropLast_concat] at parent
  have real := named last (by simp)
  have above : CreateFile.makeParents tree (slashed (front ++ [last])) = tree.makeDirectories (pathOf front) := by
    simp only [CreateFile.makeParents,parent?,slashed,pop?_slashed named,Option.map_some]
    rfl
  have refused : tree.find .writing (slashed (front ++ [last])) = .error (slashCause (front ++ [last])) := by
    have start : tree.start (slashed (front ++ [last])) = [] := rfl
    have free : Char.ofNat 0 ∉ slashed (front ++ [last]) := by simpa [slashed] using free
    have spelled : segments (slashed (front ++ [last])) = [] :: (front ++ [last,[]]) := by
      rw [slashed,segments_slashed named below,List.append_assoc]; rfl
    rw [Tree.find,start,spelled,walk_idle rfl,slashCause]
    split
    · next short =>
      rw [checkPath_ok.mpr ⟨free,by simp [slashed],short⟩]
      have reached : walk tree .writing linkLimit [] (front ++ [last,[]]) = _ :=
        (leads_standing rooted parent).walk_append (.inr (by simp [real.ne_nil]))
      exact reached.trans (by rw [walk_cons,if_neg (by simp [real.2.1]),if_neg real.2.2,if_pos (by simp)])
    · next long => rw [checkPath_long free (by simp [slashed]) long]; rfl
  rw [CreateFile.place,above,makeDirectories_stood rooted parent]
  by_cases short : sizeOf (pathOf front) < pathLimit
  · rw [if_pos short]; dsimp only; rw [Tree.write,refused]; rfl
  · obtain ⟨more,longer⟩ := pathOf_prefix (List.prefix_append front [last])
    have size : ¬sizeOf (slashed (front ++ [last])) < pathLimit := by
      rw [slashed,← longer,sizeOf_append,sizeOf_append]; omega
    rw [if_neg short,slashCause,if_neg size]

theorem append_slash {location : Location} (named : Named location) (below : location ≠ []) :
    append (pathOf location) [] = slashed location := by
  rw [append_pathOf_nil named,if_neg below]; rfl

end

end ToolDialogue.File
