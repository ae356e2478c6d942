import ToolDialogue.Proofs.File.Missing
import ToolDialogue.Tool.CreateFile

namespace ToolDialogue.File

-- A tree to which only directories were added, all at or below one spot.
structure Grown (tree grown : Tree) (spot : Location) : Prop where
  apart : ∀ location, ¬spot <+: location → grown.node? location = tree.node? location
  bare : ∀ location node, spot <+: location → grown.node? location = some node → node = .directory
  stands : grown.node? spot = some .directory

namespace Grown

variable {tree grown : Tree} {spot : Location}

theorem first (rooted : tree.Rooted) (missing : tree.node? spot = none) :
    Grown tree (tree.put spot .directory) spot := by
  have below : spot ≠ [] := by rintro rfl; rw [tree.node?_root] at missing; cases missing
  refine ⟨fun location apart => ?_,fun location node under stands => ?_,?_⟩
  · have other : location ≠ spot := by rintro rfl; exact apart List.prefix_rfl
    rw [tree.node?_put below,if_neg other]
  · rw [tree.node?_put below] at stands
    split at stands
    · injection stands with same; exact same.symm
    · rw [rooted.bare under missing] at stands; cases stands
  · rw [tree.node?_put below,if_pos rfl]

theorem more (grows : Grown tree grown spot) {location : Location} (under : spot <+: location)
    (below : location ≠ []) : Grown tree (grown.put location .directory) spot := by
  refine ⟨fun other apart => ?_,fun other node within stands => ?_,?_⟩
  · have apart' : other ≠ location := by rintro rfl; exact apart under
    rw [grown.node?_put below,if_neg apart',grows.apart other apart]
  · rw [grown.node?_put below] at stands
    split at stands
    · injection stands with same; exact same.symm
    · exact grows.bare other node within stands
  · rw [grown.node?_put below]; split
    · rfl
    · exact grows.stands

theorem kept (rooted : tree.Rooted) (missing : tree.node? spot = none) (grows : Grown tree grown spot)
    (location : Location) (node : Node) (stands : tree.node? location = some node) :
    grown.node? location = some node := by
  rw [grows.apart location fun under => ?_,stands]
  rw [rooted.bare under missing] at stands; cases stands

theorem walk_under (rooted : tree.Rooted) (grows : Grown tree grown spot) {goal above more : Location}
    (named : Named (above ++ more)) (misses : tree.Misses goal above spot) (upper : Named goal)
    {aim : Aim} {found : Found}
    (ended : walk grown aim linkLimit [] (above ++ more) = .ok found) : spot <+: found.spot := by
  obtain ⟨directory,name,rfl,vacant⟩ := misses.walk_vacant upper
  rcases List.eq_nil_or_concat' above with rfl | ⟨front,last,rfl⟩
  · cases vacant
  · obtain ⟨left,leads,rfl,sought,missing⟩ := (walked _ _ _ vacant).missing (named last (by simp))
    have lower : Named more := named.of_suffix ⟨front ++ [name],rfl⟩
    have real : name ≠ [] := named.ne_nil name (by simp)
    have way := leads.mono fun location node _ => grows.kept rooted missing location node
    rw [List.append_assoc,way.walk_append (.inr (by simp [real])),List.singleton_append,
      walk_sought sought ?_,grows.stands] at ended
    · exact ((walked _ _ _ ended).plain lower fun upper _ target linked => by
        cases grows.bare _ _ (List.prefix_append _ _) linked).1
    · rintro ⟨-,deeper,bare⟩; rw [lower.all_nil deeper] at bare; cases bare

theorem makeDirectory (rooted : tree.Rooted) (grows : Grown tree grown spot) {goal above deeper : Location}
    (named : Named goal) (misses : tree.Misses goal above spot) (under : above <+: deeper)
    (onto : deeper <+: goal) {made : Tree} (ended : grown.makeDirectory (pathOf deeper) = .ok made) :
    Grown tree made spot := by
  have spelled := named.of_prefix onto
  obtain ⟨more,rfl⟩ := under
  rw [makeDirectory_pathOf spelled] at ended
  cases found : grown.find .itself (pathOf (above ++ more)) with
  | error cause => rw [found] at ended; cases ended
  | ok found' =>
    rw [found] at ended
    have below := grows.walk_under rooted spelled misses named ((find_ok spelled).mp found).2
    cases found' with
    | present stop => cases ended
    | vacant directory name => cases ended; exact grows.more below (by simp)

theorem makeEach (rooted : tree.Rooted) {goal above : Location} (named : Named goal)
    (misses : tree.Misses goal above spot) (later : List Path)
    (listed : ∀ path ∈ later, ∃ deeper, above <+: deeper ∧ deeper <+: goal ∧ path = pathOf deeper)
    (grows : Grown tree grown spot) : Grown tree (makeEach grown later).2 spot := by
  induction later generalizing grown with
  | nil => exact grows
  | cons path rest ih =>
    have others := fun path member => listed path (List.mem_cons_of_mem _ member)
    obtain ⟨deeper,under,onto,rfl⟩ := listed path List.mem_cons_self
    unfold File.makeEach
    split
    · next made ended => exact ih others (grows.makeDirectory rooted named misses under onto ended)
    · split
      · exact ih others grows
      · exact grows

end Grown

theorem Tree.Misses.bare {tree : Tree} (rooted : tree.Rooted) {goal above spot : Location}
    (named : Named goal) (misses : tree.Misses goal above spot) : tree.node? spot = none := by
  obtain ⟨directory,name,rfl,ended⟩ := misses.walk_vacant named
  exact ((walked _ _ _ ended).fair rooted tree.node?_root).2

section

variable {tree : Tree} {goal : Location}

theorem makeDirectories_pathOf (rooted : tree.Rooted) (named : Named goal) :
    (∃ above spot, tree.Misses goal above spot ∧ Grown tree (tree.makeDirectories (pathOf goal)).2 spot) ∨
    ((∀ above spot, ¬tree.Misses goal above spot) ∧ (tree.makeDirectories (pathOf goal)).2 = tree) := by
  rw [Tree.makeDirectories,climb_pathOf named,← upward]
  cases fits : checkPath (pathOf goal) with
  | error cause =>
    rw [climbMissing_unfit named fits]
    refine .inr ⟨fun above spot misses => ?_,rfl⟩
    have fit := misses.fits
    rw [fits] at fit; cases fit
  | ok =>
    cases climbed rooted named fits [] (.inl rfl) with
    | made later misses ended listed =>
      refine .inl ⟨_,_,misses,?_⟩
      rw [ended,List.append_nil]
      exact Grown.makeEach rooted named misses later listed (Grown.first rooted (misses.bare rooted named))
    | stood nowhere _ ended => rw [ended]; exact .inr ⟨nowhere,rfl⟩
    | refused nowhere ended => rw [ended]; exact .inr ⟨nowhere,rfl⟩

-- The nodes that writing a file at a goal creates or changes: the highest missing
-- directory on the way, or else what the goal itself leads to.
inductive Touched (tree : Tree) (goal : Location) (content : String) : Location → Prop where
  | made {above spot : Location} (misses : tree.Misses goal.dropLast above spot) :
      Touched tree goal content spot
  | created {directory : Location} {name : Name}
      (missing : tree.find .writing (pathOf goal) = .ok (.vacant directory name)) :
      Touched tree goal content (directory ++ [name])
  | replaced {spot : Location} {old : String}
      (found : tree.find .writing (pathOf goal) = .ok (.present spot))
      (stands : tree.node? spot = some (.file old)) (other : old ≠ content) :
      Touched tree goal content spot

theorem place_pathOf {front : Location} {last : Name} (named : Named (front ++ [last])) (content : String) :
    CreateFile.place tree (pathOf (front ++ [last])) content =
      match tree.makeDirectories (pathOf front) with
      | (.error cause,made) => (.error cause,made)
      | (.ok (),made) =>
        match made.write (pathOf (front ++ [last])) content with
        | .ok written => (.ok (),written)
        | .error cause => (.error cause,made) := by
  have above : CreateFile.makeParents tree (pathOf (front ++ [last])) = tree.makeDirectories (pathOf front) := by
    simp only [CreateFile.makeParents,parent?,pop?_pathOf named,Option.map_some]
    rfl
  rw [← above]
  rfl

theorem write_cases {path : Path} {content : String} {written : Tree}
    (ended : tree.write path content = .ok written) :
    (∃ directory name, tree.find .writing path = .ok (.vacant directory name) ∧
      written = tree.put (directory ++ [name]) (.file content)) ∨
    ∃ spot old, tree.find .writing path = .ok (.present spot) ∧ tree.node? spot = some (.file old) ∧
      written = tree.put spot (.file content) := by
  unfold Tree.write at ended
  cases found : tree.find .writing path with
  | error cause => rw [found] at ended; cases ended
  | ok found' =>
    rw [found] at ended
    cases found' with
    | vacant directory name => cases ended; exact .inl ⟨directory,name,rfl,rfl⟩
    | present spot =>
      dsimp only [bind,Except.bind] at ended
      split at ended
      · next old stands => cases ended; exact .inr ⟨spot,old,rfl,stands,rfl⟩
      · cases ended

theorem Grown.write {made written : Tree} {spot above upper : Location} {content : String}
    (rooted : tree.Rooted) (grows : Grown tree made spot) (named : Named goal)
    (misses : tree.Misses upper above spot) (higher : Named upper) (onto : above <+: goal)
    (ended : made.write (pathOf goal) content = .ok written) :
    ∃ location, spot <+: location ∧ written = made.put location (.file content) := by
  have under (found : Found) (reached : made.find .writing (pathOf goal) = .ok found) : spot <+: found.spot := by
    obtain ⟨more,rfl⟩ := onto
    exact grows.walk_under rooted named misses higher ((find_ok named).mp reached).2
  rcases write_cases ended with ⟨directory,name,found,same⟩ | ⟨location,_,found,-,same⟩
  · exact ⟨_,under _ found,same⟩
  · exact ⟨_,under _ found,same⟩

theorem Grown.put {made : Tree} {spot location : Location} (grows : Grown tree made spot)
    (inside : location ≠ []) (lower : spot <+: location) (node : Node) :
    (∀ other, ¬spot <+: other → (made.put location node).node? other = tree.node? other) ∧
      (made.put location node).node? spot ≠ none := by
  constructor
  · intro other apart
    have elsewhere : other ≠ location := by rintro rfl; exact apart lower
    rw [made.node?_put inside,if_neg elsewhere]
    exact grows.apart other apart
  · rw [made.node?_put inside]
    split
    · simp
    · rw [grows.stands]; simp

theorem place_made (rooted : tree.Rooted) (named : Named goal) {above spot : Location}
    (misses : tree.Misses goal.dropLast above spot) (content : String) :
    (∀ location, ¬spot <+: location →
      (CreateFile.place tree (pathOf goal) content).2.node? location = tree.node? location) ∧
    (CreateFile.place tree (pathOf goal) content).2.node? spot ≠ none := by
  have upper : Named goal.dropLast := named.of_prefix (List.dropLast_prefix goal)
  have missing := misses.bare rooted upper
  have below : spot ≠ [] := by rintro rfl; rw [tree.node?_root] at missing; cases missing
  rcases List.eq_nil_or_concat' goal with rfl | ⟨front,last,rfl⟩
  · obtain ⟨_,_,-,vacant⟩ := misses.walk_vacant upper
    rw [List.prefix_nil.mp misses.upper,walk_nil] at vacant; cases vacant
  rw [List.dropLast_concat] at misses upper
  obtain ⟨other,place,again,grows⟩ | ⟨apart,-⟩ := makeDirectories_pathOf rooted upper
  · obtain ⟨rfl,rfl⟩ := misses.above_unique upper again
    rw [place_pathOf named]
    generalize tree.makeDirectories (pathOf front) = made at grows
    obtain ⟨result,made⟩ := made
    cases result with
    | error cause => exact ⟨grows.apart,by simp [grows.stands]⟩
    | ok =>
      dsimp only
      cases ended : made.write (pathOf (front ++ [last])) content with
      | error cause => exact ⟨grows.apart,by simp [grows.stands]⟩
      | ok written =>
        have onto := misses.upper.trans (List.prefix_append front [last])
        obtain ⟨location,lower,rfl⟩ := grows.write rooted named misses upper onto ended
        have inside : location ≠ [] := fun top => below (List.prefix_nil.mp (top ▸ lower))
        exact grows.put inside lower _
  · exact absurd misses (apart _ _)

theorem place_unmade (rooted : tree.Rooted) (named : Named goal) (below : goal ≠ [])
    (apart : ∀ above spot, ¬tree.Misses goal.dropLast above spot) (content : String) :
    (CreateFile.place tree (pathOf goal) content).2 = tree ∨
      tree.write (pathOf goal) content = .ok (CreateFile.place tree (pathOf goal) content).2 := by
  obtain ⟨front,last,rfl⟩ := (List.eq_nil_or_concat' goal).resolve_left below
  rw [List.dropLast_concat] at apart
  have upper : Named front := named.of_prefix (List.prefix_append _ _)
  obtain ⟨_,_,misses,-⟩ | ⟨-,same⟩ := makeDirectories_pathOf rooted upper
  · exact absurd misses (apart _ _)
  · rw [place_pathOf named]
    generalize tree.makeDirectories (pathOf front) = made at same
    obtain ⟨result,made⟩ := made
    cases same
    cases result with
    | error cause => exact .inl rfl
    | ok =>
      dsimp only
      cases made.write (pathOf (front ++ [last])) content with
      | error cause => exact .inl rfl
      | ok written => exact .inr rfl

theorem place_reached (rooted : tree.Rooted) (named : Named goal) (below : goal ≠ []) {aim : Aim}
    {found : Found} (ended : tree.find aim (pathOf goal) = .ok found) (content : String) :
    CreateFile.place tree (pathOf goal) content =
      match tree.write (pathOf goal) content with
      | .ok written => (.ok (),written)
      | .error cause => (.error cause,tree) := by
  obtain ⟨front,last,rfl⟩ := (List.eq_nil_or_concat' goal).resolve_left below
  have upper : Named front := named.of_prefix (List.prefix_append _ _)
  obtain ⟨fits,stopped⟩ := (find_ok named).mp ended
  obtain ⟨left,stop,leads,-⟩ := (walked _ _ _ stopped).split
    (by simp [named.ne_nil last (by simp)])
  have stands := (isDirectory_pathOf rooted upper).mpr
    ⟨checkPath_above (List.prefix_append _ _) fits,left,stop,leads⟩
  rw [place_pathOf named,makeDirectories_standing rooted upper stands]

theorem Tree.Misses.not_standing (rooted : tree.Rooted) {above spot : Location}
    (misses : tree.Misses goal above spot) : tree.node? goal ≠ some .directory := by
  intro stands
  have named := rooted.named stands
  have standing (upper : Location) (onto : upper <+: goal) : tree.node? upper = some .directory := by
    by_cases same : upper = goal
    · rw [same,stands]
    · exact rooted.above onto same stands
  obtain ⟨directory,name,rfl,ended⟩ := misses.walk_vacant named
  have on := ((walked _ _ _ ended).plain (named.of_prefix misses.upper) fun upper onto target linked => by
    rw [List.nil_append,standing upper (onto.trans misses.upper)] at linked; cases linked).2
  have bare : tree.node? (Found.vacant directory name).spot = none := misses.bare rooted named
  rw [standing _ (on.trans (by simpa using misses.upper))] at bare; cases bare

theorem write_slashed (tree : Tree) {front : Location} {last : Name} (named : Named (front ++ [last]))
    (content : String) : ∃ cause, tree.write (pathOf (front ++ [last]) ++ ['/']) content = .error cause := by
  have real := named last (by simp)
  have refused : ∃ cause, tree.find .writing (pathOf (front ++ [last]) ++ ['/']) = .error cause := by
    cases found : tree.find .writing (pathOf (front ++ [last]) ++ ['/']) with
    | error cause => exact ⟨cause,rfl⟩
    | ok found' =>
      have start : tree.start (pathOf (front ++ [last]) ++ ['/']) = [] := rfl
      have more : [last,[]].all (· == []) = false := by simp [real.ne_nil]
      rw [Tree.find,start,segments_slashed named (by simp),walk_idle rfl,List.append_assoc] at found
      cases fits : checkPath (pathOf (front ++ [last]) ++ ['/']) with
      | error cause => rw [fits] at found; cases found
      | ok =>
        rw [fits] at found
        obtain ⟨left,stop,leads,-⟩ := (walked linkLimit [] (front ++ [last,[]]) found).split more
        have stopped : walk tree .writing linkLimit [] (front ++ [last,[]]) = .error .isDirectory := by
          rw [leads.walk_append (.inr more),walk_cons,if_neg (by simp [real.2.1]),if_neg real.2.2,
            if_pos (by simp)]
        exact absurd (found.symm.trans stopped) (by simp)
  obtain ⟨cause,refused⟩ := refused
  exact ⟨cause,by rw [Tree.write,refused]; rfl⟩

theorem makeParents_standing (rooted : tree.Rooted) {location : Location} {node : Node}
    (stands : tree.node? location = some node) :
    (CreateFile.makeParents tree (append (pathOf location) [])).2 = tree := by
  have named := rooted.named stands
  rw [append_pathOf_nil named]
  rcases List.eq_nil_or_concat' location with rfl | ⟨front,last,rfl⟩
  · rfl
  have parent := rooted.parent stands
  rw [List.dropLast_concat] at parent
  have above : CreateFile.makeParents tree (pathOf (front ++ [last]) ++ ['/']) =
      tree.makeDirectories (pathOf front) := by
    simp only [CreateFile.makeParents,parent?,pop?_slashed named,Option.map_some]
    rfl
  rw [if_neg (by simp),above]
  obtain ⟨_,_,misses,-⟩ | ⟨-,same⟩ :=
    makeDirectories_pathOf rooted (named.of_prefix (List.prefix_append front [last]))
  · exact absurd parent (misses.not_standing rooted)
  · exact same

theorem place_standing (rooted : tree.Rooted) {location : Location} {node : Node}
    (stands : tree.node? location = some node) (content : String) :
    (CreateFile.place tree (append (pathOf location) []) content).2 = tree := by
  have named := rooted.named stands
  rcases List.eq_nil_or_concat' location with rfl | ⟨front,last,rfl⟩
  · rfl
  have same := makeParents_standing rooted stands
  obtain ⟨cause,refused⟩ := write_slashed tree named content
  rw [append_pathOf_nil named,if_neg (by simp)] at same ⊢
  rw [CreateFile.place]
  generalize CreateFile.makeParents tree (pathOf (front ++ [last]) ++ ['/']) = made at same
  obtain ⟨result,made⟩ := made
  cases same
  cases result with
  | error cause => rfl
  | ok => dsimp only; rw [refused]

theorem touched_of_changed (rooted : tree.Rooted) (named : Named goal) (below : goal ≠ [])
    {content : String} {location : Location}
    (changed : (CreateFile.place tree (pathOf goal) content).2.node? location ≠ tree.node? location) :
    ∃ spot, Touched tree goal content spot ∧ spot <+: location := by
  by_cases missing : ∃ above spot, tree.Misses goal.dropLast above spot
  · obtain ⟨above,spot,misses⟩ := missing
    refine ⟨spot,.made misses,?_⟩
    by_contra apart
    exact changed ((place_made rooted named misses content).1 location apart)
  · rcases place_unmade rooted named below (by simpa using missing) content with same | written
    · rw [same] at changed; exact absurd rfl changed
    · rcases write_cases written with ⟨directory,name,found,same⟩ | ⟨spot,old,found,stands,same⟩
      · refine ⟨directory ++ [name],.created found,?_⟩
        rw [same,tree.node?_put (by simp)] at changed
        split at changed
        · next here => rw [here]
        · exact absurd rfl changed
      · rw [same] at changed
        by_cases top : spot = []
        · rw [top,tree.node?_root] at stands; cases stands
        · rw [tree.node?_put top] at changed
          split at changed
          · next here =>
            subst here
            refine ⟨location,.replaced found stands ?_,List.prefix_rfl⟩
            rintro rfl; exact changed stands.symm
          · exact absurd rfl changed

theorem Touched.changed (rooted : tree.Rooted) (named : Named goal) (below : goal ≠ [])
    {content : String} {spot : Location} (touched : Touched tree goal content spot) :
    (CreateFile.place tree (pathOf goal) content).2.node? spot ≠ tree.node? spot := by
  cases touched with
  | made misses =>
    rw [misses.bare rooted (named.of_prefix (List.dropLast_prefix goal))]
    exact (place_made rooted named misses content).2
  | @created directory name missing =>
    have bare := ((walked _ _ _ ((find_ok named).mp missing).2).fair rooted tree.node?_root).2
    have written : tree.write (pathOf goal) content = .ok (tree.put (directory ++ [name]) (.file content)) := by
      rw [Tree.write,missing]; rfl
    rw [place_reached rooted named below missing,written,bare]
    simp [tree.node?_put]
  | @replaced spot old found stands other =>
    have inside : spot ≠ [] := by rintro rfl; rw [tree.node?_root] at stands; cases stands
    have written : tree.write (pathOf goal) content = .ok (tree.put spot (.file content)) := by
      rw [Tree.write,found]; simp only [bind,Except.bind,stands]
    rw [place_reached rooted named below found,written,stands]
    simpa [tree.node?_put inside] using Ne.symm other

end

end ToolDialogue.File
