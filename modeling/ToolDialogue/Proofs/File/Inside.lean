import ToolDialogue.Proofs.File.Creation

namespace ToolDialogue.File

section

variable {tree : Tree}

theorem Tree.Leads.split {links left : Nat} {place stop : Location} {front rest : List Name}
    (leads : tree.Leads links place (front ++ rest) left stop) :
    ∃ between middle, tree.Leads links place front between middle ∧ tree.Leads between middle rest left stop := by
  generalize whole : front ++ rest = names at leads
  induction leads generalizing front with
  | here =>
    obtain ⟨rfl,rfl⟩ := List.append_eq_nil_iff.mp whole
    exact ⟨_,_,.here,.here⟩
  | idle idle on ih =>
    obtain ⟨rfl,rfl⟩ | ⟨others,rfl,rfl⟩ := List.append_eq_cons_iff.mp whole
    · exact ⟨_,_,.here,.idle idle on⟩
    · obtain ⟨between,middle,upper,lower⟩ := ih rfl
      exact ⟨between,middle,.idle idle upper,lower⟩
  | up on ih =>
    obtain ⟨rfl,rfl⟩ | ⟨others,rfl,rfl⟩ := List.append_eq_cons_iff.mp whole
    · exact ⟨_,_,.here,.up on⟩
    · obtain ⟨between,middle,upper,lower⟩ := ih rfl
      exact ⟨between,middle,.up upper,lower⟩
  | down sought stands on ih =>
    obtain ⟨rfl,rfl⟩ | ⟨others,rfl,rfl⟩ := List.append_eq_cons_iff.mp whole
    · exact ⟨_,_,.here,.down sought stands on⟩
    · obtain ⟨between,middle,upper,lower⟩ := ih rfl
      exact ⟨between,middle,.down sought stands upper,lower⟩
  | follow sought stands on ih =>
    obtain ⟨rfl,rfl⟩ | ⟨others,rfl,rfl⟩ := List.append_eq_cons_iff.mp whole
    · exact ⟨_,_,.here,.follow sought stands on⟩
    · obtain ⟨between,middle,upper,lower⟩ := ih (List.append_assoc ..)
      exact ⟨between,middle,.follow sought stands upper,lower⟩

theorem Tree.Leads.of_idle {links left : Nat} {place stop : Location} {segment : Name}
    (idle : isIdle segment = true) (leads : tree.Leads links place [segment] left stop) :
    left = links ∧ stop = place := by
  cases leads with
  | idle _ on => cases on; exact ⟨rfl,rfl⟩
  | up => exact absurd idle (by decide)
  | down sought => rw [sought.real] at idle; cases idle
  | follow sought => rw [sought.real] at idle; cases idle

theorem segments_append {directory : Path} {name : Name} (whole : '/' ∉ name) (filled : directory ≠ []) :
    ∃ front, segments (append directory name) = front ++ [name] ∧
      (segments directory = front ∨ segments directory = front ++ [[]]) := by
  have alone : segments name = [name] := Text.pieces_of_not_mem whole
  have relative := isAbsolute_of_whole (head?_ne_slash whole)
  by_cases ends : directory.getLast? = some '/'
  · obtain ⟨front,rfl⟩ := List.getLast?_eq_some_iff.mp ends
    refine ⟨segments front,?_,.inr ?_⟩
    · rw [append,relative,if_neg (by simp),if_pos (.inr ends),List.append_assoc]
      have joined : segments (front ++ '/' :: name) = segments front ++ segments name :=
        Text.pieces_append_mark '/' front name
      rw [← alone]; simpa [alone] using joined
    · exact Text.pieces_append_mark '/' front []
  · refine ⟨segments directory,?_,.inl rfl⟩
    rw [append,relative,if_neg (by simp),if_neg (by simp [filled,ends])]
    have joined : segments (directory ++ '/' :: name) = segments directory ++ segments name :=
      Text.pieces_append_mark '/' directory name
    rw [joined,alone]

theorem start_append {directory : Path} {name : Name} (whole : '/' ∉ name) (filled : directory ≠ []) :
    tree.start (append directory name) = tree.start directory := by
  have relative := isAbsolute_of_whole (head?_ne_slash whole)
  obtain ⟨c,rest,rfl⟩ := List.exists_cons_of_ne_nil filled
  have same : isAbsolute (append (c :: rest) name) = isAbsolute (c :: rest) := by
    rw [append,relative,if_neg (by simp)]
    split <;> rfl
  rw [Tree.start,Tree.start,same]

-- Where the path of a directory leads. The empty one stands for the place that relative
-- paths start from.
def Tree.Opens (tree : Tree) (directory : Path) (place : Location) : Prop :=
  directory = [] ∧ place = tree.working ∨ tree.locate .meaning directory = .ok place

theorem Tree.Opens.way {directory : Path} {place : Location} (opens : tree.Opens directory place)
    (stands : tree.node? place = some .directory) {name : Name} (whole : '/' ∉ name) :
    ∃ front left, segments (append directory name) = front ++ [name] ∧
      tree.Leads linkLimit (tree.start (append directory name)) front left place := by
  by_cases filled : directory = []
  · subst filled
    have relative := isAbsolute_of_whole (head?_ne_slash whole)
    have named : append [] name = name := by simp [append,relative]
    have there : place = tree.working := by
      obtain ⟨-,there⟩ | located := opens
      · exact there
      · exact absurd (find_parts (locate_ok.mp located)).1 (by decide)
    refine ⟨[],linkLimit,?_,?_⟩
    · rw [named]; exact Text.pieces_of_not_mem whole
    · rw [named,Tree.start,relative,there]; exact .here
  · have located := opens.resolve_left fun relative => filled relative.1
    obtain ⟨left,leads⟩ := (find_parts (locate_ok.mp located)).2.leads stands
    obtain ⟨front,spelled,shape⟩ := segments_append whole filled
    rw [start_append whole filled]
    refine ⟨front,left,spelled,?_⟩
    rcases shape with same | slashed
    · rwa [same] at leads
    · rw [slashed] at leads
      obtain ⟨between,middle,upper,lower⟩ := leads.split
      obtain ⟨rfl,rfl⟩ := lower.of_idle rfl
      exact upper

theorem Tree.Opens.written {directory : Path} {place : Location}
    (opens : tree.Opens directory place) (stands : tree.node? place = some .directory) {name : Name}
    (real : IsName name) {found : Found} (reached : tree.find .writing (append directory name) = .ok found) :
    found.spot = place ++ [name] ∨ ∃ target, tree.node? (place ++ [name]) = some (.link target) := by
  obtain ⟨front,left,spelled,leads⟩ := opens.way stands real.1
  obtain ⟨fits,-⟩ := find_parts reached
  rw [Tree.find,fits,spelled] at reached
  have ended : walk tree .writing left place [name] = .ok found :=
    (leads.walk_append (.inr (by simp [real.ne_nil]))).symm.trans reached
  exact walked_last real (walked _ _ _ ended)

end

section

variable {tree made : Tree}

theorem isDirectory_located {path : Path} {location : Location}
    (located : tree.locate .meaning path = .ok location) (stands : tree.node? location = some .directory) :
    tree.isDirectory path = true := by
  simp [Tree.isDirectory,located,stands]

theorem located_of_isDirectory {path : Path} (directory : tree.isDirectory path = true) :
    ∃ location, tree.locate .meaning path = .ok location ∧ tree.node? location = some .directory := by
  rw [Tree.isDirectory] at directory
  split at directory
  · next location located => exact ⟨location,located,by simpa using directory⟩
  · cases directory

theorem Tree.Sound.makeDirectory_stands (sound : tree.Sound) {path : Path}
    (ended : tree.makeDirectory path = .ok made) : made.isDirectory path = true := by
  obtain ⟨location,-,below,rfl,located⟩ := sound.makeDirectory_located ended
  exact isDirectory_located located (by rw [tree.node?_put below,if_pos rfl])

theorem climbMissing_front {paths missing later : List Path}
    (ended : climbMissing tree paths missing = .ok (made,later)) : missing <:+ later := by
  induction paths generalizing missing with
  | nil => cases ended; exact List.suffix_rfl
  | cons path above ih =>
    rw [climbMissing] at ended
    split at ended
    · cases ended; exact List.suffix_rfl
    · split at ended
      · cases ended; exact List.suffix_rfl
      · exact (List.suffix_cons path missing).trans (ih ended)
      · split at ended
        · cases ended; exact List.suffix_rfl
        · cases ended

theorem Tree.Sound.makeEach_stands (sound : tree.Sound) {front : List Path} {path : Path}
    (ended : File.makeEach tree (front ++ [path]) = (.ok (),made)) : made.isDirectory path = true := by
  induction front generalizing tree with
  | nil =>
    rw [List.nil_append,File.makeEach] at ended
    split at ended
    · next reached => cases ended; exact sound.makeDirectory_stands reached
    · split at ended
      · next stands => cases ended; exact stands
      · cases ended
  | cons first rest ih =>
    rw [List.cons_append,File.makeEach] at ended
    split at ended
    · next reached => exact ih ((sound.makeDirectory reached).sound sound) ended
    · split at ended
      · exact ih sound ended
      · cases ended

theorem Tree.Sound.climbMissing_head (sound : tree.Sound) {path : Path} {above later : List Path} (filled : path ≠ [])
    (ended : File.climbMissing tree (path :: above) [] = .ok (made,later)) :
    later = [] ∧ made.isDirectory path = true ∨ [path] <:+ later := by
  rw [File.climbMissing,if_neg filled] at ended
  split at ended
  · next reached => cases ended; exact .inl ⟨rfl,sound.makeDirectory_stands reached⟩
  · exact .inr (climbMissing_front ended)
  · split at ended
    · next stands => cases ended; exact .inl ⟨rfl,stands⟩
    · cases ended

theorem Tree.Sound.makeDirectories_stands (sound : tree.Sound) {path : Path} (filled : path ≠ [])
    (ended : tree.makeDirectories path = (.ok (),made)) : made.isDirectory path = true := by
  obtain ⟨above,spelled⟩ := climbFrom_head path.length path []
  rw [Tree.makeDirectories,climb,spelled,List.map_cons] at ended
  split at ended
  · next climbed later reached =>
    obtain ⟨rfl,stands⟩ | ⟨front,rfl⟩ := sound.climbMissing_head filled reached
    · cases ended; exact stands
    · exact ((sound.climbMissing_paved reached).1.edits.sound sound).makeEach_stands ended
  · cases ended

theorem Tree.Sound.makeDirectories_opens (sound : tree.Sound) {directory : Path}
    (ended : tree.makeDirectories directory = (.ok (),made)) :
    ∃ place, made.Opens directory place ∧ made.node? place = some .directory := by
  have edits : tree.Edited made := by
    have edits := sound.makeDirectories directory
    rwa [ended] at edits
  by_cases filled : directory = []
  · exact ⟨made.working,.inl ⟨filled,rfl⟩,(edits.sound sound).standing⟩
  · obtain ⟨place,located,stands⟩ := located_of_isDirectory (sound.makeDirectories_stands filled ended)
    exact ⟨place,.inr located,stands⟩

end

end ToolDialogue.File
