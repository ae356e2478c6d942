import ToolDialogue.Proofs.File.Overwrite

namespace ToolDialogue.File

-- A walk is what its steps say. A walk for writing has one more way to fail, before a
-- name with slashes behind it, and is left out.
theorem Tree.Walked.ended {tree : Tree} {aim : Aim} {links : Nat} {place : Location} {names : List Name}
    {found : Found} (reads : aim ≠ .writing) (walked : tree.Walked aim links place names found) :
    walk tree aim links place names = .ok found := by
  have on (rest : List Name) : ¬(aim = .writing ∧ rest ≠ [] ∧ rest.all (· == [])) := fun ⟨writes,_⟩ => reads writes
  induction walked with
  | stop => exact walk_nil ..
  | idle idle _ ih => rw [walk_idle idle,ih]
  | up _ ih => rw [walk_cons,if_neg (by decide),if_pos rfl,ih]
  | vacant sought missing last => rw [walk_sought sought (on _),missing]; exact if_pos last
  | down sought stands _ ih => rw [walk_sought sought (on _),stands]; exact ih
  | file sought stands => rw [walk_sought sought (on _),stands]; rfl
  | link sought stands unfollowed => rw [walk_sought sought (on _),stands]; exact if_pos ⟨rfl,unfollowed⟩
  | follow sought stands further _ ih =>
    rw [walk_sought sought (on _),stands]
    exact (if_neg further).trans ih

theorem Tree.Walked.meant {tree : Tree} {links : Nat} {place : Location} {names : List Name} {found : Found}
    (walked : tree.Walked .writing links place names found) : tree.Walked .meaning links place names found := by
  induction walked with
  | stop => exact .stop
  | idle idle _ ih => exact .idle idle ih
  | up _ ih => exact .up ih
  | vacant sought missing last => exact .vacant sought missing last
  | down sought stands _ ih => exact .down sought stands ih
  | file sought stands => exact .file sought stands
  | link _ _ unfollowed => cases unfollowed
  | follow sought stands _ _ ih => exact .follow sought stands (by simp) ih

theorem Tree.Walked.kept {tree after : Tree} {aim : Aim} {links : Nat} {place location : Location}
    {names : List Name} (kept : ∀ location node, tree.node? location = some node → after.node? location = some node)
    (walked : tree.Walked aim links place names (.present location)) :
    after.Walked aim links place names (.present location) := by
  generalize stop : Found.present location = found at walked
  induction walked with
  | stop => exact .stop
  | idle idle _ ih => exact .idle idle (ih stop)
  | up _ ih => exact .up (ih stop)
  | vacant => cases stop
  | down sought stands _ ih => exact .down sought (kept _ _ stands) (ih stop)
  | file sought stands => exact .file sought (kept _ _ stands)
  | link sought stands unfollowed => exact .link sought (kept _ _ stands) unfollowed
  | follow sought stands further _ ih => exact .follow sought (kept _ _ stands) further (ih stop)

theorem Tree.put_kept (tree : Tree) {place location : Location} {node other : Node}
    (missing : tree.node? place = none) (below : place ≠ []) (stands : tree.node? location = some node) :
    (tree.put place other).node? location = some node := by
  rw [tree.node?_put below,if_neg ?_,stands]
  rintro rfl; rw [missing] at stands; cases stands

theorem Tree.Walked.filled {tree after : Tree} {aim : Aim} {links : Nat} {place directory : Location}
    {names : List Name} {name : Name}
    (kept : ∀ location node, tree.node? location = some node → after.node? location = some node)
    (stands : after.node? (directory ++ [name]) = some .directory)
    (walked : tree.Walked aim links place names (.vacant directory name)) :
    ∃ left, after.Leads links place names left (directory ++ [name]) := by
  generalize stop : Found.vacant directory name = found at walked
  induction walked with
  | stop => cases stop
  | idle idle _ ih => exact (ih stop).imp fun _ leads => .idle idle leads
  | up _ ih => exact (ih stop).imp fun _ leads => .up leads
  | vacant sought _ last =>
    cases stop
    exact ⟨_,.down sought stands (.idles fun segment member => by
      simp [isIdle,show segment = [] by simpa using List.all_eq_true.mp last segment member])⟩
  | down sought there _ ih => exact (ih stop).imp fun _ leads => .down sought (kept _ _ there) leads
  | file => cases stop
  | link => cases stop
  | follow sought there _ _ ih =>
    obtain ⟨left,leads⟩ := ih stop
    exact ⟨left,.follow sought (kept _ _ there) leads⟩

theorem withoutSlashes_append (names : List Name) : ∃ slashes, names = withoutSlashes names ++ slashes ∧
    ∀ segment ∈ slashes, isIdle segment := by
  refine ⟨(names.reverse.takeWhile (· == [])).reverse,?_,fun segment member => ?_⟩
  · rw [withoutSlashes,← List.reverse_append,List.takeWhile_append_dropWhile,List.reverse_reverse]
  · have bare := List.mem_takeWhile_imp (List.mem_reverse.mp member)
    simp [isIdle,show segment = [] by simpa using bare]

def Filled (tree after : Tree) (paths : List Path) (location : Location) : Prop :=
  ∃ path ∈ paths, (∀ spot, tree.locate .meaning path ≠ .ok spot) ∧ after.locate .meaning path = .ok location

structure Paved (tree after : Tree) (paths : List Path) : Prop where
  edits : tree.Edited after
  kept : ∀ location node, tree.node? location = some node → after.node? location = some node
  made : ∀ location node, tree.node? location = none → after.node? location = some node →
    node = .directory ∧ Filled tree after paths location

theorem Tree.Edited.filled {tree grown after : Tree} (edits : grown.Edited after) {paths : List Path}
    {location : Location} (filled : Filled tree grown paths location)
    (stands : grown.node? location = some .directory) : Filled tree after paths location := by
  obtain ⟨path,listed,nowhere,located⟩ := filled
  exact ⟨path,listed,nowhere,edits.located located stands⟩

theorem located_kept {tree after : Tree} (working : after.working = tree.working)
    (kept : ∀ location node, tree.node? location = some node → after.node? location = some node)
    {path : Path} {location : Location} (located : tree.locate .meaning path = .ok location) :
    after.locate .meaning path = .ok location := by
  obtain ⟨fits,walked⟩ := find_parts (locate_ok.mp located)
  rw [locate_ok,Tree.find,fits,Tree.start,working]
  exact (walked.kept kept).ended (by decide)

namespace Paved

variable {tree grown after : Tree} {paths : List Path}

theorem same (tree : Tree) (paths : List Path) : Paved tree tree paths :=
  ⟨.same,fun _ _ stands => stands,fun _ _ missing stands => by rw [missing] at stands; cases stands⟩

theorem located (paved : Paved tree after paths) {path : Path} {location : Location}
    (located : tree.locate .meaning path = .ok location) : after.locate .meaning path = .ok location :=
  located_kept paved.edits.working paved.kept located

theorem trans (first : Paved tree grown paths) (second : Paved grown after paths) : Paved tree after paths := by
  refine ⟨first.edits.trans second.edits,fun location node stands => second.kept _ _ (first.kept _ _ stands),
    fun location node missing stands => ?_⟩
  cases between : grown.node? location with
  | none =>
    obtain ⟨rfl,path,listed,nowhere,located⟩ := second.made location node between stands
    exact ⟨rfl,path,listed,fun spot before => nowhere spot (first.located before),located⟩
  | some other =>
    obtain ⟨rfl,filled⟩ := first.made location other missing between
    have still := second.kept _ _ between
    rw [stands] at still
    exact ⟨Option.some.inj still,second.edits.filled filled between⟩

theorem mono {more : List Path} (paved : Paved tree after paths) (listed : paths ⊆ more) : Paved tree after more :=
  ⟨paved.edits,paved.kept,fun location node missing stands =>
    (paved.made location node missing stands).imp_right fun ⟨path,member,rest⟩ => ⟨path,listed member,rest⟩⟩

theorem file_iff (paved : Paved tree after paths) (location : Location) (content : String) :
    after.node? location = some (.file content) ↔ tree.node? location = some (.file content) := by
  refine ⟨fun holds => ?_,paved.kept location _⟩
  cases before : tree.node? location with
  | none => cases (paved.made location _ before holds).1
  | some node => rw [← holds,paved.kept location node before]

end Paved

namespace Tree.Sound

variable {tree made : Tree} {path : Path}

theorem makeDirectory_located (sound : tree.Sound) (ended : tree.makeDirectory path = .ok made) :
    ∃ location, tree.node? location = none ∧ location ≠ [] ∧ made = tree.put location .directory ∧
      made.locate .meaning path = .ok location := by
  rw [Tree.makeDirectory] at ended
  cases fits : checkPath path with
  | error cause => rw [fits] at ended; cases ended
  | ok =>
    rw [fits] at ended
    simp only [bind,Except.bind] at ended
    split at ended
    · cases ended
    · next found reached =>
      cases found with
      | present stop => cases ended
      | vacant directory name =>
        cases ended
        have ended := walked _ _ _ reached
        obtain ⟨-,missing⟩ : _ ∧ tree.node? (directory ++ [name]) = none := ended.fair sound.toRooted (sound.start path)
        have kept (location : Location) (node : Node) (stands : tree.node? location = some node) :
            (tree.put (directory ++ [name]) .directory).node? location = some node :=
          tree.put_kept missing (by simp) stands
        have filled : (tree.put (directory ++ [name]) .directory).node? (directory ++ [name]) = some .directory := by
          rw [tree.node?_put (by simp),if_pos rfl]
        obtain ⟨left,leads⟩ := ended.filled kept filled
        obtain ⟨slashes,spelled,idle⟩ := withoutSlashes_append (segments path)
        have whole := leads.append (.idles idle)
        rw [← spelled] at whole
        exact ⟨_,missing,by simp,rfl,locate_of_leads fits whole⟩

theorem makeDirectory_paved (sound : tree.Sound) (ended : tree.makeDirectory path = .ok made) :
    Paved tree made [path] := by
  obtain ⟨place,missing,below,rfl,located⟩ := sound.makeDirectory_located ended
  have kept (location : Location) (node : Node) (stands : tree.node? location = some node) :
      (tree.put place .directory).node? location = some node := tree.put_kept missing below stands
  -- a path that led anywhere would lead there still, and not to the new directory
  have nowhere (spot : Location) : tree.locate .meaning path ≠ .ok spot := by
    intro before
    have working : (tree.put place .directory).working = tree.working := rfl
    have same := located_kept working kept before
    rw [located] at same; cases same
    obtain ⟨⟨node,stands⟩,-⟩ := locate_stands sound.toRooted before
    rw [missing] at stands; cases stands
  refine ⟨sound.makeDirectory ended,kept,fun location node bare stands => ?_⟩
  rw [tree.node?_put below] at stands
  split at stands
  · next here => subst here; exact ⟨(Option.some.inj stands).symm,path,by simp,nowhere,located⟩
  · rw [bare] at stands; cases stands

theorem climbMissing_paved (sound : tree.Sound) {paths missing later : List Path}
    (ended : File.climbMissing tree paths missing = .ok (made,later)) :
    Paved tree made paths ∧ later ⊆ paths ++ missing := by
  induction paths generalizing missing with
  | nil => cases ended; exact ⟨.same _ _,by simp⟩
  | cons path above ih =>
    rw [File.climbMissing] at ended
    split at ended
    · cases ended; exact ⟨.same _ _,by simp⟩
    · split at ended
      · next made' reached =>
        cases ended
        exact ⟨(sound.makeDirectory_paved reached).mono (by simp),by simp⟩
      · obtain ⟨paved,listed⟩ := ih ended
        refine ⟨paved.mono (by simp),List.Subset.trans listed fun other member => ?_⟩
        simpa [or_left_comm] using member
      · split at ended
        · cases ended; exact ⟨.same _ _,by simp⟩
        · cases ended

theorem makeEach_paved (sound : tree.Sound) (paths : List Path) : Paved tree (File.makeEach tree paths).2 paths := by
  induction paths generalizing tree with
  | nil => exact .same _ _
  | cons path rest ih =>
    unfold File.makeEach
    split
    · next made reached =>
      have first := sound.makeDirectory_paved reached
      exact (first.mono (by simp)).trans ((ih (first.edits.sound sound)).mono (by simp))
    · split
      · exact (ih sound).mono (by simp)
      · exact .same _ _

theorem makeDirectories_paved (sound : tree.Sound) (path : Path) :
    Paved tree (tree.makeDirectories path).2 ((climb path).map (·.1)) := by
  rw [Tree.makeDirectories]
  split
  · next climbed later ended =>
    obtain ⟨first,listed⟩ := sound.climbMissing_paved ended
    rw [List.append_nil] at listed
    exact first.trans (((first.edits.sound sound).makeEach_paved later).mono listed)
  · exact .same _ _

end Tree.Sound

end ToolDialogue.File
