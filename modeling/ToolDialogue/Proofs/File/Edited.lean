import ToolDialogue.Proofs.File.Place

namespace ToolDialogue.File

def Whole (segment : Name) : Prop := '/' ∉ segment ∧ Char.ofNat 0 ∉ segment

theorem segments_taken {path : Path} (free : Char.ofNat 0 ∉ path) : ∀ segment ∈ segments path, Whole segment :=
  fun _ member => ⟨segments_whole path member,fun nul => free (by
    rw [← joined_segments path]; exact mem_joined_of_mem member nul)⟩

def CanHold (name : Name) : Prop := IsName name ∧ Char.ofNat 0 ∉ name ∧ sizeOf name ≤ nameLimit

structure Tree.Sound (tree : Tree) : Prop extends Tree.Rooted tree where
  targets : ∀ location target, tree.node? location = some (.link target) → Char.ofNat 0 ∉ target

theorem Tree.Rooted.sound {tree : Tree} (rooted : tree.Rooted)
    (clean : ∀ entry ∈ tree.nodes, ∀ target, entry.2 = .link target → Char.ofNat 0 ∉ target) : tree.Sound := by
  refine ⟨rooted,fun location target linked => ?_⟩
  have below : location ≠ [] := by
    rintro rfl; rw [Tree.node?_root] at linked; cases linked
  exact clean _ (Tree.mem_of_node? below linked) target rfl

-- What requests can do to a tree: nodes are made where there was nothing, in directories
-- that stand, and files get another content. Links are neither made nor taken away.
inductive Tree.Edited (tree : Tree) : Tree → Prop where
  | same : tree.Edited tree
  | made {grown : Tree} {directory : Location} {name : Name} {node : Node} (before : tree.Edited grown)
      (stands : grown.node? directory = some .directory) (holds : CanHold name)
      (missing : grown.node? (directory ++ [name]) = none) (unlinked : ∀ target, node ≠ .link target) :
      tree.Edited (grown.put (directory ++ [name]) node)
  | rewritten {grown : Tree} {spot : Location} {old : String} (content : String)
      (before : tree.Edited grown) (stands : grown.node? spot = some (.file old)) :
      tree.Edited (grown.put spot (.file content))

theorem Tree.below_of_file {tree : Tree} {spot : Location} {old : String}
    (stands : tree.node? spot = some (.file old)) : spot ≠ [] := by
  rintro rfl; rw [tree.node?_root] at stands; cases stands

namespace Tree.Edited

variable {tree grown edited : Tree}

theorem trans (first : tree.Edited grown) (second : grown.Edited edited) : tree.Edited edited := by
  induction second with
  | same => exact first
  | made _ stands holds missing unlinked ih => exact .made ih stands holds missing unlinked
  | rewritten content _ stands ih => exact .rewritten content ih stands

theorem working (edits : tree.Edited edited) : edited.working = tree.working := by
  induction edits with
  | same => rfl
  | made _ _ _ _ _ ih => exact ih
  | rewritten _ _ _ ih => exact ih

theorem kept (edits : tree.Edited edited) (location : Location) (node : Node)
    (lasting : ∀ content, node ≠ .file content) (stands : tree.node? location = some node) :
    edited.node? location = some node := by
  induction edits with
  | same => exact stands
  | made _ _ _ missing _ ih =>
    rw [node?_put _ (by simp),if_neg ?_,ih]
    rintro rfl; rw [missing] at ih; cases ih
  | rewritten _ _ file ih =>
    rw [node?_put _ (below_of_file file),if_neg ?_,ih]
    rintro rfl; rw [file] at ih; injection ih with same; exact lasting _ same.symm

theorem file_kept (edits : tree.Edited edited) {location : Location} {old : String}
    (stands : tree.node? location = some (.file old)) :
    ∃ content, edited.node? location = some (.file content) := by
  induction edits with
  | same => exact ⟨old,stands⟩
  | made _ _ _ missing _ ih =>
    obtain ⟨content,ih⟩ := ih
    rw [node?_put _ (by simp),if_neg ?_]
    · exact ⟨content,ih⟩
    · rintro rfl; rw [missing] at ih; cases ih
  | rewritten content _ file ih =>
    rw [node?_put _ (below_of_file file)]
    split
    · exact ⟨content,rfl⟩
    · exact ih

theorem stands (edits : tree.Edited edited) {location : Location} {node : Node}
    (stands : tree.node? location = some node) : edited.node? location ≠ none := by
  cases node with
  | file old => obtain ⟨content,there⟩ := edits.file_kept stands; simp [there]
  | directory => simp [edits.kept _ _ (by simp) stands]
  | link target => simp [edits.kept _ _ (by simp) stands]

theorem link_kept (edits : tree.Edited edited) {location : Location} {target : Path}
    (linked : edited.node? location = some (.link target)) : tree.node? location = some (.link target) := by
  induction edits with
  | same => exact linked
  | made _ _ _ _ unlinked ih =>
    rw [node?_put _ (by simp)] at linked
    split at linked
    · injection linked with same; exact absurd same (unlinked target)
    · exact ih linked
  | rewritten _ _ file ih =>
    rw [node?_put _ (below_of_file file)] at linked
    split at linked
    · cases linked
    · exact ih linked

end Tree.Edited

theorem Tree.Sound.put {tree : Tree} (sound : tree.Sound) {directory : Location} {name : Name} {node : Node}
    (stands : tree.node? directory = some .directory) (holds : CanHold name)
    (other : tree.node? (directory ++ [name]) ≠ some .directory) (unlinked : ∀ target, node ≠ .link target) :
    (tree.put (directory ++ [name]) node).Sound := by
  have below : directory ++ [name] ≠ [] := by simp
  have kept (location : Location) (stands : tree.node? location = some .directory) :
      (tree.put (directory ++ [name]) node).node? location = some .directory := by
    rw [tree.node?_put below,if_neg ?_,stands]
    rintro rfl; exact other stands
  refine ⟨⟨fun entry member => ?_,fun entry member held listed => ?_,kept _ sound.standing⟩,
    fun location target linked => ?_⟩
  · rcases Table.mem_put member with rfl | old
    · rw [List.dropLast_concat]; exact kept _ stands
    · exact kept _ (sound.parents entry old)
  · rcases Table.mem_put member with rfl | old
    · rcases List.mem_append.mp listed with upper | last
      · exact sound.held stands held upper
      · rw [List.mem_singleton.mp last]; exact holds
    · exact sound.names entry old held listed
  · rw [tree.node?_put below] at linked
    split at linked
    · injection linked with same; exact absurd same (unlinked target)
    · exact sound.targets location target linked

theorem Tree.Edited.sound {tree edited : Tree} (edits : tree.Edited edited) (sound : tree.Sound) :
    edited.Sound := by
  induction edits with
  | same => exact sound
  | made _ stands holds missing unlinked ih => exact ih.put stands holds (by rw [missing]; simp) unlinked
  | @rewritten grown spot old content _ file ih =>
    obtain ⟨front,last,rfl⟩ := (List.eq_nil_or_concat' spot).resolve_left (below_of_file file)
    have parent := ih.parent file
    rw [List.dropLast_concat] at parent
    exact ih.put parent (ih.held file last (by simp)) (by rw [file]; simp) (by simp)

namespace Tree.Sound

variable {tree : Tree}

theorem canHold (sound : tree.Sound) {aim : Aim} {links : Nat} {place : Location} {names : List Name}
    {directory : Location} {name : Name} (whole : ∀ segment ∈ names, Whole segment)
    (ended : tree.Walked aim links place names (.vacant directory name)) : CanHold name := by
  generalize stop : Found.vacant directory name = found at ended
  induction ended with
  | stop => cases stop
  | idle _ _ ih => exact ih (fun segment member => whole segment (by simp [member])) stop
  | up _ ih => exact ih (fun segment member => whole segment (by simp [member])) stop
  | vacant sought =>
    cases stop
    have free := whole _ List.mem_cons_self
    exact ⟨⟨free.1,sought.real,sought.proper⟩,free.2,sought.fits⟩
  | down _ _ _ ih => exact ih (fun segment member => whole segment (by simp [member])) stop
  | file => cases stop
  | link => cases stop
  | follow _ stands _ _ ih =>
    refine ih (fun segment member => ?_) stop
    rcases List.mem_append.mp member with linked | later
    · exact segments_taken (sound.targets _ _ stands) segment linked
    · exact whole segment (by simp [later])

theorem start (sound : tree.Sound) (path : Path) : tree.node? (tree.start path) = some .directory := by
  unfold Tree.start
  split
  · exact tree.node?_root
  · exact sound.standing

theorem put_vacant (sound : tree.Sound) {aim : Aim} {path : Path} {names : List Name}
    (taken : checkPath path = .ok ()) (listed : names ⊆ segments path) {directory : Location} {name : Name}
    (ended : walk tree aim linkLimit (tree.start path) names = .ok (.vacant directory name)) {node : Node}
    (unlinked : ∀ target, node ≠ .link target) : tree.Edited (tree.put (directory ++ [name]) node) := by
  have reached := walked _ _ _ ended
  have whole := segments_taken (checkPath_ok.mp taken).1
  obtain ⟨stands,missing⟩ := reached.fair sound.toRooted (sound.start path)
  exact .made .same stands (sound.canHold (fun segment member => whole segment (listed member)) reached)
    missing unlinked

theorem makeDirectory (sound : tree.Sound) {path : Path} {made : Tree}
    (ended : tree.makeDirectory path = .ok made) : tree.Edited made := by
  rw [Tree.makeDirectory] at ended
  cases taken : checkPath path with
  | error cause => rw [taken] at ended; cases ended
  | ok =>
    rw [taken] at ended
    simp only [bind,Except.bind] at ended
    split at ended
    · cases ended
    · next found reached =>
      cases found with
      | present stop => cases ended
      | vacant directory name =>
        cases ended
        refine sound.put_vacant taken (fun segment member => ?_) reached (by simp)
        rw [withoutSlashes,List.mem_reverse] at member
        exact List.mem_reverse.mp (List.dropWhile_subset _ member)

theorem climbMissing (sound : tree.Sound) {paths missing later : List Path} {made : Tree}
    (ended : climbMissing tree paths missing = .ok (made,later)) : tree.Edited made := by
  induction paths generalizing missing with
  | nil => cases ended; exact .same
  | cons path above ih =>
    rw [File.climbMissing] at ended
    split at ended
    · cases ended; exact .same
    · split at ended
      · next made' reached => cases ended; exact sound.makeDirectory reached
      · exact ih ended
      · split at ended
        · cases ended; exact .same
        · cases ended

theorem makeEach (sound : tree.Sound) (paths : List Path) : tree.Edited (makeEach tree paths).2 := by
  induction paths generalizing tree with
  | nil => exact .same
  | cons path rest ih =>
    unfold File.makeEach
    split
    · next made reached =>
      have first := sound.makeDirectory reached
      exact first.trans (ih (first.sound sound))
    · split
      · exact ih sound
      · exact .same

theorem makeDirectories (sound : tree.Sound) (path : Path) : tree.Edited (tree.makeDirectories path).2 := by
  rw [Tree.makeDirectories]
  split
  · next ended =>
    have first := sound.climbMissing ended
    exact first.trans ((first.sound sound).makeEach _)
  · exact .same

theorem makeParents (sound : tree.Sound) (path : Path) : tree.Edited (CreateFile.makeParents tree path).2 := by
  rw [CreateFile.makeParents]
  split
  · exact .same
  · exact .same
  · exact sound.makeDirectories _

theorem write (sound : tree.Sound) {path : Path} {content : String} {written : Tree}
    (ended : tree.write path content = .ok written) : tree.Edited written := by
  rcases write_cases ended with ⟨directory,name,found,rfl⟩ | ⟨spot,old,-,stands,rfl⟩
  · rw [Tree.find] at found
    cases taken : checkPath path with
    | error cause => rw [taken] at found; cases found
    | ok => rw [taken] at found; exact sound.put_vacant taken (fun _ member => member) found (by simp)
  · exact .rewritten content .same stands

theorem place (sound : tree.Sound) (path : Path) (content : String) :
    tree.Edited (CreateFile.place tree path content).2 := by
  have above := sound.makeParents path
  rw [CreateFile.place]
  generalize CreateFile.makeParents tree path = made at above
  obtain ⟨result,made⟩ := made
  cases result with
  | error cause => exact above
  | ok =>
    dsimp only
    split
    · next written ended => exact above.trans ((above.sound sound).write ended)
    · exact above

theorem run (sound : tree.Sound) (rules : Confinement) (values : Collected) :
    tree.Edited (CreateFile.run rules values tree).2 := by
  rw [CreateFile.run]
  split
  · exact .same
  · next plan planned =>
    have placed := sound.place plan.target plan.content
    split
    · next reached => rw [reached] at placed; exact placed
    · next reached => rw [reached] at placed; exact placed

end Tree.Sound

end ToolDialogue.File
