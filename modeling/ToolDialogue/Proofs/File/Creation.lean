import ToolDialogue.Proofs.File.Paved

namespace ToolDialogue.File

theorem Wrote.located {tree after : Tree} {path : Path} {found : Found} {content : String}
    (working : after.working = tree.working) (reached : tree.find .writing path = .ok found)
    (wrote : Wrote tree after found.spot content) : after.locate .meaning path = .ok found.spot := by
  have fits := (find_parts reached).1
  rw [Tree.find,fits] at reached
  have again := walked _ _ _ (wrote.walk_again _ _ _ reached rfl)
  rw [locate_ok,Tree.find,fits,Tree.start,working]
  exact again.meant.ended (by decide)

-- A file with the content stands where the path leads. All else that stood is as it was,
-- and all else that is new are directories that were missing on the way.
structure Created (tree after : Tree) (paths : List Path) (path : Path) (content : String)
    (spot : Location) : Prop where
  located : after.locate .meaning path = .ok spot
  holds : after.node? spot = some (.file content)
  free : ∀ node, tree.node? spot = some node → ∃ old, node = .file old
  kept : ∀ location node, location ≠ spot → tree.node? location = some node → after.node? location = some node
  made : ∀ location node, location ≠ spot → tree.node? location = none → after.node? location = some node →
    node = .directory ∧ Filled tree after paths location

theorem Paved.created {tree grown after : Tree} {paths : List Path} {path : Path} {content : String}
    (sound : tree.Sound) (paved : Paved tree grown paths) (written : grown.write path content = .ok after) :
    ∃ found, grown.find .writing path = .ok found ∧ Created tree after paths path content found.spot := by
  have grownSound := paved.edits.sound sound
  obtain ⟨found,reached,wrote⟩ := write_wrote grownSound written
  have edits := grownSound.write written
  refine ⟨found,reached,wrote.located edits.working reached,wrote.holds,fun node stands => ?_,
    fun location node other stands => ?_,fun location node other missing stands => ?_⟩
  · exact wrote.free node (paved.kept _ _ stands)
  · rw [wrote.kept location other]; exact paved.kept _ _ stands
  · rw [wrote.kept location other] at stands
    obtain ⟨rfl,filled⟩ := paved.made location node missing stands
    exact ⟨rfl,edits.filled filled stands⟩

def ancestors (path : Path) : List Path :=
  match parent? path with
  | none => []
  | some parent => (climb parent).map (·.1)

theorem Tree.Sound.makeParents_paved {tree : Tree} (sound : tree.Sound) (path : Path) :
    Paved tree (CreateFile.makeParents tree path).2 (ancestors path) := by
  rw [CreateFile.makeParents,ancestors]
  split
  · exact .same _ _
  · exact .same _ _
  · next parent _ above => rw [above]; exact sound.makeDirectories_paved parent

theorem Tree.Sound.place_cases {tree : Tree} (sound : tree.Sound) (path : Path) (content : String) :
    (∃ spot after, CreateFile.place tree path content = (.ok (),after) ∧
      Created tree after (ancestors path) path content spot) ∨
    ∃ cause after, CreateFile.place tree path content = (.error cause,after) ∧
      Paved tree after (ancestors path) := by
  have paved := sound.makeParents_paved path
  rw [CreateFile.place]
  generalize CreateFile.makeParents tree path = made at paved
  obtain ⟨result,made⟩ := made
  cases result with
  | error cause => exact .inr ⟨cause,made,rfl,paved⟩
  | ok =>
    dsimp only
    cases written : made.write path content with
    | error cause => exact .inr ⟨cause,made,rfl,paved⟩
    | ok after =>
      obtain ⟨found,-,created⟩ := paved.created sound written
      exact .inl ⟨found.spot,after,rfl,created⟩

-- What a run asks for: the path and the content as the values give them, and the path
-- text that confinement lets through.
structure Planned (rules : Confinement) (values : Collected) (tree : Tree) (target : Path)
    (content : String) : Prop where
  requested : ∃ requested, Argument.text values "file_path" = .ok requested ∧
    rules.resolve tree requested = .ok target
  content : Argument.text values "content" = .ok content

theorem plan_cases (rules : Confinement) (values : Collected) (tree : Tree) :
    (∃ plan, CreateFile.plan rules values tree = .ok plan ∧ Planned rules values tree plan.target plan.content) ∨
    ∃ error, CreateFile.plan rules values tree = .error error ∧
      ((∃ text, error = .invalidArguments text) ∨ ∃ refusal, error = .path refusal) := by
  have refused {name : String} {error : ToolError} (ended : Argument.text values name = .error error) :
      ∃ text, error = .invalidArguments text := by
    unfold Argument.text at ended
    split at ended <;> cases ended <;> exact ⟨_,rfl⟩
  rw [CreateFile.plan]
  cases requested : Argument.text values "file_path" with
  | error error => exact .inr ⟨error,rfl,.inl (refused requested)⟩
  | ok path =>
    cases content : Argument.text values "content" with
    | error error => exact .inr ⟨error,rfl,.inl (refused content)⟩
    | ok text =>
      dsimp only [bind,Except.bind]
      split
      · cases resolved : rules.resolve tree path with
        | error refusal => exact .inr ⟨_,rfl,.inr ⟨refusal,rfl⟩⟩
        | ok target => exact .inl ⟨_,rfl,⟨path,requested,resolved⟩,content⟩
      · exact .inr ⟨_,rfl,.inl ⟨_,rfl⟩⟩

theorem creation_effect {tree : Tree} (sound : tree.Sound) (rules : Confinement) (values : Collected) :
    (∀ report after, CreateFile.run rules values tree = (.ok report,after) →
      ∃ target content spot, Planned rules values tree target content ∧
        Created tree after (ancestors target) target content spot) ∧
    ∀ error after, CreateFile.run rules values tree = (.error error,after) →
      (∀ location content, after.node? location = some (.file content) ↔
        tree.node? location = some (.file content)) ∧
      (((∃ text, error = .invalidArguments text) ∨ ∃ refusal, error = .path refusal) ∧ after = tree ∨
        ∃ cause target content, error = .system cause ∧ Planned rules values tree target content ∧
          Paved tree after (ancestors target)) := by
  rw [CreateFile.run]
  obtain ⟨plan,planned,known⟩ | ⟨error,refused,early⟩ := plan_cases rules values tree
  · rw [planned]
    dsimp only
    obtain ⟨spot,placed,done,created⟩ | ⟨cause,placed,failed,paved⟩ := sound.place_cases plan.target plan.content
    · rw [done]
      refine ⟨fun report after ran => ?_,fun error after ran => ?_⟩ <;> cases ran
      exact ⟨_,_,spot,known,created⟩
    · rw [failed]
      refine ⟨fun report after ran => ?_,fun error after ran => ?_⟩ <;> cases ran
      exact ⟨paved.file_iff,.inr ⟨cause,_,_,rfl,known,paved⟩⟩
  · rw [refused]
    refine ⟨fun report after ran => ?_,fun error after ran => ?_⟩ <;> cases ran
    exact ⟨fun _ _ => Iff.rfl,.inl ⟨early,rfl⟩⟩

def roundabout : Collected := [("file_path",.text "/r/x/../y/f"),("content",.text "new")]

theorem creation_effect_roundabout : bareRoot.Sound ∧
    (CreateFile.run ⟨none,false⟩ roundabout bareRoot).1 =
      .ok "Successfully created file: /r/x/../y/f\nSize: 3 characters" ∧
    ∃ target content spot, Planned ⟨none,false⟩ roundabout bareRoot target content ∧
      Created bareRoot (CreateFile.run ⟨none,false⟩ roundabout bareRoot).2 (ancestors target) target content spot := by
  have first : (CreateFile.run ⟨none,false⟩ roundabout bareRoot).1 =
    .ok "Successfully created file: /r/x/../y/f\nSize: 3 characters" := by decide +kernel
  have done : CreateFile.run ⟨none,false⟩ roundabout bareRoot =
      (.ok "Successfully created file: /r/x/../y/f\nSize: 3 characters",
        (CreateFile.run ⟨none,false⟩ roundabout bareRoot).2) := by rw [← first]
  exact ⟨bareRoot_sound,first,(creation_effect bareRoot_sound ⟨none,false⟩ roundabout).1 _ _ done⟩

end ToolDialogue.File
