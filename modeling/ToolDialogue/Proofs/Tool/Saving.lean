import ToolDialogue.Proofs.File.Inside
import ToolDialogue.Tool.Profile

namespace ToolDialogue.Profile

open File

theorem fileName_spelled (profile : Profile) : profile.fileName.toList = "profile_".toList ++
    (Text.lower profile.name).toList.map (fun c => if isKept c then c else '_') ++ ".json".toList := by
  simp [fileName]

theorem isKept_outer : ∀ c ∈ "profile_".toList ++ ".json".toList, isKept c = true :=
  List.all_eq_true.mp (by decide +kernel)

theorem fileName_kept (profile : Profile) : ∀ c ∈ profile.fileName.toList, isKept c = true := by
  intro c member
  rw [fileName_spelled] at member
  rcases List.mem_append.mp member with front | back
  · rcases List.mem_append.mp front with start | inner
    · exact isKept_outer c (List.mem_append_left _ start)
    · obtain ⟨old,-,rfl⟩ := List.mem_map.mp inner
      split
      · assumption
      · exact isKept_outer '_' (by decide)
  · exact isKept_outer c (List.mem_append_right _ back)

theorem fileName_isName (profile : Profile) :
    IsName profile.fileName.toList ∧ Char.ofNat 0 ∉ profile.fileName.toList := by
  have refused : isKept '/' = false ∧ isKept (Char.ofNat 0) = false := by decide +kernel
  have kept := profile.fileName_kept
  refine ⟨⟨fun slash => ?_,?_,?_⟩,fun nul => ?_⟩
  · rw [kept _ slash] at refused; cases refused.1
  · rw [fileName_spelled]; rfl
  · rw [fileName_spelled]; simp [parentName]
  · rw [kept _ nul] at refused; cases refused.2

theorem components_isName {name : Name} (real : IsName name) : components name = [.name name] := by
  have alone : segments name = [name] := Text.pieces_of_not_mem real.1
  have other : name ≠ ['.'] := by rintro rfl; exact absurd real.2.1 (by decide)
  simp [components,alone,real.ne_nil,other,componentOf,real.2.2]

-- A file with the content stands in the directory under the name, or where a link under the
-- name leads. All else that is new are directories that were missing on the way there.
def Saved (tree after : Tree) (directory : File.Path) (name : Name) (content : String) : Prop :=
  ∃ spot, Created tree after ((climb directory).map (·.1)) (append directory name) content spot ∧
    ∃ place, after.Opens directory place ∧
      (spot = place ++ [name] ∨ ∃ target, tree.node? (place ++ [name]) = some (.link target))

theorem save_cases {tree : Tree} (sound : tree.Sound) (profile : Profile) (directory : File.Path) :
    (∃ after, profile.save directory tree = (.ok (append directory profile.fileName.toList),after) ∧
      Saved tree after directory profile.fileName.toList profile.toJson.pretty) ∨
    ∃ cause after, profile.save directory tree = (.error cause,after) ∧
      Paved tree after ((climb directory).map (·.1)) := by
  have paved := sound.makeDirectories_paved directory
  have opens (made : Tree) (ended : tree.makeDirectories directory = (.ok (),made)) :=
    sound.makeDirectories_opens ended
  rw [save]
  generalize tree.makeDirectories directory = result at paved opens
  obtain ⟨result,made⟩ := result
  cases result with
  | error cause => exact .inr ⟨cause,made,rfl,paved⟩
  | ok =>
    dsimp only
    cases written : made.write (append directory profile.fileName.toList) profile.toJson.pretty with
    | error cause => exact .inr ⟨cause,made,rfl,paved⟩
    | ok after =>
      obtain ⟨place,opens,stands⟩ := opens made rfl
      obtain ⟨found,reached,created⟩ := paved.created sound written
      have edits := (paved.edits.sound sound).write written
      have still : after.Opens directory place := by
        obtain ⟨empty,there⟩ | located := opens
        · exact .inl ⟨empty,there.trans edits.working.symm⟩
        · exact .inr (edits.located located stands)
      refine .inl ⟨after,rfl,found.spot,created,place,still,?_⟩
      refine (opens.written stands profile.fileName_isName.1 reached).imp_right fun ⟨target,linked⟩ => ?_
      exact ⟨target,paved.edits.link_kept linked⟩

theorem run_cases (directory : File.Path) (now : Instant) (values : Collected) (tree : Tree) :
    (∃ profile saving, ofValues values now = .ok profile ∧
      Argument.flag values "save_to_file" false = .ok saving ∧
      run directory now values tree =
        if saving then
          match profile.save directory tree with
          | (.ok path,after) => (.ok (profile.report ++ "\nProfile saved to: " ++ String.ofList path),after)
          | (.error cause,after) =>
            (.ok (profile.report ++ "\nWarning: Could not save to file: " ++ cause.message),after)
        else (.ok profile.report,tree)) ∨
    ((∃ error, ofValues values now = .error error) ∨
      ∃ error, Argument.flag values "save_to_file" false = .error error) ∧
      ∃ error, run directory now values tree = (.error error,tree) := by
  rw [run]
  cases made : ofValues values now with
  | error error => exact .inr ⟨.inl ⟨error,rfl⟩,error,rfl⟩
  | ok profile =>
    cases flagged : Argument.flag values "save_to_file" false with
    | error error => exact .inr ⟨.inr ⟨error,rfl⟩,error,rfl⟩
    | ok saving =>
      refine .inl ⟨profile,saving,rfl,rfl,?_⟩
      cases saving <;> rfl

theorem saved_ne_made (report path : String) : report ++ "\nProfile saved to: " ++ path ≠ report := by
  intro same
  have letters := congrArg String.toList same
  simp [String.toList_append,List.append_assoc] at letters

theorem saved_ne_warned (report path message : String) :
    report ++ "\nProfile saved to: " ++ path ≠ report ++ "\nWarning: Could not save to file: " ++ message := by
  intro same
  have letters := congrArg String.toList same
  simp [String.toList_append,List.append_assoc] at letters

theorem saved_inj {report path other : String}
    (same : report ++ "\nProfile saved to: " ++ path = report ++ "\nProfile saved to: " ++ other) : path = other := by
  have letters := congrArg String.toList same
  simpa [String.toList_append,List.append_assoc,String.toList_inj] using letters

-- What a run answers, what it does to the tree, and what a file that it tells of holds.
structure Effect (directory : File.Path) (now : Instant) (values : Collected) (tree : Tree)
    (result : Except ToolError String) (after : Tree) : Prop where
  answered : (∃ reply, result = .ok reply) ↔
    (∃ profile, ofValues values now = .ok profile) ∧ ∃ saving, Argument.flag values "save_to_file" false = .ok saving
  touched : after ≠ tree → ∃ profile, ofValues values now = .ok profile ∧
    Argument.flag values "save_to_file" false = .ok true ∧
    (Saved tree after directory profile.fileName.toList profile.toJson.pretty ∨
      Paved tree after ((climb directory).map (·.1)))
  told : ∀ profile path, ofValues values now = .ok profile →
    result = .ok ("Profile created successfully!\n\n" ++ profile.toJson.pretty ++ "\nProfile saved to: " ++ path) →
    path = String.ofList (append directory profile.fileName.toList) ∧
      Saved tree after directory profile.fileName.toList profile.toJson.pretty

theorem run_effect {tree : Tree} (sound : tree.Sound) (directory : File.Path) (now : Instant) (values : Collected) :
    (∀ profile : Profile, IsName profile.fileName.toList ∧ Char.ofNat 0 ∉ profile.fileName.toList ∧
      components profile.fileName.toList = [.name profile.fileName.toList]) ∧
    ∀ result after, run directory now values tree = (result,after) →
      Effect directory now values tree result after := by
  refine ⟨fun profile => ?_,fun result after ran => ?_⟩
  · obtain ⟨real,clean⟩ := profile.fileName_isName
    exact ⟨real,clean,components_isName real⟩
  · obtain ⟨profile,saving,made,flagged,ended⟩ | ⟨refused,error,ended⟩ := run_cases directory now values tree
    · rw [ran] at ended
      have accepted : (∃ profile, ofValues values now = .ok profile) ∧
          ∃ saving, Argument.flag values "save_to_file" false = .ok saving := ⟨⟨profile,made⟩,saving,flagged⟩
      cases saving with
      | false =>
        cases ended
        refine ⟨iff_of_true ⟨_,rfl⟩ accepted,fun moved => absurd rfl moved,fun other path same told => ?_⟩
        cases made.symm.trans same
        exact absurd (Except.ok.inj told).symm (saved_ne_made _ _)
      | true =>
        obtain ⟨saved,done,holds⟩ | ⟨cause,paved,failed,added⟩ := save_cases sound profile directory
        · rw [if_pos rfl,done] at ended
          cases ended
          refine ⟨iff_of_true ⟨_,rfl⟩ accepted,fun _ => ⟨profile,made,flagged,.inl holds⟩,fun other path same told => ?_⟩
          cases made.symm.trans same
          exact ⟨(saved_inj (Except.ok.inj told)).symm,holds⟩
        · rw [if_pos rfl,failed] at ended
          cases ended
          refine ⟨iff_of_true ⟨_,rfl⟩ accepted,fun _ => ⟨profile,made,flagged,.inr added⟩,fun other path same told => ?_⟩
          cases made.symm.trans same
          exact absurd (Except.ok.inj told).symm (saved_ne_warned _ _ _)
    · rw [ran] at ended
      cases ended
      refine ⟨iff_of_false nofun ?_,fun moved => absurd rfl moved,nofun⟩
      rintro ⟨⟨profile,made⟩,saving,flagged⟩
      rcases refused with ⟨other,invalid⟩ | ⟨other,invalid⟩
      · cases made.symm.trans invalid
      · cases flagged.symm.trans invalid

def visitor : Collected := [
  ("name",.text "../Ä/ß"),("email",.text "a@b"),("age",.int 7),("preferences",.text "x, y"),("save_to_file",.bool true)]

def visited : Profile := ⟨"../Ä/ß","a@b",7,["x","y"],0⟩

theorem run_effect_visitor : bareRoot.Sound ∧
    (run "/r/p".toList 0 visitor bareRoot).1 = .ok ("Profile created successfully!\n\n" ++ visited.toJson.pretty ++
      "\nProfile saved to: " ++ "/r/p/profile_.._ä_ß.json") ∧
    Saved bareRoot (run "/r/p".toList 0 visitor bareRoot).2 "/r/p".toList visited.fileName.toList
      visited.toJson.pretty := by
  have made : ofValues visitor 0 = .ok visited := by decide +kernel
  have first : (run "/r/p".toList 0 visitor bareRoot).1 = .ok ("Profile created successfully!\n\n" ++
      visited.toJson.pretty ++ "\nProfile saved to: " ++ "/r/p/profile_.._ä_ß.json") := by decide +kernel
  have effect := (run_effect bareRoot_sound "/r/p".toList 0 visitor).2 _ _ rfl
  exact ⟨bareRoot_sound,first,(effect.told visited _ made first).2⟩

end ToolDialogue.Profile
