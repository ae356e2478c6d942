import ToolDialogue.Proofs.File.Climb
import ToolDialogue.Proofs.File.Walk
import ToolDialogue.File.Change

namespace ToolDialogue.File

theorem checkPath_ok {path : Path} : checkPath path = .ok () ↔
    Char.ofNat 0 ∉ path ∧ path ≠ [] ∧ sizeOf path < pathLimit := by
  unfold checkPath
  split
  · next nul => simp [List.contains_iff_mem.mp nul]
  split
  · next bare => simp [bare]
  split
  · next long => simp [Nat.not_lt.mpr long]
  · next nul bare short => simp_all

theorem pathOf_prefix {front location : Location} (upper : front <+: location) :
    pathOf front <+: pathOf location := by
  obtain ⟨rest,rfl⟩ := upper
  by_cases top : front = []
  · subst top; exact List.cons_prefix_cons.mpr ⟨rfl,List.nil_prefix⟩
  · by_cases same : rest = []
    · subst same; simp
    · rw [pathOf,pathOf,joined_append top same,← List.cons_append]; exact List.prefix_append _ _

theorem checkPath_above {front location : Location} (upper : front <+: location)
    (fits : checkPath (pathOf location) = .ok ()) : checkPath (pathOf front) = .ok () := by
  obtain ⟨rest,spelled⟩ := pathOf_prefix upper
  obtain ⟨free,-,short⟩ := checkPath_ok.mp fits
  rw [← spelled] at free short
  rw [sizeOf_append] at short
  exact checkPath_ok.mpr ⟨fun nul => free (by simp [nul]),by simp [pathOf],by omega⟩

section

variable {tree : Tree} {location goal : Location}

theorem find_parts {aim : Aim} {path : Path} {found : Found} (ended : tree.find aim path = .ok found) :
    checkPath path = .ok () ∧ tree.Walked aim linkLimit (tree.start path) (segments path) found := by
  rw [Tree.find] at ended
  cases fits : checkPath path with
  | error cause => rw [fits] at ended; cases ended
  | ok => rw [fits] at ended; exact ⟨rfl,walked _ _ _ ended⟩

theorem find_pathOf (named : Named location) (aim : Aim) : tree.find aim (pathOf location) =
    (checkPath (pathOf location)).bind fun _ => walk tree aim linkLimit [] location := by
  have idle : isIdle [] = true := rfl
  have start : tree.start (pathOf location) = [] := rfl
  rw [Tree.find,start,segments_pathOf named]
  split
  · next top => subst top; rw [walk_idle idle,walk_idle idle]; rfl
  · rw [walk_idle idle]; rfl

theorem find_ok (named : Named location) {aim : Aim} {found : Found} :
    tree.find aim (pathOf location) = .ok found ↔
      checkPath (pathOf location) = .ok () ∧ walk tree aim linkLimit [] location = .ok found := by
  rw [find_pathOf named]
  cases checkPath (pathOf location) <;> simp [Except.bind]

theorem makeDirectory_pathOf (named : Named location) : tree.makeDirectory (pathOf location) =
    match tree.find .itself (pathOf location) with
    | .ok (.present _) => .error .exists
    | .ok (.vacant directory name) => .ok (tree.put (directory ++ [name]) .directory)
    | .error cause => .error cause := by
  have idle : isIdle [] = true := rfl
  have start : tree.start (pathOf location) = [] := rfl
  have stripped : walk tree .itself linkLimit [] (withoutSlashes (segments (pathOf location))) =
      walk tree .itself linkLimit [] location := by
    rw [segments_pathOf named]
    rcases List.eq_nil_or_concat' location with rfl | ⟨front,last,rfl⟩
    · rfl
    · have real : last ≠ [] := named.ne_nil last (by simp)
      have same : withoutSlashes ([] :: (front ++ [last])) = [] :: (front ++ [last]) := by
        simp [withoutSlashes,real]
      rw [if_neg (by simp),same,walk_idle idle]
  rw [Tree.makeDirectory,start,stripped,find_pathOf named]
  cases checkPath (pathOf location) with
  | error cause => rfl
  | ok => cases walk tree .itself linkLimit [] location with
    | error cause => rfl
    | ok found => cases found <;> rfl

theorem isDirectory_pathOf (rooted : tree.Rooted) (named : Named location) :
    tree.isDirectory (pathOf location) = true ↔
      checkPath (pathOf location) = .ok () ∧ ∃ left stop, tree.Leads linkLimit [] location left stop := by
  simp only [Tree.isDirectory,Tree.locate,find_pathOf named]
  cases fits : checkPath (pathOf location) with
  | error cause => simp [Except.bind,bind]
  | ok =>
    simp only [Except.bind,bind,true_and]
    constructor
    · intro stands
      cases ended : walk tree .meaning linkLimit [] location with
      | error cause => rw [ended] at stands; simp at stands
      | ok found =>
        rw [ended] at stands
        cases found with
        | vacant directory name => simp at stands
        | present stop =>
          obtain ⟨left,leads⟩ := (walked _ _ _ ended).leads (by simpa using stands)
          exact ⟨left,stop,leads⟩
    · rintro ⟨left,stop,leads⟩
      simp [leads.meaning,leads.standing rooted tree.node?_root]

theorem isDirectory_itself (rooted : tree.Rooted) (named : Named location)
    (stands : tree.isDirectory (pathOf location) = true) :
    ∃ stop, tree.find .itself (pathOf location) = .ok (.present stop) := by
  obtain ⟨fits,left,stop,leads⟩ := (isDirectory_pathOf rooted named).mp stands
  obtain ⟨there,ended⟩ := leads.itself
  exact ⟨there,(find_ok named).mpr ⟨fits,ended⟩⟩

theorem beyond_missing {above more : Location} {directory : Location} {name : Name}
    (named : Named above) (deeper : more.all (· == []) = false) (aim : Aim)
    (ended : walk tree .itself linkLimit [] above = .ok (.vacant directory name)) :
    walk tree aim linkLimit [] (above ++ more) = .error .notFound := by
  rcases List.eq_nil_or_concat' above with rfl | ⟨front,last,rfl⟩
  · cases ended
  · obtain ⟨left,leads,rfl,sought,missing⟩ := (walked _ _ _ ended).missing (named last (by simp))
    rw [List.append_assoc,leads.walk_append (.inr (by simp [(named name (by simp)).ne_nil]))]
    have on : ¬(aim = .writing ∧ more ≠ [] ∧ more.all (· == [])) := (onward (.inr deeper) []).1
    rw [List.singleton_append,walk_sought sought on,missing]
    simp only [deeper,Bool.false_eq_true,if_false]

def upward (location : Location) : List Path := location.inits.reverse.map pathOf

theorem upward_concat (front : Location) (name : Name) :
    upward (front ++ [name]) = pathOf (front ++ [name]) :: upward front := by
  simp [upward,List.inits_append]

theorem upward_cons (location : Location) :
    ∃ above, upward location = pathOf location :: above := by
  rcases List.eq_nil_or_concat' location with rfl | ⟨front,last,rfl⟩
  · exact ⟨[],rfl⟩
  · exact ⟨_,upward_concat front last⟩

theorem climbMissing_made {made : Tree} (ended : tree.makeDirectory (pathOf goal) = .ok made)
    (missing : List Path) : climbMissing tree (upward goal) missing = .ok (made,missing) := by
  obtain ⟨above,same⟩ := upward_cons goal
  rw [same,climbMissing,if_neg (by simp [pathOf]),ended]

theorem climbMissing_notFound {front : Location} {name : Name}
    (gone : tree.makeDirectory (pathOf (front ++ [name])) = .error .notFound) (missing : List Path) :
    climbMissing tree (upward (front ++ [name])) missing =
      climbMissing tree (upward front) (pathOf (front ++ [name]) :: missing) := by
  rw [upward_concat,climbMissing,if_neg (by simp [pathOf]),gone]

theorem climbMissing_refused {cause : Cause} (other : cause ≠ .notFound)
    (refused : tree.makeDirectory (pathOf goal) = .error cause) (missing : List Path) :
    climbMissing tree (upward goal) missing =
      if tree.isDirectory (pathOf goal) then .ok (tree,missing) else .error cause := by
  obtain ⟨above,same⟩ := upward_cons goal
  rw [same,climbMissing,if_neg (by simp [pathOf]),refused]
  cases cause with
  | notFound => exact absurd rfl other
  | _ => rfl

theorem checkPath_found (path : Path) (filled : path ≠ []) : checkPath path ≠ .error .notFound := by
  unfold checkPath
  rw [if_neg filled]
  split
  · simp
  · split <;> simp

theorem climbMissing_unfit (named : Named goal) {cause : Cause}
    (unfit : checkPath (pathOf goal) = .error cause) (missing : List Path) :
    climbMissing tree (upward goal) missing = .error cause := by
  have other : cause ≠ .notFound := by
    rintro rfl; exact checkPath_found _ (by simp [pathOf]) unfit
  have refused : tree.makeDirectory (pathOf goal) = .error cause := by
    rw [makeDirectory_pathOf named,find_pathOf named,unfit]; rfl
  have bare : tree.isDirectory (pathOf goal) = false := by
    rw [Tree.isDirectory,Tree.locate,find_pathOf named,unfit]; rfl
  rw [climbMissing_refused other refused,bare]; rfl

theorem climbMissing_standing (rooted : tree.Rooted) (named : Named goal)
    (stands : tree.isDirectory (pathOf goal) = true) (missing : List Path) :
    climbMissing tree (upward goal) missing = .ok (tree,missing) := by
  obtain ⟨stop,found⟩ := isDirectory_itself rooted named stands
  have refused : tree.makeDirectory (pathOf goal) = .error .exists := by
    rw [makeDirectory_pathOf named,found]
  rw [climbMissing_refused (by simp) refused,if_pos stands]

theorem makeDirectories_standing (rooted : tree.Rooted) (named : Named goal)
    (stands : tree.isDirectory (pathOf goal) = true) :
    tree.makeDirectories (pathOf goal) = (.ok (),tree) := by
  rw [Tree.makeDirectories,climb_pathOf named,← upward,climbMissing_standing rooted named stands]; rfl

-- The highest directory that is missing on the way to a goal, and where it is
-- to be made.
structure Tree.Misses (tree : Tree) (goal above : Location) (spot : Location) : Prop where
  upper : above <+: goal
  fits : checkPath (pathOf goal) = .ok ()
  missing : ∃ directory name, spot = directory ++ [name] ∧
    tree.find .itself (pathOf above) = .ok (.vacant directory name)

theorem Tree.Misses.walk_vacant {above spot : Location} (misses : tree.Misses goal above spot)
    (named : Named goal) : ∃ directory name, spot = directory ++ [name] ∧
      walk tree .itself linkLimit [] above = .ok (.vacant directory name) := by
  obtain ⟨directory,name,place,missing⟩ := misses.missing
  exact ⟨directory,name,place,((find_ok (named.of_prefix misses.upper)).mp missing).2⟩

theorem Tree.Misses.above_unique {above spot other place : Location} (named : Named goal)
    (misses : tree.Misses goal above spot) (again : tree.Misses goal other place) :
    above = other ∧ spot = place := by
  obtain ⟨directory,name,rfl,ended⟩ := misses.walk_vacant named
  obtain ⟨holder,last,rfl,stopped⟩ := again.walk_vacant named
  have same : above = other := by
    rcases List.prefix_or_prefix_of_prefix misses.upper again.upper with ⟨more,rfl⟩ | ⟨more,rfl⟩
    · by_contra apart
      have deeper := ((named.of_prefix again.upper).of_suffix ⟨above,rfl⟩).all_nil (by simpa using apart)
      rw [beyond_missing (named.of_prefix misses.upper) deeper _ ended] at stopped; cases stopped
    · by_contra apart
      have deeper := ((named.of_prefix misses.upper).of_suffix ⟨other,rfl⟩).all_nil
        (by simpa using Ne.symm apart)
      rw [beyond_missing (named.of_prefix again.upper) deeper _ stopped] at ended; cases ended
  subst same
  rw [ended] at stopped; cases stopped; exact ⟨rfl,rfl⟩

theorem Tree.Misses.walk_goal {above spot : Location} (named : Named goal)
    (misses : tree.Misses goal above spot) :
    (above = goal ∧ ∃ directory name, spot = directory ++ [name] ∧
      walk tree .itself linkLimit [] goal = .ok (.vacant directory name)) ∨
    (∀ aim, walk tree aim linkLimit [] goal = .error .notFound) := by
  obtain ⟨directory,name,place,ended⟩ := misses.walk_vacant named
  obtain ⟨more,rfl⟩ := misses.upper
  by_cases here : more = []
  · subst here
    rw [List.append_nil] at *; exact .inl ⟨rfl,directory,name,place,ended⟩
  · have lower := (named.of_suffix ⟨above,rfl⟩).all_nil here
    exact .inr fun aim => beyond_missing (named.of_prefix misses.upper) lower aim ended

theorem Tree.Misses.upper_concat {front above spot : Location} {name : Name}
    (misses : tree.Misses (front ++ [name]) above spot) (apart : above ≠ front ++ [name]) :
    tree.Misses front above spot :=
  ⟨(List.prefix_concat_iff.mp misses.upper).resolve_left apart,
    checkPath_above (List.prefix_append _ _) misses.fits,misses.missing⟩

-- What cannot be found under a directory is missing right there.
theorem isDirectory_of_notFound (rooted : tree.Rooted) {front : Location} {last : Name}
    (named : Named (front ++ [last])) (ended : walk tree .itself linkLimit [] (front ++ [last]) = .error .notFound) :
    tree.isDirectory (pathOf front) = false := by
  by_contra stands
  obtain ⟨-,left,stop,leads⟩ := (isDirectory_pathOf rooted (named.of_prefix (List.prefix_append _ _))).mp
    (by simpa using stands)
  have real := named last (by simp)
  rw [leads.walk_append (.inr (by simp [real.ne_nil])),walk_cons,if_neg (by simp [real.2.1]),
    if_neg real.2.2,if_neg (by simp)] at ended
  split at ended
  · cases ended
  · split at ended <;> simp [walk_nil] at ended

theorem nowhere_of_ended (named : Named goal)
    (vacant : ∀ directory name, walk tree .itself linkLimit [] goal ≠ .ok (.vacant directory name))
    (gone : walk tree .itself linkLimit [] goal ≠ .error .notFound) (above spot : Location) :
    ¬tree.Misses goal above spot := by
  intro misses
  cases misses.walk_goal named with
  | inl here =>
    obtain ⟨-,directory,name,-,ended⟩ := here
    exact vacant directory name ended
  | inr absent => exact gone (absent .itself)

inductive Climbed (tree : Tree) (goal : Location) (missing : List Path) : Prop where
  | made {above spot : Location} (later : List Path) (misses : tree.Misses goal above spot)
      (ended : climbMissing tree (upward goal) missing = .ok (tree.put spot .directory,later ++ missing))
      (listed : ∀ path ∈ later, ∃ deeper, above <+: deeper ∧ deeper <+: goal ∧ path = pathOf deeper) :
      Climbed tree goal missing
  | stood (nowhere : ∀ above spot, ¬tree.Misses goal above spot) (first : missing = [])
      (ended : climbMissing tree (upward goal) missing = .ok (tree,[])) : Climbed tree goal missing
  | refused (nowhere : ∀ above spot, ¬tree.Misses goal above spot) {cause : Cause}
      (ended : climbMissing tree (upward goal) missing = .error cause) : Climbed tree goal missing

theorem climbed_vacant (named : Named goal) (fits : checkPath (pathOf goal) = .ok ())
    {directory : Location} {name : Name}
    (vacant : walk tree .itself linkLimit [] goal = .ok (.vacant directory name)) (missing : List Path) :
    Climbed tree goal missing := by
  have found : tree.find .itself (pathOf goal) = .ok (.vacant directory name) :=
    (find_ok named).mpr ⟨fits,vacant⟩
  have made : tree.makeDirectory (pathOf goal) = .ok (tree.put (directory ++ [name]) .directory) := by
    rw [makeDirectory_pathOf named,found]
  exact .made [] ⟨List.prefix_rfl,fits,directory,name,rfl,found⟩ (climbMissing_made made missing) (by simp)

theorem climbed_present (rooted : tree.Rooted) (named : Named goal)
    (fits : checkPath (pathOf goal) = .ok ()) {stop : Location}
    (present : walk tree .itself linkLimit [] goal = .ok (.present stop)) {missing : List Path}
    (below : missing = [] ∨ tree.isDirectory (pathOf goal) = false) : Climbed tree goal missing := by
  have nowhere : ∀ above spot, ¬tree.Misses goal above spot :=
    nowhere_of_ended named (by simp [present]) (by simp [present])
  have refused : tree.makeDirectory (pathOf goal) = .error .exists := by
    rw [makeDirectory_pathOf named,(find_ok named).mpr ⟨fits,present⟩]
  by_cases stands : tree.isDirectory (pathOf goal) = true
  · have first : missing = [] := below.resolve_right (by simp [stands])
    exact .stood nowhere first (by rw [climbMissing_standing rooted named stands,first])
  · exact .refused nowhere (by rw [climbMissing_refused (by simp) refused,if_neg stands])

theorem climbed_failed (rooted : tree.Rooted) (named : Named goal)
    (fits : checkPath (pathOf goal) = .ok ()) {cause : Cause} (other : cause ≠ .notFound)
    (failed : walk tree .itself linkLimit [] goal = .error cause) (missing : List Path) :
    Climbed tree goal missing := by
  have nowhere : ∀ above spot, ¬tree.Misses goal above spot :=
    nowhere_of_ended named (by simp [failed]) (by simpa [failed] using other)
  have refused : tree.makeDirectory (pathOf goal) = .error cause := by
    rw [makeDirectory_pathOf named,find_pathOf named,fits,Except.bind,failed]
  have bare : ¬tree.isDirectory (pathOf goal) = true := by
    intro stands
    obtain ⟨stop,found⟩ := isDirectory_itself rooted named stands
    rw [((find_ok named).mp found).2] at failed; cases failed
  exact .refused nowhere (by rw [climbMissing_refused other refused,if_neg bare])

theorem climbed_deeper {front : Location} {last : Name} (named : Named (front ++ [last]))
    (fits : checkPath (pathOf (front ++ [last])) = .ok ())
    (gone : walk tree .itself linkLimit [] (front ++ [last]) = .error .notFound) {missing : List Path}
    (higher : Climbed tree front (pathOf (front ++ [last]) :: missing)) :
    Climbed tree (front ++ [last]) missing := by
  have upper : front <+: front ++ [last] := List.prefix_append _ _
  have refused : tree.makeDirectory (pathOf (front ++ [last])) = .error .notFound := by
    rw [makeDirectory_pathOf named,find_pathOf named,fits,Except.bind,gone]
  have step := climbMissing_notFound refused missing
  cases higher with
  | made later misses ended listed =>
    refine .made (later ++ [pathOf (front ++ [last])]) ⟨misses.upper.trans upper,fits,misses.missing⟩
      (by rw [step,ended]; simp) fun path member => ?_
    rcases List.mem_append.mp member with old | new
    · obtain ⟨deeper,under,onto,rfl⟩ := listed path old
      exact ⟨deeper,under,onto.trans upper,rfl⟩
    · exact ⟨front ++ [last],misses.upper.trans upper,List.prefix_rfl,List.mem_singleton.mp new⟩
  | stood _ first => cases first
  | refused nowhere ended =>
    refine .refused (fun above spot misses => nowhere above spot (misses.upper_concat ?_)) (step.trans ended)
    rintro rfl
    obtain ⟨_,_,-,vacant⟩ := misses.walk_vacant named
    rw [gone] at vacant; cases vacant

theorem climbed (rooted : tree.Rooted) (named : Named goal) (fits : checkPath (pathOf goal) = .ok ())
    (missing : List Path) (below : missing = [] ∨ tree.isDirectory (pathOf goal) = false) :
    Climbed tree goal missing := by
  induction goal using List.reverseRecOn generalizing missing with
  | nil => exact climbed_present rooted named fits (walk_nil ..) below
  | append_singleton front last ih =>
    have upper : front <+: front ++ [last] := List.prefix_append _ _
    cases ended : walk tree .itself linkLimit [] (front ++ [last]) with
    | ok found =>
      cases found with
      | vacant directory name => exact climbed_vacant named fits ended missing
      | present stop => exact climbed_present rooted named fits ended below
    | error cause =>
      by_cases gone : cause = .notFound
      · subst gone
        have bare := isDirectory_of_notFound rooted named ended
        exact climbed_deeper named fits ended
          (ih (named.of_prefix upper) (checkPath_above upper fits) _ (.inr bare))
      · exact climbed_failed rooted named fits gone ended missing

end

end ToolDialogue.File
