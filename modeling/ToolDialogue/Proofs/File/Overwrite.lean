import ToolDialogue.Proofs.File.Resolved
import ToolDialogue.Proofs.File.Rewrite

namespace ToolDialogue.File

section

variable {tree : Tree}

theorem hasEntry_of_located {path : Path} {location : Location}
    (located : tree.locate .meaning path = .ok location) : tree.hasEntry path = true := by
  obtain ⟨fits,ended⟩ := find_parts (locate_ok.mp located)
  obtain ⟨stop,reached⟩ := ended.itself
  have found : tree.find .itself path = .ok (.present stop) := by rw [Tree.find,fits]; exact reached
  exact hasEntry_of_find found

theorem climbFrom_head (steps : Nat) (path : Path) (below : List Name) :
    ∃ above, climbFrom steps path below = (path,below) :: above := by
  cases steps <;> exact ⟨_,rfl⟩

theorem deepest_whole {path : Path} (entry : tree.hasEntry path = true) : tree.deepest path = (path,[]) := by
  obtain ⟨above,spelled⟩ := climbFrom_head path.length path []
  simp [Tree.deepest,climb,spelled,entry]

theorem deepest_parent {path parent : Path} {last : Name} (bare : tree.hasEntry path = false)
    (popped : pop? path = some (parent,last)) (entry : tree.hasEntry parent = true) :
    tree.deepest path = (parent,[last]) := by
  have filled : path ≠ [] := by rintro rfl; cases popped
  obtain ⟨c,rest,rfl⟩ := List.exists_cons_of_ne_nil filled
  obtain ⟨above,spelled⟩ := climbFrom_head rest.length parent [last]
  simp [Tree.deepest,climb,climbFrom,popped,spelled,bare,entry]

theorem resolveWithin_eq {allowed : Bool} {root requested : Path} {top standing : Location}
    (stands : tree.locate .meaning root = .ok top)
    (located : tree.locate .meaning (tree.deepest (absolutePath top requested)).1 = .ok standing) :
    tree.resolveWithin allowed root requested =
      if tree.isLink (absolutePath top requested) && !allowed then
        .error (.linkNotAllowed (absolutePath top requested))
      else if (tree.deepest (absolutePath top requested)).2.contains parentName ||
          !isWithin (append (pathOf standing) ((tree.deepest (absolutePath top requested)).2.foldl append []))
            (pathOf top) then
        .error (.outsideRoot
          (append (pathOf standing) ((tree.deepest (absolutePath top requested)).2.foldl append []))
          (pathOf top))
      else .ok (append (pathOf standing) ((tree.deepest (absolutePath top requested)).2.foldl append [])) := by
  have canonical : tree.canonical root = .ok (pathOf top) := by rw [Tree.canonical,stands]; rfl
  have spelled : tree.canonical (tree.deepest (absolutePath top requested)).1 = .ok (pathOf standing) := by
    rw [Tree.canonical,located]; rfl
  rw [Tree.resolveWithin,canonical]
  simp only [asking,bind,Except.bind]
  rw [← absolutePath,spelled]

end

structure Requests (values : Collected) (requested content : String) : Prop where
  path : Argument.text values "file_path" = .ok requested
  content : Argument.text values "content" = .ok content
  encoding : CreateFile.isSupported (CreateFile.encodingOf values) = true

section

variable {rules : Confinement} {values : Collected} {tree : Tree} {requested content : String}

theorem Requests.plan (requests : Requests values requested content) (rules : Confinement) (tree : Tree) :
    CreateFile.plan rules values tree =
      match rules.resolve tree requested with
      | .ok target => .ok ⟨requested,target,content⟩
      | .error refusal => .error (.path refusal) := by
  rw [CreateFile.plan,requests.path,requests.content]
  cases resolved : rules.resolve tree requested with
  | ok target => simp only [bind,Except.bind,requests.encoding,if_true,resolved]
  | error refusal => simp only [bind,Except.bind,requests.encoding,if_true,resolved]

def overwriteError (rules : Confinement) (tree : Tree) (top spot : Location) (requested : String) : ToolError :=
  if Text.allBlank requested then .path .emptyPath
  else if tree.isLink (absolutePath top requested.toList) && !rules.allowLinks then
    .path (.linkNotAllowed (absolutePath top requested.toList))
  else if isWithin (pathOf spot) (pathOf top) then .system (slashCause spot)
  else .path (.outsideRoot (slashed spot) (pathOf top))

theorem run_over {root : String} {top spot : Location} {old : String} (rooted : tree.Rooted)
    (confined : rules.root = some root) (stands : tree.locate .meaning root.toList = .ok top)
    (requests : Requests values requested content)
    (located : tree.locate .meaning (absolutePath top requested.toList) = .ok spot)
    (file : tree.node? spot = some (.file old)) :
    CreateFile.run rules values tree = (.error (overwriteError rules tree top spot requested),tree) := by
  have named := rooted.named file
  have below := tree.below_of_file file
  have whole := deepest_whole (hasEntry_of_located located)
  have checked : tree.resolveWithin rules.allowLinks root.toList requested.toList = _ :=
    resolveWithin_eq stands (by rw [whole]; exact located)
  rw [whole] at checked
  simp only [List.foldl_nil,append_slash named below,List.contains_nil,Bool.false_or] at checked
  have within : isWithin (slashed spot) (pathOf top) = isWithin (pathOf spot) (pathOf top) := by
    rw [isWithin,← append_slash named below,components_slashed named,← isWithin]
  rw [CreateFile.run,requests.plan,Confinement.resolve,confined,overwriteError]
  by_cases blank : Text.allBlank requested = true
  · rw [if_pos blank,if_pos blank]
  rw [if_neg blank,if_neg blank]
  dsimp only
  rw [checked,within]
  by_cases linked : (tree.isLink (absolutePath top requested.toList) && !rules.allowLinks) = true
  · rw [if_pos linked,if_pos linked]
  rw [if_neg linked,if_neg linked]
  by_cases inside : isWithin (pathOf spot) (pathOf top) = true
  · rw [if_neg (by simp [inside]),if_pos inside]
    dsimp only
    rw [place_slashed rooted below file]
  · rw [if_pos (by simp [inside]),if_neg inside]

end

section

variable {tree : Tree}

theorem locate_of_leads {path : Path} {left : Nat} {location : Location} (fits : checkPath path = .ok ())
    (leads : tree.Leads linkLimit (tree.start path) (segments path) left location) :
    tree.locate .meaning path = .ok location := by
  rw [locate_ok,Tree.find,fits]; exact leads.meaning

theorem Tree.Edited.located {edited : Tree} (edits : tree.Edited edited) {path : Path} {location : Location}
    (located : tree.locate .meaning path = .ok location)
    (directory : tree.node? location = some .directory) : edited.locate .meaning path = .ok location := by
  obtain ⟨fits,ended⟩ := find_parts (locate_ok.mp located)
  obtain ⟨left,leads⟩ := ended.leads directory
  have way := leads.mono edits.kept
  rw [Tree.start,← edits.working] at way
  exact locate_of_leads fits way

-- Where the names that were taken off on the way up are directories below what the
-- ancestor stands for, the path leads down to the last of them.
theorem Ascends.located (rooted : tree.Rooted) {path ancestor : Path} {names : List Name}
    {standing : Location} (ascends : Ascends path ancestor names) (absolute : isAbsolute path)
    (short : sizeOf path < pathLimit) (located : tree.locate .meaning ancestor = .ok standing)
    (directory : tree.node? (standing ++ names) = some .directory) :
    tree.locate .meaning path = .ok (standing ++ names) := by
  induction ascends with
  | here => rwa [List.append_nil]
  | @up path parent ancestor last names popped _ ih =>
    have above := (Upper.start absolute).taken popped
    have size : sizeOf parent ≤ sizeOf path := above.size
    rw [← List.append_assoc] at directory ⊢
    have upper := rooted.parent directory
    rw [List.dropLast_concat] at upper
    obtain ⟨front,behind,left,spelled,rests,way,sought,fits⟩ :=
      way_to_name rooted absolute popped (ih above.absolute (by omega) located upper) directory short
    have leads : tree.Leads linkLimit (tree.start path) (segments path) left (standing ++ names ++ [last]) := by
      rw [Tree.start,if_pos absolute,spelled]
      exact way.append (.down sought directory (.idles rests))
    exact locate_of_leads fits leads

end

theorem walked_last {tree : Tree} {links : Nat} {place : Location} {last : Name} {found : Found}
    (real : IsName last) (ended : tree.Walked .writing links place [last] found) :
    found.spot = place ++ [last] ∨ ∃ target, tree.node? (place ++ [last]) = some (.link target) := by
  cases ended with
  | idle idle => rw [real.2.1] at idle; cases idle
  | up => exact absurd rfl real.2.2
  | vacant => exact .inl rfl
  | down _ _ on => cases on; exact .inl rfl
  | file => exact .inl rfl
  | link _ _ unfollowed => cases unfollowed
  | follow _ stands => exact .inr ⟨_,stands⟩

theorem write_append_nil {tree after : Tree} {location : Location} (named : Named location)
    (content : String) : tree.write (append (pathOf location) []) content ≠ .ok after := by
  rw [append_pathOf_nil named]
  rcases List.eq_nil_or_concat' location with rfl | ⟨front,last,rfl⟩
  · have top : tree.find .writing ['/'] = .ok (.present []) := rfl
    rw [if_pos rfl,Tree.write,top]
    simp [bind,Except.bind,tree.node?_root]
  · obtain ⟨cause,refused⟩ := write_slashed tree named content
    rw [if_neg (by simp),refused]; simp

-- The tree behind a request under a root that went through. The parent of the path
-- leads to the directory with the last name. Either the file is there, or a link is,
-- which the request was let through to by what is behind the name.
structure Landed (after : Tree) (top : Location) (path target : Path) (content : String)
    (front : Location) (last : Name) : Prop where
  named : Named (front ++ [last])
  spelled : target = pathOf (front ++ [last])
  under : top <+: front ++ [last]
  parent : ∃ parent, pop? path = some (parent,last) ∧ after.locate .meaning parent = .ok front
  written : after.write target content = .ok after
  holds : after.node? (front ++ [last]) = some (.file content) ∨
    endsIdle path = true ∧ ∃ further, after.node? (front ++ [last]) = some (.link further)
  beyond : ∀ left behind, left ≤ linkLimit → behind ≠ [] →
    ∃ cause, walk after .itself left front (last :: behind) = .error cause

theorem Tree.Edited.directory_above {tree edited : Tree} (edits : tree.Edited edited)
    (rooted : edited.Rooted) {standing below : Location} {node : Node}
    (there : tree.node? standing = some node) (unlinked : ∀ target, tree.node? standing ≠ some (.link target))
    (directory : edited.node? (standing ++ below) = some .directory) :
    tree.node? standing = some .directory := by
  cases node with
  | directory => exact there
  | link target => exact absurd there (unlinked target)
  | file old =>
    obtain ⟨content,file⟩ := edits.file_kept there
    by_cases same : below = []
    · rw [same,List.append_nil,file] at directory; cases directory
    · rw [rooted.above (List.prefix_append standing below) (by simpa using Ne.symm same) directory] at file
      cases file

theorem find_plain {tree : Tree} (rooted : tree.Rooted) {front : Location} {last : Name} {found : Found}
    (named : Named (front ++ [last]))
    (plain : ∀ link, link <+: front → ∀ target, tree.node? link ≠ some (.link target))
    (reached : tree.find .writing (pathOf (front ++ [last])) = .ok found) :
    tree.node? front = some .directory ∧ tree.Walked .writing linkLimit front [last] found := by
  obtain ⟨left,stop,leads,on⟩ := (walked _ _ _ ((find_ok named).mp reached).2).split
    (by simp [named.ne_nil last (by simp)])
  obtain ⟨rfl,rfl⟩ := leads.unlinked (named.of_prefix (List.prefix_append front [last])) plain
  exact ⟨leads.standing rooted tree.node?_root,on⟩

theorem Resolved.landed {tree made after : Tree} {top standing : Location} {path target : Path}
    {content : String} (sound : tree.Sound) (absolute : isAbsolute path) (short : sizeOf path < pathLimit)
    (resolved : Resolved tree top path target standing)
    (parents : CreateFile.makeParents tree target = (.ok (),made))
    (written : made.write target content = .ok after) :
    ∃ front last, Landed after top path target content front last := by
  have first : tree.Edited made := by have edits := sound.makeParents target; rwa [parents] at edits
  have madeSound := first.sound sound
  have second := madeSound.write written
  have afterSound := second.sound madeSound
  obtain ⟨⟨node,there⟩,unlinked⟩ := locate_stands sound.toRooted resolved.located
  have more : (tree.deepest path).2 ≠ [] := by
    intro bare
    rw [resolved.target_eq,if_pos bare] at written
    exact write_append_nil (sound.named there) content written
  obtain ⟨front,last,below⟩ := (List.eq_nil_or_concat' _).resolve_left more
  obtain ⟨name,rest,cut⟩ := List.exists_cons_of_ne_nil more
  have goal : standing ++ name :: rest = standing ++ front ++ [last] := by
    rw [← cut,below,List.append_assoc]
  have named := resolved.named
  have under := resolved.under
  have spelled := resolved.target_eq
  rw [if_neg more] at spelled
  rw [below,← List.append_assoc] at named under spelled
  obtain ⟨found,reached,wrote⟩ := write_wrote madeSound written
  rw [spelled] at reached
  obtain ⟨place,on⟩ := find_plain madeSound.toRooted named (fun link way further linked =>
    resolved.unlinked sound.toRooted short cut (by rwa [goal,List.dropLast_concat]) further
      (first.link_kept linked)) reached
  have directory := second.kept _ _ (by simp) place
  have stood := (first.trans second).directory_above afterSound.toRooted there unlinked directory
  obtain ⟨before,later,split,-⟩ := deepest_split tree path
  have ascends : Ascends path (tree.deepest path).1 (tree.deepest path).2 :=
    climb_ascends (by rw [split]; simp)
  rw [below] at ascends
  obtain ⟨parent,popped,higher⟩ := ascends.popped
  have above := (Upper.start absolute).taken popped
  have size : sizeOf parent ≤ sizeOf path := above.size
  have located := higher.located afterSound.toRooted above.absolute (by omega)
    ((first.trans second).located resolved.located stood) directory
  refine ⟨standing ++ front,last,named,spelled,under,⟨parent,popped,located⟩,
    write_again madeSound written,?_,fun left behind less longer =>
      wrote.walk_beyond madeSound.toRooted on rfl place less longer⟩
  rcases walked_last (named last (by simp)) on with here | ⟨further,linked⟩
  · exact .inl (here ▸ wrote.holds)
  · refine .inr ⟨?_,further,second.kept _ _ (by simp) linked⟩
    obtain ⟨⟨other,overlooked⟩,-⟩ := link_below sound.toRooted there
      (fun target same => unlinked target (same ▸ there)) (by rw [goal]) (first.link_kept linked)
    exact ((resolved.hidden name rest other cut overlooked).resolve_left (by omega)).2.1

namespace Landed

variable {after : Tree} {top front : Location} {path target : Path} {content : String} {last : Name}

theorem stands (landed : Landed after top path target content front last) :
    ∃ node, after.node? (front ++ [last]) = some node := by
  rcases landed.holds with file | ⟨-,further,linked⟩
  · exact ⟨_,file⟩
  · exact ⟨_,linked⟩

theorem located (rooted : after.Rooted) (absolute : isAbsolute path) (short : sizeOf path < pathLimit)
    (landed : Landed after top path target content front last) (ends : endsIdle path = false) (aim : Aim) :
    after.locate aim path = .ok (front ++ [last]) ∧ after.node? (front ++ [last]) = some (.file content) := by
  obtain ⟨parent,popped,up⟩ := landed.parent
  obtain ⟨node,there⟩ := landed.stands
  obtain ⟨upper,behind,left,spelled,rests,way,sought,fits⟩ :=
    way_to_name rooted absolute popped up there short
  have file := landed.holds.resolve_right fun ⟨idle,_⟩ => by rw [ends] at idle; cases idle
  cases behind_nil spelled rests (by simp [ends])
  refine ⟨locate_ok.mpr ?_,file⟩
  have filled : last ≠ [] := by rintro rfl; cases sought.real
  rw [Tree.find,fits,Tree.start,if_pos absolute,spelled]
  exact (way.walk_append (.inr (by simp [filled]))).trans (by rw [walk_sought sought (by simp),file]; rfl)

theorem entryless (rooted : after.Rooted) (absolute : isAbsolute path) (short : sizeOf path < pathLimit)
    (landed : Landed after top path target content front last) (ends : endsIdle path = true) :
    after.hasEntry path = false := by
  obtain ⟨parent,popped,up⟩ := landed.parent
  obtain ⟨node,there⟩ := landed.stands
  obtain ⟨upper,behind,left,spelled,-,way,sought,fits⟩ :=
    way_to_name rooted absolute popped up there short
  have filled : last ≠ [] := by rintro rfl; cases sought.real
  have more : behind ≠ [] := by
    rintro rfl
    rw [endsIdle,spelled,List.getLast?_concat,Option.map_some,sought.real] at ends; cases ends
  obtain ⟨cause,failed⟩ := landed.beyond left behind way.fewer more
  have refused : after.find .itself path = .error cause := by
    rw [Tree.find,fits,Tree.start,if_pos absolute,spelled]
    exact (way.walk_append (.inr (by simp [filled]))).trans failed
  rw [Tree.hasEntry,Tree.locate,refused]; rfl

end Landed

theorem resolveWithin_again {after : Tree} {top front : Location} {root requested target : Path}
    {content : String} {last : Name} (rooted : after.Rooted) (stands : after.locate .meaning root = .ok top)
    (upper : Named top) (short : sizeOf (absolutePath top requested) < pathLimit)
    (landed : Landed after top (absolutePath top requested) target content front last)
    (ends : endsIdle (absolutePath top requested) = true) (allowed : Bool) :
    after.resolveWithin allowed root requested = .ok target := by
  obtain ⟨parent,popped,up⟩ := landed.parent
  have bare := landed.entryless rooted (absolutePath_absolute top requested) short ends
  have whole := deepest_parent bare popped (hasEntry_of_located up)
  have unlinked : after.isLink (absolutePath top requested) = false := by
    rw [Tree.hasEntry] at bare
    rw [Tree.isLink]
    cases located : after.locate .itself (absolutePath top requested) with
    | ok location => rw [located] at bare; cases bare
    | error cause => rfl
  have checked : after.resolveWithin allowed root requested = _ :=
    resolveWithin_eq stands (by rw [whole]; exact up)
  have lower : Named [last] := landed.named.of_suffix (List.suffix_append front [last])
  have real := lower last (by simp)
  have appended : append (pathOf front) ([last].foldl append []) = target := by
    rw [foldl_append fun name member => ⟨(lower name member).1,(lower name member).ne_nil⟩,
      append_pathOf (landed.named.of_prefix (List.prefix_append front [last])) lower (by simp),landed.spelled]
  have inside : isWithin target (pathOf top) = true := by
    rw [landed.spelled]; exact (isWithin_pathOf upper landed.named).mpr landed.under
  have level : [last].contains parentName = false := by simp [Ne.symm real.2.2]
  rw [whole] at checked
  dsimp only at checked
  rw [checked,unlinked,appended,level,inside]; rfl

theorem Landed.placed {after : Tree} {top front : Location} {path target : Path} {content : String}
    {last : Name} (sound : after.Sound) (landed : Landed after top path target content front last) :
    CreateFile.place after target content = (.ok (),after) := by
  have written := landed.written
  obtain ⟨found,reached,-⟩ := write_wrote sound written
  rw [landed.spelled] at written reached ⊢
  rw [place_reached sound.toRooted landed.named (by simp) reached,written]

section

variable {rules : Confinement} {values : Collected} {tree after : Tree} {requested content report : String}

theorem Requests.ran (requests : Requests values requested content)
    (done : CreateFile.run rules values tree = (.ok report,after)) :
    ∃ target made, rules.resolve tree requested = .ok target ∧
      report = CreateFile.Plan.report ⟨requested,target,content⟩ ∧
      CreateFile.makeParents tree target = (.ok (),made) ∧ made.write target content = .ok after := by
  rw [CreateFile.run,requests.plan] at done
  cases resolved : rules.resolve tree requested with
  | error refusal => rw [resolved] at done; cases done
  | ok target =>
    rw [resolved] at done
    dsimp only at done
    rw [CreateFile.place] at done
    cases parents : CreateFile.makeParents tree target with
    | mk result made =>
      rw [parents] at done
      cases result with
      | error cause => cases done
      | ok =>
        dsimp only at done
        cases written : made.write target content with
        | error cause => rw [written] at done; cases done
        | ok written' => rw [written] at done; cases done; exact ⟨target,made,rfl,rfl,parents,written⟩

-- A request that went through and is made again is refused for the file it has made,
-- unless it ends in a slash or a dot: then the file is overlooked and written again.
theorem run_again {root : String} {top : Location} (sound : tree.Sound)
    (confined : rules.root = some root) (stands : tree.locate .meaning root.toList = .ok top)
    (directory : tree.node? top = some .directory) (requests : Requests values requested content)
    (short : sizeOf (absolutePath top requested.toList) < pathLimit)
    (done : CreateFile.run rules values tree = (.ok report,after)) :
    (endsIdle requested.toList = true → CreateFile.run rules values after = (.ok report,after)) ∧
    (endsIdle requested.toList = false → ∃ spot,
      after.locate .meaning (absolutePath top requested.toList) = .ok spot ∧
      after.node? spot = some (.file content) ∧
      CreateFile.run rules values after = (.error (.system (slashCause spot)),after)) := by
  have absolute := absolutePath_absolute top requested.toList
  have upper := sound.named directory
  have edits : tree.Edited after := by have edits := sound.run rules values; rwa [done] at edits
  have afterSound := edits.sound sound
  have still := edits.located stands directory
  obtain ⟨target,made,resolved,rfl,parents,written⟩ := requests.ran done
  rw [Confinement.resolve,confined] at resolved
  split at resolved
  · cases resolved
  next filled =>
  dsimp only at resolved
  obtain ⟨standing,known⟩ := resolveWithin_resolved sound.toRooted stands resolved
  obtain ⟨front,last,landed⟩ := known.landed sound absolute short parents written
  rw [← endsIdle_absolutePath upper]
  constructor
  · intro idle
    have again := resolveWithin_again afterSound.toRooted still upper short landed idle rules.allowLinks
    rw [CreateFile.run,requests.plan,Confinement.resolve,confined,if_neg filled]
    dsimp only
    rw [again]
    dsimp only
    rw [landed.placed afterSound]
  · intro named
    obtain ⟨located,file⟩ := landed.located afterSound.toRooted absolute short named .meaning
    obtain ⟨itself,-⟩ := landed.located afterSound.toRooted absolute short named .itself
    have unlinked : after.isLink (absolutePath top requested.toList) = false := by
      simp only [Tree.isLink,itself,file]
    have inside : isWithin (pathOf (front ++ [last])) (pathOf top) = true :=
      (isWithin_pathOf upper landed.named).mpr landed.under
    refine ⟨_,located,file,?_⟩
    rw [run_over afterSound.toRooted confined still requests located file,overwriteError,if_neg filled,unlinked,
      Bool.false_and,if_neg (by simp),if_pos inside]

-- Under a root a file is written once: requests for one that stands are refused, also
-- the very request that has made it.
theorem written_once {root : String} {top : Location} (sound : tree.Sound)
    (confined : rules.root = some root) (stands : tree.locate .meaning root.toList = .ok top)
    (directory : tree.node? top = some .directory) (requests : Requests values requested content) :
    (∀ spot old, tree.locate .meaning (absolutePath top requested.toList) = .ok spot →
      tree.node? spot = some (.file old) →
      CreateFile.run rules values tree = (.error (overwriteError rules tree top spot requested),tree)) ∧
    (∀ report after, sizeOf (absolutePath top requested.toList) < pathLimit →
      CreateFile.run rules values tree = (.ok report,after) →
      (endsIdle requested.toList = true → CreateFile.run rules values after = (.ok report,after)) ∧
      (endsIdle requested.toList = false → ∃ spot,
        after.locate .meaning (absolutePath top requested.toList) = .ok spot ∧
        after.node? spot = some (.file content) ∧
        CreateFile.run rules values after = (.error (.system (slashCause spot)),after))) :=
  ⟨fun _ _ located file => run_over sound.toRooted confined stands requests located file,
    fun _ _ short done => run_again sound confined stands directory requests short done⟩

end

def bareRoot : Tree where
  nodes := [([['r']],.directory)]
  working := []

def filedRoot : Tree := bareRoot.put [['r'],['a']] (.file "old")

def renewal : Collected := [("file_path",.text "a"),("content",.text "new")]

theorem bareRoot_sound : bareRoot.Sound :=
  Tree.Rooted.sound ⟨by decide +kernel,by decide +kernel,by decide +kernel⟩ (by simp [bareRoot])

theorem filedRoot_sound : filedRoot.Sound := by
  have stands : bareRoot.node? [['r']] = some .directory := by decide +kernel
  exact bareRoot_sound.put stands ⟨by decide,by decide,by decide⟩ (by decide +kernel) (by simp)

theorem written_once_filed :
    CreateFile.run ⟨some "/r",true⟩ renewal filedRoot = (.error (.system .isDirectory),filedRoot) ∧
    ∃ report after, CreateFile.run ⟨some "/r",true⟩ renewal bareRoot = (.ok report,after) ∧
      ∃ spot, CreateFile.run ⟨some "/r",true⟩ renewal after = (.error (.system (slashCause spot)),after) := by
  have confined : (⟨some "/r",true⟩ : Confinement).root = some "/r" := rfl
  have requests : Requests renewal "a" "new" := ⟨rfl,rfl,by decide +kernel⟩
  have filed : filedRoot.locate .meaning "/r".toList = .ok [['r']] := by decide +kernel
  have bare : bareRoot.locate .meaning "/r".toList = .ok [['r']] := by decide +kernel
  constructor
  · have refused := (written_once filedRoot_sound confined filed (by decide +kernel) requests).1
      [['r'],['a']] "old" (by decide +kernel) (by decide +kernel)
    have error : overwriteError ⟨some "/r",true⟩ filedRoot [['r']] [['r'],['a']] "a" = .system .isDirectory := by
      decide +kernel
    rwa [error] at refused
  · have done : CreateFile.run ⟨some "/r",true⟩ renewal bareRoot =
        (.ok "Successfully created file: a\nSize: 3 characters",
          (CreateFile.run ⟨some "/r",true⟩ renewal bareRoot).2) := Prod.ext (by decide +kernel) rfl
    obtain ⟨spot,-,-,again⟩ := ((written_once bareRoot_sound confined bare (by decide +kernel) requests).2
      _ _ (by decide +kernel) done).2 (by decide +kernel)
    exact ⟨_,_,done,spot,again⟩

-- The file keeps its content, with links allowed or not, and a file that was just made
-- cannot be made again.
theorem file_stays_old : filedRoot.Sound ∧
    filedRoot.locate .meaning "/r/a".toList = .ok [['r'],['a']] ∧
    filedRoot.node? [['r'],['a']] = some (.file "old") ∧
    (∀ allowLinks, (CreateFile.run ⟨some "/r",allowLinks⟩ renewal filedRoot).1 = .error (.system .isDirectory) ∧
      (CreateFile.run ⟨some "/r",allowLinks⟩ renewal filedRoot).2.node? [['r'],['a']] = some (.file "old")) ∧
    (CreateFile.run ⟨some "/r",true⟩ renewal bareRoot).1 =
      .ok "Successfully created file: a\nSize: 3 characters" ∧
    (CreateFile.run ⟨some "/r",true⟩ renewal (CreateFile.run ⟨some "/r",true⟩ renewal bareRoot).2).1 =
      .error (.system .isDirectory) :=
  ⟨filedRoot_sound,by decide +kernel,by decide +kernel,by decide +kernel,by decide +kernel,by decide +kernel⟩

end ToolDialogue.File
