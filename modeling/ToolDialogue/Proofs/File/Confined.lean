import ToolDialogue.Proofs.File.Place

namespace ToolDialogue.File

def absolutePath (root : Location) (requested : Path) : Path :=
  if isAbsolute requested then requested else append (pathOf root) requested

theorem absolutePath_absolute (root : Location) (requested : Path) :
    isAbsolute (absolutePath root requested) := by
  unfold absolutePath
  split
  · assumption
  · next relative =>
    rw [append,if_neg relative]
    split <;> simp [pathOf,isAbsolute]

theorem endsIdle_absolutePath {root : Location} (named : Named root) (requested : Path) :
    endsIdle (absolutePath root requested) = endsIdle requested := by
  have behind (front : Path) : endsIdle (front ++ '/' :: requested) = endsIdle requested := by
    have some : (segments requested).getLast? ≠ none := by simp [segments,Text.pieces_ne_nil]
    rw [endsIdle,endsIdle,segments,Text.pieces_append_mark,List.getLast?_append]
    cases last : (segments requested).getLast? with
    | none => exact absurd last some
    | some segment => rw [segments] at last; rw [last]; rfl
  unfold absolutePath
  split
  · rfl
  · next relative =>
    have other : requested.head? ≠ some '/' := by simpa [isAbsolute] using relative
    rcases List.eq_nil_or_concat' root with rfl | ⟨front,last,rfl⟩
    · rw [append,if_neg relative]; exact behind []
    · have real := named last (by simp)
      rw [pathOf_eq_joined (by simp),← List.cons_append,append_named real.1 real.ne_nil other,behind]

section

variable {tree : Tree}

theorem locate_ok {aim : Aim} {path : Path} {location : Location} :
    tree.locate aim path = .ok location ↔ tree.find aim path = .ok (.present location) := by
  rw [Tree.locate]
  cases tree.find aim path with
  | error cause => simp [bind,Except.bind]
  | ok found => cases found <;> simp [bind,Except.bind]

theorem locate_stands (rooted : tree.Rooted) {path : Path} {location : Location}
    (located : tree.locate .meaning path = .ok location) :
    (∃ node, tree.node? location = some node) ∧ ∀ target, tree.node? location ≠ some (.link target) := by
  have started : tree.node? (tree.start path) = some .directory := by
    unfold Tree.start; split
    · exact tree.node?_root
    · exact rooted.standing
  have ended := (find_parts (locate_ok.mp located)).2
  exact ⟨ended.fair rooted started,ended.unlinked (by decide) started rooted rfl⟩

theorem hasEntry_of_find {path : Path} {location : Location}
    (found : tree.find .itself path = .ok (.present location)) : tree.hasEntry path = true := by
  rw [Tree.hasEntry,locate_ok.mpr found]; rfl

theorem leads_parent {kept idle : List Name} {left : Nat} {location : Location}
    (whole : ∀ segment ∈ kept, '/' ∉ segment) (idles : ∀ segment ∈ idle, isIdle segment)
    (leads : tree.Leads linkLimit [] (segments (if kept = [] then ['/'] else joined ([] :: kept))) left
      location) : tree.Leads linkLimit [] ([] :: (kept ++ idle)) left location := by
  have front : tree.Leads linkLimit [] ([] :: kept) left location := by
    by_cases top : kept = []
    · subst top
      have root : segments ['/'] = [[],[]] := rfl
      rw [if_pos rfl,root] at leads
      cases leads with
      | idle _ on => exact on
      | down sought => exact absurd sought.real (by decide)
      | follow sought => exact absurd sought.real (by decide)
    · rwa [if_neg top,segments_joined (by simp) (by simpa using whole)] at leads
  exact front.append (.idles idles)

theorem behind_nil {path : Path} {front behind : List Name} {last : Name}
    (spelled : segments path = front ++ last :: behind) (idles : ∀ segment ∈ behind, isIdle segment)
    (ends : ¬endsIdle path = true) : behind = [] := by
  by_contra more
  apply ends
  obtain ⟨before,ending,rfl⟩ := (List.eq_nil_or_concat' behind).resolve_left more
  have parts : segments path = (front ++ last :: before) ++ [ending] := by rw [spelled]; simp
  rw [endsIdle,parts,List.getLast?_concat,Option.map_some,idles ending (by simp)]; rfl

theorem checkPath_taken {path : Path} {kept idle behind : List Name} {last : Name} (absolute : isAbsolute path)
    (spelled : segments path = [] :: (kept ++ idle ++ last :: behind)) (idles : ∀ segment ∈ idle, isIdle segment)
    (rests : ∀ segment ∈ behind, isIdle segment)
    (upper : checkPath (if kept = [] then ['/'] else joined ([] :: kept)) = .ok ())
    (plain : Char.ofNat 0 ∉ last) (short : sizeOf path < pathLimit) : checkPath path = .ok () := by
  have bare {segment : Name} (idle : isIdle segment) : Char.ofNat 0 ∉ segment := by
    simp only [isIdle,Bool.or_eq_true,beq_iff_eq] at idle
    rcases idle with rfl | rfl <;> simp
  refine checkPath_ok.mpr ⟨?_,?_,short⟩
  · intro nul
    rw [← joined_segments path,spelled] at nul
    rcases mem_joined nul with slash | ⟨part,listed,within⟩
    · exact absurd slash (by decide)
    simp only [List.mem_cons,List.mem_append] at listed
    rcases listed with rfl | (old | skipped) | rfl | later
    · cases within
    · rw [if_neg (List.ne_nil_of_mem old)] at upper
      exact (checkPath_ok.mp upper).1 (mem_joined_of_mem (List.mem_cons_of_mem _ old) within)
    · exact bare (idles part skipped) within
    · exact plain within
    · exact bare (rests part later) within
  · rintro rfl
    simp [isAbsolute] at absolute

theorem start_taken (kept : List Name) :
    tree.start (if kept = [] then ['/'] else joined ([] :: kept)) = [] := by
  split
  · rfl
  · next some => rw [Tree.start,if_pos (joined_whole some)]

theorem find_below {path : Path} {front : List Name} {last : Name} {left : Nat} {location : Location}
    {node : Node} (absolute : isAbsolute path) (fits : checkPath path = .ok ())
    (spelled : segments path = front ++ [last]) (way : tree.Leads linkLimit [] front left location)
    (filled : last ≠ []) (sought : Sought last) (stands : tree.node? (location ++ [last]) = some node) :
    ∃ stop, tree.find .itself path = .ok (.present stop) := by
  have reached : walk tree .itself linkLimit [] (front ++ [last]) = walk tree .itself left location [last] :=
    way.walk_append (.inr (by simp [filled]))
  rw [walk_sought sought (by simp),stands] at reached
  rw [Tree.find,fits,Tree.start,if_pos absolute,spelled]
  simp only [bind,Except.bind]
  rw [reached]
  cases node with
  | directory => exact ⟨_,walk_nil ..⟩
  | file content => exact ⟨_,rfl⟩
  | link target => exact ⟨_,rfl⟩

theorem way_to_name (rooted : tree.Rooted) {path parent : Path} {last : Name} {location : Location}
    {node : Node} (absolute : isAbsolute path) (popped : pop? path = some (parent,last))
    (located : tree.locate .meaning parent = .ok location)
    (stands : tree.node? (location ++ [last]) = some node) (short : sizeOf path < pathLimit) :
    ∃ upper behind left, segments path = upper ++ last :: behind ∧ (∀ segment ∈ behind, isIdle segment) ∧
      tree.Leads linkLimit [] upper left location ∧ Sought last ∧ checkPath path = .ok () := by
  obtain ⟨kept,idle,behind,spelled,idles,rests,real,-,rfl⟩ := pop?_absolute absolute popped
  have held := rooted.held stands last (by simp)
  have whole : ∀ segment ∈ kept, '/' ∉ segment := fun segment member =>
    segments_whole path (by simp [spelled,member])
  obtain ⟨above,ended⟩ := find_parts (locate_ok.mp located)
  have directory := rooted.parent stands
  rw [List.dropLast_concat] at directory
  rw [start_taken] at ended
  obtain ⟨left,leads⟩ := ended.leads directory
  exact ⟨[] :: (kept ++ idle),behind,left,spelled,rests,leads_parent whole idles leads,
    ⟨held.1.2.1,held.1.2.2,held.2.2⟩,checkPath_taken absolute spelled idles rests above held.2.1 short⟩

-- Something stands under the name that was taken off a path without an entry only if
-- the path is too long for the system, or has more behind the name, which is then no
-- directory's.
theorem entryless (rooted : tree.Rooted) {path parent : Path} {last : Name} {location : Location}
    {node : Node} (absolute : isAbsolute path) (popped : pop? path = some (parent,last))
    (located : tree.locate .meaning parent = .ok location)
    (stands : tree.node? (location ++ [last]) = some node) (bare : tree.hasEntry path = false) :
    pathLimit ≤ sizeOf path ∨ endsIdle path = true ∧ node ≠ .directory := by
  by_contra neither
  obtain ⟨short,ends⟩ := not_or.mp neither
  obtain ⟨upper,behind,left,spelled,rests,way,sought,fits⟩ :=
    way_to_name rooted absolute popped located stands (by omega)
  have found : ∃ stop, tree.find .itself path = .ok (.present stop) := by
    by_cases same : node = .directory
    · -- what is behind a directory's name stays in the directory
      subst same
      obtain ⟨stop,walked⟩ := (way.append (.down sought stands (.idles rests))).itself
      exact ⟨stop,by rw [Tree.find,fits,Tree.start,if_pos absolute,spelled]; exact walked⟩
    · cases behind_nil spelled rests fun idle => ends ⟨idle,same⟩
      have filled : last ≠ [] := by rintro rfl; cases sought.real
      exact find_below absolute fits spelled way filled sought stands
  obtain ⟨stop,found⟩ := found
  rw [hasEntry_of_find found] at bare; cases bare

theorem resolveWithin_parts {allowed : Bool} {root requested target : Path} {top : Location}
    (stands : tree.locate .meaning root = .ok top)
    (resolved : tree.resolveWithin allowed root requested = .ok target) :
    ∃ standing, tree.locate .meaning (tree.deepest (absolutePath top requested)).1 = .ok standing ∧
      target = append (pathOf standing) ((tree.deepest (absolutePath top requested)).2.foldl append []) ∧
      parentName ∉ (tree.deepest (absolutePath top requested)).2 ∧ isWithin target (pathOf top) = true := by
  have canonical : tree.canonical root = .ok (pathOf top) := by rw [Tree.canonical,stands]; rfl
  rw [Tree.resolveWithin,canonical] at resolved
  simp only [asking,bind,Except.bind] at resolved
  rw [← absolutePath] at resolved
  split at resolved
  · cases resolved
  generalize tree.deepest (absolutePath top requested) = step at *
  cases located : tree.locate .meaning step.1 with
  | error cause => rw [Tree.canonical,located] at resolved; cases resolved
  | ok standing =>
    have spelled : tree.canonical step.1 = .ok (pathOf standing) := by rw [Tree.canonical,located]; rfl
    rw [spelled] at resolved
    dsimp only at resolved
    split at resolved
    · cases resolved
    · next inside =>
      cases resolved
      simp only [Bool.or_eq_true,List.contains_iff_mem,Bool.not_eq_true',not_or,Bool.not_eq_false] at inside
      exact ⟨standing,rfl,rfl,inside.1,inside.2⟩

-- What a request that is let through stands for: a place that the system has resolved,
-- and the names still to come below it. If the first of them stands as well, it was
-- overlooked for the length of the path or for what is behind it, and is no directory.
structure Resolved (tree : Tree) (top : Location) (path target : Path) (standing : Location) : Prop where
  located : tree.locate .meaning (tree.deepest path).1 = .ok standing
  spelled : target = append (pathOf standing) (joined (tree.deepest path).2)
  named : Named (standing ++ (tree.deepest path).2)
  under : top <+: standing ++ (tree.deepest path).2
  hidden : ∀ first rest node, (tree.deepest path).2 = first :: rest →
    tree.node? (standing ++ [first]) = some node →
      pathLimit ≤ sizeOf path ∨ rest = [] ∧ endsIdle path = true ∧ node ≠ .directory

theorem components_slashed {location : Location} (named : Named location) :
    components (append (pathOf location) []) = components (pathOf location) := by
  rw [append_pathOf_nil named]
  split
  · next top => subst top; rfl
  · next below =>
    have absolute : isAbsolute (pathOf location ++ ['/']) := rfl
    simp [components,segments_slashed named below,segments_pathOf named,below,absolute,isAbsolute_pathOf,
      isIdle]

theorem resolveWithin_resolved (rooted : tree.Rooted) {allowed : Bool} {root requested target : Path}
    {top : Location} (stands : tree.locate .meaning root = .ok top)
    (resolved : tree.resolveWithin allowed root requested = .ok target) :
    ∃ standing, Resolved tree top (absolutePath top requested) target standing := by
  have upper : Named top := rooted.named (locate_stands rooted stands).1.choose_spec
  obtain ⟨climbed,taken⟩ := deepest_upper tree (absolutePath_absolute top requested)
  obtain ⟨standing,located,spelled,unled,inside⟩ := resolveWithin_parts stands resolved
  generalize absolutePath top requested = path at *
  obtain ⟨⟨node,there⟩,-⟩ := locate_stands rooted located
  have named := rooted.named there
  rw [climbed.remainder] at spelled
  have lower : Named (tree.deepest path).2 := fun name member =>
    ⟨(climbed.names name member).1,(climbed.names name member).2,fun up => unled (up ▸ member)⟩
  refine ⟨standing,located,spelled,named.append lower,?_,?_⟩
  · refine (isWithin_pathOf upper (named.append lower)).mp ?_
    by_cases all : (tree.deepest path).2 = []
    · have slashed : target = append (pathOf standing) [] := by rw [spelled,all]; rfl
      rw [slashed,isWithin,components_slashed named,← isWithin] at inside
      rwa [all,List.append_nil]
    · rwa [spelled,append_pathOf named lower all] at inside
  · intro first rest other below overlooked
    rcases taken with none | ⟨step,last,known,popped,split,bare,ends⟩
    · rw [none] at below; cases below
    obtain ⟨rfl,rfl⟩ := List.cons.inj (below.symm.trans split)
    rcases entryless rooted known.absolute popped located overlooked bare with long | ⟨idle,other⟩
    · exact .inl (long.trans known.size)
    rcases ends with start | named
    · subst start; exact .inr ⟨rfl,idle,other⟩
    · rw [idle] at named; cases named

-- What confinement lets a write go to: a slash behind what stands, or names below
-- it inside the root.
theorem resolveWithin_ok (rooted : tree.Rooted) {allowed : Bool} {root requested target : Path}
    {top : Location} (stands : tree.locate .meaning root = .ok top)
    (resolved : tree.resolveWithin allowed root requested = .ok target) :
    ∃ standing, (∃ node, tree.node? standing = some node ∧ ∀ target, node ≠ .link target) ∧
      (target = append (pathOf standing) [] ∨
        ∃ first rest, Named (standing ++ first :: rest) ∧ top <+: standing ++ first :: rest ∧
          target = pathOf (standing ++ first :: rest) ∧
          ((∃ node, tree.node? (standing ++ [first]) = some node) →
            pathLimit ≤ sizeOf (absolutePath top requested) ∨
              rest = [] ∧ endsIdle (absolutePath top requested) = true)) := by
  obtain ⟨standing,known⟩ := resolveWithin_resolved rooted stands resolved
  obtain ⟨⟨node,there⟩,unlinked⟩ := locate_stands rooted known.located
  have named := known.named
  have under := known.under
  refine ⟨standing,⟨node,there,fun target same => unlinked target (same ▸ there)⟩,?_⟩
  rw [known.spelled]
  cases below : (tree.deepest (absolutePath top requested)).2 with
  | nil => exact .inl rfl
  | cons first rest =>
    rw [below] at named under
    have lower : Named (first :: rest) := named.of_suffix (List.suffix_append standing _)
    refine .inr ⟨first,rest,named,under,append_pathOf (rooted.named there) lower (by simp),?_⟩
    rintro ⟨other,overlooked⟩
    exact (known.hidden first rest other below overlooked).imp_right fun hidden => ⟨hidden.1,hidden.2.1⟩

variable {goal : Location} {content : String} {spot : Location}

theorem Touched.not_directory (rooted : tree.Rooted) (named : Named goal)
    (touched : Touched tree goal content spot) : tree.node? spot ≠ some .directory := by
  cases touched with
  | made misses => rw [misses.bare rooted (named.of_prefix (List.dropLast_prefix goal))]; simp
  | created missing =>
    rw [((find_parts missing).2.fair rooted tree.node?_root).2]; simp
  | replaced _ stands => rw [stands]; simp

theorem Touched.below_root (rooted : tree.Rooted) (named : Named goal)
    (touched : Touched tree goal content spot) : goal ≠ [] := by
  rintro rfl
  cases touched with
  | made misses => exact misses.not_standing rooted tree.node?_root
  | created missing =>
    have top : tree.find .writing (pathOf []) = .ok (.present []) := rfl
    rw [top] at missing; cases missing
  | replaced found stands =>
    have top : tree.find .writing (pathOf []) = .ok (.present []) := rfl
    rw [top] at found; cases found
    rw [tree.node?_root] at stands; cases stands

theorem Touched.unlinked (named : Named goal) (touched : Touched tree goal content spot)
    (plain : ∀ link, link <+: goal → ∀ target, tree.node? link ≠ some (.link target)) :
    spot <+: goal := by
  cases touched with
  | @made above spot misses =>
    have upper : Named goal.dropLast := named.of_prefix (List.dropLast_prefix goal)
    have onto := misses.upper.trans (List.dropLast_prefix goal)
    obtain ⟨directory,name,rfl,ended⟩ := misses.walk_vacant upper
    exact ((walked _ _ _ ended).plain (upper.of_prefix misses.upper) fun front under =>
      plain front (under.trans onto)).2.trans onto
  | created missing => exact ((walked _ _ _ ((find_ok named).mp missing).2).plain named plain).2
  | replaced found => exact ((walked _ _ _ ((find_ok named).mp found).2).plain named plain).2

theorem Touched.link_of_outside (touched : Touched tree goal content spot) (rooted : tree.Rooted)
    (named : Named goal) {top : Location} (directory : tree.node? top = some .directory)
    (under : top <+: goal) (outside : ¬top <+: spot) :
    ∃ link, link <+: goal ∧ ∃ target, tree.node? link = some (.link target) := by
  by_contra none
  have onway := touched.unlinked named fun link way target linked => none ⟨link,way,target,linked⟩
  have higher := (List.prefix_or_prefix_of_prefix under onway).resolve_left outside
  apply touched.not_directory rooted named
  by_cases here : spot = top
  · rw [here,directory]
  · exact rooted.above higher here directory

theorem link_below (rooted : tree.Rooted) {standing link : Location} {first : Name} {rest : List Name}
    {node : Node} {target : Path} (there : tree.node? standing = some node)
    (unlinked : ∀ target, node ≠ .link target) (way : link <+: standing ++ first :: rest)
    (linked : tree.node? link = some (.link target)) :
    (∃ node, tree.node? (standing ++ [first]) = some node) ∧
      (rest = [] → link = standing ++ first :: rest) := by
  have apart : ¬link <+: standing := by
    intro upper
    by_cases same : link = standing
    · rw [same,there] at linked; injection linked with same; exact unlinked target same
    · rw [rooted.above upper same there] at linked; cases linked
  obtain ⟨more,rfl⟩ := (List.prefix_or_prefix_of_prefix way (List.prefix_append standing _)).resolve_left apart
  cases more with
  | nil => exact absurd (by simp) apart
  | cons head tail =>
    obtain ⟨rfl,below⟩ := List.cons_prefix_cons.mp ((List.prefix_append_right_inj standing).mp way)
    refine ⟨?_,fun last => ?_⟩
    · by_cases last : tail = []
      · exact ⟨_,last ▸ linked⟩
      · exact ⟨_,rooted.above ⟨tail,by simp⟩ (by simpa using Ne.symm last) linked⟩
    · rw [last] at below ⊢; rw [List.prefix_nil.mp below]

end

-- A write leaves its root: a link in the place that the request was resolved to was
-- overlooked, and through it the write touches a node outside. That takes a request that
-- is too long for the system, or one with something idle behind the link's name.
def Escapes (rules : Confinement) (values : Collected) (tree : Tree) (root : Location) : Prop :=
  ∃ plan goal link target spot, CreateFile.plan rules values tree = .ok plan ∧
    Named goal ∧ plan.target = pathOf goal ∧ root <+: goal ∧
    link <+: goal ∧ tree.node? link = some (.link target) ∧
    (pathLimit ≤ sizeOf (absolutePath root plan.requested.toList) ∨
      link = goal ∧ endsIdle plan.requested.toList = true) ∧
    Touched tree goal plan.content spot ∧ ¬root <+: spot

theorem plan_resolved {rules : Confinement} {values : Collected} {tree : Tree} {plan : CreateFile.Plan}
    (planned : CreateFile.plan rules values tree = .ok plan) :
    rules.resolve tree plan.requested = .ok plan.target := by
  unfold CreateFile.plan at planned
  cases requested : Argument.text values "file_path" with
  | error error => rw [requested] at planned; cases planned
  | ok requested' =>
    cases content : Argument.text values "content" with
    | error error => rw [requested,content] at planned; cases planned
    | ok content' =>
      rw [requested,content] at planned
      dsimp only [bind,Except.bind] at planned
      split at planned
      · split at planned
        · next target resolved => cases planned; exact resolved
        · cases planned
      · cases planned

theorem run_refused {rules : Confinement} {values : Collected} {tree : Tree} {error : ToolError}
    (refused : CreateFile.plan rules values tree = .error error) :
    (CreateFile.run rules values tree).2 = tree := by
  rw [CreateFile.run,refused]

theorem run_planned {rules : Confinement} {values : Collected} {tree : Tree} {plan : CreateFile.Plan}
    (planned : CreateFile.plan rules values tree = .ok plan) :
    (CreateFile.run rules values tree).2 = (CreateFile.place tree plan.target plan.content).2 := by
  rw [CreateFile.run,planned]
  dsimp only
  cases CreateFile.place tree plan.target plan.content with
  | mk result placed => cases result <;> rfl

-- Nothing outside the root is made or changed, unless a request is spelled in one of the
-- two ways that hide a link and the link leads out.
theorem run_confined_iff {rules : Confinement} {values : Collected} {tree : Tree} {root : String}
    {top : Location} (rooted : tree.Rooted) (confined : rules.root = some root)
    (stands : tree.locate .meaning root.toList = .ok top)
    (directory : tree.node? top = some .directory) :
    (∀ location, ¬top <+: location →
      (CreateFile.run rules values tree).2.node? location = tree.node? location) ↔
    ¬Escapes rules values tree top := by
  have upper := rooted.named directory
  constructor
  · rintro kept ⟨plan,goal,link,target,spot,planned,named,same,-,-,-,-,touched,outside⟩
    have changed := touched.changed rooted named (touched.below_root rooted named)
    rw [run_planned planned,same] at kept
    exact changed (kept spot outside)
  · intro inside location outside
    by_contra changed
    cases planned : CreateFile.plan rules values tree with
    | error error => rw [run_refused planned] at changed; exact changed rfl
    | ok plan =>
      rw [run_planned planned] at changed
      have resolved := plan_resolved planned
      rw [Confinement.resolve,confined] at resolved
      split at resolved
      · cases resolved
      obtain ⟨standing,⟨node,there,unlinked⟩,slashed | ⟨first,rest,named,under,same,hidden⟩⟩ :=
        resolveWithin_ok rooted stands resolved
      · rw [slashed,place_standing rooted there] at changed; exact changed rfl
      · rw [same] at changed
        obtain ⟨spot,touched,onto⟩ := touched_of_changed rooted named (by simp) changed
        have out : ¬top <+: spot := fun within => outside (within.trans onto)
        obtain ⟨link,way,target,linked⟩ := touched.link_of_outside rooted named directory under out
        obtain ⟨overlooked,whole⟩ := link_below rooted there unlinked way linked
        refine inside ⟨plan,_,link,target,spot,planned,named,same,under,way,linked,?_,touched,out⟩
        exact (hidden overlooked).imp_right fun ⟨last,idle⟩ =>
          ⟨whole last,by rwa [endsIdle_absolutePath upper] at idle⟩

def leadingOut : Tree where
  nodes := [([['r']],.directory),([['o']],.directory),([['r'],['l']],.link ['/','o','/','n'])]
  working := []

def behindLink : Collected := [("file_path",.text "l/"),("content",.text "escaped")]

theorem leadingOut_rooted : leadingOut.Rooted :=
  ⟨by decide +kernel,by decide +kernel,by decide +kernel⟩

theorem slash_behind_a_link_escapes : Escapes ⟨some "/r",false⟩ behindLink leadingOut [['r']] := by
  by_contra inside
  have kept := (run_confined_iff leadingOut_rooted rfl (by decide +kernel) (by decide +kernel)).mpr
    inside [['o'],['n']] (by decide)
  revert kept
  decide +kernel

theorem file_made_outside : leadingOut.Rooted ∧
    leadingOut.locate .meaning "/r".toList = .ok [['r']] ∧
    leadingOut.node? [['r']] = some .directory ∧ ¬[['r']] <+: [['o'],['n']] ∧
    leadingOut.node? [['o'],['n']] = none ∧
    ∀ allowLinks, (CreateFile.run ⟨some "/r",allowLinks⟩ behindLink leadingOut).2.node? [['o'],['n']] =
      some (.file "escaped") :=
  ⟨leadingOut_rooted,by decide +kernel,by decide +kernel,by decide,by decide +kernel,by decide +kernel⟩

end ToolDialogue.File
