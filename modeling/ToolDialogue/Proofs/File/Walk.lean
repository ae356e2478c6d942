import ToolDialogue.Proofs.File.Segments

namespace ToolDialogue.File

-- Every node stands in a directory under names that a system can hold, and the
-- place that relative paths start from is a directory.
structure Tree.Rooted (tree : Tree) : Prop where
  parents : ∀ entry ∈ tree.nodes, tree.node? entry.1.dropLast = some .directory
  names : ∀ entry ∈ tree.nodes, ∀ name ∈ entry.1,
    IsName name ∧ Char.ofNat 0 ∉ name ∧ sizeOf name ≤ nameLimit
  standing : tree.node? tree.working = some .directory

theorem Tree.node?_root (tree : Tree) : tree.node? [] = some .directory := by simp [node?]

theorem Tree.mem_of_node? {tree : Tree} {location : Location} {node : Node} (below : location ≠ [])
    (stands : tree.node? location = some node) : (location,node) ∈ tree.nodes := by
  rw [node?,if_neg below] at stands
  exact Table.mem_of_get? stands

namespace Tree.Rooted

variable {tree : Tree} (rooted : tree.Rooted)
include rooted

theorem parent {location : Location} {node : Node} (stands : tree.node? location = some node) :
    tree.node? location.dropLast = some .directory := by
  by_cases top : location = []
  · subst top; exact tree.node?_root
  · exact rooted.parents _ (mem_of_node? top stands)

theorem held {location : Location} {node : Node} (stands : tree.node? location = some node)
    (name : Name) (member : name ∈ location) :
    IsName name ∧ Char.ofNat 0 ∉ name ∧ sizeOf name ≤ nameLimit :=
  rooted.names _ (mem_of_node? (List.ne_nil_of_mem member) stands) name member

theorem named {location : Location} {node : Node} (stands : tree.node? location = some node) :
    Named location := fun name member => (rooted.held stands name member).1

theorem above {front location : Location} {node : Node} (upper : front <+: location)
    (other : front ≠ location) (stands : tree.node? location = some node) :
    tree.node? front = some .directory := by
  induction location using List.reverseRecOn generalizing node with
  | nil => exact absurd (List.prefix_nil.mp upper) other
  | append_singleton init last ih =>
    have parent := rooted.parent stands
    rw [List.dropLast_concat] at parent
    rcases List.prefix_concat_iff.mp upper with same | higher
    · exact absurd same other
    · by_cases here : front = init
      · subst here; exact parent
      · exact ih higher here parent

theorem bare {front location : Location} (upper : front <+: location)
    (missing : tree.node? front = none) : tree.node? location = none := by
  by_cases same : front = location
  · subst same; exact missing
  · cases stands : tree.node? location with
    | none => rfl
    | some node => rw [rooted.above upper same stands] at missing; cases missing

end Tree.Rooted

def relinked (tree : Tree) (aim : Aim) (links : Nat) (place : Location) (target : Path)
    (rest : List Name) : Except Cause Found :=
  match links with
  | 0 => .error .tooManyLinks
  | links+1 => walk tree aim links (if isAbsolute target then [] else place) (segments target ++ rest)

theorem relinked_ok {tree : Tree} {aim : Aim} {links : Nat} {place : Location} {target : Path}
    {rest : List Name} {found : Found} (ended : relinked tree aim links place target rest = .ok found) :
    ∃ fewer, links = fewer+1 ∧ walk tree aim fewer (if isAbsolute target then [] else place)
      (segments target ++ rest) = .ok found := by
  cases links with
  | zero => cases ended
  | succ fewer => exact ⟨fewer,rfl,ended⟩

theorem walk_nil (tree : Tree) (aim : Aim) (links : Nat) (place : Location) :
    walk tree aim links place [] = .ok (.present place) := by cases links <;> rfl

theorem walk_cons (tree : Tree) (aim : Aim) (links : Nat) (place : Location) (segment : Name)
    (rest : List Name) : walk tree aim links place (segment :: rest) =
      if isIdle segment then walk tree aim links place rest
      else if segment = parentName then walk tree aim links place.dropLast rest
      else if aim = .writing ∧ rest ≠ [] ∧ rest.all (· == []) then .error .isDirectory
      else if nameLimit < sizeOf segment then .error .nameTooLong
      else match tree.node? (place ++ [segment]) with
        | none =>
          if rest.all (· == []) then .ok (.vacant place segment) else .error .notFound
        | some .directory => walk tree aim links (place ++ [segment]) rest
        | some (.file _) =>
          if rest = [] then .ok (.present (place ++ [segment])) else .error .notDirectory
        | some (.link target) =>
          if rest = [] ∧ aim = .itself then .ok (.present (place ++ [segment]))
          else relinked tree aim links place target rest := by
  cases links <;> rfl

theorem walk_idle {tree : Tree} {aim : Aim} {links : Nat} {place : Location} {segment : Name}
    {rest : List Name} (idle : isIdle segment = true) :
    walk tree aim links place (segment :: rest) = walk tree aim links place rest := by
  rw [walk_cons,if_pos idle]

-- Neither of the two stops at a last name is made as long as names are to come.
theorem onward {aim : Aim} {rest : List Name} (on : aim = .meaning ∨ rest.all (· == []) = false)
    (more : List Name) : ¬(aim = .writing ∧ more ++ rest ≠ [] ∧ (more ++ rest).all (· == [])) ∧
      ¬(more ++ rest = [] ∧ aim = .itself) := by
  rcases on with rfl | real
  · simp
  · refine ⟨fun ⟨_,_,bare⟩ => ?_,fun ⟨bare,_⟩ => ?_⟩
    · rw [List.all_append,real,Bool.and_false] at bare; cases bare
    · rw [(List.append_eq_nil_iff.mp bare).2] at real; cases real

structure Sought (segment : Name) : Prop where
  real : isIdle segment = false
  proper : segment ≠ parentName
  fits : sizeOf segment ≤ nameLimit

theorem walk_sought {tree : Tree} {aim : Aim} {links : Nat} {place : Location} {segment : Name}
    {rest : List Name} (sought : Sought segment)
    (on : ¬(aim = .writing ∧ rest ≠ [] ∧ rest.all (· == []))) :
    walk tree aim links place (segment :: rest) =
      match tree.node? (place ++ [segment]) with
      | none =>
        if rest.all (· == []) then .ok (.vacant place segment) else .error .notFound
      | some .directory => walk tree aim links (place ++ [segment]) rest
      | some (.file _) =>
        if rest = [] then .ok (.present (place ++ [segment])) else .error .notDirectory
      | some (.link target) =>
        if rest = [] ∧ aim = .itself then .ok (.present (place ++ [segment]))
        else relinked tree aim links place target rest := by
  rw [walk_cons,if_neg (by simp [sought.real]),if_neg sought.proper,if_neg on,
    if_neg (Nat.not_lt.mpr sought.fits)]

-- A way that a walk has taken from one directory to another: the links it may
-- still follow before and behind it.
inductive Tree.Leads (tree : Tree) : Nat → Location → List Name → Nat → Location → Prop where
  | here {links : Nat} {place : Location} : tree.Leads links place [] links place
  | idle {links left : Nat} {place stop : Location} {segment : Name} {rest : List Name}
      (idle : isIdle segment = true) (on : tree.Leads links place rest left stop) :
      tree.Leads links place (segment :: rest) left stop
  | up {links left : Nat} {place stop : Location} {rest : List Name}
      (on : tree.Leads links place.dropLast rest left stop) :
      tree.Leads links place (parentName :: rest) left stop
  | down {links left : Nat} {place stop : Location} {segment : Name} {rest : List Name}
      (sought : Sought segment) (stands : tree.node? (place ++ [segment]) = some .directory)
      (on : tree.Leads links (place ++ [segment]) rest left stop) :
      tree.Leads links place (segment :: rest) left stop
  | follow {links left : Nat} {place stop : Location} {segment : Name} {rest : List Name}
      {target : Path} (sought : Sought segment)
      (stands : tree.node? (place ++ [segment]) = some (.link target))
      (on : tree.Leads links (if isAbsolute target then [] else place) (segments target ++ rest)
        left stop) :
      tree.Leads (links+1) place (segment :: rest) left stop

namespace Tree.Leads

variable {tree : Tree} {links left : Nat} {place stop : Location} {front : List Name}

theorem walk_append (leads : tree.Leads links place front left stop) {aim : Aim} {rest : List Name}
    (on : aim = .meaning ∨ rest.all (· == []) = false) :
    walk tree aim links place (front ++ rest) = walk tree aim left stop rest := by
  induction leads with
  | here => rfl
  | idle idle _ ih => rw [List.cons_append,walk_idle idle,ih]
  | up _ ih => rw [List.cons_append,walk_cons,if_neg (by decide),if_pos rfl,ih]
  | @down _ _ _ _ segment more sought stands _ ih =>
    rw [List.cons_append,walk_sought sought (onward on more).1,stands]
    exact ih
  | @follow _ _ _ _ segment more target sought stands _ ih =>
    rw [List.cons_append,walk_sought sought (onward on more).1,stands]
    simp only [if_neg (onward on more).2,relinked]
    rw [← List.append_assoc,ih]

theorem meaning (leads : tree.Leads links place front left stop) :
    walk tree .meaning links place front = .ok (.present stop) := by
  have walked : walk tree .meaning links place (front ++ []) = _ := leads.walk_append (.inl rfl)
  rwa [List.append_nil,walk_nil] at walked

theorem itself (leads : tree.Leads links place front left stop) :
    ∃ location, walk tree .itself links place front = .ok (.present location) := by
  induction leads with
  | here => exact ⟨_,walk_nil ..⟩
  | idle idle _ ih => rw [walk_idle idle]; exact ih
  | up _ ih => rw [walk_cons,if_neg (by decide),if_pos rfl]; exact ih
  | down sought stands _ ih => rw [walk_sought sought (by simp),stands]; exact ih
  | @follow _ _ place _ segment rest _ sought stands _ ih =>
    rw [walk_sought sought (by simp),stands]
    by_cases last : rest = []
    · exact ⟨place ++ [segment],by simp [last]⟩
    · simpa [last,relinked] using ih

theorem append {further : Nat} {goal : Location} {rest : List Name}
    (leads : tree.Leads links place front left stop) (on : tree.Leads left stop rest further goal) :
    tree.Leads links place (front ++ rest) further goal := by
  induction leads with
  | here => exact on
  | idle idle _ ih => exact .idle idle (ih on)
  | up _ ih => exact .up (ih on)
  | down sought stands _ ih => exact .down sought stands (ih on)
  | follow sought stands _ ih => exact .follow sought stands (by simpa using ih on)

theorem idles {segments : List Name} (idle : ∀ segment ∈ segments, isIdle segment) :
    tree.Leads links place segments links place := by
  induction segments with
  | nil => exact .here
  | cons segment rest ih =>
    exact .idle (idle segment (by simp)) (ih fun other member => idle other (by simp [member]))

theorem mono {grown : Tree} (kept : ∀ location node, (∀ content, node ≠ .file content) →
      tree.node? location = some node → grown.node? location = some node)
    (leads : tree.Leads links place front left stop) : grown.Leads links place front left stop := by
  induction leads with
  | here => exact .here
  | idle idle _ ih => exact .idle idle ih
  | up _ ih => exact .up ih
  | down sought stands _ ih => exact .down sought (kept _ _ (by simp) stands) ih
  | follow sought stands _ ih => exact .follow sought (kept _ _ (by simp) stands) ih

theorem fewer (leads : tree.Leads links place front left stop) : left ≤ links := by
  induction leads with
  | here => exact Nat.le_refl _
  | idle _ _ ih => exact ih
  | up _ ih => exact ih
  | down _ _ _ ih => exact ih
  | follow _ _ _ ih => omega

theorem standing (rooted : tree.Rooted) (leads : tree.Leads links place front left stop)
    (directory : tree.node? place = some .directory) : tree.node? stop = some .directory := by
  induction leads with
  | here => exact directory
  | idle _ _ ih => exact ih directory
  | up _ ih => exact ih (rooted.parent directory)
  | down _ stands _ ih => exact ih stands
  | follow _ _ _ ih =>
    refine ih ?_
    split
    · exact tree.node?_root
    · exact directory

theorem unlinked (named : Named front) (leads : tree.Leads links place front left stop)
    (plain : ∀ upper, upper <+: front → ∀ target, tree.node? (place ++ upper) ≠ some (.link target)) :
    left = links ∧ stop = place ++ front := by
  induction leads with
  | here => simp
  | idle idle => exact absurd idle (by simp [(named _ List.mem_cons_self).2.1])
  | up => exact absurd rfl (named parentName List.mem_cons_self).2.2
  | @down _ _ _ _ segment rest _ _ _ ih =>
    have lower := ih (fun name member => named name (by simp [member])) fun upper below target => by
      simpa using plain (segment :: upper) (List.cons_prefix_cons.mpr ⟨rfl,below⟩) target
    simpa using lower
  | @follow _ _ _ _ segment rest target _ stands =>
    exact absurd stands (plain [segment] (by simp) target)

end Tree.Leads

inductive Tree.Walked (tree : Tree) (aim : Aim) : Nat → Location → List Name → Found → Prop where
  | stop {links : Nat} {place : Location} : tree.Walked aim links place [] (.present place)
  | idle {links : Nat} {place : Location} {segment : Name} {rest : List Name} {found : Found}
      (idle : isIdle segment = true) (on : tree.Walked aim links place rest found) :
      tree.Walked aim links place (segment :: rest) found
  | up {links : Nat} {place : Location} {rest : List Name} {found : Found}
      (on : tree.Walked aim links place.dropLast rest found) :
      tree.Walked aim links place (parentName :: rest) found
  | vacant {links : Nat} {place : Location} {segment : Name} {rest : List Name}
      (sought : Sought segment) (missing : tree.node? (place ++ [segment]) = none)
      (last : rest.all (· == []) = true) :
      tree.Walked aim links place (segment :: rest) (.vacant place segment)
  | down {links : Nat} {place : Location} {segment : Name} {rest : List Name} {found : Found}
      (sought : Sought segment) (stands : tree.node? (place ++ [segment]) = some .directory)
      (on : tree.Walked aim links (place ++ [segment]) rest found) :
      tree.Walked aim links place (segment :: rest) found
  | file {links : Nat} {place : Location} {segment : Name} {content : String}
      (sought : Sought segment) (stands : tree.node? (place ++ [segment]) = some (.file content)) :
      tree.Walked aim links place [segment] (.present (place ++ [segment]))
  | link {links : Nat} {place : Location} {segment : Name} {target : Path}
      (sought : Sought segment) (stands : tree.node? (place ++ [segment]) = some (.link target))
      (unfollowed : aim = .itself) :
      tree.Walked aim links place [segment] (.present (place ++ [segment]))
  | follow {links : Nat} {place : Location} {segment : Name} {rest : List Name} {target : Path}
      {found : Found} (sought : Sought segment)
      (stands : tree.node? (place ++ [segment]) = some (.link target))
      (further : ¬(rest = [] ∧ aim = .itself))
      (on : tree.Walked aim links (if isAbsolute target then [] else place) (segments target ++ rest)
        found) :
      tree.Walked aim (links+1) place (segment :: rest) found

theorem walked {tree : Tree} {aim : Aim} (links : Nat) (place : Location) (names : List Name)
    {found : Found} (ended : walk tree aim links place names = .ok found) :
    tree.Walked aim links place names found := by
  match names with
  | [] => rw [walk_nil] at ended; cases ended; exact .stop
  | segment :: rest =>
    rw [walk_cons] at ended
    split at ended
    · next idle => exact .idle idle (walked links place rest ended)
    split at ended
    · next up => subst up; exact .up (walked links place.dropLast rest ended)
    split at ended
    · cases ended
    split at ended
    · cases ended
    next real proper _ size =>
    have sought : Sought segment := ⟨by simpa using real,proper,Nat.not_lt.mp size⟩
    split at ended
    · next missing =>
      split at ended
      · next last => cases ended; exact .vacant sought missing last
      · cases ended
    · next stands => exact .down sought stands (walked links (place ++ [segment]) rest ended)
    · next content stands =>
      split at ended
      · next last => subst last; cases ended; exact .file sought stands
      · cases ended
    · next target stands =>
      split at ended
      · next last => obtain ⟨rfl,aimed⟩ := last; cases ended; exact .link sought stands aimed
      · next further =>
        obtain ⟨fewer,spent,on⟩ := relinked_ok ended
        rw [spent]; exact .follow sought stands further (walked fewer _ _ on)
termination_by (links,names.length)

def Found.spot : Found → Location
  | .present location => location
  | .vacant directory name => directory ++ [name]

def Found.Fair (tree : Tree) : Found → Prop
  | .present location => ∃ node, tree.node? location = some node
  | .vacant directory name =>
    tree.node? directory = some .directory ∧ tree.node? (directory ++ [name]) = none

namespace Tree.Walked

variable {tree : Tree} {aim : Aim} {links : Nat} {place : Location} {names : List Name} {found : Found}

theorem fair (ended : tree.Walked aim links place names found) (rooted : tree.Rooted)
    (directory : tree.node? place = some .directory) : found.Fair tree := by
  induction ended with
  | stop => exact ⟨_,directory⟩
  | idle _ _ ih => exact ih directory
  | up _ ih => exact ih (rooted.parent directory)
  | vacant _ missing => exact ⟨directory,missing⟩
  | down _ stands _ ih => exact ih stands
  | file _ stands => exact ⟨_,stands⟩
  | link _ stands => exact ⟨_,stands⟩
  | follow _ _ _ _ ih =>
    refine ih ?_
    split
    · exact tree.node?_root
    · exact directory

theorem named (ended : tree.Walked aim links place names found)
    (whole : ∀ segment ∈ names, '/' ∉ segment) (named : Named place) : Named found.spot := by
  induction ended with
  | stop => exact named
  | idle _ _ ih => exact ih (fun segment member => whole segment (by simp [member])) named
  | up _ ih =>
    exact ih (fun segment member => whole segment (by simp [member]))
      (named.of_prefix (List.dropLast_prefix _))
  | vacant sought => exact named.concat ⟨whole _ (by simp),sought.real,sought.proper⟩
  | down sought _ _ ih =>
    exact ih (fun segment member => whole segment (by simp [member]))
      (named.concat ⟨whole _ (by simp),sought.real,sought.proper⟩)
  | file sought => exact named.concat ⟨whole _ (by simp),sought.real,sought.proper⟩
  | link sought => exact named.concat ⟨whole _ (by simp),sought.real,sought.proper⟩
  | follow _ _ _ _ ih =>
    refine ih (fun segment member => ?_) ?_
    · rcases List.mem_append.mp member with linked | later
      · exact segments_whole _ linked
      · exact whole segment (by simp [later])
    · split
      · intro name member; cases member
      · exact named

theorem unlinked (ended : tree.Walked aim links place names found) (aimed : aim ≠ .itself)
    (directory : tree.node? place = some .directory) (rooted : tree.Rooted) {location : Location}
    (stop : found = .present location) (target : Path) : tree.node? location ≠ some (.link target) := by
  induction ended with
  | stop => cases stop; rw [directory]; simp
  | idle _ _ ih => exact ih directory stop
  | up _ ih => exact ih (rooted.parent directory) stop
  | vacant => cases stop
  | down _ stands _ ih => exact ih stands stop
  | file _ stands => cases stop; rw [stands]; simp
  | link _ _ unfollowed => exact absurd unfollowed aimed
  | follow _ _ _ _ ih =>
    refine ih ?_ stop
    split
    · exact tree.node?_root
    · exact directory

-- Where names are to come, what was walked before them is a way.
theorem split {front rest : List Name} (ended : tree.Walked aim links place (front ++ rest) found)
    (more : rest.all (· == []) = false) :
    ∃ left stop, tree.Leads links place front left stop ∧ tree.Walked aim left stop rest found := by
  generalize whole : front ++ rest = names at ended
  induction ended generalizing front with
  | @stop links place =>
    rw [(List.append_eq_nil_iff.mp whole).2] at more; cases more
  | idle idle on ih =>
    cases front with
    | nil => cases whole; exact ⟨_,_,.here,.idle idle on⟩
    | cons first others =>
      obtain ⟨rfl,later⟩ := List.cons.inj whole
      obtain ⟨left,stop,leads,rest⟩ := ih later
      exact ⟨left,stop,.idle idle leads,rest⟩
  | up on ih =>
    cases front with
    | nil => cases whole; exact ⟨_,_,.here,.up on⟩
    | cons first others =>
      obtain ⟨rfl,later⟩ := List.cons.inj whole
      obtain ⟨left,stop,leads,rest⟩ := ih later
      exact ⟨left,stop,.up leads,rest⟩
  | vacant sought missing last =>
    cases front with
    | nil => cases whole; exact ⟨_,_,.here,.vacant sought missing last⟩
    | cons first others =>
      obtain ⟨rfl,later⟩ := List.cons.inj whole
      have joined : others ++ rest = _ := later
      rw [← joined,List.all_append,more,Bool.and_false] at last; cases last
  | down sought stands on ih =>
    cases front with
    | nil => cases whole; exact ⟨_,_,.here,.down sought stands on⟩
    | cons first others =>
      obtain ⟨rfl,later⟩ := List.cons.inj whole
      obtain ⟨left,stop,leads,rest⟩ := ih later
      exact ⟨left,stop,.down sought stands leads,rest⟩
  | file sought stands =>
    cases front with
    | nil => cases whole; exact ⟨_,_,.here,.file sought stands⟩
    | cons first others =>
      rw [(List.append_eq_nil_iff.mp (List.cons.inj whole).2).2] at more; cases more
  | link sought stands unfollowed =>
    cases front with
    | nil => cases whole; exact ⟨_,_,.here,.link sought stands unfollowed⟩
    | cons first others =>
      rw [(List.append_eq_nil_iff.mp (List.cons.inj whole).2).2] at more; cases more
  | @follow links place segment names target found sought stands further on ih =>
    cases front with
    | nil => cases whole; exact ⟨_,_,.here,.follow sought stands further on⟩
    | cons first others =>
      obtain ⟨rfl,later⟩ := List.cons.inj whole
      have linked : segments target ++ others ++ rest = segments target ++ names := by
        rw [List.append_assoc]; exact congrArg _ later
      obtain ⟨left,stop,leads,rest⟩ := ih linked
      exact ⟨left,stop,.follow sought stands leads,rest⟩

theorem leads {location : Location} (ended : tree.Walked .meaning links place names (.present location))
    (directory : tree.node? location = some .directory) :
    ∃ left, tree.Leads links place names left location := by
  generalize stop : Found.present location = found at ended
  induction ended with
  | stop => cases stop; exact ⟨_,.here⟩
  | idle idle _ ih => exact (ih stop).imp fun _ leads => .idle idle leads
  | up _ ih => exact (ih stop).imp fun _ leads => .up leads
  | vacant => cases stop
  | down sought stands _ ih => exact (ih stop).imp fun _ leads => .down sought stands leads
  | file _ stands => cases stop; rw [stands] at directory; cases directory
  | link _ _ unfollowed => cases unfollowed
  | follow sought stands _ _ ih => exact (ih stop).imp fun _ leads => .follow sought stands leads

theorem itself {location : Location} (ended : tree.Walked .meaning links place names (.present location)) :
    ∃ stop, walk tree .itself links place names = .ok (.present stop) := by
  generalize stop : Found.present location = found at ended
  induction ended with
  | stop => exact ⟨_,walk_nil ..⟩
  | idle idle _ ih => rw [walk_idle idle]; exact ih stop
  | up _ ih => rw [walk_cons,if_neg (by decide),if_pos rfl]; exact ih stop
  | vacant => cases stop
  | down sought stands _ ih => rw [walk_sought sought (by simp),stands]; exact ih stop
  | file sought stands => rw [walk_sought sought (by simp),stands]; exact ⟨_,rfl⟩
  | link _ _ unfollowed => cases unfollowed
  | @follow _ place segment rest _ _ sought stands _ _ ih =>
    rw [walk_sought sought (by simp),stands]
    by_cases last : rest = []
    · exact ⟨place ++ [segment],by simp [last]⟩
    · simpa [last,relinked] using ih stop

theorem plain (ended : tree.Walked aim links place names found) (named : Named names)
    (plain : ∀ upper, upper <+: names → ∀ target, tree.node? (place ++ upper) ≠ some (.link target)) :
    place <+: found.spot ∧ found.spot <+: place ++ names := by
  induction ended with
  | stop => simp [Found.spot]
  | idle idle => exact absurd idle (by simp [(named _ List.mem_cons_self).2.1])
  | up => exact absurd rfl (named parentName List.mem_cons_self).2.2
  | @vacant _ place segment rest => simp [Found.spot]
  | @down _ place segment rest _ _ _ _ ih =>
    have lower := ih (fun name member => named name (by simp [member])) fun upper below target => by
      simpa using plain (segment :: upper) (List.cons_prefix_cons.mpr ⟨rfl,below⟩) target
    exact ⟨(List.prefix_append place [segment]).trans lower.1,by simpa using lower.2⟩
  | file => simp [Found.spot]
  | link => simp [Found.spot]
  | @follow _ _ segment rest target _ _ stands =>
    exact absurd stands (plain [segment] (by simp) target)

theorem missing {front : List Name} {last name : Name} {directory : Location} (real : IsName last)
    (ended : tree.Walked .itself links place (front ++ [last]) (.vacant directory name)) :
    ∃ left, tree.Leads links place front left directory ∧ name = last ∧ Sought last ∧
      tree.node? (directory ++ [last]) = none := by
  obtain ⟨left,stop,leads,ended⟩ := ended.split (by simp [real.ne_nil])
  cases ended with
  | idle idle => rw [real.2.1] at idle; cases idle
  | up => exact absurd rfl real.2.2
  | vacant sought missing => exact ⟨left,leads,rfl,sought,missing⟩
  | down _ _ on => cases on
  | follow _ _ further => exact absurd ⟨rfl,rfl⟩ further

end Tree.Walked

end ToolDialogue.File
