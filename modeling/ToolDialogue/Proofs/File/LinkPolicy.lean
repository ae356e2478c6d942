import ToolDialogue.Proofs.File.Overwrite

namespace ToolDialogue.File

def Tree.Takes (tree : Tree) (path : Path) : Prop :=
  ∃ found, tree.find .writing path = .ok found ∧
    ∀ node, tree.node? found.spot = some node → ∃ old, node = .file old

theorem Tree.Sound.takes_iff {tree : Tree} (sound : tree.Sound) (path : Path) (content : String) :
    tree.Takes path ↔ ∃ after, tree.write path content = .ok after := by
  constructor
  · rintro ⟨found,reached,free⟩
    rw [Tree.write,reached]
    cases found with
    | vacant directory name => exact ⟨_,rfl⟩
    | present spot =>
      obtain ⟨node,stands⟩ := (find_parts reached).2.fair sound.toRooted (sound.start path)
      obtain ⟨old,rfl⟩ := free node stands
      exact ⟨tree.put spot (.file content),by simp only [bind,Except.bind,stands]⟩
  · rintro ⟨after,written⟩
    obtain ⟨found,reached,wrote⟩ := write_wrote sound written
    exact ⟨found,reached,wrote.free⟩

theorem isLink_located {tree : Tree} {path : Path} (linked : tree.isLink path = true) :
    ∃ location target, tree.find .itself path = .ok (.present location) ∧
      tree.node? location = some (.link target) := by
  rw [Tree.isLink] at linked
  split at linked
  · next location located =>
    split at linked
    · next target stands => exact ⟨location,target,locate_ok.mp located,stands⟩
    · cases linked
  · cases linked

section

variable {tree : Tree}

-- A request is spelled so that the system is not asked for the name it ends in: the text
-- is too long to ask, or something idle is behind the name.
def Overlooked (top : Location) (requested : Path) : Prop :=
  pathLimit ≤ sizeOf (absolutePath top requested) ∨ endsIdle requested = true

-- What is resolved and not overlooked is no link: where a name is to come below the place
-- that stands, nothing is there.
theorem Resolved.link_overlooked (rooted : tree.Rooted) {top standing : Location} {requested target : Path}
    (upper : Named top) (resolved : Resolved tree top (absolutePath top requested) target standing)
    (below : (tree.deepest (absolutePath top requested)).2 ≠ []) (linked : tree.isLink target = true) :
    Overlooked top requested := by
  obtain ⟨⟨node,there⟩,unlinked⟩ := locate_stands rooted resolved.located
  obtain ⟨first,rest,cut⟩ := List.exists_cons_of_ne_nil below
  have named := resolved.named
  have spelled := resolved.target_eq
  rw [if_neg below] at spelled
  rw [cut] at named spelled
  obtain ⟨location,further,reached,stands⟩ := isLink_located linked
  rw [spelled] at reached
  have ended := walked _ _ _ ((find_ok named).mp reached).2
  have hidden {link : Location} {goal : Path} (way : link <+: standing ++ first :: rest)
      (linked : tree.node? link = some (.link goal)) : Overlooked top requested := by
    obtain ⟨⟨other,overlooked⟩,-⟩ := link_below rooted there
      (fun target same => unlinked target (same ▸ there)) way linked
    rw [Overlooked,← endsIdle_absolutePath upper]
    exact (resolved.hidden first rest other cut overlooked).imp_right fun behind => behind.2.1
  by_cases plain : ∀ upper, upper <+: standing ++ first :: rest → ∀ goal,
      tree.node? ([] ++ upper) ≠ some (.link goal)
  · have onway : location <+: standing ++ first :: rest := (ended.plain named plain).2
    exact hidden onway stands
  · push Not at plain
    obtain ⟨link,way,goal,linked⟩ := plain
    exact hidden way linked

end

def WritesThrough (rules : Confinement) (values : Collected) (tree : Tree) (top : Location) : Prop :=
  ∃ plan, CreateFile.plan rules values tree = .ok plan ∧ Overlooked top plan.requested.toList ∧
    tree.isLink plan.target = true ∧ tree.Takes plan.target

theorem run_ok_iff {rules : Confinement} {values : Collected} {tree : Tree} {plan : CreateFile.Plan}
    (planned : CreateFile.plan rules values tree = .ok plan) :
    (∃ report after, CreateFile.run rules values tree = (.ok report,after)) ↔
      ∃ after, CreateFile.place tree plan.target plan.content = (.ok (),after) := by
  rw [CreateFile.run,planned]
  dsimp only
  cases CreateFile.place tree plan.target plan.content with
  | mk result placed => cases result <;> simp

theorem place_linked {tree : Tree} (sound : tree.Sound) {goal : Location} (named : Named goal)
    (linked : tree.isLink (pathOf goal) = true) (content : String) :
    (∃ after, CreateFile.place tree (pathOf goal) content = (.ok (),after)) ↔ tree.Takes (pathOf goal) := by
  obtain ⟨location,target,reached,stands⟩ := isLink_located linked
  have below : goal ≠ [] := by
    rintro rfl
    have top : tree.find .itself (pathOf []) = .ok (.present []) := rfl
    rw [top] at reached; cases reached
    rw [tree.node?_root] at stands; cases stands
  rw [place_reached sound.toRooted named below reached,sound.takes_iff _ content]
  cases tree.write (pathOf goal) content <;> simp

theorem place_written {tree after : Tree} {path : Path} {content : String}
    (done : CreateFile.place tree path content = (.ok (),after)) :
    ∃ made : Tree, made.write path content = .ok after := by
  rw [CreateFile.place] at done
  split at done
  · cases done
  · next made _ =>
    split at done
    · next written => cases done; exact ⟨made,written⟩
    · cases done

theorem Resolved.target_named {tree made after : Tree} {top standing : Location} {path target : Path}
    {content : String} (resolved : Resolved tree top path target standing)
    (written : made.write target content = .ok after) :
    (tree.deepest path).2 ≠ [] ∧ target = pathOf (standing ++ (tree.deepest path).2) := by
  have upper : Named standing := resolved.named.of_prefix (List.prefix_append standing _)
  have spelled := resolved.target_eq
  by_cases none : (tree.deepest path).2 = []
  · rw [if_pos none] at spelled
    rw [spelled] at written
    exact absurd written (write_append_nil upper content)
  · rw [if_neg none] at spelled
    exact ⟨none,spelled⟩

-- Under a root no run writes through a link, unless a request is spelled in one of the
-- two ways that overlook the link.
theorem link_opened_iff {rules : Confinement} {values : Collected} {tree : Tree} {root : String}
    {top : Location} (sound : tree.Sound) (confined : rules.root = some root)
    (stands : tree.locate .meaning root.toList = .ok top) (directory : tree.node? top = some .directory) :
    (∀ report after plan, CreateFile.plan rules values tree = .ok plan →
      CreateFile.run rules values tree = (.ok report,after) → tree.isLink plan.target = false) ↔
    ¬WritesThrough rules values tree top := by
  have resolves {plan : CreateFile.Plan} (planned : CreateFile.plan rules values tree = .ok plan) :
      ∃ standing, Resolved tree top (absolutePath top plan.requested.toList) plan.target standing := by
    have resolved := plan_resolved planned
    rw [Confinement.resolve,confined] at resolved
    split at resolved
    · cases resolved
    · exact resolveWithin_resolved sound.toRooted stands resolved
  constructor
  · rintro unlinked ⟨plan,planned,-,linked,takes⟩
    obtain ⟨standing,resolved⟩ := resolves planned
    obtain ⟨written,ended⟩ := (sound.takes_iff plan.target plan.content).mp takes
    obtain ⟨-,spelled⟩ := resolved.target_named ended
    rw [spelled] at linked takes
    have placed := (place_linked sound resolved.named linked plan.content).mpr takes
    rw [← spelled] at placed linked
    obtain ⟨report,after,ran⟩ := (run_ok_iff planned).mpr placed
    rw [unlinked report after plan planned ran] at linked; cases linked
  · intro honest report after plan planned ran
    by_contra linked
    rw [Bool.not_eq_false] at linked
    obtain ⟨standing,resolved⟩ := resolves planned
    obtain ⟨placed,done⟩ := (run_ok_iff planned).mp ⟨report,after,ran⟩
    obtain ⟨made,written⟩ := place_written done
    obtain ⟨below,spelled⟩ := resolved.target_named written
    have spelling := resolved.link_overlooked sound.toRooted (sound.named directory) below linked
    refine honest ⟨plan,planned,spelling,linked,?_⟩
    rw [spelled] at linked done ⊢
    exact (place_linked sound resolved.named linked plan.content).mp ⟨placed,done⟩

def linkedFile : Tree where
  nodes := [([['r']],.directory),([['r'],['a']],.file "old"),([['r'],['l']],.link ['a'])]
  working := []

theorem linkedFile_sound : linkedFile.Sound :=
  Tree.Rooted.sound ⟨by decide +kernel,by decide +kernel,by decide +kernel⟩ (by simp [linkedFile])

theorem slash_overlooks_a_link : WritesThrough ⟨some "/r",false⟩ behindLink linkedFile [['r']] := by
  have planned : CreateFile.plan ⟨some "/r",false⟩ behindLink linkedFile =
    .ok ⟨"l/","/r/l".toList,"escaped"⟩ := by decide +kernel
  have ran : CreateFile.run ⟨some "/r",false⟩ behindLink linkedFile =
      (.ok "Successfully created file: l/\nSize: 7 characters",
        (CreateFile.run ⟨some "/r",false⟩ behindLink linkedFile).2) := Prod.ext (by decide +kernel) rfl
  by_contra honest
  have unlinked := (link_opened_iff linkedFile_sound rfl (by decide +kernel) (by decide +kernel)).mpr honest _ _ _
    planned ran
  revert unlinked
  decide +kernel

-- With links forbidden a file in the root is replaced through a link, and a file outside is
-- made through one.
theorem link_written_through :
    (linkedFile.Sound ∧ linkedFile.locate .meaning "/r".toList = .ok [['r']] ∧
      CreateFile.plan ⟨some "/r",false⟩ behindLink linkedFile = .ok ⟨"l/","/r/l".toList,"escaped"⟩ ∧
      linkedFile.isLink "/r/l".toList = true ∧
      (CreateFile.run ⟨some "/r",false⟩ behindLink linkedFile).1 =
        .ok "Successfully created file: l/\nSize: 7 characters" ∧
      (CreateFile.run ⟨some "/r",false⟩ behindLink linkedFile).2.node? [['r'],['a']] =
        some (.file "escaped")) ∧
    leadingOut.locate .meaning "/r".toList = .ok [['r']] ∧
      CreateFile.plan ⟨some "/r",false⟩ behindLink leadingOut = .ok ⟨"l/","/r/l".toList,"escaped"⟩ ∧
      leadingOut.isLink "/r/l".toList = true ∧
      (CreateFile.run ⟨some "/r",false⟩ behindLink leadingOut).1 =
        .ok "Successfully created file: l/\nSize: 7 characters" ∧
      (CreateFile.run ⟨some "/r",false⟩ behindLink leadingOut).2.node? [['o'],['n']] =
        some (.file "escaped") :=
  ⟨⟨linkedFile_sound,by decide +kernel,by decide +kernel,by decide +kernel,by decide +kernel,by decide +kernel⟩,
    by decide +kernel,by decide +kernel,by decide +kernel,by decide +kernel,by decide +kernel⟩

end ToolDialogue.File
