import Mathlib.Data.List.Forall2
import Mathlib.Data.List.Nodup
import ToolDialogue.Proofs.Session.History
import ToolDialogue.Tool.Listing

namespace ToolDialogue

namespace Text

theorem trim_ended {front back blanks : String} (begins : ∃ c ∈ front.toList.head?, isBlank c = false)
    (ends : ∃ c ∈ back.toList.getLast?, isBlank c = false) (blank : allBlank blanks = true) (middle : String) :
    trim (front ++ (middle ++ back ++ blanks)) = front ++ (middle ++ back) := by
  obtain ⟨c,first,plain⟩ := begins
  obtain ⟨d,last,closed⟩ := ends
  have start (more : List Char) : (front.toList ++ more).dropWhile isBlank = front.toList ++ more := by
    apply dropWhile_blank
    intro e head
    rw [List.head?_append,first] at head
    cases head
    exact plain
  have stop (more : List Char) : (back.toList.reverse ++ more).dropWhile isBlank = back.toList.reverse ++ more := by
    apply dropWhile_blank
    intro e head
    rw [List.head?_append,List.head?_reverse,last] at head
    cases head
    exact closed
  have gone : ∀ e ∈ blanks.toList.reverse, isBlank e = true := by
    intro e member
    exact List.all_eq_true.mp blank e (List.mem_reverse.mp member)
  rw [trim,trimmed,String.toList_append,String.toList_append,String.toList_append,start]
  simp only [List.reverse_append,List.append_assoc]
  rw [List.dropWhile_append_of_pos gone,stop]
  simp

end Text

def Session.Reordered (a b : Session) : Prop := ∃ values, values.Perm a.collected ∧ b = { a with collected := values }

def Store.Reordered (a b : Store) : Prop :=
  b.idleLimit = a.idleLimit ∧ b.registered.Perm a.registered ∧ List.Forall₂ Session.Reordered a.sessions b.sessions

namespace Listing

variable {a b c : Entry} {entries others : List Entry}

def Reordered (entries others : List Entry) : Prop :=
  ∃ middle, middle.Perm entries ∧ List.Forall₂ (fun a b => b.1 = a.1 ∧ a.2.Reordered b.2) middle others

def Earlier (a b : Entry) : Prop := a.2.createdAt < b.2.createdAt ∨ a.2.createdAt = b.2.createdAt ∧ a.1 < b.1

def written (entry : Entry) (names : List String) : String :=
  "**Session ID:** `" ++ entry.1 ++ "`\n**Tool:** " ++ entry.2.tool ++
  "\n**State:** " ++ entry.2.phase.name ++
  "\n**Collected params:** [" ++ String.intercalate ", " names ++
  "]\n**Missing params:** [" ++ String.intercalate ", " entry.2.missing ++ "]"

def Shows (entry : Entry) (body : String) : Prop :=
  ∃ names, names.Perm (Table.keys entry.2.collected) ∧ names.Pairwise (· < ·) ∧ body = written entry names

def heading : String := "**Active Sessions:**\n\n"

def page : List String → String
  | [] => "No active sessions."
  | [body] => heading ++ body
  | bodies => heading ++ (String.intercalate "\n\n---\n" bodies ++ "\n\n---")

def body (entry : Entry) : String := written entry (sortedNames (Table.keys entry.2.collected))

theorem sortedNames_perm (names : List String) : (sortedNames names).Perm names := List.mergeSort_perm names _

theorem sortedNames_ordered (names : List String) : (sortedNames names).Pairwise (· ≤ ·) := by
  have ordered : (sortedNames names).Pairwise fun a b => decide (a ≤ b) = true := by
    apply List.pairwise_mergeSort
    · intro a b c first second
      exact decide_eq_true (String.le_trans (of_decide_eq_true first) (of_decide_eq_true second))
    · intro a b
      simpa using String.le_total a b
  exact ordered.imp of_decide_eq_true

theorem sortedNames_increasing {names : List String} (distinct : names.Nodup) :
    (sortedNames names).Pairwise (· < ·) := by
  have apart : (sortedNames names).Nodup := (sortedNames_perm names).nodup_iff.mpr distinct
  refine ((sortedNames_ordered names).and apart).imp ?_
  intro a b ⟨below,differ⟩
  exact String.not_le.mp fun above => differ (String.le_antisymm below above)

theorem sortedNames_eq {names others : List String} (same : names.Perm others) :
    sortedNames names = sortedNames others := by
  apply List.Perm.eq_of_pairwise _ (sortedNames_ordered names) (sortedNames_ordered others)
  · exact (sortedNames_perm names).trans (same.trans (sortedNames_perm others).symm)
  · intro _ _ _ _ below above
    exact String.le_antisymm below above

theorem body_shows (distinct : (Table.keys a.2.collected).Nodup) : Shows a (body a) :=
  ⟨_,sortedNames_perm _,sortedNames_increasing distinct,rfl⟩

theorem body_reordered (named : b.1 = a.1) (same : a.2.Reordered b.2) : body b = body a := by
  obtain ⟨id,session⟩ := b
  obtain ⟨values,perm,rfl⟩ := same
  cases named
  exact congrArg (written a) (sortedNames_eq (perm.map Prod.fst))

theorem precedes_iff : precedes a b = true ↔
    a.2.createdAt < b.2.createdAt ∨ a.2.createdAt = b.2.createdAt ∧ a.1 ≤ b.1 := by
  simp [precedes]

theorem precedes_trans (first : precedes a b = true) (second : precedes b c = true) : precedes a c = true := by
  rw [precedes_iff] at first second ⊢
  rcases first with first | ⟨first,below⟩
  · refine .inl ?_
    rcases second with second | ⟨second,-⟩
    · exact Int.lt_trans first second
    · exact Int.lt_of_lt_of_le first (Int.le_of_eq second)
  · rw [first]
    exact second.imp_right fun ⟨second,above⟩ => ⟨second,String.le_trans below above⟩

theorem precedes_total (a b : Entry) : (precedes a b || precedes b a) = true := by
  rw [Bool.or_eq_true,precedes_iff,precedes_iff]
  rcases Int.lt_trichotomy a.2.createdAt b.2.createdAt with before | same | after
  · exact .inl (.inl before)
  · exact (String.le_total a.1 b.1).imp (fun below => .inr ⟨same,below⟩) (fun above => .inr ⟨same.symm,above⟩)
  · exact .inr (.inl after)

theorem sorted_perm (entries : List Entry) : (sorted entries).Perm entries := List.mergeSort_perm entries _

-- No two sessions have the same id, so that the order leaves no choice.
theorem sorted_earlier (distinct : (Table.keys entries).Nodup) : (sorted entries).Pairwise Earlier := by
  have ordered : (sorted entries).Pairwise fun a b => precedes a b = true := by
    apply List.pairwise_mergeSort
    · intro a b c first second
      exact precedes_trans first second
    · exact precedes_total
  have apart : (sorted entries).Pairwise fun a b => a.1 ≠ b.1 :=
    List.pairwise_map.mp (((sorted_perm entries).map Prod.fst).nodup_iff.mpr distinct)
  refine (ordered.and apart).imp ?_
  intro a b ⟨before,differ⟩
  refine (precedes_iff.mp before).imp_right ?_
  intro ⟨same,below⟩
  exact ⟨same,String.not_le.mp fun above => differ (String.le_antisymm below above)⟩

theorem Earlier.asymm (before : Earlier a b) : ¬Earlier b a := by
  rintro (after | ⟨same,after⟩)
  · rcases before with before | ⟨same,-⟩
    · exact Int.lt_irrefl _ (Int.lt_trans before after)
    · exact Int.lt_irrefl _ (Int.lt_of_lt_of_le after (Int.le_of_eq same))
  · rcases before with before | ⟨-,before⟩
    · exact Int.lt_irrefl _ (Int.lt_of_lt_of_le before (Int.le_of_eq same))
    · exact String.lt_asymm before after

theorem sorted_eq (distinct : (Table.keys entries).Nodup) (same : others.Perm entries) :
    sorted others = sorted entries := by
  have apart : (Table.keys others).Nodup := (same.map Prod.fst).nodup_iff.mpr distinct
  apply List.Perm.eq_of_pairwise _ (sorted_earlier apart) (sorted_earlier distinct)
  · exact (sorted_perm others).trans (same.trans (sorted_perm entries).symm)
  · intro _ _ _ _ before after
    exact absurd after before.asymm

-- What the order and the blocks depend on.
def face (entry : Entry) : String × Instant × String := (entry.1,entry.2.createdAt,body entry)

theorem sorted_faces (entries : List Entry) : (sorted entries).map face =
    (entries.map face).mergeSort fun a b => a.2.1 < b.2.1 || (a.2.1 == b.2.1 && a.1 ≤ b.1) :=
  List.map_mergeSort fun _ _ _ _ => rfl

theorem Reordered.faces (same : List.Forall₂ (fun a b => b.1 = a.1 ∧ a.2.Reordered b.2) entries others) :
    others.map face = entries.map face := by
  induction same with
  | nil => rfl
  | @cons a b entries others first _ ih =>
    obtain ⟨named,same⟩ := first
    have shown := body_reordered named same
    obtain ⟨values,-,kept⟩ := same
    rw [List.map_cons,List.map_cons,ih,face,face,named,shown,kept]

theorem Reordered.keys (same : Reordered entries others) (distinct : (Table.keys entries).Nodup) :
    (Table.keys others).Nodup := by
  obtain ⟨middle,perm,same⟩ := same
  have names : Table.keys others = Table.keys middle := by
    have faces := congrArg (List.map Prod.fst) (Reordered.faces same)
    rwa [List.map_map,List.map_map] at faces
  rw [names]
  exact (perm.map Prod.fst).nodup_iff.mpr distinct

theorem Reordered.bodies (same : Reordered entries others) (distinct : (Table.keys entries).Nodup) :
    (sorted others).map body = (sorted entries).map body := by
  obtain ⟨middle,perm,same⟩ := same
  have faces : (sorted others).map face = (sorted entries).map face := by
    rw [sorted_faces,Reordered.faces same,← sorted_faces,sorted_eq distinct perm]
  have shown := congrArg (List.map fun shown => shown.2.2) faces
  rwa [List.map_map,List.map_map] at shown

theorem block_body (entry : Entry) : block entry = body entry ++ "\n\n" := by
  have ending : "]\n\n" = "]" ++ "\n\n" := by decide +kernel
  exact (congrArg (_ ++ ·) ending).trans String.append_assoc.symm

theorem join_ended (gap first : String) (rest : List String) :
    String.join ((first :: rest).map (· ++ gap)) = String.intercalate gap (first :: rest) ++ gap := by
  induction rest generalizing first with
  | nil => simp
  | cons second rest ih =>
    rw [List.map_cons,String.join_cons,ih,String.intercalate_cons_cons]
    simp only [String.append_assoc]

theorem blocks_ruled (entries : List Entry) :
    (entries.map fun entry => block entry ++ "---\n") = (entries.map body).map (· ++ "\n\n---\n") := by
  have ending : "\n\n" ++ "---\n" = "\n\n---\n" := by decide +kernel
  rw [List.map_map]
  apply List.map_congr_left
  intro entry _
  exact (congrArg (· ++ _) (block_body entry)).trans (String.append_assoc.trans (congrArg (_ ++ ·) ending))

theorem render_page (entries : List Entry) : render entries = page ((sorted entries).map body) := by
  have begins : ∃ c ∈ heading.toList.head?, Text.isBlank c = false := ⟨'*',by decide,by decide⟩
  have closes : ∃ c ∈ "]".toList.getLast?, Text.isBlank c = false := ⟨']',by decide,by decide⟩
  have rules : ∃ c ∈ "\n\n---".toList.getLast?, Text.isBlank c = false := ⟨'-',by decide,by decide⟩
  have lengths : (sorted entries).length = entries.length := List.length_mergeSort entries
  unfold render
  split
  · next empty =>
    rw [empty,sorted,List.mergeSort_nil]
    rfl
  · next filled =>
    rw [← lengths]
    match same : sorted entries with
    | [] =>
      rw [same] at lengths
      exact absurd (List.length_eq_zero_iff.mp lengths.symm) filled
    | [entry] =>
      obtain ⟨front,closed⟩ : ∃ front, body entry = front ++ "]" := ⟨_,rfl⟩
      have joined : String.join [block entry ++ ""] = front ++ "]" ++ "\n\n" := by
        rw [String.join_cons,String.join_nil,String.append_empty,String.append_empty,block_body,closed]
      have trimmed : Text.trim (heading ++ (front ++ "]" ++ "\n\n")) = heading ++ (front ++ "]") :=
        Text.trim_ended begins closes (by decide) front
      rw [← joined,← closed] at trimmed
      exact trimmed
    | first :: second :: rest =>
      have ending : "\n\n---\n" = "\n\n---" ++ "\n" := by decide +kernel
      have joined : String.join ((first :: second :: rest).map fun entry => block entry ++ "---\n") =
          String.intercalate "\n\n---\n" ((first :: second :: rest).map body) ++ "\n\n---" ++ "\n" := by
        rw [blocks_ruled]
        exact (join_ended _ _ _).trans ((congrArg (_ ++ ·) ending).trans String.append_assoc.symm)
      have several : 1 < (first :: second :: rest).length := Nat.succ_lt_succ (Nat.succ_pos _)
      have trimmed := Text.trim_ended begins rules (by decide : Text.allBlank "\n" = true)
        (String.intercalate "\n\n---\n" ((first :: second :: rest).map body))
      rw [← joined] at trimmed
      simp only [if_pos several]
      exact trimmed

end Listing

namespace Store

variable {a b : Store}

theorem Reordered.session? (same : a.Reordered b) (handle : Handle) :
    Option.Rel Session.Reordered (a.session? handle) (b.session? handle) := by
  obtain ⟨-,-,same⟩ := same
  unfold Store.session?
  generalize handle.place = place
  generalize a.sessions = old at same
  generalize b.sessions = new at same
  induction same generalizing place with
  | nil => exact .none
  | cons first _ ih =>
    cases place with
    | zero => exact .some first
    | succ place => exact ih place

theorem Reordered.isLive (same : a.Reordered b) (limit : Span) (now : Instant) (locks : Locks) :
    b.isLive limit now locks = a.isLive limit now locks := by
  funext handle
  have here := same.session? handle
  unfold Store.isLive
  generalize a.session? handle = old at here
  generalize b.session? handle = new at here
  cases here with
  | none => rfl
  | some here =>
    obtain ⟨values,-,rfl⟩ := here
    rfl

theorem Reordered.purge (same : a.Reordered b) (now : Instant) (locks : Locks) :
    (a.purge now locks).Reordered (b.purge now locks) := by
  have lives := fun limit => same.isLive limit now locks
  obtain ⟨limited,registered,sessions⟩ := same
  unfold Store.purge
  rw [limited]
  split
  · exact ⟨limited,registered,sessions⟩
  · next limit _ =>
    refine ⟨rfl,?_,sessions⟩
    rw [lives limit]
    exact registered.filter _

theorem Reordered.snapshot (same : a.Reordered b) : Listing.Reordered a.snapshot b.snapshot := by
  refine ⟨_,same.2.1.filterMap _,?_⟩
  unfold Store.snapshot
  induction b.registered with
  | nil => exact .nil
  | cons entry rest ih =>
    obtain ⟨id,handle⟩ := entry
    have here := same.session? handle
    rw [List.filterMap_cons,List.filterMap_cons]
    dsimp only
    generalize a.session? handle = old at here
    generalize b.session? handle = new at here
    cases here with
    | none => exact ih
    | some here => exact .cons ⟨rfl,here⟩ ih

theorem Sound.list_keys {store : Store} (sound : store.Sound) {now : Instant} {locks : Locks} :
    (Table.keys (store.list now locks).1).Nodup := by
  rw [Store.list,(sound.purge_locked now locks).snapshot_keys]
  exact (sound.purge_locked now locks).ids

end Store

structure Listed (past : List Doing) (store : Store) (now : Instant) (locks : Locks) (shown : List Listing.Entry)
    (bodies : List String) : Prop where
  ordered : shown.Pairwise Listing.Earlier
  survivors : ∀ id session, (id,session) ∈ shown ↔
    ∃ handle, store.Survives now locks id handle ∧ store.session? handle = some session
  blocks : List.Forall₂ Listing.Shows shown bodies
  missing : ∀ entry ∈ shown, ∃ locks visit schema, .visit entry.2.createdAt locks visit ∈ past ∧
    visit.asks? = some (entry.2.tool,schema) ∧
      entry.2.missing = schema.requiredNames.filter fun name => !Table.has name entry.2.collected

theorem done_listed (limit : Option Span) (past : List Doing) (now : Instant) (locks : Locks) :
    let store := Store.done ⟨[],[],limit⟩ past
    let shown := Listing.sorted (store.list now locks).1
    Listed past store now locks shown (shown.map Listing.body) := by
  intro store shown
  have sound : store.Sound := Store.done_sound limit past
  have survivors (id : String) (session : Session) : (id,session) ∈ shown ↔
      ∃ handle, store.Survives now locks id handle ∧ store.session? handle = some session :=
    (Listing.sorted_perm _).mem_iff.trans ((sound.exact now locks).list.1 id session)
  have began (entry : Listing.Entry) (member : entry ∈ shown) : Store.Began past entry.2 := by
    obtain ⟨handle,-,here⟩ := (survivors entry.1 entry.2).mp member
    exact Store.done_began limit here
  refine ⟨Listing.sorted_earlier sound.list_keys,survivors,?_,?_⟩
  · rw [List.forall₂_map_right_iff,List.forall₂_same]
    intro entry member
    exact Listing.body_shows (began entry member).keys
  · intro entry member
    exact (began entry member).missing

-- Whatever order the tables are kept in, the listing is the same: a block for each session that
-- has not expired, oldest first. It takes away what has expired and leaves the sessions alone.
theorem listing_is_canonical (limit : Option Span) (past : List Doing) (now : Instant) (locks : Locks) :
    let store := Store.done ⟨[],[],limit⟩ past
    (∃ shown bodies, Listed past store now locks shown bodies ∧
      ∀ other, store.Reordered other → ∀ entries, Listing.Reordered (other.list now locks).1 entries →
        Listing.render entries = Listing.page bodies) ∧
    (store.list now locks).2.sessions = store.sessions ∧
      ∀ id handle, (id,handle) ∈ (store.list now locks).2.registered ↔ store.Survives now locks id handle := by
  intro store
  have sound : store.Sound := Store.done_sound limit past
  refine ⟨⟨_,_,done_listed limit past now locks,?_⟩,Store.purge_sessions,(sound.exact now locks).list.2⟩
  intro other same entries listed
  have reordered : Listing.Reordered (store.list now locks).1 (other.list now locks).1 :=
    (same.purge now locks).snapshot
  have again : (Table.keys (other.list now locks).1).Nodup := reordered.keys sound.list_keys
  rw [Listing.render_page,listed.bodies again,reordered.bodies sound.list_keys]

end ToolDialogue
