import Mathlib.Data.List.Induction
import ToolDialogue.Proofs.Session.Held
import ToolDialogue.Session.Operation

namespace ToolDialogue

namespace Table

variable {κ ν μ : Type} {table : Table κ ν} {find : ν → Option μ}

theorem keys_collect (present : ∀ entry ∈ table, (find entry.2).isSome) :
    keys (table.filterMap fun (key,value) => (find value).map fun other => (key,other)) = keys table := by
  induction table with
  | nil => rfl
  | cons entry rest ih =>
    obtain ⟨key,value⟩ := entry
    obtain ⟨here,later⟩ := List.forall_mem_cons.mp present
    obtain ⟨other,found⟩ := Option.isSome_iff_exists.mp here
    simpa [keys,found] using ih later

theorem get?_ne_none [DecidableEq κ] {key : κ} (listed : key ∈ keys table) : get? key table ≠ none := by
  induction table with
  | nil => cases listed
  | cons entry rest ih =>
    obtain ⟨first,value⟩ := entry
    rw [get?]
    split
    · exact Option.some_ne_none value
    · next apart =>
      rcases List.mem_cons.mp listed with same | later
      · exact absurd same apart
      · exact ih later

theorem mem_keys [DecidableEq κ] {key : κ} : key ∈ keys table ↔ has key table = true := by
  constructor
  · intro listed
    by_contra absent
    exact get?_ne_none listed (Option.not_isSome_iff_eq_none.mp absent)
  · intro found
    obtain ⟨value,found⟩ := Option.isSome_iff_exists.mp found
    exact List.mem_map_of_mem (mem_of_get? found)

theorem get?_collect [DecidableEq κ] (present : ∀ entry ∈ table, (find entry.2).isSome) (key : κ) :
    get? key (table.filterMap fun (key,value) => (find value).map fun other => (key,other)) =
      (get? key table).bind find := by
  induction table with
  | nil => rfl
  | cons entry rest ih =>
    obtain ⟨first,value⟩ := entry
    obtain ⟨here,later⟩ := List.forall_mem_cons.mp present
    obtain ⟨other,found⟩ := Option.isSome_iff_exists.mp here
    have tail := ih later
    dsimp only at found
    by_cases same : key = first
    · simp [get?,same,found]
    · simpa [get?,same,found] using tail

end Table

def Operation.opens? : Operation → Option String
  | .create id _ _ _ => some id
  | .getOrCreate id _ _ _ => some id
  | _ => none

def Operation.purges? : Operation → Option Locks
  | .create _ _ _ locks => some locks
  | .getOrCreate _ _ _ locks => some locks
  | .get _ locks => some locks
  | .delete _ => none
  | .list => some []
  | .change _ _ => none

def Answer.Gives (handle : Handle) : Answer → Prop
  | .object other _ => other = handle
  | .found other => other = some handle
  | _ => False

namespace Store

def after (store : Store) (steps : List Step) : Store :=
  steps.foldl (fun store step => (store.perform step).2) store

def answers (store : Store) : List Step → List Answer
  | [] => []
  | step :: rest => (store.perform step).1 :: (store.perform step).2.answers rest

def Lapses (store : Store) (now : Instant) (locks : Locks) (handle : Handle) : Prop :=
  handle ∉ locks ∧ ∃ limit session, store.idleLimit = some limit ∧ store.session? handle = some session ∧
    session.updatedAt < now - limit

def Opens (store : Store) (step : Step) (id : String) (handle : Handle) : Prop :=
  step.operation.opens? = some id ∧ (store.perform step).1 = .object handle true

def Expires (store : Store) (step : Step) (handle : Handle) : Prop :=
  ∃ locks, step.operation.purges? = some locks ∧ store.Lapses step.now locks handle

-- After such a step an object is no longer the one under the id.
def Ends (store : Store) (step : Step) (id : String) (handle : Handle) : Prop :=
  (∃ other, store.Opens step id other) ∨ step.operation = .delete id ∨ store.Expires step handle

-- The latest object that was opened under the id, which has neither been deleted there nor
-- has expired since.
def Holds (store : Store) (steps : List Step) (id : String) (handle : Handle) : Prop :=
  ∃ before opening since, steps = before ++ opening :: since ∧ (store.after before).Opens opening id handle ∧
    ∀ front step rest, since = front ++ step :: rest →
      ¬(store.after (before ++ opening :: front)).Ends step id handle

inductive Performs (store : Store) (step : Step) : Answer × Store → Prop where
  | opened {id : String} {locks : Locks} {session : Session} (names : step.operation.opens? = some id)
      (purges : step.operation.purges? = some locks) :
      Performs store step
        (.object ⟨store.sessions.length⟩ true,((store.purge step.now locks).register id session).2)
  | looked {locks : Locks} {answer : Answer} (purges : step.operation.purges? = some locks)
      (old : ∀ handle, answer ≠ .object handle true)
      (given : ∀ handle, answer.Gives handle → ∃ id, (id,handle) ∈ store.registered) :
      Performs store step (answer,store.purge step.now locks)
  | deleted {id : String} (removes : step.operation = .delete id) : Performs store step (.nothing,store.delete id)
  | changed {handle : Handle} {change : Session → Session} (changes : step.operation = .change handle change) :
      Performs store step (.nothing,store.modify handle change)

variable {store : Store} {steps : List Step} {step : Step} {id other : String} {handle : Handle}
  {now : Instant} {locks : Locks}

theorem perform_performs (store : Store) (step : Step) : store.Performs step (store.perform step) := by
  obtain ⟨now,operation⟩ := step
  have found {id : String} {handle : Handle} {locks : Locks}
      (kept : Table.get? id (store.purge now locks).registered = some handle) :
      ∃ id, (id,handle) ∈ store.registered := ⟨id,purge_registered (Table.mem_of_get? kept)⟩
  cases operation with
  | create id tool schema locks =>
    have opened := @Performs.opened store ⟨now,.create id tool schema locks⟩ id locks (.start tool schema now) rfl rfl
    simpa [perform,create,register] using opened
  | getOrCreate id tool schema locks =>
    unfold perform getOrCreate
    dsimp only
    split
    · next handle kept =>
      refine .looked rfl (by simp) ?_
      rintro handle ⟨⟩
      exact found kept
    · have opened := @Performs.opened store ⟨now,.getOrCreate id tool schema locks⟩ id locks (.start tool schema now) rfl rfl
      simpa [register] using opened
  | get id locks =>
    refine .looked rfl (by simp) ?_
    intro handle kept
    exact found kept
  | delete id => exact .deleted rfl
  | list =>
    refine .looked rfl (by simp) ?_
    rintro handle ⟨⟩
  | change handle change => exact .changed rfl

theorem perform_sound (sound : store.Sound) (step : Step) : (store.perform step).2.Sound := by
  have performs := store.perform_performs step
  generalize store.perform step = result at performs
  cases performs with
  | opened => exact (sound.purge_locked _ _).register _ _
  | looked => exact sound.purge_locked _ _
  | deleted => exact sound.delete _
  | changed => exact sound.modify _ _

theorem after_sound (sound : store.Sound) (steps : List Step) : (store.after steps).Sound := by
  induction steps generalizing store with
  | nil => exact sound
  | cons step rest ih => exact ih (perform_sound sound step)

theorem Sound.purge_get?_iff (sound : store.Sound) :
    Table.get? id (store.purge now locks).registered = some handle ↔
      Table.get? id store.registered = some handle ∧ ¬store.Lapses now locks handle := by
  rw [sound.purge_locked_get?,Option.filter_eq_some_iff]
  apply and_congr_right
  intro found
  obtain ⟨session,here,-⟩ := sound.held? found
  simp only [Lapses,here,Option.any_some,Bool.or_eq_true,List.contains_eq_mem,decide_eq_true_eq,keeps_iff,
    Option.some.injEq]
  constructor
  · rintro (locked | fresh) ⟨unlocked,limit,other,limited,rfl,idle⟩
    · exact unlocked locked
    · exact absurd (fresh limit limited) (Int.not_le.mpr idle)
  · intro stays
    by_cases locked : handle ∈ locks
    · exact .inl locked
    · refine .inr ?_
      intro limit limited
      by_contra idle
      exact stays ⟨locked,limit,session,limited,rfl,Int.not_le.mp idle⟩

theorem not_delete_of_purges (id : String) {operation : Operation} (purges : operation.purges? = some locks) :
    operation ≠ .delete id := by
  rintro rfl
  cases purges

theorem perform_get?_iff (sound : store.Sound) (step : Step) (id : String) (handle : Handle) :
    Table.get? id (store.perform step).2.registered = some handle ↔
      store.Opens step id handle ∨ Table.get? id store.registered = some handle ∧ ¬store.Ends step id handle := by
  have performs := store.perform_performs step
  unfold Ends Opens Expires
  generalize store.perform step = result at performs
  cases performs with
  | @opened named locks session names purges =>
    have stays := not_delete_of_purges id purges
    simp only [names,purges,register_get?,purge_sessions]
    by_cases same : id = named
    · subst same
      simp
    · simp [same,Ne.symm same,stays,sound.purge_get?_iff]
  | looked purges old given =>
    have stays := not_delete_of_purges id purges
    simp [old,purges,stays,sound.purge_get?_iff]
  | @deleted named removes =>
    simp only [removes,delete,Table.get?_erase]
    by_cases same : id = named
    · simp [same,Operation.opens?]
    · simp [same,Ne.symm same,Operation.opens?,Operation.purges?]
  | changed changes =>
    simp [changes,Operation.opens?,Operation.purges?]

theorem after_append (store : Store) (steps more : List Step) :
    store.after (steps ++ more) = (store.after steps).after more := List.foldl_append

theorem after_concat (store : Store) (steps : List Step) (step : Step) :
    store.after (steps ++ [step]) = ((store.after steps).perform step).2 := store.after_append steps [step]

theorem not_holds_nil : ¬store.Holds [] id handle := by
  rintro ⟨before,opening,since,split,-⟩
  exact List.append_ne_nil_of_right_ne_nil before (List.cons_ne_nil opening since) split.symm

theorem holds_concat : store.Holds (steps ++ [step]) id handle ↔ (store.after steps).Opens step id handle ∨
    store.Holds steps id handle ∧ ¬(store.after steps).Ends step id handle := by
  constructor
  · rintro ⟨before,opening,since,split,opens,quiet⟩
    rcases List.eq_nil_or_concat since with rfl | ⟨earlier,last,rfl⟩
    · obtain ⟨rfl,same⟩ := List.append_inj' split rfl
      cases same
      exact .inl opens
    · rw [List.concat_eq_append,← List.cons_append,← List.append_assoc] at split
      obtain ⟨rfl,same⟩ := List.append_inj' split rfl
      cases same
      refine .inr ⟨⟨before,opening,earlier,rfl,opens,?_⟩,quiet earlier step [] (by simp)⟩
      rintro front between rest rfl
      exact quiet front between (rest ++ [step]) (by simp)
  · rintro (opens | ⟨⟨before,opening,since,rfl,opens,quiet⟩,stays⟩)
    · refine ⟨steps,step,[],rfl,opens,?_⟩
      intro front between rest split
      exact absurd split.symm (List.append_ne_nil_of_right_ne_nil front (List.cons_ne_nil between rest))
    · refine ⟨before,opening,since ++ [step],by simp,opens,?_⟩
      intro front between rest split
      rcases List.eq_nil_or_concat rest with rfl | ⟨later,last,rfl⟩
      · obtain ⟨rfl,same⟩ := List.append_inj' split rfl
        cases same
        exact stays
      · rw [List.concat_eq_append,← List.cons_append,← List.append_assoc] at split
        obtain ⟨rfl,-⟩ := List.append_inj' split rfl
        exact quiet front between later rfl

theorem isCurrent_iff : store.isCurrent id handle = true ↔ Table.get? id store.registered = some handle := by
  rw [isCurrent,beq_iff_eq]

theorem isCurrent_iff_holds (sound : store.Sound) (none : store.registered = []) (steps : List Step)
    (id : String) (handle : Handle) : (store.after steps).isCurrent id handle = true ↔ store.Holds steps id handle := by
  induction steps using List.reverseRecOn with
  | nil =>
    refine iff_of_false ?_ not_holds_nil
    rw [isCurrent_iff,after,List.foldl_nil,none]
    exact Option.some_ne_none _ ∘ Eq.symm
  | append_singleton steps step ih =>
    rw [isCurrent_iff] at ih ⊢
    rw [after_concat,perform_get?_iff (after_sound sound steps),ih,holds_concat]

-- The object exists and is under no id.
def Retired (store : Store) (handle : Handle) : Prop :=
  handle.place < store.sessions.length ∧ ∀ id, Table.get? id store.registered ≠ some handle

theorem perform_grows (store : Store) (step : Step) :
    store.sessions.length ≤ (store.perform step).2.sessions.length := by
  have performs := store.perform_performs step
  generalize store.perform step = result at performs
  cases performs <;> simp [register]

theorem Opens.new (opens : store.Opens step id handle) : handle = ⟨store.sessions.length⟩ := by
  have performs := store.perform_performs step
  obtain ⟨-,given⟩ := opens
  generalize store.perform step = result at performs given
  cases performs with
  | opened => cases given; rfl
  | looked _ old => exact absurd given (old handle)
  | deleted => cases given
  | changed => cases given

theorem Retired.perform (retired : store.Retired handle) (sound : store.Sound) (step : Step) :
    (store.perform step).2.Retired handle := by
  obtain ⟨there,nowhere⟩ := retired
  refine ⟨Nat.lt_of_lt_of_le there (store.perform_grows step),?_⟩
  intro id found
  rcases (perform_get?_iff sound step id handle).mp found with opens | ⟨before,-⟩
  · rw [opens.new] at there
    exact Nat.lt_irrefl _ there
  · exact nowhere id before

theorem Retired.after (retired : store.Retired handle) (sound : store.Sound) (steps : List Step) :
    (store.after steps).Retired handle := by
  induction steps generalizing store with
  | nil => exact retired
  | cons step rest ih => exact ih (retired.perform sound step) (perform_sound sound step)

theorem perform_keeps_or_retires (sound : store.Sound) (found : Table.get? id store.registered = some handle)
    (step : Step) : Table.get? id (store.perform step).2.registered = some handle ∨
      (store.perform step).2.Retired handle := by
  have there : handle.place < store.sessions.length := sound.placed _ (Table.mem_of_get? found)
  by_cases kept : Table.get? id (store.perform step).2.registered = some handle
  · exact .inl kept
  · refine .inr ⟨Nat.lt_of_lt_of_le there (store.perform_grows step),?_⟩
    intro other elsewhere
    rcases (perform_get?_iff sound step other handle).mp elsewhere with opens | ⟨before,-⟩
    · rw [opens.new] at there
      exact Nat.lt_irrefl _ there
    · cases sound.apart other id handle before found
      exact kept elsewhere

theorem after_keeps_or_retires (sound : store.Sound) (found : Table.get? id store.registered = some handle)
    (steps : List Step) : Table.get? id (store.after steps).registered = some handle ∨
      (store.after steps).Retired handle := by
  induction steps generalizing store with
  | nil => exact .inl found
  | cons step rest ih =>
    rcases perform_keeps_or_retires sound found step with kept | retired
    · exact ih (perform_sound sound step) kept
    · exact .inr (retired.after (perform_sound sound step) rest)

theorem perform_gives (sound : store.Sound) (given : (store.perform step).1.Gives handle) :
    handle.place < (store.perform step).2.sessions.length := by
  have performs := store.perform_performs step
  generalize store.perform step = result at performs given
  cases performs with
  | opened =>
    cases given
    simp [register]
  | looked _ _ registered =>
    obtain ⟨id,member⟩ := registered handle given
    rw [purge_sessions]
    exact sound.placed _ member
  | deleted => cases given
  | changed => cases given

theorem after_grows (store : Store) (steps : List Step) :
    store.sessions.length ≤ (store.after steps).sessions.length := by
  induction steps generalizing store with
  | nil => exact Nat.le_refl _
  | cons step rest ih => exact Nat.le_trans (store.perform_grows step) (ih _)

theorem answers_place (sound : store.Sound) {answer : Answer} (member : answer ∈ store.answers steps)
    (given : answer.Gives handle) : handle.place < (store.after steps).sessions.length := by
  induction steps generalizing store with
  | nil => cases member
  | cons step rest ih =>
    rcases List.mem_cons.mp member with rfl | later
    · exact Nat.lt_of_lt_of_le (perform_gives sound given) (after_grows _ rest)
    · exact ih (perform_sound sound step) later

theorem answers_append (store : Store) (steps more : List Step) :
    store.answers (steps ++ more) = store.answers steps ++ (store.after steps).answers more := by
  induction steps generalizing store with
  | nil => rfl
  | cons step rest ih => rw [List.cons_append,answers,answers,ih]; rfl

theorem answers_length (store : Store) (steps : List Step) : (store.answers steps).length = steps.length := by
  induction steps generalizing store with
  | nil => rfl
  | cons step rest ih => rw [answers,List.length_cons,List.length_cons,ih]

theorem Sound.present (sound : store.Sound) {entry : String × Handle} (member : entry ∈ store.registered) :
    (store.session? entry.2).isSome := by
  obtain ⟨session,here⟩ := session?_of_placed (sound.placed entry member)
  rw [here]
  rfl

theorem Sound.snapshot_keys (sound : store.Sound) : Table.keys store.snapshot = Table.keys store.registered :=
  Table.keys_collect fun _ => sound.present

theorem Sound.snapshot_get? (sound : store.Sound) (id : String) : Table.get? id store.snapshot = store.held? id :=
  Table.get?_collect (fun _ => sound.present) id

structure Begins (limit : Option Span) (steps : List Step) (id : String) (session : Session)
    (handle : Handle) (result : Store) : Prop where
  unseen : ∀ answer ∈ answers ⟨[],[],limit⟩ steps, ¬answer.Gives handle
  absent : (after ⟨[],[],limit⟩ steps).session? handle = none
  current : result.isCurrent id handle = true
  session : result.session? handle = some session

theorem register_begins (now : Instant) (locks : Locks) (limit : Option Span) (steps : List Step) (id : String)
    (session : Session) :
    let registered := ((after ⟨[],[],limit⟩ steps).purge now locks).register id session
    Begins limit steps id session registered.1 registered.2 := by
  refine ⟨?_,?_,?_,?_⟩
  · intro answer member given
    have bound := answers_place (empty_sound limit) member given
    simp [register] at bound
  · simp [register,session?]
  · rw [isCurrent_iff,register_get?,if_pos rfl]
    simp [register]
  · rw [register_session?,if_pos]
    simp [register]

structure Objects (limit : Option Span) (steps : List Step) (store : Store) : Prop where
  purged : ∀ now locks id handle, (store.purge now locks).isCurrent id handle = true ↔
    store.isCurrent id handle = true ∧ ¬store.Lapses now locks handle
  obtains : ∀ id tool schema now locks, (store.purge now locks).contains id = true → ∃ handle,
    store.getOrCreate id tool schema now locks = ⟨handle,false,store.purge now locks⟩ ∧
      (store.purge now locks).isCurrent id handle = true
  renews : ∀ id tool schema now locks, (store.purge now locks).contains id = false → ∃ handle result,
    store.getOrCreate id tool schema now locks = ⟨handle,true,result⟩ ∧
      Begins limit steps id (.start tool schema now) handle result
  creates : ∀ id tool schema now locks, let created := store.create id tool schema now locks
    Begins limit steps id (.start tool schema now) created.1 created.2
  current : ∀ id handle, store.isCurrent id handle = true ↔ Holds ⟨[],[],limit⟩ steps id handle
  replaced : ∀ id handle more, store.isCurrent id handle = true → (store.after more).isCurrent id handle = false →
    ∀ later other, (store.after (more ++ later)).isCurrent other handle = false
  lists : ∀ now, (Table.keys (store.list now []).1).Nodup ∧ ∀ id,
    (id ∈ Table.keys (store.list now []).1 ↔ (store.purge now []).contains id = true) ∧
      Table.get? id (store.list now []).1 = (store.purge now []).held? id
  copied : ∀ more, (answers ⟨[],[],limit⟩ (steps ++ more)).take steps.length = answers ⟨[],[],limit⟩ steps

theorem Sound.not_current_later (sound : store.Sound) {steps : List Step} (current : store.isCurrent id handle = true)
    (ended : (store.after steps).isCurrent id handle = false) (later : List Step) (other : String) :
    (store.after (steps ++ later)).isCurrent other handle = false := by
  rw [isCurrent_iff] at current
  rcases after_keeps_or_retires sound current steps with kept | retired
  · rw [isCurrent_iff.mpr kept] at ended
    cases ended
  · have nowhere := (retired.after (after_sound sound steps) later).2 other
    rw [after_append,Bool.eq_false_iff,ne_eq,isCurrent_iff]
    exact nowhere

-- The store is a map from ids to objects, and every object that it opens is a new one.
theorem store_keeps_objects (limit : Option Span) (steps : List Step) :
    Objects limit steps (after ⟨[],[],limit⟩ steps) := by
  have sound := after_sound (empty_sound limit) steps
  refine ⟨?_,?_,?_,?_,?_,?_,?_,?_⟩
  · intro now locks id handle
    rw [isCurrent_iff,isCurrent_iff]
    exact sound.purge_get?_iff
  · intro id tool schema now locks held
    obtain ⟨handle,found⟩ := Option.isSome_iff_exists.mp held
    refine ⟨handle,?_,isCurrent_iff.mpr found⟩
    simp only [getOrCreate,found]
  · intro id tool schema now locks free
    have none := Option.isNone_iff_eq_none.mp (Option.isSome_eq_false_iff.mp free)
    have begins := register_begins now locks limit steps id (.start tool schema now)
    refine ⟨_,_,?_,begins⟩
    simp only [getOrCreate,none]
  · intro id tool schema now locks
    exact register_begins now locks limit steps id (.start tool schema now)
  · exact isCurrent_iff_holds (empty_sound limit) rfl steps
  · intro id handle more current ended later other
    exact sound.not_current_later current ended later other
  · intro now
    have sound := sound.purge now
    rw [list,sound.snapshot_keys]
    refine ⟨sound.ids,?_⟩
    intro id
    exact ⟨Table.mem_keys,sound.snapshot_get? id⟩
  · intro more
    rw [answers_append,← answers_length ⟨[],[],limit⟩ steps]
    exact List.take_left

end Store

end ToolDialogue
