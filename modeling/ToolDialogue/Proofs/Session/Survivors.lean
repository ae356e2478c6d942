import ToolDialogue.Proofs.Session.Objects

namespace ToolDialogue

namespace Table

variable {κ ν : Type} [DecidableEq κ] {key : κ} {value : ν} {table : Table κ ν}

theorem mem_iff_get? (distinct : table.keys.Nodup) : (key,value) ∈ table ↔ get? key table = some value := by
  refine ⟨fun member => ?_,mem_of_get?⟩
  induction table with
  | nil => cases member
  | cons entry rest ih =>
    obtain ⟨other,old⟩ := entry
    obtain ⟨absent,apart⟩ := List.nodup_cons.mp distinct
    rw [get?]
    rcases List.mem_cons.mp member with same | later
    · cases same
      rw [if_pos rfl]
    · have listed : key ∈ rest.map (·.1) := List.mem_map_of_mem later
      have distinct : key ≠ other := by
        rintro rfl
        exact absent listed
      rw [if_neg distinct,ih apart later]

end Table

inductive Visit where
  | create (id tool : String) (schema : Schema)
  | getOrCreate (id tool : String) (schema : Schema)
  | get (id : String)
  | list

-- Everything that happens to a store. While it is visited others may have sessions locked, and
-- whoever holds a session may change it.
inductive Happening where
  | visit (now : Instant) (locks : Locks) (visit : Visit)
  | delete (id : String)
  | change (handle : Handle) (change : Session → Session)

def Happening.Removes (id : String) : Happening → Prop
  | .visit _ _ (.create other _ _) => other = id
  | .delete other => other = id
  | _ => False

namespace Store

def visited (store : Store) (now : Instant) (locks : Locks) : Visit → Store
  | .create id tool schema => (store.create id tool schema now locks).2
  | .getOrCreate id tool schema => (store.getOrCreate id tool schema now locks).store
  | .get id => (store.get id now locks).2
  | .list => (store.list now locks).2

def happened (store : Store) : Happening → Store
  | .visit now locks visit => store.visited now locks visit
  | .delete id => store.delete id
  | .change handle change => store.modify handle change

def grown (store : Store) (happenings : List Happening) : Store := happenings.foldl happened store

def Survives (store : Store) (now : Instant) (locks : Locks) (id : String) (handle : Handle) : Prop :=
  (id,handle) ∈ store.registered ∧ (handle ∈ locks ∨ ∀ limit, store.idleLimit = some limit →
    ∃ session, store.session? handle = some session ∧ now - limit ≤ session.updatedAt)

def Begun (store : Store) (now : Instant) (handle : Handle) : Prop :=
  ∃ session, store.session? handle = some session ∧ session.createdAt = now ∧ session.updatedAt = now

-- What is registered after a visit and what the visit hands out: the survivors, and what the
-- visit itself opens.
structure Exact (store : Store) (now : Instant) (locks : Locks) : Prop where
  create : ∀ id tool schema, let (opened,after) := store.create id tool schema now locks
    after.Begun now opened ∧ ∀ other handle, (other,handle) ∈ after.registered ↔
      other ≠ id ∧ store.Survives now locks other handle ∨ other = id ∧ handle = opened
  getOrCreate : ∀ id tool schema, let obtained := store.getOrCreate id tool schema now locks
    (obtained.created = false → store.Survives now locks id obtained.handle) ∧
    (obtained.created = true → obtained.store.Begun now obtained.handle ∧ ∀ handle, ¬store.Survives now locks id handle) ∧
    ∀ other handle, (other,handle) ∈ obtained.store.registered ↔ store.Survives now locks other handle ∨
      obtained.created = true ∧ other = id ∧ handle = obtained.handle
  get : ∀ id, let (found,after) := store.get id now locks
    (∀ handle, found = some handle ↔ store.Survives now locks id handle) ∧
    ∀ other handle, (other,handle) ∈ after.registered ↔ store.Survives now locks other handle
  list : let (copies,after) := store.list now locks
    (∀ other session, (other,session) ∈ copies ↔
      ∃ handle, store.Survives now locks other handle ∧ store.session? handle = some session) ∧
    ∀ other handle, (other,handle) ∈ after.registered ↔ store.Survives now locks other handle

variable {store : Store} {now : Instant} {locks : Locks} {id other : String} {handle : Handle}

theorem visited_sound (sound : store.Sound) (now : Instant) (locks : Locks) (visit : Visit) :
    (store.visited now locks visit).Sound := by
  have purged := sound.purge_locked now locks
  cases visit with
  | create id tool schema => exact purged.register id _
  | getOrCreate id tool schema =>
    unfold visited getOrCreate
    dsimp only
    split
    · exact purged
    · exact purged.register id _
  | get id => exact purged
  | list => exact purged

theorem happened_sound (sound : store.Sound) (happening : Happening) : (store.happened happening).Sound := by
  cases happening with
  | visit now locks visit => exact visited_sound sound now locks visit
  | delete id => exact sound.delete id
  | change handle change => exact sound.modify handle change

theorem grown_sound (sound : store.Sound) (happenings : List Happening) : (store.grown happenings).Sound := by
  induction happenings generalizing store with
  | nil => exact sound
  | cons happening rest ih => exact ih (happened_sound sound happening)

theorem happened_idleLimit (store : Store) (happening : Happening) :
    (store.happened happening).idleLimit = store.idleLimit := by
  cases happening with
  | visit now locks visit =>
    cases visit with
    | getOrCreate id tool schema =>
      unfold happened visited getOrCreate
      dsimp only
      split <;> exact purge_idleLimit
    | _ => exact purge_idleLimit
  | _ => rfl

theorem grown_idleLimit (store : Store) (happenings : List Happening) :
    (store.grown happenings).idleLimit = store.idleLimit := by
  induction happenings generalizing store with
  | nil => rfl
  | cons happening rest ih => exact (ih _).trans (store.happened_idleLimit happening)

theorem Sound.survives_iff (sound : store.Sound) : store.Survives now locks id handle ↔
    Table.get? id (store.purge now locks).registered = some handle := by
  rw [Survives,Table.mem_iff_get? sound.ids,sound.purge_get?_iff]
  refine and_congr_right fun found => ?_
  obtain ⟨session,here,-⟩ := sound.held? found
  simp only [Lapses,here,Option.some.injEq,exists_eq_left']
  constructor
  · rintro (locked | fresh) ⟨unlocked,limit,session,limited,rfl,idle⟩
    · exact unlocked locked
    · exact absurd (fresh limit limited) (Int.not_le.mpr idle)
  · intro stays
    by_cases locked : handle ∈ locks
    · exact .inl locked
    · refine .inr fun limit limited => ?_
      by_contra idle
      exact stays ⟨locked,limit,session,limited,rfl,Int.not_le.mp idle⟩

theorem Sound.survivors (sound : store.Sound) (now : Instant) (locks : Locks) (id : String) (handle : Handle) :
    (id,handle) ∈ (store.purge now locks).registered ↔ store.Survives now locks id handle := by
  rw [sound.survives_iff,Table.mem_iff_get? (sound.purge_locked now locks).ids]

theorem Sound.registers (sound : store.Sound) (session : Session) :
    (other,handle) ∈ (store.register id session).2.registered ↔
      other ≠ id ∧ (other,handle) ∈ store.registered ∨ other = id ∧ handle = (store.register id session).1 := by
  rw [Table.mem_iff_get? (sound.register id session).ids,Table.mem_iff_get? sound.ids,register_get?]
  by_cases same : other = id
  · subst same
    simp only [if_true,Option.some.injEq,ne_eq,not_true_eq_false,false_and,true_and,false_or]
    exact eq_comm
  · simp [same]

theorem register_untouched {session : Session} (here : store.session? handle = some session) (id : String)
    (opened : Session) : (store.register id opened).2.session? handle = some session := by
  obtain ⟨placed,-⟩ := List.getElem?_eq_some_iff.mp here
  rw [register_session?,if_neg,here]
  rintro rfl
  exact Nat.lt_irrefl _ placed

theorem visited_untouched {session : Session} (here : store.session? handle = some session) (now : Instant)
    (locks : Locks) (visit : Visit) : (store.visited now locks visit).session? handle = some session := by
  have purged : (store.purge now locks).session? handle = some session := by rw [purge_session?,here]
  cases visit with
  | create id tool schema => exact register_untouched purged id _
  | getOrCreate id tool schema =>
    unfold visited getOrCreate
    dsimp only
    split
    · exact purged
    · exact register_untouched purged id _
  | get id => exact purged
  | list => exact purged

theorem register_begun (store : Store) (id tool : String) (schema : Schema) (now : Instant) :
    (store.register id (.start tool schema now)).2.Begun now (store.register id (.start tool schema now)).1 := by
  refine ⟨.start tool schema now,?_,rfl,rfl⟩
  rw [register_session?]
  exact if_pos rfl

theorem getOrCreate_cases (store : Store) (id tool : String) (schema : Schema) (now : Instant) (locks : Locks) :
    (∃ handle, Table.get? id (store.purge now locks).registered = some handle ∧
      store.getOrCreate id tool schema now locks = ⟨handle,false,store.purge now locks⟩) ∨
    Table.get? id (store.purge now locks).registered = none ∧
      store.getOrCreate id tool schema now locks =
        ⟨((store.purge now locks).register id (.start tool schema now)).1,true,
          ((store.purge now locks).register id (.start tool schema now)).2⟩ := by
  unfold getOrCreate
  cases found : Table.get? id (store.purge now locks).registered with
  | some handle => exact .inl ⟨handle,rfl,by simp only [found]⟩
  | none => exact .inr ⟨rfl,by simp only [found]⟩

theorem Sound.exact (sound : store.Sound) (now : Instant) (locks : Locks) : store.Exact now locks where
  create id tool schema := by
    refine ⟨register_begun _ id tool schema now,fun other handle => ?_⟩
    rw [← sound.survivors]
    exact (sound.purge_locked now locks).registers _
  getOrCreate id tool schema := by
    rcases store.getOrCreate_cases id tool schema now locks with ⟨handle,found,same⟩ | ⟨none,same⟩
    · rw [same]
      refine ⟨fun _ => sound.survives_iff.mpr found,nofun,fun other handle => ?_⟩
      simp [sound.survivors]
    · have absent (handle : Handle) : ¬store.Survives now locks id handle := by
        rw [sound.survives_iff,none]
        exact Option.some_ne_none handle ∘ Eq.symm
      rw [same]
      refine ⟨nofun,fun _ => ⟨register_begun _ id tool schema now,absent⟩,fun other handle => ?_⟩
      rw [(sound.purge_locked now locks).registers,sound.survivors]
      simp only [true_and]
      refine or_congr_left ⟨And.right,fun stays => ⟨?_,stays⟩⟩
      rintro rfl
      exact absent handle stays
  get id := ⟨fun handle => sound.survives_iff.symm,sound.survivors now locks⟩
  list := by
    have purged := sound.purge_locked now locks
    have distinct : (Table.keys (store.purge now locks).snapshot).Nodup := by
      rw [purged.snapshot_keys]
      exact purged.ids
    refine ⟨fun other session => ?_,sound.survivors now locks⟩
    rw [Table.mem_iff_get? distinct,purged.snapshot_get?,Store.held?,Option.bind_eq_some_iff]
    refine exists_congr fun handle => ?_
    rw [sound.survives_iff,purge_session?]

-- Only what removes an id takes away a session that survives the visit, or any at all where
-- sessions do not expire.
theorem Sound.stays (sound : store.Sound) (happening : Happening) (kept : ¬happening.Removes other)
    (there : (other,handle) ∈ store.registered)
    (survives : ∀ now locks visit, happening = .visit now locks visit → store.Survives now locks other handle) :
    (other,handle) ∈ (store.happened happening).registered := by
  cases happening with
  | visit now locks visit =>
    have exact := sound.exact now locks
    replace survives := survives now locks visit rfl
    cases visit with
    | create id tool schema => exact ((exact.create id tool schema).2 other handle).mpr (.inl ⟨Ne.symm kept,survives⟩)
    | getOrCreate id tool schema => exact ((exact.getOrCreate id tool schema).2.2 other handle).mpr (.inl survives)
    | get id => exact ((exact.get id).2 other handle).mpr survives
    | list => exact (exact.list.2 other handle).mpr survives
  | delete id => exact List.mem_filter.mpr ⟨there,by simpa using Ne.symm kept⟩
  | change target change => exact there

theorem Sound.stays_unlimited (sound : store.Sound) (unlimited : store.idleLimit = none) (future : List Happening)
    (kept : ∀ happening ∈ future, ¬happening.Removes other) (there : (other,handle) ∈ store.registered) :
    (other,handle) ∈ (store.grown future).registered := by
  induction future generalizing store with
  | nil => exact there
  | cons happening rest ih =>
    obtain ⟨first,later⟩ := List.forall_mem_cons.mp kept
    have next : (other,handle) ∈ (store.happened happening).registered := by
      refine sound.stays happening first there fun now locks visit _ => ⟨there,.inr ?_⟩
      simp [unlimited]
    exact ih (happened_sound sound happening) ((store.happened_idleLimit happening).trans unlimited) later next

end Store

end ToolDialogue
