import ToolDialogue.Proofs.Session.Registry

namespace ToolDialogue

namespace Table

variable {κ ν : Type} [DecidableEq κ] {key : κ} {table : Table κ ν}

theorem get?_eq_none (absent : key ∉ table.keys) : get? key table = none := by
  cases found : get? key table with
  | none => rfl
  | some value => exact absurd (List.mem_map_of_mem (mem_of_get? found)) absent

theorem get?_filter (distinct : table.keys.Nodup) (keep : ν → Bool) (key : κ) :
    get? key (table.filter fun entry => keep entry.2) = (get? key table).filter keep := by
  induction table with
  | nil => rfl
  | cons entry rest ih =>
    obtain ⟨other,value⟩ := entry
    obtain ⟨absent,apart⟩ := List.nodup_cons.mp distinct
    have tail := ih apart
    rw [List.filter_cons]
    by_cases here : key = other
    · subst here
      have gone : get? key rest = none := get?_eq_none absent
      rw [gone] at tail
      cases kept : keep value <;> simp [get?,kept,tail,Option.filter_some]
    · cases keep value <;> simp [get?,here,tail]

theorem keys_put (key : κ) (value : ν) (table : Table κ ν) :
    (put key value table).keys = if key ∈ table.keys then table.keys else table.keys ++ [key] := by
  induction table with
  | nil => simp [put,keys]
  | cons entry rest ih =>
    obtain ⟨other,old⟩ := entry
    by_cases here : key = other
    · simp [put,keys,here]
    · simp only [put,here,if_false,keys,List.map_cons] at ih ⊢
      rw [ih]
      by_cases listed : key ∈ rest.map (·.1) <;> simp [listed,here]

theorem put_distinct (distinct : table.keys.Nodup) (value : ν) : (put key value table).keys.Nodup := by
  rw [keys_put]
  split
  · exact distinct
  · next absent =>
    refine List.nodup_append.mpr ⟨distinct,List.nodup_singleton key,?_⟩
    intro other listed last member same
    cases List.mem_singleton.mp member
    exact absent (same ▸ listed)

omit [DecidableEq κ] in
theorem filter_distinct (distinct : table.keys.Nodup) (keep : κ × ν → Bool) :
    (keys (table.filter keep)).Nodup := distinct.sublist (List.filter_sublist.map _)

end Table

namespace Store

variable {store : Store} {now : Instant} {id : String} {handle : Handle}

def held? (store : Store) (id : String) : Option Session :=
  (Table.get? id store.registered).bind store.session?

def keeps (store : Store) (now : Instant) (session : Session) : Bool :=
  match store.idleLimit with
  | none => true
  | some limit => now - limit ≤ session.updatedAt

theorem keeps_iff {session : Session} : store.keeps now session = true ↔
    ∀ limit, store.idleLimit = some limit → now - limit ≤ session.updatedAt := by
  unfold keeps
  cases store.idleLimit <;> simp

theorem keeps_earlier {later : Instant} (after : now ≤ later) {session : Session}
    (kept : store.keeps later session = true) : store.keeps now session = true := by
  rw [keeps_iff] at kept ⊢
  intro limit limited
  exact Int.le_trans (Int.sub_le_sub_right after limit) (kept limit limited)

structure Sound (store : Store) : Prop where
  placed : store.Placed
  ids : (Table.keys store.registered).Nodup
  apart : ∀ a b handle, Table.get? a store.registered = some handle →
    Table.get? b store.registered = some handle → a = b

theorem Sound.held? (sound : store.Sound) (found : Table.get? id store.registered = some handle) :
    ∃ session, store.session? handle = some session ∧ store.held? id = some session := by
  obtain ⟨session,here⟩ := session?_of_placed (sound.placed _ (Table.mem_of_get? found))
  exact ⟨session,here,by simp [Store.held?,found,here]⟩

theorem Sound.contains (sound : store.Sound) (id : String) :
    store.contains id = (store.held? id).isSome := by
  unfold Store.contains Table.has
  cases found : Table.get? id store.registered with
  | none => simp [Store.held?,found]
  | some handle =>
    obtain ⟨session,-,held⟩ := sound.held? found
    simp [held]

theorem empty_sound (limit : Option Span) : Sound ⟨[],[],limit⟩ := by
  refine ⟨empty_placed limit,List.nodup_nil,?_⟩
  intro a b handle found
  cases found

-- A purge drops an id together with a session that has been idle for too long, unless
-- somebody has locked it.
theorem Sound.purge_locked_get? (sound : store.Sound) (now : Instant) (locks : Locks) (id : String) :
    Table.get? id (store.purge now locks).registered = (Table.get? id store.registered).filter fun handle =>
      locks.contains handle || (store.session? handle).any (store.keeps now) := by
  cases limited : store.idleLimit with
  | none =>
    rw [purge_unlimited limited]
    cases found : Table.get? id store.registered with
    | none => rfl
    | some handle =>
      obtain ⟨session,here,-⟩ := sound.held? found
      simp [here,keeps,limited,Option.filter_some]
  | some limit =>
    have live : store.isLive limit now locks = fun handle =>
        locks.contains handle || (store.session? handle).any (store.keeps now) := by
      funext handle
      unfold isLive keeps
      cases store.session? handle <;> simp [limited]
    rw [← live]
    simp only [purge,limited]
    exact Table.get?_filter sound.ids _ id

theorem Sound.purge_get? (sound : store.Sound) (now : Instant) (id : String) :
    Table.get? id (store.purge now []).registered =
      (Table.get? id store.registered).filter fun handle => (store.session? handle).any (store.keeps now) := by
  simpa using sound.purge_locked_get? now [] id

theorem Sound.purge_held? (sound : store.Sound) (now : Instant) (id : String) :
    (store.purge now []).held? id = (store.held? id).filter (store.keeps now) := by
  have same : (store.purge now []).session? = store.session? := funext purge_session?
  rw [Store.held?,Store.held?,sound.purge_get?,same]
  cases found : Table.get? id store.registered with
  | none => rfl
  | some handle =>
    obtain ⟨session,here,-⟩ := sound.held? found
    cases kept : store.keeps now session <;> simp [here,kept,Option.filter_some]

theorem Sound.purge_locked (sound : store.Sound) (now : Instant) (locks : Locks) :
    (store.purge now locks).Sound := by
  have before {id : String} {handle : Handle}
      (found : Table.get? id (store.purge now locks).registered = some handle) :
      Table.get? id store.registered = some handle := by
    rw [sound.purge_locked_get?] at found
    exact (Option.filter_eq_some_iff.mp found).1
  refine ⟨purge_placed sound.placed,?_,?_⟩
  · unfold Store.purge
    split
    · exact sound.ids
    · exact Table.filter_distinct sound.ids _
  · intro a b handle ha hb
    exact sound.apart a b handle (before ha) (before hb)

theorem Sound.purge (sound : store.Sound) (now : Instant) : (store.purge now []).Sound :=
  sound.purge_locked now []

theorem register_get? (id other : String) (session : Session) :
    Table.get? other (store.register id session).2.registered =
      if other = id then some ⟨store.sessions.length⟩ else Table.get? other store.registered :=
  Table.get?_put ..

theorem Sound.elsewhere (sound : store.Sound) (found : Table.get? id store.registered = some handle) :
    handle ≠ ⟨store.sessions.length⟩ := by
  rintro rfl
  exact Nat.lt_irrefl _ (sound.placed _ (Table.mem_of_get? found))

theorem Sound.register_held? (sound : store.Sound) (id other : String) (session : Session) :
    (store.register id session).2.held? other =
      if other = id then some session else store.held? other := by
  rw [Store.held?,register_get?,Store.held?]
  split
  · simp [register_session?]
  · cases found : Table.get? other store.registered with
    | none => rfl
    | some handle => simp [register_session?,sound.elsewhere found]

theorem Sound.register (sound : store.Sound) (id : String) (session : Session) :
    (store.register id session).2.Sound := by
  refine ⟨register_placed sound.placed id session,Table.put_distinct sound.ids _,?_⟩
  intro a b handle ha hb
  rw [register_get?] at ha hb
  split at ha <;> split at hb
  · next same other => exact same.trans other.symm
  · cases ha; exact absurd rfl (sound.elsewhere hb)
  · cases hb; exact absurd rfl (sound.elsewhere ha)
  · exact sound.apart a b handle ha hb

theorem Sound.modify_held? (sound : store.Sound) (found : Table.get? id store.registered = some handle)
    (change : Session → Session) (other : String) :
    (store.modify handle change).held? other =
      if other = id then (store.held? id).map change else store.held? other := by
  rw [Store.held?,Store.held?,modify_registered]
  split
  · next same => simp [same,found,modify_session?]
  · next apart =>
    cases there : Table.get? other store.registered with
    | none => simp [Store.held?,there]
    | some place =>
      have distinct : place ≠ handle := by
        rintro rfl
        exact apart (sound.apart _ _ _ there found)
      simp [Store.held?,there,modify_session?,distinct]

theorem Sound.modify (sound : store.Sound) (handle : Handle) (change : Session → Session) :
    (store.modify handle change).Sound :=
  ⟨modify_placed sound.placed handle change,sound.ids,sound.apart⟩

theorem delete_held? (id other : String) :
    (store.delete id).held? other = if other = id then none else store.held? other := by
  rw [Store.held?,delete,Table.get?_erase]
  split
  · rfl
  · rfl

theorem Sound.delete (sound : store.Sound) (id : String) : (store.delete id).Sound := by
  refine ⟨delete_placed sound.placed id,Table.filter_distinct sound.ids _,?_⟩
  intro a b handle ha hb
  simp only [Store.delete,Table.get?_erase] at ha hb
  split at ha
  · cases ha
  · split at hb
    · cases hb
    · exact sound.apart a b handle ha hb

end Store

end ToolDialogue
