import ToolDialogue.Http.Routes
import ToolDialogue.Proofs.Session.Survivors

namespace ToolDialogue

namespace Table

variable {κ ν : Type}

theorem keys_split (table : Table κ ν) (keep : κ × ν → Bool) :
    (keys (table.filter keep) ++ keys (table.filter fun entry => !keep entry)).Perm table.keys := by
  rw [keys,keys,keys,← List.map_append]
  exact (List.filter_append_perm keep table).map _

end Table

namespace Store

def shown (store : Store) (now : Instant) : List String := Table.keys (store.list now []).1

def lapsed (store : Store) (now : Instant) : List String :=
  Table.keys (store.registered.filter fun entry => !(store.session? entry.2).any (store.keeps now))

-- How the counts stand to a listing of the same moment. Counting purges nothing: what has lapsed
-- counts until a visit, and a listing is one, takes it away.
structure Counted (store : Store) (now : Instant) : Prop where
  idle : ∀ id, id ∈ store.lapsed now ↔ ∃ limit session, store.idleLimit = some limit ∧
    store.held? id = some session ∧ session.updatedAt < now - limit
  distinct : (store.shown now ++ store.lapsed now).Nodup
  size : store.size = (store.list now []).1.length + (store.lapsed now).length
  isEmpty : store.isEmpty = true ↔ (store.list now []).1 = [] ∧ store.lapsed now = []
  contains : ∀ id, store.contains id = true ↔ id ∈ store.shown now ∨ id ∈ store.lapsed now
  size_agrees : store.size = (store.list now []).1.length ↔ store.lapsed now = []
  isEmpty_agrees : (store.isEmpty = true ↔ (store.list now []).1 = []) ↔
    store.lapsed now = [] ∨ store.shown now ≠ []
  contains_agrees : ∀ id, (store.contains id = true ↔ id ∈ store.shown now) ↔ id ∉ store.lapsed now
  unlimited : store.idleLimit = none → store.lapsed now = []
  visited : ∀ visit, (store.visited now [] visit).lapsed now = []
  health : ∀ server : Server, server.store = store → (server.health now).member? "activeSessions" =
    some (.nat ((store.list now []).1.length + (store.lapsed now).length))

variable {store : Store} {now : Instant}

theorem Sound.purge_registered (sound : store.Sound) (now : Instant) : (store.purge now []).registered =
    store.registered.filter fun entry => (store.session? entry.2).any (store.keeps now) := by
  cases limited : store.idleLimit with
  | none =>
    rw [purge_unlimited limited,eq_comm,List.filter_eq_self]
    intro entry member
    obtain ⟨session,here⟩ := Option.isSome_iff_exists.mp (sound.present member)
    simp [here,keeps,limited]
  | some limit =>
    simp only [Store.purge,limited]
    apply List.filter_congr
    intro entry member
    obtain ⟨session,here⟩ := Option.isSome_iff_exists.mp (sound.present member)
    simp [isLive,here,keeps,limited]

theorem Sound.shown_eq (sound : store.Sound) (now : Instant) :
    store.shown now = Table.keys (store.purge now []).registered :=
  (sound.purge now).snapshot_keys

theorem Sound.shown_lapsed (sound : store.Sound) (now : Instant) :
    (store.shown now ++ store.lapsed now).Perm (Table.keys store.registered) := by
  rw [sound.shown_eq,sound.purge_registered]
  exact Table.keys_split ..

theorem Sound.mem_lapsed (sound : store.Sound) {id : String} : id ∈ store.lapsed now ↔ ∃ limit session,
    store.idleLimit = some limit ∧ store.held? id = some session ∧ session.updatedAt < now - limit := by
  have entry : id ∈ store.lapsed now ↔ ∃ handle, Table.get? id store.registered = some handle ∧
      (store.session? handle).any (store.keeps now) = false := by
    simp [lapsed,Table.keys,Table.mem_iff_get? sound.ids]
  rw [entry]
  constructor
  · rintro ⟨handle,found,dropped⟩
    obtain ⟨session,here,held⟩ := sound.held? found
    have old : ¬store.keeps now session = true := by simpa [here] using dropped
    rw [keeps_iff] at old
    obtain ⟨limit,broken⟩ := not_forall.mp old
    obtain ⟨limited,idle⟩ := Classical.not_imp.mp broken
    exact ⟨limit,session,limited,held,Int.not_le.mp idle⟩
  · rintro ⟨limit,session,limited,held,idle⟩
    obtain ⟨handle,found,here⟩ := Option.bind_eq_some_iff.mp held
    refine ⟨handle,found,?_⟩
    rw [here,Option.any_some,Bool.eq_false_iff,ne_eq,keeps_iff]
    exact fun kept => Int.not_le.mpr idle (kept limit limited)

theorem Sound.visited_lapsed (sound : store.Sound) (visit : Visit) : (store.visited now [] visit).lapsed now = [] := by
  rw [List.eq_nil_iff_forall_not_mem]
  intro id listed
  obtain ⟨limit,session,limited,held,idle⟩ := (visited_sound sound now [] visit).mem_lapsed.mp listed
  rw [show (store.visited now [] visit).idleLimit = store.idleLimit from
    store.happened_idleLimit (.visit now [] visit)] at limited
  have purged (held : (store.purge now []).held? id = some session) : False := by
    rw [sound.purge_held?,Option.filter_eq_some_iff,keeps_iff] at held
    exact Int.not_le.mpr idle (held.2 limit limited)
  have begun {tool : String} {schema : Schema} (same : Session.start tool schema now = session) : False := by
    subst same
    exact Int.not_le.mpr idle (Int.sub_le_self now (Int.natCast_nonneg limit))
  have registered {other tool : String} {schema : Schema}
      (held : ((store.purge now []).register other (.start tool schema now)).2.held? id = some session) : False := by
    rw [(sound.purge now).register_held?] at held
    split at held
    · exact begun (Option.some.inj held)
    · exact purged held
  cases visit with
  | create other tool schema => exact registered held
  | getOrCreate other tool schema =>
    rw [visited] at held
    rcases store.getOrCreate_cases other tool schema now [] with ⟨found,-,same⟩ | ⟨-,same⟩
    · rw [same] at held
      exact purged held
    · rw [same] at held
      exact registered held
  | get other => exact purged held
  | list => exact purged held

theorem Sound.counted (sound : store.Sound) (now : Instant) : store.Counted now := by
  have parts := sound.shown_lapsed now
  have distinct := parts.nodup_iff.mpr sound.ids
  have shown : (store.shown now).length = (store.list now []).1.length := List.length_map _
  have none : store.shown now = [] ↔ (store.list now []).1 = [] := List.map_eq_nil_iff
  have size : store.size = (store.list now []).1.length + (store.lapsed now).length := by
    rw [← shown,← List.length_append,parts.length_eq]
    exact (List.length_map _).symm
  have empty : store.isEmpty = true ↔ (store.list now []).1 = [] ∧ store.lapsed now = [] := by
    rw [Store.isEmpty,List.isEmpty_iff,← List.length_eq_zero_iff]
    change store.size = 0 ↔ _
    rw [size,Nat.add_eq_zero_iff,List.length_eq_zero_iff,List.length_eq_zero_iff]
  have contains (id : String) : store.contains id = true ↔ id ∈ store.shown now ∨ id ∈ store.lapsed now := by
    rw [← List.mem_append,parts.mem_iff,Table.mem_keys]
    rfl
  refine ⟨fun _ => sound.mem_lapsed,distinct,size,empty,contains,?_,?_,?_,?_,sound.visited_lapsed,?_⟩
  · rw [size,Nat.add_eq_left,List.length_eq_zero_iff]
  · rw [empty,ne_eq,none]
    tauto
  · intro id
    have apart : id ∈ store.shown now → id ∉ store.lapsed now :=
      fun here there => List.disjoint_of_nodup_append distinct here there
    rw [contains]
    tauto
  · intro unlimited
    rw [List.eq_nil_iff_forall_not_mem]
    intro id listed
    obtain ⟨limit,-,limited,-⟩ := sound.mem_lapsed.mp listed
    rw [unlimited] at limited
    cases limited
  · rintro server rfl
    rw [← size]
    rfl

theorem store_counts (limit : Option Span) (past : List Happening) (now : Instant) :
    (grown ⟨[],[],limit⟩ past).Counted now :=
  (grown_sound (empty_sound limit) past).counted now

theorem idle_session_counted :
    let server : Server := { Server.start { Config.standard with idleSeconds := some 60 } ⟨[],[]⟩ with
      store := grown (.withIdleLimit 60) [.visit 0 [] (.create "a" "calculate" Calculate.schema)] }
    let now : Instant := 61 * second
    (server.store.list now []).1.length = 0 ∧ server.store.size = 1 ∧ (server.store.list now []).1 = [] ∧
      server.store.isEmpty = false ∧ "a" ∉ Table.keys (server.store.list now []).1 ∧
      server.store.contains "a" = true ∧ (server.health now).member? "activeSessions" = some (.nat 1) :=
  ⟨rfl,rfl,rfl,rfl,by decide,rfl,rfl⟩

end Store

end ToolDialogue
