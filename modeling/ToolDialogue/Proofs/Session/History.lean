import ToolDialogue.Proofs.Session.Changes
import ToolDialogue.Proofs.Session.Survivors

namespace ToolDialogue

inductive Doing where
  | visit (now : Instant) (locks : Locks) (visit : Visit)
  | delete (id : String)
  | change (handle : Handle) (now : Instant) (change : Change)

def Doing.happening : Doing → Happening
  | .visit now locks way => .visit now locks way
  | .delete id => .delete id
  | .change handle now step => .change handle fun session => session.change now step

def Visit.asks? : Visit → Option (String × Schema)
  | .create _ tool schema => some (tool,schema)
  | .getOrCreate _ tool schema => some (tool,schema)
  | _ => none

namespace Store

def done (store : Store) (doings : List Doing) : Store := store.grown (doings.map Doing.happening)

def Began (past : List Doing) (session : Session) : Prop :=
  ∃ begun locks visit tool schema changes, .visit begun locks visit ∈ past ∧ visit.asks? = some (tool,schema) ∧
    session = (Session.start tool schema begun).after changes

variable {store : Store} {past : List Doing} {handle : Handle} {session : Session}

theorem visited_session? {now : Instant} {locks : Locks} {visit : Visit}
    (here : (store.visited now locks visit).session? handle = some session) :
    store.session? handle = some session ∨
      ∃ tool schema, visit.asks? = some (tool,schema) ∧ session = .start tool schema now := by
  have registered {id tool : String} {schema : Schema} (asked : visit.asks? = some (tool,schema))
      (here : ((store.purge now locks).register id (.start tool schema now)).2.session? handle = some session) :
      store.session? handle = some session ∨
        ∃ tool schema, visit.asks? = some (tool,schema) ∧ session = .start tool schema now := by
    rw [register_session?] at here
    split at here
    · exact .inr ⟨tool,schema,asked,(Option.some.inj here).symm⟩
    · exact .inl (by rwa [purge_session?] at here)
  have purged (here : (store.purge now locks).session? handle = some session) :
      store.session? handle = some session := by rwa [purge_session?] at here
  cases visit with
  | create id tool schema => exact registered rfl here
  | getOrCreate id tool schema =>
    rw [visited] at here
    rcases store.getOrCreate_cases id tool schema now locks with ⟨found,-,same⟩ | ⟨-,same⟩
    · rw [same] at here
      exact .inl (purged here)
    · rw [same] at here
      exact registered rfl here
  | get id => exact .inl (purged here)
  | list => exact .inl (purged here)

theorem happened_began {doing : Doing} (listed : doing ∈ past)
    (began : ∀ handle session, store.session? handle = some session → Began past session)
    (here : (store.happened doing.happening).session? handle = some session) : Began past session := by
  cases doing with
  | visit now locks visit =>
    rcases visited_session? here with before | ⟨tool,schema,asked,rfl⟩
    · exact began handle session before
    · exact ⟨now,locks,visit,tool,schema,[],listed,asked,rfl⟩
  | delete id => exact began handle session here
  | change target now change =>
    rw [Doing.happening,happened,modify_session?] at here
    split at here
    · obtain ⟨before,there,rfl⟩ := Option.map_eq_some_iff.mp here
      obtain ⟨begun,locks,visit,tool,schema,changes,listed,asked,rfl⟩ := began handle before there
      refine ⟨begun,locks,visit,tool,schema,changes ++ [(now,change)],listed,asked,?_⟩
      rw [Session.after_concat]
    · exact began handle session here

theorem grown_began (all : List Doing) (listed : ∀ doing ∈ all, doing ∈ past)
    (began : ∀ handle session, store.session? handle = some session → Began past session)
    (here : (store.done all).session? handle = some session) : Began past session := by
  induction all generalizing store with
  | nil => exact began handle session here
  | cons doing rest ih =>
    obtain ⟨first,later⟩ := List.forall_mem_cons.mp listed
    exact ih later (fun _ _ => happened_began first began) here

theorem done_began (limit : Option Span) (here : (done ⟨[],[],limit⟩ past).session? handle = some session) :
    Began past session := by
  refine grown_began past (fun _ member => member) ?_ here
  intro handle session none
  simp [session?] at none

theorem done_sound (limit : Option Span) (past : List Doing) : (done ⟨[],[],limit⟩ past).Sound :=
  grown_sound (empty_sound limit) _

theorem Began.missing (began : Began past session) : ∃ locks visit schema,
    .visit session.createdAt locks visit ∈ past ∧ visit.asks? = some (session.tool,schema) ∧
      session.missing = schema.requiredNames.filter (fun name => !Table.has name session.collected) := by
  obtain ⟨begun,locks,visit,tool,schema,changes,listed,asked,rfl⟩ := began
  have follows := Session.after_follows tool schema begun changes
  refine ⟨locks,visit,schema,?_,?_,follows.missing.trans ?_⟩
  · rwa [follows.createdAt]
  · rwa [follows.tool]
  · apply List.filter_congr
    intro name _
    rw [Table.has,follows.collected,Option.not_isSome]

theorem Began.keys (began : Began past session) : (Table.keys session.collected).Nodup := by
  obtain ⟨begun,-,-,tool,schema,changes,-,-,rfl⟩ := began
  exact (Session.after_follows tool schema begun changes).keys

end Store

end ToolDialogue
