import ToolDialogue.Proofs.Session.Absorb
import ToolDialogue.Proofs.Session.Registry

namespace ToolDialogue

namespace Call

def id (call : Call) : String := (requestedId? call.arguments).getD call.fresh

def gives? (call : Call) (name : String) : Option Json :=
  merged? call.schema call.arguments name

def latest? (calls : List Call) (name : String) : Option Json :=
  calls.reverse.findSome? (·.gives? name)

theorem latest?_append (calls : List Call) (call : Call) (name : String) :
    latest? (calls ++ [call]) name = (call.gives? name).or (latest? calls name) := by
  cases given : call.gives? name <;> simp [latest?,given]

theorem latest?_isSome (calls : List Call) (name : String) :
    (latest? calls name).isSome ↔ ∃ call ∈ calls, (call.gives? name).isSome := by
  simp [latest?,List.findSome?_isSome_iff]

end Call

namespace Session

-- A session is what its calls have made it: the first one names the tool and what
-- is asked for, and each of them takes away from that and adds values.
structure MadeBy (session : Session) (first : Call) (calls : List Call) : Prop where
  begun : calls.head? = some first
  tool : session.tool = first.tool
  missing : session.missing =
    first.schema.requiredNames.filter fun name => (Call.latest? calls name).isNone
  collected : ∀ name, Table.get? name session.collected = Call.latest? calls name

variable {session : Session} {first : Call} {calls : List Call}

theorem MadeBy.opened (call : Call) :
    ((start call.tool call.schema call.now).absorb call.schema call.arguments call.now).MadeBy
      call [call] where
  begun := rfl
  tool := absorb_tool _ _ _
  missing := by
    rw [absorb_missing]
    refine List.filter_congr fun name _ => ?_
    simp [Call.latest?,Call.gives?]
  collected name := by
    rw [absorb_collected]
    cases given : merged? call.schema call.arguments name <;>
      simp [Call.latest?,Call.gives?,given,start,Table.get?]

theorem MadeBy.absorbed (made : session.MadeBy first calls) (call : Call) :
    (session.absorb call.schema call.arguments call.now).MadeBy first (calls ++ [call]) where
  begun := by simp [made.begun]
  tool := (absorb_tool _ _ _).trans made.tool
  missing := by
    rw [absorb_missing,made.missing,List.filter_filter]
    refine List.filter_congr fun name _ => ?_
    rw [Call.latest?_append,Call.gives?]
    cases merged? call.schema call.arguments name <;> simp
  collected name := by
    rw [absorb_collected,made.collected,Call.latest?_append,Call.gives?]

theorem MadeBy.completed (made : session.MadeBy first calls) (now : Instant) :
    (session.complete now).MadeBy first calls := ⟨made.begun,made.tool,made.missing,made.collected⟩

end Session

def Outcome.isCompleted : Outcome → Bool
  | .completed _ _ => true
  | _ => false

namespace Call

variable {σ : Type} {call : Call} {store : Store}

inductive Resolves (call : Call) (store : Store) : Resolved → Prop where
  | found {handle : Handle} (asked : requestedId? call.arguments = some call.id)
      (kept : Table.get? call.id (store.purge call.now []).registered = some handle) :
      Resolves call store ⟨call.id,handle,store.purge call.now []⟩
  | opened (unknown : requestedId? call.arguments = none ∨
        Table.get? call.id (store.purge call.now []).registered = none) :
      Resolves call store ⟨call.id,⟨store.sessions.length⟩,
        ((store.purge call.now []).register call.id (.start call.tool call.schema call.now)).2⟩

theorem resolve_resolves (call : Call) (store : Store) : call.Resolves store (call.resolve store) := by
  unfold resolve
  cases asked : requestedId? call.arguments with
  | none =>
    have named : call.id = call.fresh := by simp [id,asked]
    simpa [Store.create,Store.register,named] using Resolves.opened (.inl asked)
  | some wanted =>
    have named : call.id = wanted := by simp [id,asked]
    subst named
    cases kept : Table.get? call.id (store.purge call.now []).registered with
    | none =>
      simpa [Store.getOrCreate,kept,Store.register] using Resolves.opened (.inr kept)
    | some handle => simpa [Store.getOrCreate,kept] using Resolves.found asked kept

theorem resolve_id (call : Call) (store : Store) : (call.resolve store).id = call.id := by
  have resolves := call.resolve_resolves store
  generalize call.resolve store = resolved at resolves ⊢
  cases resolves <;> rfl

theorem resolve_others (call : Call) (store : Store) {handle : Handle}
    (other : handle ≠ (call.resolve store).handle) :
    (call.resolve store).store.session? handle = store.session? handle := by
  have resolves := call.resolve_resolves store
  generalize call.resolve store = resolved at resolves other ⊢
  cases resolves with
  | found asked kept => simp
  | opened unknown => simp [Store.register_session?,other]

theorem resolve_placed (call : Call) {store : Store} (placed : store.Placed) :
    (call.resolve store).store.Placed ∧
      (call.resolve store).handle.place < (call.resolve store).store.sessions.length ∧
      store.sessions.length ≤ (call.resolve store).store.sessions.length := by
  have resolves := call.resolve_resolves store
  generalize call.resolve store = resolved at resolves ⊢
  cases resolves with
  | found asked kept =>
    refine ⟨Store.purge_placed placed,?_,by simp⟩
    simpa using placed _ (Store.purge_registered (Table.mem_of_get? kept))
  | opened unknown =>
    exact ⟨Store.register_placed (Store.purge_placed placed) _ _,by simp [Store.register],
      by simp [Store.register]⟩

def merged (call : Call) (store : Store) : Session :=
  (((call.resolve store).store.session? (call.resolve store).handle).getD
    (.start call.tool call.schema call.now)).absorb call.schema call.arguments call.now

theorem run_finish (call : Call) (job : Job σ) (store : Store) (world : σ) :
    call.run job store world = call.finish job (call.resolve store).id (call.resolve store).handle
      (call.merged store) (call.resolve store).store world := rfl

variable {job : Job σ} {id : String} {handle : Handle} {session : Session} {world after : σ}

theorem finish_awaiting {parameter : String} (missing : session.nextMissing? = some parameter) :
    call.finish job id handle session store world =
      ⟨.awaiting session.tool parameter ((call.schema.description? parameter).getD parameter) id,
        store.modify handle fun _ => session,world,none⟩ := by
  simp [finish,missing]

theorem finish_completed {output : String} (nothing : session.nextMissing? = none)
    (done : job session.collected world = (.ok output,after)) :
    call.finish job id handle session store world =
      ⟨.completed output id,(store.modify handle fun _ => session.complete call.now).delete id,after,
        some session.collected⟩ := by
  simp [finish,nothing,done]

theorem finish_failed {error : ToolError} (nothing : session.nextMissing? = none)
    (done : job session.collected world = (.error error,after)) :
    call.finish job id handle session store world =
      ⟨.failed session.tool error.message id,store.modify handle fun _ => session,after,
        some session.collected⟩ := by
  simp [finish,nothing,done]

theorem finish_ranOn : (call.finish job id handle session store world).ranOn =
    if session.missing = [] then some session.collected else none := by
  cases missing : session.missing with
  | cons parameter rest => simp [finish,Session.nextMissing?,missing]
  | nil =>
    rcases done : job session.collected world with ⟨error | output,after⟩ <;>
      simp [finish,Session.nextMissing?,missing,done]

theorem run_store (call : Call) (job : Job σ) (store : Store) (world : σ) :
    (call.run job store world).store =
      if (call.run job store world).outcome.isCompleted then
        ((call.resolve store).store.modify (call.resolve store).handle fun _ =>
          (call.merged store).complete call.now).delete call.id
      else (call.resolve store).store.modify (call.resolve store).handle fun _ =>
        call.merged store := by
  rw [run_finish,← resolve_id call store]
  cases missing : (call.merged store).nextMissing? with
  | some parameter => simp [finish_awaiting missing,Outcome.isCompleted]
  | none =>
    rcases done : job (call.merged store).collected world with ⟨error | output,after⟩
    · simp [finish_failed missing done,Outcome.isCompleted]
    · simp [finish_completed missing done,Outcome.isCompleted]

theorem run_idleLimit (call : Call) (job : Job σ) (store : Store) (world : σ) :
    (call.run job store world).store.idleLimit = store.idleLimit := by
  have resolves := call.resolve_resolves store
  have resolved : (call.resolve store).store.idleLimit = store.idleLimit := by
    generalize call.resolve store = resolved at resolves ⊢
    cases resolves <;> simp [Store.register]
  rw [run_store]
  split <;> simpa [Store.delete] using resolved

theorem run_sessions (call : Call) (job : Job σ) {store : Store} (placed : store.Placed) (world : σ)
    (handle : Handle) :
    (call.run job store world).store.session? handle =
      if handle = (call.resolve store).handle then
        some (if (call.run job store world).outcome.isCompleted then
          (call.merged store).complete call.now else call.merged store)
      else store.session? handle := by
  obtain ⟨session,here⟩ := Store.session?_of_placed (call.resolve_placed placed).2.1
  by_cases same : handle = (call.resolve store).handle
  · subst same
    rw [run_store]
    split <;> simp [Store.modify_session?,here]
  · rw [run_store]
    split <;> simp [Store.modify_session?,same,resolve_others call store same]

end Call

structure Record where
  call : Call
  handle : Handle
  outcome : Outcome
  deriving Repr

inductive Event (σ : Type) where
  | call (call : Call) (job : Job σ)
  | list (now : Instant)

structure Conversation (σ : Type) where
  store : Store
  world : σ
  records : List Record

namespace Conversation

variable {σ : Type}

def start (store : Store) (world : σ) : Conversation σ := ⟨store,world,[]⟩

def step (before : Conversation σ) : Event σ → Conversation σ
  | .call call job =>
    let turn := call.run job before.store before.world
    ⟨turn.store,turn.world,
      before.records ++ [⟨call,(call.resolve before.store).handle,turn.outcome⟩]⟩
  | .list now => { before with store := (before.store.list now []).2 }

def run (before : Conversation σ) (events : List (Event σ)) : Conversation σ := events.foldl step before

theorem run_append (before : Conversation σ) (events : List (Event σ)) (event : Event σ) :
    before.run (events ++ [event]) = (before.run events).step event := by simp [run]

def callsOf (conversation : Conversation σ) (handle : Handle) : List Call :=
  (conversation.records.filter (·.handle = handle)).map (·.call)

-- Sessions are what the recorded calls have made them. No object is reached by an
-- id or by a record before it exists.
structure Kept (conversation : Conversation σ) : Prop where
  made : ∀ handle session, conversation.store.session? handle = some session →
    ∃ first, session.MadeBy first (conversation.callsOf handle)
  placed : conversation.store.Placed
  recorded : ∀ record ∈ conversation.records,
    record.handle.place < conversation.store.sessions.length

variable {conversation : Conversation σ}

theorem callsOf_step (call : Call) (job : Job σ) (handle : Handle) :
    (conversation.step (.call call job)).callsOf handle =
      if handle = (call.resolve conversation.store).handle then conversation.callsOf handle ++ [call]
      else conversation.callsOf handle := by
  by_cases here : handle = (call.resolve conversation.store).handle
  · simp [callsOf,step,here]
  · simp [callsOf,step,here,Ne.symm here]

theorem Kept.unrecorded (kept : conversation.Kept) :
    conversation.callsOf ⟨conversation.store.sessions.length⟩ = [] := by
  have none : ∀ record ∈ conversation.records,
      record.handle ≠ ⟨conversation.store.sessions.length⟩ := by
    intro record member same
    have bound := kept.recorded record member
    rw [same] at bound
    exact Nat.lt_irrefl _ bound
  simpa [callsOf] using none

theorem Kept.merged (kept : conversation.Kept) (call : Call) :
    ∃ first, (call.merged conversation.store).MadeBy first
      (conversation.callsOf (call.resolve conversation.store).handle ++ [call]) := by
  have resolves := call.resolve_resolves conversation.store
  unfold Call.merged
  generalize call.resolve conversation.store = resolved at resolves ⊢
  cases resolves with
  | @found handle asked found =>
    obtain ⟨session,here⟩ := Store.session?_of_placed (kept.placed _ (Store.purge_registered (Table.mem_of_get? found)))
    obtain ⟨first,made⟩ := kept.made handle session here
    exact ⟨first,by simpa [here] using made.absorbed call⟩
  | opened unknown =>
    refine ⟨call,?_⟩
    have opened := Session.MadeBy.opened call
    simpa [Store.register_session?,kept.unrecorded] using opened

theorem Kept.step (kept : conversation.Kept) (event : Event σ) : (conversation.step event).Kept := by
  cases event with
  | list now =>
    refine ⟨?_,Store.purge_placed kept.placed,?_⟩
    · simpa [Conversation.step,Store.list,callsOf] using kept.made
    · simpa [Conversation.step,Store.list] using kept.recorded
  | call call job =>
    obtain ⟨placed,here,grown⟩ := call.resolve_placed kept.placed
    have length : (call.run job conversation.store conversation.world).store.sessions.length =
        (call.resolve conversation.store).store.sessions.length := by
      rw [Call.run_store]; split <;> simp
    refine ⟨?_,?_,?_⟩
    · intro handle session found
      rw [callsOf_step]
      simp only [Conversation.step,Call.run_sessions call job kept.placed] at found
      split at found
      · rename_i same
        subst same
        obtain ⟨first,made⟩ := kept.merged call
        split at found
        · cases found; exact ⟨first,by simpa using made.completed _⟩
        · cases found; exact ⟨first,by simpa using made⟩
      · rename_i other
        simpa [other] using kept.made handle session found
    · rw [Conversation.step,Call.run_store]
      dsimp only
      split
      · exact Store.delete_placed (Store.modify_placed placed _ _) _
      · exact Store.modify_placed placed _ _
    · intro record member
      change record.handle.place < (call.run job conversation.store conversation.world).store.sessions.length
      rw [length]
      rcases List.mem_append.mp member with old | new
      · exact Nat.lt_of_lt_of_le (kept.recorded record old) grown
      · cases List.mem_singleton.mp new; exact here

theorem Kept.run (kept : conversation.Kept) (events : List (Event σ)) :
    (conversation.run events).Kept := by
  induction events generalizing conversation with
  | nil => exact kept
  | cons event rest ih => exact ih (kept.step event)

theorem Kept.start {store : Store} (none : store.sessions = []) (unregistered : store.registered = [])
    (world : σ) : (start store world).Kept := by
  refine ⟨?_,?_,?_⟩
  · intro handle session found
    simp [Conversation.start,Store.session?,none] at found
  · simp [Conversation.start,Store.Placed,unregistered]
  · simp [Conversation.start]

end Conversation

end ToolDialogue
