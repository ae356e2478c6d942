import ToolDialogue.Proofs.Dialogue.Lifecycle
import ToolDialogue.Proofs.Session.Identifier

namespace ToolDialogue

variable {σ : Type}

structure Json.Counts (value : Json) : Prop where
  present : value ≠ .null
  filled : ∀ text, value = .text text → Text.allBlank text = false

theorem supplied?_counts {arguments : Arguments} {name : String} {value : Json}
    (found : Table.get? name arguments = some value) (counts : value.Counts) :
    supplied? arguments name = some value := by
  unfold supplied?
  rw [found]
  cases value with
  | null => exact absurd rfl counts.present
  | text text => simp [counts.filled text rfl]
  | _ => rfl

theorem requestedId?_tight {arguments : Arguments} {id : String}
    (found : Table.get? sessionArgument arguments = some (.text id)) (tight : Text.Tight id) :
    requestedId? arguments = some id := by
  simp only [requestedId?,found,tight.trim]
  exact if_neg tight.filled

def answer (parameter id : String) (value : Json) : Arguments :=
  [(sessionArgument,.text id),(parameter,value)]

theorem requestedId?_answer {id : String} (tight : Text.Tight id) (parameter : String) (value : Json) :
    requestedId? (answer parameter id value) = some id := requestedId?_tight rfl tight

theorem supplied?_answer {value : Json} (counts : value.Counts) {name : String} (plain : name ≠ sessionArgument)
    (parameter id : String) :
    supplied? (answer parameter id value) name = if name = parameter then some value else none := by
  split
  · next same =>
    apply supplied?_counts _ counts
    rw [answer,Table.get?,if_neg plain,Table.get?,if_pos same]
  · next other =>
    simp [supplied?,answer,Table.get?,plain,other]

namespace Store

variable {store : Store} {handle : Handle} {name : String} {missing : List String}

def missing? (store : Store) (handle : Handle) : Option (List String) :=
  (store.session? handle).map (·.missing)

-- The session object does not ask for the name any more.
def Past (store : Store) (handle : Handle) (name : String) : Prop :=
  ∃ missing, store.missing? handle = some missing ∧ name ∉ missing

theorem missing?_beyond : store.missing? ⟨store.sessions.length⟩ = none := by
  simp [missing?,session?]

theorem purge_missing? (now : Instant) (locks : Locks) : (store.purge now locks).missing? handle = store.missing? handle := by
  simp [missing?]

end Store

namespace Call

variable {call : Call} {job : Job σ} {store : Store} {world : σ} {handle : Handle} {name : String}
  {missing rest : List String}

theorem merged_missing (here : store.missing? (call.resolve store).handle = some missing) :
    (call.merged store).missing =
      missing.filter fun name => (merged? call.schema call.arguments name).isNone := by
  have resolves := call.resolve_resolves store
  unfold merged
  generalize call.resolve store = resolved at resolves here ⊢
  cases resolves with
  | found asked kept =>
    obtain ⟨session,there,rfl⟩ := Option.map_eq_some_iff.mp here
    simp only [Store.purge_session?,there,Option.getD_some]
    rw [Session.absorb_missing]
  | opened unknown =>
    rw [Store.missing?_beyond] at here
    cases here

theorem run_missing? (call : Call) (job : Job σ) (placed : store.Placed) (world : σ) (handle : Handle) :
    (call.run job store world).store.missing? handle =
      if handle = (call.resolve store).handle then some (call.merged store).missing
      else store.missing? handle := by
  rw [Store.missing?,call.run_sessions job placed]
  split
  · split <;> rfl
  · rfl

theorem run_asks (job : Job σ) (world : σ) (more : (call.merged store).missing = name :: rest) :
    (call.run job store world).ranOn = none ∧ ∃ description,
      (call.run job store world).outcome = .awaiting (call.merged store).tool name description call.id := by
  have next : (call.merged store).nextMissing? = some name := by
    rw [Session.nextMissing?,more]
    rfl
  rw [run_finish,resolve_id,finish_awaiting next]
  exact ⟨rfl,_,rfl⟩

theorem run_runs (nothing : (call.merged store).missing = []) :
    (call.run job store world).ranOn.isSome ∧
      ∀ tool name description id, (call.run job store world).outcome ≠ .awaiting tool name description id := by
  have ran : (call.run job store world).ranOn.isSome := by
    rw [run_finish,finish_ranOn,if_pos nothing]
    rfl
  refine ⟨ran,?_⟩
  intro tool name description id asked
  have ended := call.run_ended job store world
  generalize call.run job store world = turn at ended ran asked
  cases ended with
  | awaiting => cases ran
  | completed => cases asked
  | failed => cases asked

theorem run_awaiting {tool description id : String}
    (asked : (call.run job store world).outcome = .awaiting tool name description id) :
    (∃ rest, (call.merged store).missing = name :: rest) ∧ (call.merged store).tool = tool ∧ call.id = id := by
  cases missing : (call.merged store).missing with
  | nil => exact absurd asked ((run_runs missing).2 tool name description id)
  | cons first rest =>
    obtain ⟨-,description,asks⟩ := run_asks job world missing
    rw [asks] at asked
    cases asked
    exact ⟨⟨rest,rfl⟩,rfl,rfl⟩

-- A name that a session is past is not asked for again, whatever call goes on with it.

theorem merged_past (past : store.Past handle name) (same : (call.resolve store).handle = handle) :
    name ∉ (call.merged store).missing := by
  subst same
  obtain ⟨missing,here,absent⟩ := past
  rw [merged_missing here]
  intro member
  exact absent (List.mem_of_mem_filter member)

theorem run_past (placed : store.Placed) (past : store.Past handle name) :
    (call.run job store world).store.Past handle name := by
  by_cases same : handle = (call.resolve store).handle
  · refine ⟨(call.merged store).missing,?_,merged_past past same.symm⟩
    rw [run_missing? call job placed,if_pos same]
  · obtain ⟨missing,here,absent⟩ := past
    refine ⟨missing,?_,absent⟩
    rw [run_missing? call job placed,if_neg same,here]

theorem run_not_asked (past : store.Past handle name) (same : (call.resolve store).handle = handle)
    (tool description id : String) :
    (call.run job store world).outcome ≠ .awaiting tool name description id := by
  intro asked
  obtain ⟨⟨rest,missing⟩,-,-⟩ := run_awaiting asked
  apply merged_past past same
  rw [missing]
  exact List.mem_cons_self

end Call

end ToolDialogue
