import ToolDialogue.Proofs.Dialogue.Lifecycle
import ToolDialogue.Proofs.Session.Identifier

namespace ToolDialogue

variable {σ : Type}

namespace Session

variable {session : Session} {now : Instant}

def Steady (session : Session) : Prop :=
  session.phase = if session.missing = [] then .ready else .awaiting

theorem steady_start (tool : String) (schema : Schema) (now : Instant) : (start tool schema now).Steady := by
  simp only [Steady,start,List.isEmpty_iff]

theorem Steady.touch (steady : session.Steady) (now : Instant) : (session.touch now).Steady := steady

theorem Steady.add (steady : session.Steady) (name : String) (value : Json) (now : Instant) :
    (session.add name value now).Steady := by
  unfold Steady at steady
  simp only [Steady,Session.add,Bool.and_eq_true,List.isEmpty_iff,beq_iff_eq,steady]
  by_cases before : session.missing = []
  · simp [before]
  · rw [if_neg before]
    by_cases after : session.missing.filter (· ≠ name) = []
    · simp only [after]
      rfl
    · rw [if_neg after,if_neg (fun both => after both.1)]

theorem Steady.absorb (steady : session.Steady) (schema : Schema) (arguments : Arguments) (now : Instant) :
    (session.absorb schema arguments now).Steady := by
  have supplied : ∀ (names : List String) (s : Session), s.Steady →
      (names.foldl (addSupplied arguments now) s).Steady := by
    intro names
    induction names with
    | nil =>
      intro s steady
      exact steady
    | cons first rest ih =>
      intro s steady
      apply ih
      unfold addSupplied
      split
      · exact steady.add _ _ _
      · exact steady
  have optional : ∀ (parameters : List OptionalParameter) (s : Session), s.Steady →
      (parameters.foldl (addOptional arguments now) s).Steady := by
    intro parameters
    induction parameters with
    | nil =>
      intro s steady
      exact steady
    | cons first rest ih =>
      intro s steady
      exact ih _ (steady.add _ _ _)
  exact optional _ _ (supplied _ _ (steady.touch now))

theorem Steady.ready_iff (steady : session.Steady) : session.phase = .ready ↔ session.missing = [] := by
  rw [steady]
  split
  · next empty => simp [empty]
  · next more => simp [more]

theorem Steady.open (steady : session.Steady) : session.phase ≠ .completed := by
  rw [steady]
  split <;> decide

end Session

namespace Call

variable {call : Call}

def Generated (call : Call) : Prop := ∃ bits, call.fresh = Identifier.ofRandom bits

theorem id_tight (generated : call.Generated) : Text.Tight call.id := by
  obtain ⟨bits,made⟩ := generated
  have fresh : Text.Tight call.fresh := by
    rw [made]
    exact Identifier.tight_ofRandom bits
  rw [id_argument]
  split
  · split
    · exact fresh
    · next filled =>
      apply Text.tight_trim
      intro empty
      exact filled (Text.trim_eq_empty.mp empty)
  · exact fresh

end Call

namespace Store

variable {store : Store}

structure Standing (store : Store) : Prop where
  sound : store.Sound
  steady : ∀ id session, store.held? id = some session → session.Steady
  named : ∀ id session, store.held? id = some session → Text.Tight id

theorem empty_standing (limit : Option Span) : Standing ⟨[],[],limit⟩ := by
  refine ⟨empty_sound limit,?_,?_⟩
  all_goals intro id session held; cases held

theorem Standing.purge (standing : store.Standing) (now : Instant) : (store.purge now []).Standing := by
  have before {id : String} {session : Session} (held : (store.purge now []).held? id = some session) :
      store.held? id = some session := by
    rw [standing.sound.purge_held?] at held
    exact (Option.filter_eq_some_iff.mp held).1
  refine ⟨standing.sound.purge now,?_,?_⟩
  · intro id session held
    exact standing.steady id session (before held)
  · intro id session held
    exact standing.named id session (before held)

theorem Standing.merged (standing : store.Standing) (call : Call) : (call.merged store).Steady := by
  rw [call.merged_entered standing.sound,Call.entered]
  apply Session.Steady.absorb
  cases found : call.found? store with
  | none => exact Session.steady_start _ _ _
  | some session =>
    obtain ⟨wanted,-,held⟩ := Option.bind_eq_some_iff.mp found
    exact standing.steady wanted session (Option.filter_eq_some_iff.mp held).1

theorem Standing.run (standing : store.Standing) {call : Call} (generated : call.Generated) (job : Job σ)
    (world : σ) : (call.run job store world).store.Standing := by
  have held := call.run_held? job standing.sound world
  have kept {id : String} {session : Session}
      (there : (call.run job store world).store.held? id = some session) :
      (id = call.id ∧ session = call.merged store) ∨ store.held? id = some session := by
    rw [held] at there
    split at there
    · next same =>
      split at there
      · cases there
      · cases there
        exact .inl ⟨same,rfl⟩
    · exact .inr (Option.filter_eq_some_iff.mp there).1
  refine ⟨call.run_sound job standing.sound world,?_,?_⟩
  · intro id session there
    rcases kept there with ⟨-,rfl⟩ | before
    · exact standing.merged call
    · exact standing.steady id session before
  · intro id session there
    rcases kept there with ⟨rfl,-⟩ | before
    · exact Call.id_tight generated
    · exact standing.named id session before

end Store

namespace Conversation

variable {conversation : Conversation σ}

theorem run_standing (standing : conversation.store.Standing) (events : List (Event σ))
    (generated : ∀ call job, Event.call call job ∈ events → call.Generated) :
    (conversation.run events).store.Standing := by
  induction events generalizing conversation with
  | nil => exact standing
  | cons event rest ih =>
    have later : ∀ call job, Event.call call job ∈ rest → call.Generated := by
      intro call job member
      exact generated call job (List.mem_cons_of_mem _ member)
    cases event with
    | call call job =>
      have own := generated call job List.mem_cons_self
      exact ih (standing.run own job conversation.world) later
    | list now => exact ih (standing.purge now) later

end Conversation

-- A registered session asks for what the call that opened it asked for and is not collected
-- yet; it is ready when that is nothing; and it stands under one id, trimmed and not empty.
theorem registered_sessions_stand (limit : Option Span) (world : σ) (events : List (Event σ))
    (generated : ∀ call job, Event.call call job ∈ events → call.Generated) :
    let after := (Conversation.start ⟨[],[],limit⟩ world).run events
    ∀ id handle, Table.get? id after.store.registered = some handle →
      ∃ session opened, after.store.session? handle = some session ∧
        (after.callsOf handle).head? = some opened ∧ session.tool = opened.tool ∧
        session.missing = opened.schema.requiredNames.filter (fun name => !Table.has name session.collected) ∧
        (session.phase = .ready ↔ session.missing = []) ∧ session.phase ≠ .completed ∧
        Text.Tight id ∧ ∀ other, Table.get? other after.store.registered = some handle → other = id := by
  intro after id handle found
  have standing : after.store.Standing := Conversation.run_standing (Store.empty_standing limit) events generated
  have kept : after.Kept := (Conversation.Kept.start rfl rfl world).run events
  obtain ⟨session,here,held⟩ := standing.sound.held? found
  obtain ⟨opened,made⟩ := kept.made handle session here
  have steady := standing.steady id session held
  refine ⟨session,opened,here,made.begun,made.tool,?_,steady.ready_iff,steady.open,standing.named id session held,?_⟩
  · rw [made.missing]
    apply List.filter_congr
    intro name _
    rw [Table.has,made.collected,Option.not_isSome]
  · intro other again
    exact standing.sound.apart other id handle again found

theorem registered_session_stands_twice_required :
    let schema : Schema := ⟨[⟨"a","first"⟩,⟨"b","second"⟩,⟨"a","again"⟩],[⟨"b","third",.text "given"⟩]⟩
    let call : Call := ⟨"tool",schema,[("session_id",.text " s ")],Identifier.ofRandom 0,0⟩
    let job : Job Nat := fun _ runs => (.ok "done",runs + 1)
    let after := (Conversation.start ⟨[],[],none⟩ 0).run [.call call job]
    call.Generated ∧ Table.get? "s" after.store.registered = some ⟨0⟩ ∧
      ∃ session, after.store.session? ⟨0⟩ = some session ∧ session.missing = ["a","a"] ∧
        session.phase ≠ .ready := by
  intro schema call job after
  have generated : call.Generated := ⟨0,rfl⟩
  have found : Table.get? "s" after.store.registered = some ⟨0⟩ := by decide +kernel
  have all : ∀ other job', Event.call other job' ∈ [Event.call call job] → other.Generated := by
    intro other job' member
    cases List.mem_singleton.mp member
    exact generated
  obtain ⟨session,opened,here,-,-,-,ready,-⟩ := registered_sessions_stand none 0 [.call call job] all "s" ⟨0⟩ found
  have missing : session.missing = ["a","a"] := by
    cases here
    decide +kernel
  refine ⟨generated,found,session,here,missing,?_⟩
  intro phase
  rw [missing] at ready
  exact List.cons_ne_nil _ _ (ready.mp phase)

end ToolDialogue
