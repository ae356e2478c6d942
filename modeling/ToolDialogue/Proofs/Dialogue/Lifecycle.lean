import Mathlib.Data.List.TakeWhile
import ToolDialogue.Proofs.Dialogue.Conversation
import ToolDialogue.Proofs.Session.Held

namespace ToolDialogue

theorem Text.trim_eq_empty {value : String} : Text.trim value = "" ↔ Text.allBlank value = true := by
  rw [Text.trim,String.ofList_eq_empty_iff,Text.trimmed,List.reverse_eq_nil_iff,List.dropWhile_eq_nil_iff,
    Text.allBlank,List.all_eq_true]
  constructor
  · intro blank c member
    rw [← List.takeWhile_append_dropWhile (p := Text.isBlank) (l := value.toList)] at member
    rcases List.mem_append.mp member with front | back
    · exact List.mem_takeWhile_imp front
    · exact blank c (by simpa using back)
  · intro blank c member
    exact blank c ((List.dropWhile_suffix _).subset (by simpa using member))

variable {σ : Type}

namespace Call

variable {call : Call} {job : Job σ} {store : Store} {world : σ} {turn : Turn σ}

def found? (call : Call) (store : Store) : Option Session :=
  (requestedId? call.arguments).bind fun id => (store.held? id).filter (store.keeps call.now)

def entered (call : Call) (store : Store) : Session :=
  (call.found? store).getD (.start call.tool call.schema call.now)

theorem found?_asked {wanted : String} (asked : requestedId? call.arguments = some wanted) :
    call.found? store = (store.held? call.id).filter (store.keeps call.now) := by
  have named : call.id = wanted := by simp [id,asked]
  rw [found?,asked,Option.bind_some,named]

theorem found?_unasked (unasked : requestedId? call.arguments = none) : call.found? store = none := by
  rw [found?,unasked,Option.bind_none]

theorem resolve_sound (call : Call) (sound : store.Sound) :
    (call.resolve store).store.Sound ∧
      Table.get? call.id (call.resolve store).store.registered = some (call.resolve store).handle := by
  have resolves := call.resolve_resolves store
  generalize call.resolve store = resolved at resolves ⊢
  cases resolves with
  | found asked kept => exact ⟨sound.purge call.now,kept⟩
  | opened unknown =>
    refine ⟨(sound.purge call.now).register _ _,?_⟩
    simp [Store.register_get?]

theorem resolve_held? (call : Call) (sound : store.Sound) (other : String) :
    (call.resolve store).store.held? other =
      if other = call.id then some (call.entered store)
      else (store.held? other).filter (store.keeps call.now) := by
  have resolves := call.resolve_resolves store
  generalize call.resolve store = resolved at resolves ⊢
  cases resolves with
  | @found handle asked kept =>
    obtain ⟨session,-,held⟩ := (sound.purge call.now).held? kept
    dsimp only
    split
    · next same =>
      rw [same,held,entered,found?_asked asked,← sound.purge_held?,held]
      rfl
    · exact sound.purge_held? call.now other
  | opened unknown =>
    dsimp only
    rw [(sound.purge call.now).register_held?,sound.purge_held?]
    have none : call.found? store = none := by
      rcases unknown with unasked | absent
      · exact found?_unasked unasked
      · cases asked : requestedId? call.arguments with
        | none => exact found?_unasked asked
        | some wanted => rw [found?_asked asked,← sound.purge_held?,Store.held?,absent,Option.bind_none]
    rw [entered,none]
    rfl

theorem merged_entered (call : Call) (sound : store.Sound) :
    call.merged store = (call.entered store).absorb call.schema call.arguments call.now := by
  obtain ⟨resolved,registered⟩ := call.resolve_sound sound
  obtain ⟨session,here,held⟩ := resolved.held? registered
  rw [call.resolve_held? sound,if_pos rfl] at held
  cases held
  rw [merged,here]
  rfl

theorem merged_get? (call : Call) (sound : store.Sound) (name : String) :
    Table.get? name (call.merged store).collected =
      (call.gives? name).or ((call.found? store).bind fun session => Table.get? name session.collected) := by
  rw [merged_entered call sound,Session.absorb_collected,gives?,entered]
  cases call.found? store <;> rfl

theorem run_held? (call : Call) (job : Job σ) (sound : store.Sound) (world : σ) (other : String) :
    (call.run job store world).store.held? other =
      if other = call.id then
        if (call.run job store world).outcome.isCompleted then none else some (call.merged store)
      else (store.held? other).filter (store.keeps call.now) := by
  obtain ⟨resolved,registered⟩ := call.resolve_sound sound
  have entered := call.resolve_held? sound
  have own := entered call.id
  rw [if_pos rfl] at own
  rw [run_store]
  split
  · rw [Store.delete_held?]
    split
    · rfl
    · next apart => rw [resolved.modify_held? registered,if_neg apart,entered,if_neg apart]
  · rw [resolved.modify_held? registered,own]
    split
    · rfl
    · next apart => rw [entered,if_neg apart]

theorem run_sound (call : Call) (job : Job σ) (sound : store.Sound) (world : σ) :
    (call.run job store world).store.Sound := by
  obtain ⟨resolved,-⟩ := call.resolve_sound sound
  rw [run_store]
  split
  · exact (resolved.modify _ _).delete _
  · exact resolved.modify _ _

theorem settle_alone (call : Call) (sound : store.Sound) (later : List Interlude) :
    call.settle store ((fun store => store) :: later) = call.resolve store := by
  obtain ⟨-,registered⟩ := call.resolve_sound sound
  have current : (call.resolve store).store.isCurrent (call.resolve store).id (call.resolve store).handle = true := by
    rw [resolve_id,Store.isCurrent,registered,beq_self_eq_true]
  simp [settle,current]

theorem id_argument (call : Call) : call.id =
    match Table.get? sessionArgument call.arguments with
    | some (.text value) => if Text.allBlank value then call.fresh else Text.trim value
    | _ => call.fresh := by
  unfold id requestedId?
  cases Table.get? sessionArgument call.arguments with
  | none => rfl
  | some given =>
    cases given with
    | text value =>
      by_cases blank : Text.allBlank value = true
      · simp [blank,Text.trim_eq_empty.mpr blank]
      · have filled : Text.trim value ≠ "" := fun empty => blank (Text.trim_eq_empty.mp empty)
        simp [blank,filled]
    | _ => rfl

inductive Ended (call : Call) (job : Job σ) (store : Store) (world : σ) : Turn σ → Prop where
  | awaiting {tool parameter description : String} {after : Store} :
      Ended call job store world ⟨.awaiting tool parameter description call.id,after,world,none⟩
  | completed {output : String} {after : Store} {left : σ}
      (done : job (call.merged store).collected world = (.ok output,left)) :
      Ended call job store world ⟨.completed output call.id,after,left,some (call.merged store).collected⟩
  | failed {tool : String} {error : ToolError} {after : Store} {left : σ}
      (done : job (call.merged store).collected world = (.error error,left)) :
      Ended call job store world ⟨.failed tool error.message call.id,after,left,some (call.merged store).collected⟩

theorem run_ended (call : Call) (job : Job σ) (store : Store) (world : σ) :
    call.Ended job store world (call.run job store world) := by
  rw [run_finish,resolve_id]
  cases missing : (call.merged store).nextMissing? with
  | some parameter => rw [finish_awaiting missing]; exact .awaiting
  | none =>
    rcases done : job (call.merged store).collected world with ⟨error | output,left⟩
    · rw [finish_failed missing done]; exact .failed done
    · rw [finish_completed missing done]; exact .completed done

-- One call from its session to its outcome. This is about calls that the program goes
-- on with: it stops in the purge where the idle limit overruns the calendar.
structure Lifecycle (call : Call) (job : Job σ) (store : Store) (world : σ) (turn : Turn σ) : Prop where
  -- with nobody calling in the first wait there is no second
  first : ∀ later, call.runAmong ((fun store => store) :: later) job store world = turn
  named : turn.outcome.id =
    match Table.get? sessionArgument call.arguments with
    | some (.text value) => if Text.allBlank value then call.fresh else Text.trim value
    | _ => call.fresh
  completed : ∀ output, turn.outcome = .completed output call.id ↔
    ∃ values, turn.ranOn = some values ∧ (job values world).1 = .ok output
  failed : ∀ message, (∃ tool, turn.outcome = .failed tool message call.id) ↔
    ∃ values error, turn.ranOn = some values ∧ (job values world).1 = .error error ∧ error.message = message
  awaiting : (∃ tool parameter description, turn.outcome = .awaiting tool parameter description call.id) ↔
    turn.ranOn = none
  effect : turn.world = (turn.ranOn.map fun values => (job values world).2).getD world
  -- what this call brings under a name is kept, or else what was there
  own : ∃ session, (∀ values, turn.ranOn = some values → values = session.collected) ∧
    (∀ name, Table.get? name session.collected = (call.gives? name).or
      ((call.found? store).bind fun session => Table.get? name session.collected)) ∧
    turn.store.held? call.id = if turn.outcome.isCompleted then none else some session
  others : ∀ other, other ≠ call.id → ∀ session, turn.store.held? other = some session ↔
    store.held? other = some session ∧
      ∀ limit, store.idleLimit = some limit → call.now - limit ≤ session.updatedAt
  contains : ∀ other, turn.store.contains other = (turn.store.held? other).isSome

theorem Ended.id (ended : call.Ended job store world turn) : turn.outcome.id = call.id := by
  cases ended <;> rfl

theorem Ended.completed_iff (ended : call.Ended job store world turn) (output : String) :
    turn.outcome = .completed output call.id ↔
      ∃ values, turn.ranOn = some values ∧ (job values world).1 = .ok output := by
  cases ended with
  | awaiting => simp
  | completed done => simp [done]
  | failed done => simp [done]

theorem Ended.failed_iff (ended : call.Ended job store world turn) (message : String) :
    (∃ tool, turn.outcome = .failed tool message call.id) ↔
      ∃ values error, turn.ranOn = some values ∧ (job values world).1 = .error error ∧
        error.message = message := by
  cases ended with
  | awaiting => simp
  | completed done => simp [done]
  | failed done => simp [done]

theorem Ended.awaiting_iff (ended : call.Ended job store world turn) :
    (∃ tool parameter description, turn.outcome = .awaiting tool parameter description call.id) ↔
      turn.ranOn = none := by
  cases ended <;> simp

theorem Ended.effect (ended : call.Ended job store world turn) :
    turn.world = (turn.ranOn.map fun values => (job values world).2).getD world := by
  cases ended with
  | awaiting => rfl
  | completed done => simp [done]
  | failed done => simp [done]

-- A turn whose job was run on the world says what that returned and leaves the world so.
structure Reports (job : Job σ) (world : σ) (id : String) (turn : Turn σ) : Prop where
  completed : ∀ output, turn.outcome = .completed output id ↔
    ∃ values, turn.ranOn = some values ∧ (job values world).1 = .ok output
  failed : ∀ message, (∃ tool, turn.outcome = .failed tool message id) ↔
    ∃ values error, turn.ranOn = some values ∧ (job values world).1 = .error error ∧ error.message = message
  awaiting : (∃ tool parameter description, turn.outcome = .awaiting tool parameter description id) ↔
    turn.ranOn = none
  effect : turn.world = (turn.ranOn.map fun values => (job values world).2).getD world

theorem Ended.reports (ended : call.Ended job store world turn) : Reports job world call.id turn :=
  ⟨ended.completed_iff,ended.failed_iff,ended.awaiting_iff,ended.effect⟩

theorem Ended.values (ended : call.Ended job store world turn) {values : Collected}
    (ran : turn.ranOn = some values) : values = (call.merged store).collected := by
  cases ended with
  | awaiting => cases ran
  | completed done => exact (Option.some.inj ran).symm
  | failed done => exact (Option.some.inj ran).symm

theorem lifecycle_of_sound (call : Call) (job : Job σ) (sound : store.Sound) (world : σ) :
    call.Lifecycle job store world (call.run job store world) := by
  have ended := call.run_ended job store world
  refine ⟨?_,?_,ended.completed_iff,ended.failed_iff,ended.awaiting_iff,ended.effect,?_,?_,?_⟩
  · intro later
    rw [run,runAmong,runAmong,settle_alone call sound]
    rfl
  · rw [ended.id,id_argument]
  · refine ⟨call.merged store,fun values => ended.values,call.merged_get? sound,?_⟩
    rw [run_held? call job sound,if_pos rfl]
  · intro other apart session
    rw [run_held? call job sound,if_neg apart,Option.filter_eq_some_iff,Store.keeps_iff]
  · exact (call.run_sound job sound world).contains

end Call

namespace Conversation

theorem run_sound {conversation : Conversation σ} (sound : conversation.store.Sound)
    (events : List (Event σ)) : (conversation.run events).store.Sound := by
  induction events generalizing conversation with
  | nil => exact sound
  | cons event rest ih =>
    refine ih ?_
    cases event with
    | call call job => exact call.run_sound job sound conversation.world
    | list now => exact sound.purge now

end Conversation

-- Whatever has happened before: a call ends with its job run or not, keeps or closes
-- its own session, and leaves the others alone, those apart that have been idle too long.
theorem call_lifecycle (limit : Option Span) (world : σ) (events : List (Event σ)) (call : Call)
    (job : Job σ) :
    let before := (Conversation.start ⟨[],[],limit⟩ world).run events
    call.Lifecycle job before.store before.world (call.run job before.store before.world) := by
  intro before
  have sound : before.store.Sound := Conversation.run_sound (Store.empty_sound limit) events
  exact call.lifecycle_of_sound job sound before.world

end ToolDialogue
