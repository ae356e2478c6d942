import ToolDialogue.Proofs.Dialogue.Lifecycle

namespace ToolDialogue

variable {σ : Type}

def Event.time : Event σ → Instant
  | .call made _ => made.now
  | .list now => now

def Event.concerns (id : String) : Event σ → Bool
  | .call made _ => made.id == id
  | .list _ => false

def Ordered (events : List (Event σ)) : Prop :=
  events.Pairwise fun earlier later => earlier.time ≤ later.time

-- What the job of a call under the id returns depends on its values alone.
def Settled (id : String) (events : List (Event σ)) : Prop :=
  ∀ call job, Event.call call job ∈ events → call.id = id →
    ∀ values one other, (job values one).1 = (job values other).1

def Conversation.outcomesOf (conversation : Conversation σ) (id : String) : List Outcome :=
  (conversation.records.filter (·.call.id = id)).map (·.outcome)

namespace Store

variable {a b : Store} {id : String} {clock : Instant}

theorem keeps_congr (same : a.idleLimit = b.idleLimit) : a.keeps = b.keeps := by
  funext now session
  rw [keeps,keeps,same]

structure Alike (id : String) (clock : Instant) (a b : Store) : Prop where
  left : a.Sound
  right : b.Sound
  limit : a.idleLimit = b.idleLimit
  later : ∀ now, clock ≤ now → (a.held? id).filter (a.keeps now) = (b.held? id).filter (b.keeps now)

-- A purge before the next look at a session takes away nothing that would be seen then.
theorem Alike.purged {after : Store} {now : Instant} (alike : Alike id clock a b) (on : clock ≤ now)
    (sound : after.Sound) (limit : after.idleLimit = a.idleLimit)
    (held : after.held? id = (a.held? id).filter (a.keeps now)) : Alike id now after b := by
  refine ⟨sound,alike.right,limit.trans alike.limit,?_⟩
  intro later past
  rw [held,keeps_congr limit,← alike.later later (Int.le_trans on past)]
  cases a.held? id with
  | none => rfl
  | some session =>
    cases stays : a.keeps later session with
    | true => simp [Option.filter_some,stays,keeps_earlier past stays]
    | false => cases kept : a.keeps now session <;> simp [Option.filter_some,stays,kept]

end Store

namespace Call

variable {a b : Store} {id : String} {clock : Instant} {call : Call} {job : Job σ} {world there : σ}

theorem merged_alike (alike : Store.Alike call.id clock a b) (on : clock ≤ call.now) :
    call.merged a = call.merged b := by
  have found : call.found? a = call.found? b := by
    cases asked : requestedId? call.arguments with
    | none => rw [found?_unasked asked,found?_unasked asked]
    | some wanted =>
      rw [found?_asked asked,found?_asked asked]
      exact alike.later call.now on
  rw [merged_entered call alike.left,merged_entered call alike.right,entered,entered,found]

theorem outcome_of_merged (same : call.merged a = call.merged b)
    (returned : ∀ values, (job values world).1 = (job values there).1) :
    (call.run job a world).outcome = (call.run job b there).outcome := by
  rw [run_finish,run_finish,resolve_id,resolve_id,same]
  cases missing : (call.merged b).nextMissing? with
  | some parameter => rw [finish_awaiting missing,finish_awaiting missing]
  | none =>
    have equal := returned (call.merged b).collected
    rcases one : job (call.merged b).collected world with ⟨result,left⟩
    rcases other : job (call.merged b).collected there with ⟨result',left'⟩
    rw [one,other] at equal
    cases (equal : result = result')
    cases result with
    | error error => rw [finish_failed missing one,finish_failed missing other]
    | ok output => rw [finish_completed missing one,finish_completed missing other]

theorem run_alike (alike : Store.Alike call.id clock a b) (on : clock ≤ call.now)
    (returned : ∀ values, (job values world).1 = (job values there).1) :
    (call.run job a world).outcome = (call.run job b there).outcome ∧
      Store.Alike call.id call.now (call.run job a world).store (call.run job b there).store := by
  have merged := merged_alike alike on
  have outcome := outcome_of_merged merged returned
  have limit : (call.run job a world).store.idleLimit = (call.run job b there).store.idleLimit := by
    rw [run_idleLimit,run_idleLimit,alike.limit]
  refine ⟨outcome,call.run_sound job alike.left world,call.run_sound job alike.right there,limit,?_⟩
  intro now past
  rw [run_held? call job alike.left,run_held? call job alike.right,outcome,merged,Store.keeps_congr limit,
    if_pos rfl,if_pos rfl]

end Call

namespace Conversation

variable {a b : Conversation σ} {id : String} {clock : Instant}

theorem outcomesOf_call (conversation : Conversation σ) (id : String) (call : Call) (job : Job σ) :
    (conversation.step (.call call job)).outcomesOf id =
      if call.id = id then
        conversation.outcomesOf id ++ [(call.run job conversation.store conversation.world).outcome]
      else conversation.outcomesOf id := by
  by_cases here : call.id = id
  · simp [outcomesOf,step,here]
  · simp [outcomesOf,step,here]

theorem step_elsewhere {event : Event σ} (alike : Store.Alike id clock a.store b.store)
    (on : clock ≤ event.time) (apart : event.concerns id = false) :
    (a.step event).outcomesOf id = a.outcomesOf id ∧ Store.Alike id event.time (a.step event).store b.store := by
  cases event with
  | list now => exact ⟨rfl,alike.purged on (alike.left.purge now) Store.purge_idleLimit (alike.left.purge_held? now id)⟩
  | call call job =>
    have other : call.id ≠ id := by simpa [Event.concerns] using apart
    have held := call.run_held? job alike.left a.world id
    rw [if_neg (Ne.symm other)] at held
    refine ⟨by rw [outcomesOf_call,if_neg other],?_⟩
    exact alike.purged on (call.run_sound job alike.left a.world) (call.run_idleLimit job a.store a.world) held

theorem run_alone (alike : Store.Alike id clock a.store b.store)
    (answered : a.outcomesOf id = b.outcomesOf id) (events : List (Event σ)) (ordered : Ordered events)
    (ahead : ∀ event ∈ events, clock ≤ event.time) (settled : Settled id events) :
    (a.run events).outcomesOf id = (b.run (events.filter (·.concerns id))).outcomesOf id := by
  induction events generalizing a b clock with
  | nil => exact answered
  | cons event rest ih =>
    obtain ⟨behind,onward⟩ := List.pairwise_cons.mp ordered
    have on := ahead event List.mem_cons_self
    have later : Settled id rest := fun call job member => settled call job (List.mem_cons_of_mem _ member)
    cases ours : event.concerns id with
    | false =>
      obtain ⟨same,next⟩ := step_elsewhere alike on ours
      rw [List.filter_cons_of_neg (by simp [ours])]
      exact ih next (same.trans answered) onward behind later
    | true =>
      rw [List.filter_cons_of_pos ours]
      cases event with
      | list now => cases ours
      | call call job =>
        have named : call.id = id := by simpa [Event.concerns] using ours
        subst named
        have returned := fun values => settled call job List.mem_cons_self rfl values a.world b.world
        obtain ⟨outcome,next⟩ := Call.run_alike alike on returned
        refine ih next ?_ onward behind later
        rw [outcomesOf_call,outcomesOf_call,if_pos rfl,if_pos rfl,answered,outcome]

end Conversation

theorem Settled.same {id : String} {one other : List (Event σ)} (settled : Settled id one)
    (same : one.filter (·.concerns id) = other.filter (·.concerns id)) : Settled id other := by
  intro call job member named
  have ours : Event.call call job ∈ other.filter (·.concerns id) :=
    List.mem_filter.mpr ⟨member,by simpa [Event.concerns] using named⟩
  rw [← same] at ours
  exact settled call job (List.mem_filter.mp ours).1 named

-- Whatever else goes on, under other ids and in listings, at whatever times: the calls
-- under one id get the same outcomes. A session that others purge has been idle for too
-- long at its own next call as well.
theorem outcomes_unaffected (id : String) (limit : Option Span) (world there : σ)
    (one other : List (Event σ)) (forward : Ordered one) (onward : Ordered other)
    (settled : Settled id one) (same : one.filter (·.concerns id) = other.filter (·.concerns id)) :
    ((Conversation.start ⟨[],[],limit⟩ world).run one).outcomesOf id =
      ((Conversation.start ⟨[],[],limit⟩ there).run other).outcomesOf id := by
  have alone (world : σ) {events : List (Event σ)} (ordered : Ordered events) (settled : Settled id events) :
      ((Conversation.start ⟨[],[],limit⟩ world).run events).outcomesOf id =
        ((Conversation.start ⟨[],[],limit⟩ there).run (events.filter (·.concerns id))).outcomesOf id := by
    cases events with
    | nil => rfl
    | cons event rest =>
      have alike : Store.Alike id event.time (Conversation.start ⟨[],[],limit⟩ world).store
          (Conversation.start ⟨[],[],limit⟩ there).store :=
        ⟨Store.empty_sound limit,Store.empty_sound limit,rfl,fun _ _ => rfl⟩
      refine Conversation.run_alone alike rfl _ ordered ?_ settled
      intro next member
      rcases List.mem_cons.mp member with rfl | behind
      · exact Int.le_refl _
      · exact (List.pairwise_cons.mp ordered).1 next behind
  rw [alone world forward settled,alone there onward (settled.same same),same]

theorem outcomes_unaffected_by_a_purge :
    let schema : Schema := ⟨[⟨"left","first"⟩,⟨"right","second"⟩],[]⟩
    let on (id : String) (given : Arguments) (now : Instant) : Event Nat :=
      .call ⟨"pair",schema,("session_id",.text id) :: given,"generated",now⟩ fun _ runs => (.ok "done",runs + 1)
    let one := [on "a" [("left",.text "1")] 0,.list 5,on "b" [] 20,on "a" [("right",.text "2")] 21]
    let other := [on "a" [("left",.text "1")] 0,on "a" [("right",.text "2")] 21]
    let outcomes (events : List (Event Nat)) :=
      ((Conversation.start ⟨[],[],some 10⟩ 0).run events).outcomesOf "a"
    Ordered one ∧ Ordered other ∧ Settled "a" one ∧
      one.filter (·.concerns "a") = other.filter (·.concerns "a") ∧ outcomes one = outcomes other ∧
      outcomes other = [.awaiting "pair" "right" "second" "a",.awaiting "pair" "left" "first" "a"] := by
  intro schema on one other outcomes
  have forward : Ordered one := by
    simp [Ordered,one,on,Event.time]
  have onward : Ordered other := by
    simp [Ordered,other,on,Event.time]
  have settled : Settled "a" one := by
    intro call job member
    simp only [one,on,List.mem_cons,List.not_mem_nil,or_false,Event.call.injEq,reduceCtorEq,false_or] at member
    rcases member with ⟨-,rfl⟩ | ⟨-,rfl⟩ | ⟨-,rfl⟩ <;> exact fun _ _ _ _ => rfl
  have same : one.filter (·.concerns "a") = other.filter (·.concerns "a") := by
    rfl
  exact ⟨forward,onward,settled,same,outcomes_unaffected "a" (some 10) 0 0 one other forward onward settled same,
    by decide⟩

end ToolDialogue
