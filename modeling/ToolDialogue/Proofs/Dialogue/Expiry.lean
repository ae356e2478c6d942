import ToolDialogue.Proofs.Dialogue.Noninterference
import ToolDialogue.Proofs.Session.Survivors

namespace ToolDialogue

variable {σ : Type}

namespace Session

theorem absorb_updatedAt (session : Session) (schema : Schema) (arguments : Arguments) (now : Instant) :
    (session.absorb schema arguments now).updatedAt = now := by
  have supplied : ∀ (names : List String) (s : Session), s.updatedAt = now →
      (names.foldl (addSupplied arguments now) s).updatedAt = now := by
    intro names
    induction names with
    | nil => exact fun _ same => same
    | cons first rest ih =>
      intro s same
      refine ih _ ?_
      unfold addSupplied
      split
      · rfl
      · exact same
  have optional : ∀ (parameters : List OptionalParameter) (s : Session), s.updatedAt = now →
      (parameters.foldl (addOptional arguments now) s).updatedAt = now := by
    intro parameters
    induction parameters with
    | nil => exact fun _ same => same
    | cons first rest ih => exact fun s _ => ih _ rfl
  exact optional _ _ (supplied _ _ rfl)

end Session

namespace Call

theorem latest?_cons (call : Call) (calls : List Call) (name : String) :
    latest? (call :: calls) name = (latest? calls name).or (call.gives? name) := by
  simp [latest?,List.findSome?_append]

theorem merged_updatedAt (call : Call) (store : Store) : (call.merged store).updatedAt = call.now :=
  Session.absorb_updatedAt ..

def lastUse (used : Instant) (calls : List Call) : Instant := calls.foldl (fun _ call => call.now) used

end Call

namespace Store

variable {store after : Store} {id : String} {clock now : Instant} {session : Session}

structure Remembers (store : Store) (id : String) (clock : Instant) (session : Session) : Prop where
  sound : store.Sound
  later : ∀ now, clock ≤ now → store.keeps now session = true →
    (store.held? id).filter (store.keeps now) = some session

theorem Remembers.purged (remembers : store.Remembers id clock session) (on : clock ≤ now) (sound : after.Sound)
    (limit : after.idleLimit = store.idleLimit) (held : after.held? id = (store.held? id).filter (store.keeps now)) :
    after.Remembers id now session := by
  refine ⟨sound,fun later past kept => ?_⟩
  rw [keeps_congr limit] at kept
  obtain ⟨there,-⟩ := Option.filter_eq_some_iff.mp (remembers.later later (Int.le_trans on past) kept)
  rw [held,there,keeps_congr limit]
  simp [Option.filter_some,kept,keeps_earlier past kept]

end Store

def callsUnder (id : String) (events : List (Event σ)) : List Call :=
  events.filterMap fun
    | .call call _ => if call.id = id then some call else none
    | .list _ => none

def clockAfter (clock : Instant) (events : List (Event σ)) : Instant := events.foldl (fun _ event => event.time) clock

theorem clockAfter_le {clock now : Instant} {events : List (Event σ)} (on : clock ≤ now)
    (past : ∀ event ∈ events, event.time ≤ now) : clockAfter clock events ≤ now := by
  induction events generalizing clock with
  | nil => exact on
  | cons event rest ih =>
    obtain ⟨first,later⟩ := List.forall_mem_cons.mp past
    exact ih first later

namespace Conversation

-- Every call under the id asks for it, comes within the idle limit after the last use before,
-- and leaves the session open. Whatever else goes on is free.
def Lively (id : String) : Instant → Conversation σ → List (Event σ) → Prop
  | _,_,[] => True
  | used,before,.list now :: rest => Lively id used (before.step (.list now)) rest
  | used,before,.call call job :: rest =>
    if call.id = id then
      requestedId? call.arguments = some id ∧
      (∀ limit, before.store.idleLimit = some limit → call.now - limit ≤ used) ∧
      (call.run job before.store before.world).outcome.isCompleted = false ∧
      Lively id call.now (before.step (.call call job)) rest
    else Lively id used (before.step (.call call job)) rest

def Recalls (conversation : Conversation σ) (id : String) (clock used : Instant) (values : String → Option Json) : Prop :=
  ∃ session, conversation.store.Remembers id clock session ∧ session.updatedAt = used ∧
    ∀ name, Table.get? name session.collected = values name

variable {before : Conversation σ} {id : String} {clock used now : Instant} {values : String → Option Json}

theorem Recalls.sound (recalls : before.Recalls id clock used values) : before.store.Sound := by
  obtain ⟨_,remembers,-⟩ := recalls
  exact remembers.sound

theorem Recalls.elsewhere {event : Event σ} (recalls : before.Recalls id clock used values)
    (on : clock ≤ event.time) (apart : event.concerns id = false) :
    (before.step event).Recalls id event.time used values := by
  obtain ⟨session,remembers,last,same⟩ := recalls
  refine ⟨session,?_,last,same⟩
  cases event with
  | list now =>
    exact remembers.purged on (remembers.sound.purge now) Store.purge_idleLimit (remembers.sound.purge_held? now id)
  | call call job =>
    have other : call.id ≠ id := by simpa [Event.concerns] using apart
    have held := call.run_held? job remembers.sound before.world id
    rw [if_neg (Ne.symm other)] at held
    exact remembers.purged on (call.run_sound job remembers.sound before.world)
      (call.run_idleLimit job before.store before.world) held

theorem Recalls.found {call : Call} (recalls : before.Recalls id clock used values) (on : clock ≤ call.now)
    (asked : requestedId? call.arguments = some id)
    (soon : ∀ limit, before.store.idleLimit = some limit → call.now - limit ≤ used) :
    ∃ session, call.found? before.store = some session ∧ ∀ name, Table.get? name session.collected = values name := by
  obtain ⟨session,remembers,rfl,same⟩ := recalls
  have named : call.id = id := by simp [Call.id,asked]
  refine ⟨session,?_,same⟩
  rw [Call.found?_asked asked,named]
  exact remembers.later call.now on (Store.keeps_iff.mpr soon)

theorem recalls_call (call : Call) (job : Job σ) (sound : before.store.Sound)
    (unended : (call.run job before.store before.world).outcome.isCompleted = false) :
    (before.step (.call call job)).Recalls call.id call.now call.now fun name =>
      (call.gives? name).or ((call.found? before.store).bind fun session => Table.get? name session.collected) := by
  have held := call.run_held? job sound before.world call.id
  rw [if_pos rfl,unended] at held
  refine ⟨call.merged before.store,⟨call.run_sound job sound before.world,fun now _ kept => ?_⟩,
    call.merged_updatedAt before.store,call.merged_get? sound⟩
  change Option.filter _ ((call.run job before.store before.world).store.held? call.id) = _
  rw [held]
  simpa [Option.filter_some] using kept

theorem Recalls.run (recalls : before.Recalls id clock used values) (events : List (Event σ))
    (ordered : Ordered events) (ahead : ∀ event ∈ events, clock ≤ event.time) (lively : Lively id used before events) :
    (before.run events).Recalls id (clockAfter clock events) (Call.lastUse used (callsUnder id events)) fun name =>
      (Call.latest? (callsUnder id events) name).or (values name) := by
  induction events generalizing before clock used values with
  | nil => exact recalls
  | cons event rest ih =>
    obtain ⟨behind,onward⟩ := List.pairwise_cons.mp ordered
    have on := ahead event List.mem_cons_self
    cases event with
    | list now => exact ih (recalls.elsewhere on rfl) onward behind lively
    | call call job =>
      rw [Lively] at lively
      by_cases named : call.id = id
      · rw [if_pos named] at lively
        obtain ⟨asked,soon,unended,lively⟩ := lively
        obtain ⟨session,found,same⟩ := recalls.found on asked soon
        have next := recalls_call call job recalls.sound unended
        simp only [found,Option.bind_some,same,named] at next
        have here : callsUnder id (.call call job :: rest) = call :: callsUnder id rest := by simp [callsUnder,named]
        simp only [here,Call.latest?_cons,Option.or_assoc]
        exact ih next onward behind lively
      · rw [if_neg named] at lively
        have apart : (Event.call call job).concerns id = false := by simpa [Event.concerns] using named
        have here : callsUnder id (.call call job :: rest) = callsUnder id rest := by simp [callsUnder,named]
        rw [here]
        exact ih (recalls.elsewhere on apart) onward behind lively

theorem step_idleLimit (before : Conversation σ) (event : Event σ) :
    (before.step event).store.idleLimit = before.store.idleLimit := by
  cases event with
  | call call job => exact call.run_idleLimit job before.store before.world
  | list now => exact Store.purge_idleLimit

theorem run_idleLimit (before : Conversation σ) (events : List (Event σ)) :
    (before.run events).store.idleLimit = before.store.idleLimit := by
  induction events generalizing before with
  | nil => rfl
  | cons event rest ih => exact (ih _).trans (before.step_idleLimit event)

end Conversation

-- After every visit exactly those sessions are registered that somebody has locked or that
-- have been used within the limit, and those the visit opens. Without a limit only a deletion or a
-- replacement takes a session away. And a conversation whose calls follow each other within
-- the limit finds all that it has collected at its next call.
theorem expiry_is_exact (limit : Option Span) (past : List Happening) :
    let store := Store.grown ⟨[],[],limit⟩ past
    (∀ now locks, store.Exact now locks ∧ ∀ visit handle session, store.session? handle = some session →
      (store.visited now locks visit).session? handle = some session) ∧
    (∀ happening id handle, (id,handle) ∈ store.registered → ¬happening.Removes id →
      (∀ now locks visit, happening = .visit now locks visit → store.Survives now locks id handle) →
      (id,handle) ∈ (store.happened happening).registered) ∧
    (limit = none → ∀ future id handle, (id,handle) ∈ store.registered →
      (∀ happening ∈ future, ¬happening.Removes id) → (id,handle) ∈ (store.grown future).registered) ∧
    ∀ (world : σ) (earlier : List (Event σ)) (first : Call) (job : Job σ) (talk : List (Event σ)),
      let before := (Conversation.start store world).run earlier
      let opened := before.step (.call first job)
      Ordered (.call first job :: talk) → (first.run job before.store before.world).outcome.isCompleted = false →
      Conversation.Lively first.id first.now opened talk →
      ∀ next : Call, requestedId? next.arguments = some first.id →
        (∀ event ∈ Event.call first job :: talk, event.time ≤ next.now) →
        (∀ span, limit = some span → next.now - span ≤ Call.lastUse first.now (callsUnder first.id talk)) →
        ∃ session, next.found? (opened.run talk).store = some session ∧
          ∀ name, Table.get? name session.collected = (Call.latest? (first :: callsUnder first.id talk) name).or
            ((first.found? before.store).bind fun session => Table.get? name session.collected) := by
  intro store
  have sound : store.Sound := Store.grown_sound (Store.empty_sound limit) past
  have limited : store.idleLimit = limit := Store.grown_idleLimit _ past
  refine ⟨fun now locks => ⟨sound.exact now locks,fun visit _ _ here => Store.visited_untouched here now locks visit⟩,
    fun happening id handle there kept survives => sound.stays happening kept there survives,?_,?_⟩
  · intro unlimited future id handle there kept
    exact sound.stays_unlimited (limited.trans unlimited) future kept there
  · intro world earlier first job talk before opened ordered unended lively next asked past soon
    obtain ⟨behind,onward⟩ := List.pairwise_cons.mp ordered
    obtain ⟨begun,later⟩ := List.forall_mem_cons.mp past
    have standing : before.store.Sound := Conversation.run_sound sound earlier
    have same : (opened.run talk).store.idleLimit = limit := by
      rw [Conversation.run_idleLimit,Conversation.step_idleLimit,Conversation.run_idleLimit]
      exact limited
    have recalls := (Conversation.recalls_call first job standing unended).run talk onward behind lively
    rw [← same] at soon
    simp only [Call.latest?_cons,Option.or_assoc]
    exact recalls.found (clockAfter_le begun later) asked soon

theorem expiry_is_exact_for_a_long_talk :
    let schema : Schema := ⟨[⟨"left","first"⟩,⟨"right","second"⟩],[]⟩
    let on (id : String) (given : Arguments) (now : Instant) : Call :=
      ⟨"pair",schema,("session_id",.text id) :: given,"generated",now⟩
    let job : Job Nat := fun _ runs => (.ok "done",runs + 1)
    let opened := (Conversation.start ⟨[],[],some 10⟩ 0).step (.call (on "a" [("left",.text "1")] 0) job)
    let talk := [.call (on "b" [] 5) job,.call (on "a" [] 8) job,.list 17,.call (on "a" [] 18) job,
      .call (on "b" [] 27) job]
    ∃ session, (on "a" [("right",.text "2")] 28).found? (opened.run talk).store = some session ∧
      Table.get? "left" session.collected = some (.text "1") := by
  intro schema on job opened talk
  have ours (given : Arguments) (now : Instant) : (on "a" given now).id = "a" := rfl
  have other (given : Arguments) (now : Instant) : (on "b" given now).id ≠ "a" := by
    change "b" ≠ "a"
    decide
  have calls : callsUnder "a" talk = [on "a" [] 8,on "a" [] 18] := by
    simp [talk,callsUnder,ours,other]
  have ordered : Ordered (.call (on "a" [("left",.text "1")] 0) job :: talk) := by
    simp [Ordered,talk,on,Event.time]
  have lively : Conversation.Lively "a" 0 opened talk := by
    simp only [talk,Conversation.Lively,ours,other,if_true,if_false,Conversation.step_idleLimit,opened]
    refine ⟨rfl,?_,by decide,rfl,?_,by decide,trivial⟩ <;> simp [on,Conversation.start]
  have exact := (expiry_is_exact (some 10) []).2.2.2 (0 : Nat) [] (on "a" [("left",.text "1")] 0) job talk
    ordered (by decide) lively (on "a" [("right",.text "2")] 28) (by decide) (by simp [talk,on,Event.time])
    (by simp [ours,calls,Call.lastUse,on])
  obtain ⟨session,found,same⟩ := exact
  refine ⟨session,found,(same "left").trans ?_⟩
  rw [ours,calls]
  rfl

end ToolDialogue
