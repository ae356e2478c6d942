import ToolDialogue.Proofs.Session.Objects

namespace ToolDialogue

section

variable {σ τ α β : Type}

def runs (step : σ → α → β × σ) : σ → List α → List β × σ
  | state,[] => ([],state)
  | state,input :: rest =>
    let (answer,state) := step state input
    let (answers,state) := runs step state rest
    (answer :: answers,state)

def runs? (step? : σ → α → Option (β × σ)) : σ → List α → Option (List β × σ)
  | state,[] => some ([],state)
  | state,input :: rest => do
    let (answer,state) ← step? state input
    let (answers,state) ← runs? step? state rest
    some (answer :: answers,state)

-- Steps that stop at some inputs and go on at the others. A run does not change at which.
structure Stopping (step : σ → α → β × σ) (step? : σ → α → Option (β × σ)) (stops : σ → α → Bool) : Prop where
  each : ∀ state input, step? state input = if stops state input then none else some (step state input)
  same : ∀ state input, stops (step state input).2 = stops state

variable {step : σ → α → β × σ} {step? : σ → α → Option (β × σ)} {stops : σ → α → Bool} {state : σ} {inputs : List α}

theorem Stopping.runs?_eq (stopping : Stopping step step? stops) (state : σ) (inputs : List α) :
    runs? step? state inputs = if inputs.any (stops state) then none else some (runs step state inputs) := by
  induction inputs generalizing state with
  | nil => rfl
  | cons input rest ih =>
    have later := ih (step state input).2
    rw [stopping.same] at later
    rw [runs?,stopping.each,List.any_cons]
    by_cases stop : stops state input = true
    · simp [stop]
    · by_cases stopped : rest.any (stops state) = true
      · simp [later,stop,stopped]
      · rw [if_neg stopped] at later
        simp [later,stop,stopped,runs]

theorem Stopping.none_iff (stopping : Stopping step step? stops) :
    runs? step? state inputs = none ↔ ∃ input ∈ inputs, stops state input = true := by
  rw [stopping.runs?_eq,← List.any_eq_true]
  split
  · next stopped => exact iff_of_true rfl stopped
  · next going => exact iff_of_false (Option.some_ne_none _) going

theorem Stopping.ended (stopping : Stopping step step? stops) {ended : List β × σ}
    (went : runs? step? state inputs = some ended) : ended = runs step state inputs := by
  rw [stopping.runs?_eq] at went
  split at went
  · cases went
  · exact (Option.some.inj went).symm

theorem runs_as {step' : τ → α → β × τ} {as : σ → τ} {Keeps : σ → Prop} {Fits : α → Prop}
    (each : ∀ state input, Keeps state → Fits input → Keeps (step state input).2 ∧
      step' (as state) input = ((step state input).1,as (step state input).2))
    (kept : Keeps state) (fits : ∀ input ∈ inputs, Fits input) :
    runs step' (as state) inputs = ((runs step state inputs).1,as (runs step state inputs).2) := by
  induction inputs generalizing state with
  | nil => rfl
  | cons input rest ih =>
    obtain ⟨first,later⟩ := List.forall_mem_cons.mp fits
    obtain ⟨still,same⟩ := each state input kept first
    rw [runs,same]
    dsimp only
    rw [ih still later]
    rfl

end

def Overlong (seconds : Nat) (now : Instant) : Prop :=
  seconds ≤ longestSpan ∧ now - (seconds * second : Nat) < earliest

namespace Store

def within {α : Type} (store : Store) (now : Instant) (result : α) : Option α :=
  if store.overruns now then none else some result

def stops (store : Store) (step : Step) : Bool := step.operation.purges?.isSome && store.overruns step.now

def under (store : Store) (limit : Option Span) : Store := { store with idleLimit := limit }

def Recent (store : Store) (start : Instant) : Prop :=
  ∀ handle session, store.session? handle = some session → start ≤ session.updatedAt

structure Young (store : Store) (start : Instant) : Prop where
  sound : store.Sound
  unlimited : store.idleLimit = none
  recent : store.Recent start

end Store

-- The step comes within the limit after the time, and what it does to a session does not put
-- that back behind the time.
structure Step.Soon (start : Instant) (limit : Span) (step : Step) : Prop where
  begun : start ≤ step.now
  soon : step.now ≤ start + limit
  kept : ∀ handle change, step.operation = .change handle change →
    ∀ session, start ≤ session.updatedAt → start ≤ (change session).updatedAt

namespace Store

variable {store : Store} {now start : Instant} {locks : Locks} {limit : Span} {step : Step} {steps : List Step}

theorem map_within {α β : Type} (result : α) (f : α → β) :
    (store.within now result).map f = store.within now (f result) := by
  unfold within
  split <;> rfl

theorem purge?_eq : store.purge? now locks = store.within now (store.purge now locks) := by
  unfold purge? within overruns purge isLive cutoff?
  cases store.idleLimit with
  | none => rfl
  | some limit =>
    dsimp only
    by_cases reached : earliest ≤ now - limit
    · rw [if_pos reached,if_neg (by simpa using reached),Option.map_some]
      congr 3
      funext ⟨id,handle⟩
      cases store.session? handle <;> rfl
    · rw [if_neg reached,if_pos (by simpa using reached)]
      rfl

theorem create?_eq (id tool : String) (schema : Schema) :
    store.create? id tool schema now locks = store.within now (store.create id tool schema now locks) := by
  rw [create?,purge?_eq,map_within]
  rfl

theorem getOrCreate?_eq (id tool : String) (schema : Schema) :
    store.getOrCreate? id tool schema now locks = store.within now (store.getOrCreate id tool schema now locks) := by
  rw [getOrCreate?,purge?_eq,map_within]
  rfl

theorem get?_eq (id : String) : store.get? id now locks = store.within now (store.get id now locks) := by
  rw [get?,purge?_eq,map_within]
  rfl

theorem list?_eq : store.list? now locks = store.within now (store.list now locks) := by
  rw [list?,purge?_eq,map_within]
  rfl

theorem perform?_eq (store : Store) (step : Step) :
    store.perform? step = if store.stops step then none else some (store.perform step) := by
  obtain ⟨now,operation⟩ := step
  cases operation with
  | create id tool schema locks => exact (congrArg _ (create?_eq id tool schema)).trans (map_within _ _)
  | getOrCreate id tool schema locks => exact (congrArg _ (getOrCreate?_eq id tool schema)).trans (map_within _ _)
  | get id locks => exact (congrArg _ (get?_eq id)).trans (map_within _ _)
  | delete id => rfl
  | list => exact (congrArg _ list?_eq).trans (map_within _ _)
  | change handle change => rfl

theorem overruns_congr {other : Store} (same : other.idleLimit = store.idleLimit) (now : Instant) :
    other.overruns now = store.overruns now := by
  rw [overruns,overruns,same]

theorem perform_idleLimit (store : Store) (step : Step) : (store.perform step).2.idleLimit = store.idleLimit := by
  have performs := store.perform_performs step
  generalize store.perform step = result at performs
  cases performs with
  | opened => exact purge_idleLimit
  | looked => exact purge_idleLimit
  | deleted => rfl
  | changed => rfl

theorem stops_congr {other : Store} (same : other.idleLimit = store.idleLimit) : other.stops = store.stops := by
  funext step
  rw [stops,stops,overruns_congr same]

theorem runs_perform (store : Store) (steps : List Step) :
    runs perform store steps = (store.answers steps,store.after steps) := by
  induction steps generalizing store with
  | nil => rfl
  | cons step rest ih =>
    rw [runs]
    dsimp only
    rw [ih]
    rfl

theorem perform_stopping : Stopping perform perform? stops :=
  ⟨perform?_eq,fun store step => stops_congr (store.perform_idleLimit step)⟩

theorem withIdleLimit_overruns (seconds : Nat) (now : Instant) :
    (withIdleLimit seconds).overruns now = true ↔ Overlong seconds now := by
  unfold overruns withIdleLimit Span.ofSeconds? Overlong
  by_cases held : seconds ≤ longestSpan <;> simp [held]

theorem Young.unpurged (young : store.Young start) : store.purge now locks = store := purge_unlimited young.unlimited

-- A limit that reaches back behind the last use of every session takes nothing away.
theorem Young.purged (young : store.Young start) (soon : now ≤ start + limit) :
    (store.under (some limit)).purge now locks = store.under (some limit) := by
  have stays : ∀ entry ∈ store.registered, (store.under (some limit)).isLive limit now locks entry.2 = true := by
    intro entry member
    obtain ⟨session,here⟩ := session?_of_placed (young.sound.placed entry member)
    have used : now - limit ≤ session.updatedAt :=
      Int.le_trans (Int.sub_right_le_of_le_add soon) (young.recent entry.2 session here)
    have same : (store.under (some limit)).session? entry.2 = some session := here
    simp [isLive,same,used]
  exact congrArg (Store.mk store.sessions · (some limit)) (List.filter_eq_self.mpr stays)

section

variable {limit : Option Span} (purged : (store.under limit).purge now locks = store.under limit)
  (unpurged : store.purge now locks = store)

include purged unpurged

theorem create_under (id tool : String) (schema : Schema) :
    let created := store.create id tool schema now locks
    (store.under limit).create id tool schema now locks = (created.1,created.2.under limit) := by
  simp only [create,purged,unpurged]
  rfl

theorem getOrCreate_under (id tool : String) (schema : Schema) :
    let obtained := store.getOrCreate id tool schema now locks
    (store.under limit).getOrCreate id tool schema now locks =
      ⟨obtained.handle,obtained.created,obtained.store.under limit⟩ := by
  have same : (store.under limit).registered = store.registered := rfl
  simp only [getOrCreate,purged,unpurged,same]
  cases Table.get? id store.registered <;> rfl

theorem get_under (id : String) :
    let got := store.get id now locks
    (store.under limit).get id now locks = (got.1,got.2.under limit) := by
  simp only [get,purged,unpurged]
  rfl

theorem list_under :
    let listed := store.list now locks
    (store.under limit).list now locks = (listed.1,listed.2.under limit) := by
  simp only [list,purged,unpurged]
  rfl

end

theorem Young.perform_under (young : store.Young start) (soon : step.Soon start limit) :
    (store.under (some limit)).perform step = ((store.perform step).1,(store.perform step).2.under (some limit)) := by
  have purged (locks : Locks) : (store.under (some limit)).purge step.now locks = store.under (some limit) :=
    young.purged soon.soon
  have unpurged (locks : Locks) : store.purge step.now locks = store := young.unpurged
  obtain ⟨now,operation⟩ := step
  dsimp only at purged unpurged
  cases operation with
  | create id tool schema locks =>
    dsimp only [perform]
    rw [create_under (purged locks) (unpurged locks)]
  | getOrCreate id tool schema locks =>
    dsimp only [perform]
    rw [getOrCreate_under (purged locks) (unpurged locks)]
  | get id locks =>
    dsimp only [perform]
    rw [get_under (purged locks) (unpurged locks)]
  | delete id => rfl
  | list =>
    dsimp only [perform]
    rw [list_under (purged []) (unpurged [])]
  | change handle change => rfl

theorem Recent.register (recent : store.Recent start) (id : String) {session : Session}
    (used : start ≤ session.updatedAt) : (store.register id session).2.Recent start := by
  intro handle other here
  rw [register_session?] at here
  split at here
  · cases here
    exact used
  · exact recent handle other here

theorem Recent.modify (recent : store.Recent start) (handle : Handle) {change : Session → Session}
    (kept : ∀ session, start ≤ session.updatedAt → start ≤ (change session).updatedAt) :
    (store.modify handle change).Recent start := by
  intro other session here
  rw [modify_session?] at here
  split at here
  · obtain ⟨before,there,rfl⟩ := Option.map_eq_some_iff.mp here
    exact kept before (recent other before there)
  · exact recent other session here

theorem Recent.purged (recent : store.Recent start) : (store.purge now locks).Recent start := by
  intro handle session here
  rw [purge_session?] at here
  exact recent handle session here

theorem Recent.perform (recent : store.Recent start) (soon : step.Soon start limit) :
    (store.perform step).2.Recent start := by
  obtain ⟨begun,-,kept⟩ := soon
  obtain ⟨now,operation⟩ := step
  cases operation with
  | create id tool schema locks => exact recent.purged.register id begun
  | getOrCreate id tool schema locks =>
    unfold Store.perform getOrCreate
    dsimp only
    split
    · exact recent.purged
    · exact recent.purged.register id begun
  | get id locks => exact recent.purged
  | delete id => exact recent
  | list => exact recent.purged
  | change handle change => exact recent.modify handle (kept handle change rfl)

theorem Young.perform (young : store.Young start) (soon : step.Soon start limit) :
    (store.perform step).2.Young start where
  sound := perform_sound young.sound step
  unlimited := (store.perform_idleLimit step).trans young.unlimited
  recent := young.recent.perform soon

theorem under_none (unlimited : store.idleLimit = none) : store.under none = store := by
  rw [under,← unlimited]

theorem Young.runs_under {limit : Option Span} (young : store.Young start)
    (soon : ∀ span, limit = some span → ∀ step ∈ steps, step.Soon start span) :
    runs Store.perform (store.under limit) steps =
      ((runs Store.perform store steps).1,(runs Store.perform store steps).2.under limit) := by
  cases limit with
  | none =>
    have each (store : Store) (step : Step) (unlimited : store.idleLimit = none) (_ : True) :
        (store.perform step).2.idleLimit = none ∧
          (store.under none).perform step = ((store.perform step).1,(store.perform step).2.under none) := by
      have still := (store.perform_idleLimit step).trans unlimited
      refine ⟨still,?_⟩
      rw [under_none unlimited,under_none still]
    exact runs_as each young.unlimited fun _ _ => trivial
  | some span =>
    have each (store : Store) (step : Step) (young : store.Young start) (soon : step.Soon start span) :
        (store.perform step).2.Young start ∧ (store.under (some span)).perform step =
          ((store.perform step).1,(store.perform step).2.under (some span)) :=
      ⟨young.perform soon,young.perform_under soon⟩
    exact runs_as each young (soon span rfl)

theorem empty_young (start : Instant) : empty.Young start := by
  refine ⟨empty_sound none,rfl,?_⟩
  intro handle session none
  cases none

end Store

end ToolDialogue
