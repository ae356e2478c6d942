import Mathlib.Data.List.Find
import Mathlib.Data.List.Induction
import ToolDialogue.Proofs.Dialogue.Conversation

namespace ToolDialogue

variable {σ : Type}

-- An id that is generated is none that an earlier call has had.
def FreshIds (calls : List Call) : Prop :=
  calls.Pairwise fun earlier later =>
    requestedId? later.arguments = none → later.fresh ≠ earlier.id

theorem FreshIds.last {calls : List Call} {call : Call} (fresh : FreshIds (calls ++ [call]))
    (unasked : requestedId? call.arguments = none) : ∀ earlier ∈ calls, earlier.id ≠ call.fresh :=
  fun earlier member => Ne.symm
    ((List.pairwise_append.mp fresh).2.2 earlier member call (by simp) unasked)

def epoch (id : String) (records : List Record) : List Call :=
  records.foldl (fun calls record =>
    if record.call.id = id then
      if record.outcome.isCompleted then [] else calls ++ [record.call]
    else calls) []

theorem epoch_append (id : String) (records : List Record) (record : Record) :
    epoch id (records ++ [record]) =
      if record.call.id = id then
        if record.outcome.isCompleted then [] else epoch id records ++ [record.call]
      else epoch id records := by
  simp [epoch]

theorem epoch_recorded {id : String} {records : List Record} {call : Call}
    (member : call ∈ epoch id records) : call.id = id ∧ call ∈ records.map (·.call) := by
  induction records using List.reverseRecOn with
  | nil => simp [epoch] at member
  | append_singleton records record ih =>
    rw [epoch_append] at member
    split at member
    · rename_i same
      split at member
      · cases member
      · rcases List.mem_append.mp member with old | new
        · exact ⟨(ih old).1,by simp [(ih old).2]⟩
        · cases List.mem_singleton.mp new; exact ⟨same,by simp⟩
    · exact ⟨(ih member).1,by simp [(ih member).2]⟩

theorem epoch_unknown {id : String} {records : List Record}
    (unknown : ∀ record ∈ records, record.call.id ≠ id) : epoch id records = [] := by
  refine List.eq_nil_iff_forall_not_mem.mpr fun call member => ?_
  obtain ⟨same,listed⟩ := epoch_recorded member
  obtain ⟨record,present,rfl⟩ := List.mem_map.mp listed
  exact unknown record present same

namespace Conversation

variable {conversation : Conversation σ}

-- Ids lead to different sessions, each to the one its calls since the last
-- completed one have gone on with. An id without a session has had no such calls.
structure Tracked (conversation : Conversation σ) : Prop where
  apart : ∀ a b handle, Table.get? a conversation.store.registered = some handle →
    Table.get? b conversation.store.registered = some handle → a = b
  calls : ∀ id, (Table.get? id conversation.store.registered).elim [] conversation.callsOf =
    epoch id conversation.records

theorem Tracked.registered (tracked : conversation.Tracked) {id : String} {handle : Handle}
    (found : Table.get? id conversation.store.registered = some handle) :
    conversation.callsOf handle = epoch id conversation.records := by
  simpa [found] using tracked.calls id

theorem Tracked.unregistered (tracked : conversation.Tracked) {id : String}
    (absent : Table.get? id conversation.store.registered = none) :
    epoch id conversation.records = [] := by
  simpa [absent] using (tracked.calls id).symm

theorem Tracked.fresh (tracked : conversation.Tracked) (kept : conversation.Kept) {id : String}
    (unknown : ∀ record ∈ conversation.records, record.call.id ≠ id) :
    Table.get? id conversation.store.registered = none := by
  cases found : Table.get? id conversation.store.registered with
  | none => rfl
  | some handle =>
    obtain ⟨session,here⟩ := Store.session?_of_placed (kept.placed _ (Table.mem_of_get? found))
    obtain ⟨first,made⟩ := kept.made handle session here
    have none := tracked.registered found
    rw [epoch_unknown unknown] at none
    simpa [none] using made.begun

theorem Tracked.resolve (tracked : conversation.Tracked) (kept : conversation.Kept)
    (unlimited : conversation.store.idleLimit = none) {call : Call}
    (fresh : requestedId? call.arguments = none →
      ∀ record ∈ conversation.records, record.call.id ≠ call.fresh) :
    (Table.get? call.id conversation.store.registered = some (call.resolve conversation.store).handle ∧
      (call.resolve conversation.store).store = conversation.store) ∨
    (Table.get? call.id conversation.store.registered = none ∧
      (call.resolve conversation.store).handle = ⟨conversation.store.sessions.length⟩ ∧
      (call.resolve conversation.store).store = (conversation.store.register call.id
        (.start call.tool call.schema call.now)).2) := by
  have resolves := call.resolve_resolves conversation.store
  generalize call.resolve conversation.store = resolved at resolves ⊢
  cases resolves with
  | found asked found =>
    rw [Store.purge_unlimited unlimited] at found ⊢
    exact .inl ⟨found,rfl⟩
  | opened unknown =>
    rw [Store.purge_unlimited unlimited] at unknown ⊢
    refine .inr ⟨?_,rfl,rfl⟩
    rcases unknown with unasked | absent
    · have named : call.id = call.fresh := by simp [Call.id,unasked]
      exact tracked.fresh kept (by simpa [named] using fresh unasked)
    · exact absent

theorem Tracked.callsOf_resolve (tracked : conversation.Tracked) (kept : conversation.Kept)
    (unlimited : conversation.store.idleLimit = none) {call : Call}
    (fresh : requestedId? call.arguments = none →
      ∀ record ∈ conversation.records, record.call.id ≠ call.fresh) :
    conversation.callsOf (call.resolve conversation.store).handle =
      epoch call.id conversation.records := by
  rcases tracked.resolve kept unlimited fresh with ⟨found,_⟩ | ⟨absent,handle,_⟩
  · exact tracked.registered found
  · rw [handle,kept.unrecorded,tracked.unregistered absent]

theorem Tracked.run_registered (tracked : conversation.Tracked) (kept : conversation.Kept)
    (unlimited : conversation.store.idleLimit = none) {call : Call} (job : Job σ)
    (fresh : requestedId? call.arguments = none →
      ∀ record ∈ conversation.records, record.call.id ≠ call.fresh) :
    (∀ id, Table.get? id (call.run job conversation.store conversation.world).store.registered =
      if id = call.id then
        if (call.run job conversation.store conversation.world).outcome.isCompleted then none
        else some (call.resolve conversation.store).handle
      else Table.get? id conversation.store.registered) ∧
    ∀ id, id ≠ call.id → Table.get? id conversation.store.registered ≠
      some (call.resolve conversation.store).handle := by
  have resolved := tracked.resolve kept unlimited fresh
  have registered : ∀ id, Table.get? id (call.resolve conversation.store).store.registered =
      if id = call.id then some (call.resolve conversation.store).handle
      else Table.get? id conversation.store.registered := by
    intro id
    rcases resolved with ⟨found,same⟩ | ⟨_,handle,opened⟩
    · rw [same]; split
      · rename_i here; rw [here,found]
      · rfl
    · rw [opened,handle]; exact Table.get?_put ..
  refine ⟨?_,?_⟩
  · intro id
    rw [Call.run_store]
    by_cases completed : (call.run job conversation.store conversation.world).outcome.isCompleted <;>
      by_cases here : id = call.id <;>
      simp [completed,here,Store.delete,Table.get?_erase,registered]
  · intro id other found
    rcases resolved with ⟨own,_⟩ | ⟨_,handle,_⟩
    · exact other (tracked.apart _ _ _ found own)
    · have bound := kept.placed _ (Table.mem_of_get? found)
      rw [handle] at bound
      exact Nat.lt_irrefl _ bound

theorem Tracked.step (tracked : conversation.Tracked) (kept : conversation.Kept)
    (unlimited : conversation.store.idleLimit = none) {call : Call} (job : Job σ)
    (fresh : requestedId? call.arguments = none →
      ∀ record ∈ conversation.records, record.call.id ≠ call.fresh) :
    (conversation.step (.call call job)).Tracked := by
  obtain ⟨registered,elsewhere⟩ := tracked.run_registered kept unlimited job fresh
  have own := tracked.callsOf_resolve kept unlimited fresh
  refine ⟨?_,?_⟩
  · intro a b handle ha hb
    simp only [Conversation.step,registered] at ha hb
    split at ha <;> split at hb
    · simp_all
    · split at ha
      · cases ha
      · cases ha; rename_i other _; exact absurd hb (elsewhere b other)
    · split at hb
      · cases hb
      · cases hb; rename_i other _ _; exact absurd ha (elsewhere a other)
    · exact tracked.apart _ _ _ ha hb
  · intro id
    have later : (conversation.step (.call call job)).records = conversation.records ++
      [⟨call,(call.resolve conversation.store).handle,
        (call.run job conversation.store conversation.world).outcome⟩] := rfl
    rw [later,epoch_append,show (conversation.step (.call call job)).store =
      (call.run job conversation.store conversation.world).store from rfl,registered]
    by_cases here : id = call.id
    · subst here
      by_cases completed : (call.run job conversation.store conversation.world).outcome.isCompleted
      · simp [completed]
      · simp [completed,callsOf_step,own]
    · rw [if_neg here,if_neg (Ne.symm here),← tracked.calls id]
      cases found : Table.get? id conversation.store.registered with
      | none => rfl
      | some handle =>
        have other : handle ≠ (call.resolve conversation.store).handle :=
          fun same => elsewhere id here (same ▸ found)
        simp [callsOf_step,other]

theorem step_unlimited (unlimited : conversation.store.idleLimit = none) (call : Call) (job : Job σ) :
    (conversation.step (.call call job)).store.idleLimit = none :=
  (call.run_idleLimit job conversation.store conversation.world).trans unlimited

def calling (world : σ) (calls : List (Call × Job σ)) : Conversation σ :=
  (start .empty world).run (calls.map fun (call,job) => .call call job)

theorem calling_append (world : σ) (calls : List (Call × Job σ)) (call : Call) (job : Job σ) :
    calling world (calls ++ [(call,job)]) = (calling world calls).step (.call call job) := by
  simp [calling,run_append]

theorem calling_kept (world : σ) (calls : List (Call × Job σ)) : (calling world calls).Kept :=
  (Kept.start rfl rfl world).run _

theorem calling_records (world : σ) (calls : List (Call × Job σ)) :
    (calling world calls).records.map (·.call) = calls.map (·.1) := by
  induction calls using List.reverseRecOn with
  | nil => rfl
  | append_singleton calls last ih =>
    obtain ⟨call,job⟩ := last
    rw [calling_append]
    simp [Conversation.step,ih]

theorem calling_unlimited (world : σ) (calls : List (Call × Job σ)) :
    (calling world calls).store.idleLimit = none := by
  induction calls using List.reverseRecOn with
  | nil => rfl
  | append_singleton calls last ih =>
    obtain ⟨call,job⟩ := last
    rw [calling_append]
    exact step_unlimited ih call job

theorem calling_fresh {world : σ} {calls : List (Call × Job σ)} {call : Call}
    (fresh : FreshIds (calls.map (·.1) ++ [call])) (unasked : requestedId? call.arguments = none) :
    ∀ record ∈ (calling world calls).records, record.call.id ≠ call.fresh := by
  intro record member
  refine FreshIds.last fresh unasked record.call ?_
  rw [← calling_records world calls]
  exact List.mem_map_of_mem member

theorem calling_tracked (world : σ) {calls : List (Call × Job σ)} (fresh : FreshIds (calls.map (·.1))) :
    (calling world calls).Tracked := by
  induction calls using List.reverseRecOn with
  | nil => exact ⟨by simp [calling,start,run,Store.empty,Table.get?],
      by simp [calling,start,run,Store.empty,Table.get?,epoch]⟩
  | append_singleton calls last ih =>
    obtain ⟨call,job⟩ := last
    rw [List.map_append,List.map_singleton] at fresh
    rw [calling_append]
    exact (ih (List.pairwise_append.mp fresh).1).step (calling_kept world calls)
      (calling_unlimited world calls) job (calling_fresh fresh)

theorem calling_merged (world : σ) {calls : List (Call × Job σ)} {call : Call}
    (fresh : FreshIds (calls.map (·.1) ++ [call])) :
    ∃ first, (call.merged (calling world calls).store).MadeBy first
      (epoch call.id (calling world calls).records ++ [call]) := by
  have tracked := calling_tracked world (List.pairwise_append.mp fresh).1
  rw [← tracked.callsOf_resolve (calling_kept world calls) (calling_unlimited world calls)
    (calling_fresh fresh)]
  exact (calling_kept world calls).merged call

end Conversation

def latestSupplied? (calls : List Call) (name : String) : Option Json :=
  calls.reverse.findSome? fun call => supplied? call.arguments name

def isUnsupplied (calls : List Call) (parameter : Parameter) : Bool :=
  calls.all fun call => (supplied? call.arguments parameter.name).isNone

theorem latestSupplied?_append (calls : List Call) (call : Call) (name : String) :
    latestSupplied? (calls ++ [call]) name =
      (supplied? call.arguments name).or (latestSupplied? calls name) := by
  cases given : supplied? call.arguments name <;> simp [latestSupplied?,given]

theorem latestSupplied?_isNone (calls : List Call) (parameter : Parameter) :
    (latestSupplied? calls parameter.name).isNone = isUnsupplied calls parameter := by
  rw [Bool.eq_iff_iff]
  simp [latestSupplied?,isUnsupplied]

section Schema

variable {schema : Schema} {calls : List Call}

theorem latest?_required (distinct : (schema.requiredNames ++ schema.optionalNames).Nodup)
    (same : ∀ call ∈ calls, call.schema = schema) {name : String}
    (declared : name ∈ schema.requiredNames) :
    Call.latest? calls name = latestSupplied? calls name := by
  have only : name ∉ schema.optionalNames :=
    fun other => (List.nodup_append.mp distinct).2.2 name declared name other rfl
  induction calls using List.reverseRecOn with
  | nil => rfl
  | append_singleton calls call ih =>
    rw [Call.latest?_append,latestSupplied?_append,Call.gives?,same call (by simp),
      merged?_required only declared,ih fun earlier member => same earlier (by simp [member])]

theorem latest?_optional (distinct : (schema.requiredNames ++ schema.optionalNames).Nodup)
    {call : Call} (same : call.schema = schema) {parameter : OptionalParameter}
    (declared : parameter ∈ schema.optional) :
    Call.latest? (calls ++ [call]) parameter.name =
      some ((supplied? call.arguments parameter.name).getD parameter.fallback) := by
  rw [Call.latest?_append,Call.gives?,same,
    merged?_optional (List.nodup_append.mp distinct).2.1 declared,Option.some_or]

theorem latest?_undeclared (same : ∀ call ∈ calls, call.schema = schema) {name : String}
    (required : name ∉ schema.requiredNames) (optional : name ∉ schema.optionalNames) :
    Call.latest? calls name = none := by
  refine List.findSome?_eq_none_iff.mpr fun call member => ?_
  rw [Call.gives?,same call (by simpa using member),merged?_undeclared required optional]

theorem description?_required (distinct : schema.requiredNames.Nodup) {parameter : Parameter}
    (declared : parameter ∈ schema.required) :
    schema.description? parameter.name = some parameter.description := by
  cases found : schema.required.find? (·.name == parameter.name) with
  | none => simpa using List.find?_eq_none.mp found parameter declared
  | some other =>
    have same : other.name = parameter.name := by simpa using List.find?_some found
    have equal := List.inj_on_of_nodup_map distinct (List.mem_of_find?_eq_some found) declared same
    simp [Schema.description?,found,equal]

theorem Session.MadeBy.nextMissing? {session : Session} {first : Call}
    (made : session.MadeBy first calls) (same : ∀ call ∈ calls, call.schema = schema)
    (distinct : (schema.requiredNames ++ schema.optionalNames).Nodup) :
    session.nextMissing? = (schema.required.find? (isUnsupplied calls)).map (·.name) := by
  have begun : first.schema = schema := same first (List.mem_of_mem_head? made.begun)
  rw [Session.nextMissing?,made.missing,begun,List.head?_filter,Schema.requiredNames,List.find?_map]
  congr 1
  refine List.find?_congr fun parameter declared => ?_
  rw [Function.comp_apply,latest?_required distinct same (List.mem_map_of_mem declared),
    latestSupplied?_isNone]

theorem Session.MadeBy.values {session : Session} {first call : Call}
    (made : session.MadeBy first (calls ++ [call]))
    (same : ∀ other ∈ calls ++ [call], other.schema = schema)
    (distinct : (schema.requiredNames ++ schema.optionalNames).Nodup) :
    (∀ name ∈ schema.requiredNames,
      Table.get? name session.collected = latestSupplied? (calls ++ [call]) name) ∧
    (∀ parameter ∈ schema.optional, Table.get? parameter.name session.collected =
      some ((supplied? call.arguments parameter.name).getD parameter.fallback)) ∧
    ∀ name, name ∉ schema.requiredNames → name ∉ schema.optionalNames →
      Table.get? name session.collected = none := by
  refine ⟨?_,?_,?_⟩
  · intro name declared
    rw [made.collected,latest?_required distinct same declared]
  · intro parameter declared
    rw [made.collected,latest?_optional distinct (same call (by simp)) declared]
  · intro name required optional
    rw [made.collected,latest?_undeclared same required optional]

end Schema

theorem epoch_all {world : σ} {calls : List (Call × Job σ)} {call : Call} {property : Call → Prop}
    (ours : ∀ other ∈ calls.map (·.1) ++ [call], other.id = call.id → property other) :
    ∀ other ∈ epoch call.id (Conversation.calling world calls).records ++ [call], property other := by
  intro other member
  rcases List.mem_append.mp member with old | new
  · obtain ⟨named,listed⟩ := epoch_recorded old
    rw [Conversation.calling_records] at listed
    exact ours other (List.mem_append_left _ listed) named
  · cases List.mem_singleton.mp new
    exact ours call (by simp) rfl

-- Several calls of one tool count as one: the values they supply are taken
-- together, each from the last call that has it, until a call completes. As long
-- as a required value is not there it is asked for, in the order of the schema.
theorem values_merge_across_calls {tool id : String} {schema : Schema}
    (distinct : (schema.requiredNames ++ schema.optionalNames).Nodup)
    (calls : List (Call × Job σ)) (call : Call) (job : Job σ) (world : σ)
    (fresh : FreshIds (calls.map (·.1) ++ [call])) (here : call.id = id)
    (ours : ∀ other ∈ calls.map (·.1) ++ [call],
      other.id = id → other.tool = tool ∧ other.schema = schema) :
    let before := Conversation.calling world calls
    let turn := call.run job before.store before.world
    let together := epoch id before.records ++ [call]
    (∀ parameter, schema.required.find? (isUnsupplied together) = some parameter →
      turn.outcome = .awaiting tool parameter.name parameter.description id ∧
        turn.ranOn = none ∧ turn.world = before.world) ∧
    (schema.required.find? (isUnsupplied together) = none → ∃ values,
      turn.ranOn = some values ∧ turn.world = (job values before.world).2 ∧
      turn.outcome = (match (job values before.world).1 with
        | .ok output => .completed output id
        | .error error => .failed tool error.message id) ∧
      (∀ name ∈ schema.requiredNames, Table.get? name values = latestSupplied? together name) ∧
      (∀ parameter ∈ schema.optional, Table.get? parameter.name values =
        some ((supplied? call.arguments parameter.name).getD parameter.fallback)) ∧
      ∀ name, name ∉ schema.requiredNames → name ∉ schema.optionalNames →
        Table.get? name values = none) := by
  intro before turn together
  subst here
  obtain ⟨first,made⟩ := Conversation.calling_merged world fresh
  have same : ∀ other ∈ together, other.tool = tool ∧ other.schema = schema := epoch_all ours
  have schemas : ∀ other ∈ together, other.schema = schema := fun other member => (same other member).2
  have begun := same first (List.mem_of_mem_head? made.begun)
  have last : call.schema = schema := schemas call (by simp [together])
  have asked := made.nextMissing? schemas distinct
  have ran : turn = call.finish job call.id (call.resolve before.store).handle
      (call.merged before.store) (call.resolve before.store).store before.world := by
    rw [← Call.resolve_id call before.store]; exact Call.run_finish ..
  refine ⟨?_,?_⟩
  · intro parameter missing
    rw [missing] at asked
    have described := description?_required (List.nodup_append.mp distinct).1
      (List.mem_of_find?_eq_some missing)
    rw [ran,Call.finish_awaiting asked,made.tool,begun.1,last,described]
    exact ⟨rfl,rfl,rfl⟩
  · intro complete
    rw [complete] at asked
    have values := made.values schemas distinct
    refine ⟨(call.merged before.store).collected,?_⟩
    rcases done : job (call.merged before.store).collected before.world with ⟨error | output,after⟩
    · rw [ran,Call.finish_failed asked done,made.tool,begun.1]
      exact ⟨rfl,rfl,rfl,values⟩
    · rw [ran,Call.finish_completed asked done]
      exact ⟨rfl,rfl,rfl,values⟩

theorem values_merge_for_a_pair :
    let schema : Schema := ⟨[⟨"left","first"⟩,⟨"right","second"⟩],[⟨"tag","label",.int 0⟩]⟩
    let on (id : String) (given : Arguments) : Call :=
      ⟨"pair",schema,("session_id",.text id) :: given,"generated",0⟩
    let job : Job Nat := fun _ runs => (.ok "done",runs + 1)
    let calls := [(on "a" [("right",.text "2"),("left",.null)],job),(on "b" [],job),
      (on " a" [("right",.text "3"),("left",.text " ")],job)]
    let call := on "a " [("left",.text "1")]
    let before := Conversation.calling 0 calls
    (schema.requiredNames ++ schema.optionalNames).Nodup ∧
      FreshIds (calls.map (·.1) ++ [call]) ∧ call.id = "a" ∧
      (∀ other ∈ calls.map (·.1) ++ [call],
        other.id = "a" → other.tool = "pair" ∧ other.schema = schema) ∧
      ∃ values, (call.run job before.store before.world).ranOn = some values ∧
        (Table.get? "left" values).bind Json.text? = some "1" ∧
        (Table.get? "right" values).bind Json.text? = some "3" ∧
        Table.get? "tag" values = some (.int 0) := by
  intro schema on job calls call before
  have distinct : (schema.requiredNames ++ schema.optionalNames).Nodup := by decide
  have asked : ∀ other ∈ calls.map (·.1) ++ [call], requestedId? other.arguments ≠ none := by
    simp only [calls,call,on,List.map_cons,List.map_nil,List.cons_append,List.nil_append,List.forall_mem_cons]
    decide
  have fresh : FreshIds (calls.map (·.1) ++ [call]) := by
    have all : (calls.map (·.1) ++ [call]).Pairwise fun _ _ => True := List.pairwise_of_forall (by simp)
    exact all.imp_of_mem fun _ member _ unasked => absurd unasked (asked _ member)
  have here : call.id = "a" := by decide
  have ours : ∀ other ∈ calls.map (·.1) ++ [call],
      other.id = "a" → other.tool = "pair" ∧ other.schema = schema := by
    simp [calls,call,on]
  refine ⟨distinct,fresh,here,ours,?_⟩
  have supplied : schema.required.find?
      (isUnsupplied (epoch "a" (Conversation.calling 0 calls).records ++ [call])) = none := by decide
  obtain ⟨values,ran,_,_,required,optional,_⟩ :=
    (values_merge_across_calls distinct calls call job 0 fresh here ours).2 supplied
  refine ⟨values,ran,?_,?_,?_⟩
  · rw [required "left" (by decide)]; decide
  · rw [required "right" (by decide)]; decide
  · exact optional ⟨"tag","label",.int 0⟩ (by simp [schema])

end ToolDialogue
