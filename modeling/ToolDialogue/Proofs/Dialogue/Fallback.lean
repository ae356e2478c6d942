import ToolDialogue.Proofs.Dialogue.Merge

namespace ToolDialogue

variable {σ : Type} {schema : Schema} {calls : List Call} {call : Call}

def OptionalParameter.brought (parameter : OptionalParameter) (call : Call) : Json :=
  (supplied? call.arguments parameter.name).getD parameter.fallback

def OptionalParameter.remembered (parameter : OptionalParameter) (calls : List Call) : Json :=
  (latestSupplied? calls parameter.name).getD parameter.fallback

-- What is brought and what is remembered differ exactly where this call supplies nothing and an
-- earlier one has supplied something else than the fallback.
theorem remembered_eq_brought (parameter : OptionalParameter) (calls : List Call) (call : Call) :
    parameter.remembered (calls ++ [call]) = parameter.brought call ↔
      (supplied? call.arguments parameter.name).isSome ∨
        ∀ value, latestSupplied? calls parameter.name = some value → value = parameter.fallback := by
  rw [OptionalParameter.brought,OptionalParameter.remembered,latestSupplied?_append]
  cases supplied? call.arguments parameter.name with
  | some value => simp
  | none =>
    cases latestSupplied? calls parameter.name with
    | none => simp
    | some value => simp

theorem Session.MadeBy.missing_eq_nil {session : Session} {first : Call} (made : session.MadeBy first calls)
    (same : ∀ other ∈ calls, other.schema = schema)
    (distinct : (schema.requiredNames ++ schema.optionalNames).Nodup) :
    session.missing = [] ↔ schema.required.find? (isUnsupplied calls) = none := by
  have asked := made.nextMissing? same distinct
  rw [Session.nextMissing?] at asked
  rw [← List.head?_eq_none_iff,asked,Option.map_eq_none_iff]

-- The job runs once every required value is there, from whichever call of the session.
-- For an optional parameter it gets what the call that runs it supplies, or else the
-- fallback, whatever earlier calls have supplied.
theorem optional_values_of_the_running_call
    (distinct : (schema.requiredNames ++ schema.optionalNames).Nodup) (limit : Option Span) (world : σ)
    (events : List (Event σ)) (call : Call) (job : Job σ) :
    let before := (Conversation.start ⟨[],[],limit⟩ world).run events
    let earlier := before.callsOf (call.resolve before.store).handle
    let turn := call.run job before.store before.world
    (∀ other ∈ earlier ++ [call], other.schema = schema) →
      (turn.ranOn.isSome ↔ schema.required.find? (isUnsupplied (earlier ++ [call])) = none) ∧
      ∀ values, turn.ranOn = some values → ∀ parameter ∈ schema.optional,
        Table.get? parameter.name values = some (parameter.brought call) ∧
        (parameter.remembered (earlier ++ [call]) = parameter.brought call ↔
          (supplied? call.arguments parameter.name).isSome ∨
            ∀ value, latestSupplied? earlier parameter.name = some value → value = parameter.fallback) := by
  intro before earlier turn same
  have kept : before.Kept := (Conversation.Kept.start rfl rfl world).run events
  obtain ⟨first,made⟩ : ∃ first, (call.merged before.store).MadeBy first (earlier ++ [call]) := kept.merged call
  have ran : turn.ranOn =
      if (call.merged before.store).missing = [] then some (call.merged before.store).collected else none :=
    Call.finish_ranOn
  constructor
  · rw [ran,← made.missing_eq_nil same distinct]
    split <;> simp_all
  · intro values run parameter declared
    refine ⟨?_,remembered_eq_brought parameter earlier call⟩
    rw [ran] at run
    split at run
    · cases run
      exact (made.values same distinct).2.1 parameter declared
    · cases run

theorem optional_value_falls_back :
    let schema : Schema := ⟨[⟨"expression","text"⟩],[⟨"format","layout",.text "decimal"⟩]⟩
    let on (given : Arguments) : Call := ⟨"calculate",schema,("session_id",.text "s") :: given,"generated",0⟩
    let job : Job Nat := fun _ runs => (.ok "done",runs + 1)
    let before := (Conversation.start ⟨[],[],none⟩ 0).run [.call (on [("format",.text "fraction")]) job]
    let call := on [("expression",.text "1/2")]
    let earlier := before.callsOf (call.resolve before.store).handle
    (schema.requiredNames ++ schema.optionalNames).Nodup ∧
      (∀ other ∈ earlier ++ [call], other.schema = schema) ∧
      ∃ values, (call.run job before.store before.world).ranOn = some values ∧
        Table.get? "format" values = some (.text "decimal") := by
  intro schema on job before call earlier
  have distinct : (schema.requiredNames ++ schema.optionalNames).Nodup := by decide
  have one : earlier = [on [("format",.text "fraction")]] := by rfl
  have same : ∀ other ∈ earlier ++ [call], other.schema = schema := by
    rw [one]
    simp [call,on]
  obtain ⟨runs,chosen⟩ := optional_values_of_the_running_call distinct none 0
    [.call (on [("format",.text "fraction")]) job] call job same
  obtain ⟨values,run⟩ := Option.isSome_iff_exists.mp (runs.mpr (by decide))
  refine ⟨distinct,same,values,run,?_⟩
  exact (chosen values run ⟨"format","layout",.text "decimal"⟩ (by simp [schema])).1

theorem earlier_optional_value_is_lost :
    let schema : Schema := ⟨[⟨"expression","text"⟩],[⟨"format","layout",.text "decimal"⟩]⟩
    let on (given : Arguments) : Call := ⟨"calculate",schema,("session_id",.text "s") :: given,"generated",0⟩
    let job : Job Nat := fun _ runs => (.ok "done",runs + 1)
    let before := (Conversation.start ⟨[],[],none⟩ 0).run [.call (on [("format",.text "fraction")]) job]
    let call := on [("expression",.text "1/2")]
    let together := before.callsOf (call.resolve before.store).handle ++ [call]
    (schema.requiredNames ++ schema.optionalNames).Nodup ∧
      (∀ other ∈ together, other.tool = "calculate" ∧ other.id = "s" ∧ other.schema = schema) ∧
      (latestSupplied? together "format").bind Json.text? = some "fraction" ∧
      ∃ values, (call.run job before.store before.world).ranOn = some values ∧
        (Table.get? "format" values).bind Json.text? = some "decimal" := by
  intro schema on job before call together
  have both : together = [on [("format",.text "fraction")],call] := by rfl
  have ours : ∀ other ∈ together, other.tool = "calculate" ∧ other.id = "s" ∧ other.schema = schema := by
    rw [both]
    intro other member
    rcases List.mem_pair.mp member with rfl | rfl
    · exact ⟨rfl,by decide,rfl⟩
    · exact ⟨rfl,by decide,rfl⟩
  refine ⟨by decide,ours,by decide,[("format",.text "decimal"),("expression",.text "1/2")],?_,by decide⟩
  rfl

end ToolDialogue
