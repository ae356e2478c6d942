import ToolDialogue.Proofs.Server.Uses

namespace ToolDialogue

namespace AskingTool

def Supplied (tool : AskingTool) (calls : List Call) : Prop :=
  ∀ name ∈ tool.schema.requiredNames, ∃ call ∈ calls, (supplied? call.arguments name).isSome

def Given (tool : AskingTool) (calls : List Call) : Prop :=
  ∀ name ∈ tool.schema.requiredNames,
    ∃ call ∈ calls, call.tool = tool.name ∧ (supplied? call.arguments name).isSome

variable {tool owner : AskingTool} {calls : List Call}

theorem Given.supplied (given : tool.Given calls) : tool.Supplied calls := by
  intro name declared
  obtain ⟨call,member,_,value⟩ := given name declared
  exact ⟨call,member,value⟩

theorem Supplied.given (supplied : tool.Supplied calls)
    (alone : ∀ call ∈ calls, call.tool = tool.name) : tool.Given calls := by
  intro name declared
  obtain ⟨call,member,value⟩ := supplied name declared
  exact ⟨call,member,alone call member,value⟩

theorem names_apart (tool owner : AskingTool) {name : String} (declared : name ∈ owner.schema.requiredNames) :
    name ∉ tool.schema.optionalNames ∧ (name ∈ tool.schema.requiredNames → tool = owner) := by
  have apart : ∀ name ∈ owner.schema.requiredNames,
      name ∉ tool.schema.optionalNames ∧ (name ∈ tool.schema.requiredNames → tool = owner) := by
    cases owner <;> cases tool <;> decide
  exact apart name declared

theorem gives?_required {arguments : Arguments} {moment : Moment} {name : String}
    (declared : name ∈ owner.schema.requiredNames) :
    ((tool.call arguments moment).gives? name).isSome ↔
      (tool.call arguments moment).tool = owner.name ∧ (supplied? arguments name).isSome := by
  obtain ⟨mandatory,own⟩ := names_apart tool owner declared
  rw [Call.gives?,call,merged?_isSome]
  constructor
  · rintro (optional | ⟨required,value⟩)
    · exact absurd optional mandatory
    · exact ⟨by rw [own required],value⟩
  · rintro ⟨same,value⟩
    have same : tool = owner := name_injective same
    exact .inr ⟨same ▸ declared,value⟩

theorem given_iff (made : ∀ call ∈ calls, ∃ tool arguments moment, call = AskingTool.call tool arguments moment) :
    owner.Given calls ↔ ∀ name ∈ owner.schema.requiredNames, (Call.latest? calls name).isSome := by
  refine forall_congr' fun name => imp_congr_right fun declared => ?_
  rw [Call.latest?_isSome]
  refine exists_congr fun call => and_congr_right fun member => ?_
  obtain ⟨tool,arguments,moment,rfl⟩ := made call member
  exact (gives?_required declared).symm

end AskingTool

namespace Server

def sessionCalls (conversation : Conversation File.Tree) (call : Call) : List Call :=
  conversation.callsOf (call.resolve conversation.store).handle ++ [call]

theorem sessionCalls_made {config : Config} {tree : File.Tree} {uses : List Use} {tool : AskingTool}
    {arguments : Arguments} {moment : Moment} :
    ∀ call ∈ sessionCalls (history config tree uses) (tool.call arguments moment),
      ∃ tool arguments moment, call = AskingTool.call tool arguments moment := by
  intro call member
  rcases List.mem_append.mp member with old | new
  · obtain ⟨record,listed,rfl⟩ := List.mem_map.mp old
    exact history_calls (List.mem_of_mem_filter listed)
  · cases List.mem_singleton.mp new; exact ⟨tool,arguments,moment,rfl⟩

theorem turn_ranOn (config : Config) (tree : File.Tree) (uses : List Use) (tool : AskingTool)
    (arguments : Arguments) (moment : Moment) :
    let turn := ((start config tree).serve uses).turn tool arguments moment
    let calls := sessionCalls (history config tree uses) (tool.call arguments moment)
    ∃ owner : AskingTool, calls.head?.map (·.tool) = some owner.name ∧
      (turn.ranOn.isSome ↔ owner.Given calls) ∧
      ∀ values, turn.ranOn = some values →
        ∀ other : AskingTool, (∀ name ∈ other.schema.requiredNames, Table.has name values) ↔
          other.Given calls := by
  intro turn calls
  have made : ∀ call ∈ calls, ∃ tool arguments moment, call = AskingTool.call tool arguments moment :=
    sessionCalls_made
  let merged := (tool.call arguments moment).merged (history config tree uses).store
  obtain ⟨first,session⟩ : ∃ first, merged.MadeBy first calls := (history_kept config tree uses).merged _
  obtain ⟨owner,given,began,rfl⟩ := made first (List.mem_of_mem_head? session.begun)
  have ran : turn.ranOn = if merged.missing = [] then some merged.collected else none := by
    simp only [turn,Server.turn,(serve_history config tree uses).2.1]
    exact Call.finish_ranOn
  refine ⟨owner,by rw [session.begun]; rfl,?_,?_⟩
  · have empty : merged.missing = [] ↔ owner.Given calls := by
      rw [session.missing,AskingTool.given_iff made]
      simp [List.filter_eq_nil_iff,AskingTool.call,Option.isSome_iff_ne_none]
    rw [ran,← empty]
    split <;> simp_all
  · intro values run other
    rw [ran] at run
    split at run
    · cases run
      simp only [Table.has,session.collected]
      exact (AskingTool.given_iff made).symm
    · cases run

-- A job runs once the tool that opened the session has been given all it asks for,
-- on whatever is there then. So the tool that is called decides about its own run
-- as long as a session is kept to one tool, and among several tools exactly when
-- the opening tool does not have its values before the called one and the called
-- one does not have, or see lost, its values before the opening one.
theorem guard_holds_iff (config : Config) (tree : File.Tree) (uses : List Use) (tool : AskingTool)
    (arguments : Arguments) (moment : Moment) :
    let server := (start config tree).serve uses
    let turn := server.turn tool arguments moment
    let calls := sessionCalls (history config tree uses) (tool.call arguments moment)
    ∃ owner : AskingTool, calls.head?.map (·.tool) = some owner.name ∧
      (turn.ranOn.isSome ↔ owner.Given calls) ∧
      (((turn.ranOn.isSome ↔ tool.Supplied calls) ∧
          ∀ values, turn.ranOn = some values → ∀ name ∈ tool.schema.requiredNames,
            Table.has name values) ↔
        (owner.Given calls → tool.Given calls) ∧ (tool.Supplied calls → owner.Given calls)) ∧
      ((∀ call ∈ calls, call.tool = tool.name) →
        (owner.Given calls → tool.Given calls) ∧ (tool.Supplied calls → owner.Given calls)) := by
  intro server turn calls
  obtain ⟨owner,opened,runs,holds⟩ := turn_ranOn config tree uses tool arguments moment
  refine ⟨owner,opened,runs,?_,?_⟩
  · constructor
    · rintro ⟨guarded,complete⟩
      refine ⟨fun given => ?_,fun supplied => runs.mp (guarded.mpr supplied)⟩
      obtain ⟨values,run⟩ := Option.isSome_iff_exists.mp (runs.mpr given)
      exact (holds values run tool).mp (complete values run)
    · rintro ⟨enough,soon⟩
      refine ⟨⟨fun run => (enough (runs.mp run)).supplied,fun supplied => runs.mpr (soon supplied)⟩,?_⟩
      intro values run
      have given := runs.mp (Option.isSome_iff_exists.mpr ⟨values,run⟩)
      exact (holds values run tool).mpr (enough given)
  · intro alone
    obtain ⟨first,listed,named⟩ := Option.map_eq_some_iff.mp opened
    have same : owner = tool :=
      AskingTool.name_injective (named.symm.trans (alone first (List.mem_of_mem_head? listed)))
    subst same
    exact ⟨id,fun supplied => supplied.given alone⟩

-- A session that one tool has opened and failed in lets another tool run on nothing
-- of what that one asks for.
theorem job_runs_without_its_values :
    let uses : List Use :=
      [⟨"calculate",[("session_id",.text "s"),("expression",.text "(")],⟨0,"first"⟩⟩]
    let call := AskingTool.createFile.call [("session_id",.text "s")] ⟨1,"second"⟩
    ((((start .standard ⟨[],[]⟩).serve uses).turn .createFile call.arguments ⟨1,"second"⟩).ranOn).isSome ∧
      ¬AskingTool.createFile.Supplied (sessionCalls (history .standard ⟨[],[]⟩ uses) call) := by
  refine ⟨by decide +kernel,?_⟩
  unfold AskingTool.Supplied
  decide +kernel

end Server

end ToolDialogue
