import ToolDialogue.Proofs.Dialogue.Lifecycle
import ToolDialogue.Proofs.Server.Entries

namespace ToolDialogue

namespace Rpc

variable {request : Request} {response : Response} {tool : Tool} {given : Given}

theorem Request.isNotification_iff : request.isNotification = true ↔ ∃ rest, request.method = notificationStart ++ rest := by
  rw [isNotification,List.isPrefixOf_iff_prefix]
  constructor
  · rintro ⟨rest,spelled⟩
    refine ⟨String.ofList rest,?_⟩
    apply String.toList_inj.mp
    rw [String.toList_append,String.toList_ofList,spelled]
  · rintro ⟨rest,spelled⟩
    exact ⟨rest.toList,by rw [spelled,String.toList_append]⟩

structure Request.Calls (request : Request) (tool : Tool) (given : Given) : Prop where
  method : request.method = "tools/call"
  params : ∃ params, request.params = some params ∧ params.member? "name" = some (.text tool.name) ∧
    params.member? "arguments" = given.json?

theorem Request.Calls.carries (calls : request.Calls tool given) (version : request.version = "2.0")
    (moment : Moment) : (Entry.message request).Carries ⟨tool.name,given,moment⟩ :=
  ⟨version,calls.method,calls.params⟩

inductive Request.Idle (request : Request) : Prop where
  | greets (method : request.method = "initialize")
  | lists (method : request.method = "tools/list")
  | notifies {rest : String} (method : request.method = "notifications/" ++ rest)
  | unknown {params : Json} {name : String} (method : request.method = "tools/call")
      (brought : request.params = some params) (named : params.member? "name" = some (.text name))
      (none : ∀ tool : Tool, tool.name ≠ name)

theorem Request.Idle.not_calls (idle : request.Idle) : ¬request.Calls tool given := by
  rintro ⟨method,params,brought,named,-⟩
  cases idle with
  | greets other => exact absurd (method.symm.trans other) (by decide)
  | lists other => exact absurd (method.symm.trans other) (by decide)
  | notifies other =>
    have notification : request.isNotification = true := isNotification_iff.mpr ⟨_,other⟩
    rw [isNotification,method] at notification
    exact absurd notification (by decide)
  | unknown _ same called none =>
    cases brought.symm.trans same
    cases named.symm.trans called
    exact none tool rfl

structure Response.Formed (response : Response) (id : Option Json) : Prop where
  id : response.toJson.member? "id" = id
  version : response.toJson.member? "jsonrpc" = some (.text "2.0")
  either : (response.toJson.member? "result").isSome = true ↔ response.toJson.member? "error" = none

theorem Response.formed (response : Response) : response.Formed response.id := by
  obtain ⟨_ | id,value | ⟨code,message⟩⟩ := response
  · exact ⟨rfl,rfl,iff_of_true rfl rfl⟩
  · exact ⟨rfl,rfl,iff_of_false Bool.false_ne_true (Option.some_ne_none _)⟩
  · exact ⟨rfl,rfl,iff_of_true rfl rfl⟩
  · exact ⟨rfl,rfl,iff_of_false Bool.false_ne_true (Option.some_ne_none _)⟩

theorem Response.error_sent (sent : (response.toJson.member? "error").isSome = true) :
    ∃ code message, response.content = .error code message := by
  obtain ⟨_ | id,value | ⟨code,message⟩⟩ := response
  · cases sent
  · exact ⟨code,message,rfl⟩
  · cases sent
  · exact ⟨code,message,rfl⟩

end Rpc

namespace Server

open Rpc

variable {server : Server} {request : Request} {moment : Moment} {tool : Tool} {arguments : Arguments}
  {answered : Option Response × Server}

-- The job of the tool is run and comes to an error. The listing has no job.
def Fails (server : Server) (tool : Tool) (arguments : Arguments) (moment : Moment) : Prop :=
  ∃ asking values error, tool = .asking asking ∧ (server.turn asking arguments moment).ranOn = some values ∧
    (asking.job server.config moment.now values server.tree).1 = .error error

theorem turn_isError (asking : AskingTool) : (server.turn asking arguments moment).outcome.isError = true ↔
    ∃ values error, (server.turn asking arguments moment).ranOn = some values ∧
      (asking.job server.config moment.now values server.tree).1 = .error error := by
  have ended : Call.Ended _ _ server.store server.tree (server.turn asking arguments moment) :=
    Call.run_ended _ _ _ _
  generalize server.turn asking arguments moment = turn at ended ⊢
  cases ended with
  | awaiting => simp [Outcome.isError]
  | completed done => simp [Outcome.isError,done]
  | failed done => simp [Outcome.isError,done]

theorem useTool_isError : (server.useTool tool arguments moment).1.isError = true ↔
    server.Fails tool arguments moment := by
  cases tool with
  | listSessions =>
    refine iff_of_false Bool.false_ne_true ?_
    rintro ⟨asking,values,error,same,-⟩
    cases same
  | asking asking =>
    constructor
    · intro wrong
      obtain ⟨values,error,ran,returned⟩ := (turn_isError asking).mp wrong
      exact ⟨asking,values,error,rfl,ran,returned⟩
    · rintro ⟨other,values,error,same,ran,returned⟩
      cases same
      exact (turn_isError asking).mpr ⟨values,error,ran,returned⟩

-- The ways in which a message is dealt with. Only a call of a tool gets as far as the tool.
inductive Deals (server : Server) (request : Request) (moment : Moment) : Option Response × Server → Prop where
  | refused {code : Int} {message : String} :
      Deals server request moment (some ⟨request.id,.error code message⟩,server)
  | passed (notification : request.isNotification = true) : Deals server request moment (none,server)
  | told {value : Json} : Deals server request moment (some ⟨request.id,.result value⟩,server)
  | called {tool : Tool} {given : Given} (version : request.version = "2.0") (calls : request.Calls tool given) :
      Deals server request moment (some ⟨request.id,.result (server.useTool tool given.arguments moment).1.toJson⟩,
        (server.useTool tool given.arguments moment).2)

theorem given_of_arguments {value : Option Json} (taken : argumentsOf (value.getD .null) = .ok arguments) :
    ∃ given : Given, given.json? = value ∧ given.arguments = arguments := by
  cases value with
  | none => cases taken; exact ⟨.absent,rfl,rfl⟩
  | some value =>
    cases value with
    | null => cases taken; exact ⟨.null,rfl,rfl⟩
    | object members => cases taken; exact ⟨.object arguments,rfl,rfl⟩
    | _ => cases taken

theorem answerCall_deals (version : request.version = "2.0") (method : request.method = "tools/call") :
    server.Deals request moment
      (some ⟨request.id,(server.answerCall request.params moment).1⟩,(server.answerCall request.params moment).2) := by
  unfold answerCall
  split
  · exact .refused
  · next params brought =>
    split
    · next name named =>
      cases taken : argumentsOf ((params.member? "arguments").getD .null) with
      | error text =>
        simp only [callWith,taken]
        exact .refused
      | ok arguments =>
        obtain ⟨given,spelled,rfl⟩ := given_of_arguments taken
        simp only [callWith,taken]
        cases found : Tool.ofName? name with
        | none =>
          simp only [callTool,found]
          exact .told
        | some tool =>
          have same : tool.name = name := by simpa using List.find?_some found
          subst same
          simp only [callTool,found]
          exact .called version ⟨method,params,brought,named,spelled.symm⟩
    · exact .refused

theorem answerMethod_deals (version : request.version = "2.0") :
    server.Deals request moment
      (some ⟨request.id,(server.answerMethod request moment).1⟩,(server.answerMethod request moment).2) := by
  unfold answerMethod
  split
  · exact .told
  · exact .told
  · next method => exact answerCall_deals version method
  · exact .refused

theorem answer_deals (server : Server) (request : Request) (moment : Moment) :
    server.Deals request moment (server.answer request moment) := by
  unfold answer
  split
  · exact .refused
  · next version =>
    split
    · next notification => exact .passed notification
    · exact answerMethod_deals (not_ne_iff.mp version)

theorem Deals.id (deals : server.Deals request moment answered) {response : Response}
    (given : answered.1 = some response) : response.id = request.id := by
  cases deals <;> cases given <;> rfl

theorem Deals.refused_unchanged (deals : server.Deals request moment answered) {response : Response}
    (given : answered.1 = some response) (sent : (response.toJson.member? "error").isSome = true) :
    answered.2 = server := by
  obtain ⟨code,message,content⟩ := Response.error_sent sent
  cases deals with
  | called version calls => cases given; cases content
  | _ => rfl

theorem Deals.effective (deals : server.Deals request moment answered) (changed : answered.2 ≠ server) :
    request.version = "2.0" ∧ ∃ tool given, request.Calls tool given := by
  cases deals with
  | called version calls => exact ⟨version,_,_,calls⟩
  | _ => exact absurd rfl changed

theorem answer_outdated (outdated : request.version ≠ "2.0") :
    server.answer request moment = (some ⟨request.id,invalidRequest⟩,server) := if_pos outdated

theorem answer_called (version : request.version = "2.0") {given : Given} (calls : request.Calls tool given) :
    (server.answer request moment).1 =
      some ⟨request.id,.result (server.useTool tool given.arguments moment).1.toJson⟩ := by
  rw [server.answer_given _ (calls.carries version moment),callTool,Tool.ofName?_name]

structure Settles (server : Server) (request : Request) (moment : Moment) (response? : Option Response)
    (after : Server) : Prop where
  formed : ∀ response, response? = some response → response.Formed request.id
  refused : ∀ response, response? = some response → (response.toJson.member? "error").isSome = true → after = server
  idle : request.Idle → after = server
  effective : after ≠ server → request.version = "2.0" ∧ ∃ tool given, request.Calls tool given
  -- the program stops in the purge where the idle limit overruns the calendar
  called : ∀ tool given, request.version = "2.0" → request.Calls tool given →
    server.store.overruns moment.now = false → ∃ reply : Reply,
      response? = some ⟨request.id,.result reply.toJson⟩ ∧
        (reply.isError = true ↔ server.Fails tool given.arguments moment)
  outdated : request.version ≠ "2.0" → response? = some ⟨request.id,invalidRequest⟩

-- A message is refused, answered or passed over without any trace in the sessions and the
-- files. Only a call of a tool may leave one, and the failure of a tool is a result.
theorem answer_settles (server : Server) (request : Request) (moment : Moment) :
    server.Settles request moment (server.answer request moment).1 (server.answer request moment).2 := by
  have deals := server.answer_deals request moment
  refine ⟨?_,fun response => deals.refused_unchanged,?_,deals.effective,?_,?_⟩
  · intro response given
    rw [← deals.id given]
    exact response.formed
  · intro idle
    by_contra changed
    obtain ⟨-,tool,given,calls⟩ := deals.effective changed
    exact idle.not_calls calls
  · intro tool given version calls _
    exact ⟨_,answer_called version calls,useTool_isError⟩
  · intro outdated
    rw [answer_outdated outdated]

theorem outdated_call_refused :
    let request : Request := ⟨"1.0",some (.int 1),"tools/call",some (.object [("name",.text "list_sessions")])⟩
    let server := start .standard ⟨[],[]⟩
    request.Calls .listSessions .absent ∧ server.store.overruns 0 = false ∧
      (server.answer request ⟨0,"fresh"⟩).1 = some ⟨some (.int 1),.error (-32600) "Invalid Request"⟩ :=
  ⟨⟨rfl,_,rfl,rfl,rfl⟩,rfl,rfl⟩

theorem answered_by_method (server : Server) (request : Request) (moment : Moment) :
    ((server.answer request moment).1.isSome = true ↔
        (request.version = "2.0" → ¬∃ rest, request.method = "notifications/" ++ rest)) ∧
      ∀ response, (server.answer request moment).1 = some response → response.id = request.id := by
  refine ⟨?_,fun response => (server.answer_deals request moment).id⟩
  have notified : request.isNotification = true ↔ ∃ rest, request.method = "notifications/" ++ rest :=
    Request.isNotification_iff
  rw [← notified,answer]
  split
  · next outdated => exact iff_of_true rfl fun current => absurd current outdated
  · next version =>
    split
    · next passed => exact iff_of_false Bool.false_ne_true fun asked => asked (not_ne_iff.mp version) passed
    · next asked => exact iff_of_true rfl fun _ => asked

theorem answered_without_id :
    let server := start .standard ⟨[],[]⟩
    (server.answer ⟨"2.0",none,"ping",none⟩ ⟨0,"fresh"⟩).1 = some ⟨none,.error (-32601) "Method not found"⟩ ∧
      (server.answer ⟨"2.0",some (.int 1),"notifications/initialized",none⟩ ⟨0,"fresh"⟩).1 = none :=
  ⟨rfl,rfl⟩

end Server

end ToolDialogue
