import ToolDialogue.Rpc.Answer
import ToolDialogue.Server.Router

namespace ToolDialogue

def Reply.ofJson? (value : Json) : Option Reply :=
  match value.member? "content",value.member? "isError" with
  | some (.array [item]),some (.bool isError) =>
    (item.member? "text").bind fun text => text.text?.map fun text => ⟨text,isError⟩
  | _,_ => none

theorem Reply.ofJson?_toJson (reply : Reply) : ofJson? reply.toJson = some reply := by
  rfl

def Tool.route : Tool → Route
  | .asking tool => tool.route
  | .listSessions => listingRoute

namespace Tool

theorem name_injective {a b : Tool} (same : a.name = b.name) : a = b := by
  have found := ofName?_name a
  rw [same,ofName?_name] at found
  exact (Option.some.inj found).symm

theorem mem_all (tool : Tool) : tool ∈ all := by
  rcases tool with tool | _
  · cases tool <;> decide
  · decide

end Tool

namespace Routing

variable {ρ : Type}

-- A call is handed to the route that was added last under exactly its name.
structure Exact (routing : Routing ρ) : Prop where
  has_empty : ∀ name, routing.has routing.empty name = false
  has_add : ∀ routes route name,
    routing.has (routing.add routes route) name = (decide (name = route.name) || routing.has routes name)
  dispatch_add : ∀ routes route name server arguments moment,
    routing.dispatch (routing.add routes route) name server arguments moment =
      if name = route.name then some (route.answer server arguments moment)
      else routing.dispatch routes name server arguments moment

theorem table_exact : table.Exact := by
  refine ⟨?_,?_,?_⟩
  · intro name
    rfl
  · intro routes route name
    simp only [table,Table.has,Table.get?_put]
    by_cases same : name = route.name <;> simp [same]
  · intro routes route name server arguments moment
    simp only [table,Table.get?_put]
    by_cases same : name = route.name <;> simp [same]

theorem route_name (tool : Tool) : tool.route.name = tool.name := by
  cases tool <;> rfl

theorem route_answer (tool : Tool) (server : Server) (arguments : Option Arguments) (moment : Moment) :
    tool.route.answer server arguments moment = server.useTool tool (arguments.getD []) moment := by
  cases tool <;> rfl

theorem tools_routes (routing : Routing ρ) :
    routing.tools = (Tool.all.map Tool.route).foldl routing.add routing.empty := rfl

variable {routing : Routing ρ}

theorem Exact.has_routes (exact : routing.Exact) (tools : List Tool) (routes : ρ) (name : String) :
    routing.has ((tools.map Tool.route).foldl routing.add routes) name =
      (tools.any (·.name == name) || routing.has routes name) := by
  induction tools generalizing routes with
  | nil => rfl
  | cons tool rest ih =>
    rw [List.map_cons,List.foldl_cons,ih,exact.has_add,route_name,List.any_cons]
    have sides : decide (name = tool.name) = (tool.name == name) := by
      rw [Bool.eq_iff_iff,decide_eq_true_eq,beq_iff_eq,eq_comm]
    rw [sides,← Bool.or_assoc,Bool.or_comm (rest.any _)]

theorem Exact.dispatch_routes (exact : routing.Exact) (tools : List Tool) (routes : ρ) (tool : Tool)
    (server : Server) (arguments : Option Arguments) (moment : Moment) :
    routing.dispatch ((tools.map Tool.route).foldl routing.add routes) tool.name server arguments moment =
      if tool ∈ tools then some (server.useTool tool (arguments.getD []) moment)
      else routing.dispatch routes tool.name server arguments moment := by
  induction tools generalizing routes with
  | nil => rfl
  | cons first rest ih =>
    rw [List.map_cons,List.foldl_cons,ih,exact.dispatch_add,route_name,route_answer]
    by_cases listed : tool ∈ rest
    · rw [if_pos listed,if_pos (List.mem_cons_of_mem _ listed)]
    · rw [if_neg listed]
      by_cases same : tool = first
      · subst same
        rw [if_pos rfl,if_pos List.mem_cons_self]
      · have names : tool.name ≠ first.name := fun equal => same (Tool.name_injective equal)
        have apart : tool ∉ first :: rest := by
          rw [List.mem_cons]
          exact not_or.mpr ⟨same,listed⟩
        rw [if_neg names,if_neg apart]

end Routing

inductive Given where
  | absent
  | null
  | object (arguments : Arguments)
  deriving Repr

namespace Given

def json? : Given → Option Json
  | .absent => none
  | .null => some .null
  | .object arguments => some (.object arguments)

def object? : Given → Option Arguments
  | .object arguments => some arguments
  | _ => none

def arguments (given : Given) : Arguments := given.object?.getD []

theorem argumentsOf_json (given : Given) : Server.argumentsOf (given.json?.getD .null) = .ok given.arguments := by
  cases given <;> rfl

end Given

structure ToolCall where
  name : String
  given : Given
  moment : Moment
  deriving Repr

inductive Entry where
  | direct
  | checked
  | message (request : Rpc.Request)
  | kept
  deriving Repr

def Entry.Carries : Entry → ToolCall → Prop
  | .message request,call => request.version = "2.0" ∧ request.method = "tools/call" ∧
    ∃ params, request.params = some params ∧ params.member? "name" = some (.text call.name) ∧
      params.member? "arguments" = call.given.json?
  | _,_ => True

namespace Server

variable {ρ : Type} {routing : Routing ρ} (server : Server) (call : ToolCall)

theorem callWith_given : server.callWith call.name (call.given.json?.getD .null) call.moment =
    (.ok (server.callTool call.name call.given.arguments call.moment).1,
      (server.callTool call.name call.given.arguments call.moment).2) := by
  rw [callWith,call.given.argumentsOf_json]

theorem answer_given {request : Rpc.Request} (carries : (Entry.message request).Carries call) :
    server.answer request call.moment =
      (some ⟨request.id,.result (server.callTool call.name call.given.arguments call.moment).1.toJson⟩,
        (server.callTool call.name call.given.arguments call.moment).2) := by
  obtain ⟨version,method,params,brought,named,given⟩ := carries
  have asked : request.isNotification = false := by
    rw [Rpc.Request.isNotification,method]
    decide
  have answered : server.answerMethod request call.moment = server.answerCall (some params) call.moment := by
    rw [answerMethod,method,brought]
    rfl
  have called : server.answerCall (some params) call.moment =
      (.result (server.callTool call.name call.given.arguments call.moment).1.toJson,
        (server.callTool call.name call.given.arguments call.moment).2) := by
    simp only [answerCall,named,given,callWith_given]
  rw [answer,version,if_neg (by decide),asked,if_neg (by decide),answered,called]

theorem callRouted_eq (exact : routing.Exact) (name : String) (arguments : Option Arguments) (moment : Moment) :
    server.callRouted routing name arguments moment =
      some (server.callTool name (arguments.getD []) moment) := by
  rw [callRouted,Routing.tools_routes,exact.has_routes,exact.has_empty,Bool.or_false]
  cases found : Tool.ofName? name with
  | none =>
    have unrouted : Tool.all.any (·.name == name) = false := by
      rw [List.any_eq_false]
      exact List.find?_eq_none.mp found
    rw [unrouted,if_neg (by decide)]
  | some tool =>
    have named : tool.name = name := by simpa using List.find?_some found
    subst named
    have routed : Tool.all.any (·.name == tool.name) = true :=
      List.any_eq_true.mpr ⟨tool,tool.mem_all,beq_self_eq_true _⟩
    rw [routed,if_pos rfl,exact.dispatch_routes,if_pos tool.mem_all,callTool,found]

def enter (routing : Routing ρ) (entry : Entry) : Option Reply × Server :=
  match entry with
  | .direct =>
    let (reply,server) := server.callTool call.name call.given.arguments call.moment
    (some reply,server)
  | .checked =>
    match server.callWith call.name (call.given.json?.getD .null) call.moment with
    | (.ok reply,server) => (Reply.ofJson? reply.toJson,server)
    | (.error _,server) => (none,server)
  | .message request =>
    match server.answer request call.moment with
    | (some ⟨_,.result value⟩,server) => (Reply.ofJson? value,server)
    | (_,server) => (none,server)
  | .kept =>
    match server.callRouted routing call.name call.given.object? call.moment with
    | some (reply,server) => (some reply,server)
    | none => (none,server)

theorem enter_eq (exact : routing.Exact) (entry : Entry) (carries : entry.Carries call) :
    server.enter call routing entry =
      (some (server.callTool call.name call.given.arguments call.moment).1,
        (server.callTool call.name call.given.arguments call.moment).2) := by
  cases entry with
  | direct => rfl
  | checked => simp only [enter,callWith_given,Reply.ofJson?_toJson]
  | message request => simp only [enter,server.answer_given call carries,Reply.ofJson?_toJson]
  | kept =>
    simp only [enter,server.callRouted_eq exact]
    rfl

def enterEach (routing : Routing ρ) (server : Server) :
    List (Entry × ToolCall) → List (Option Reply × Server)
  | [] => []
  | (entry,call) :: rest =>
    let made := server.enter call routing entry
    made :: made.2.enterEach routing rest

def callEach (server : Server) : List ToolCall → List (Reply × Server)
  | [] => []
  | call :: rest =>
    let made := server.callTool call.name call.given.arguments call.moment
    made :: made.2.callEach rest

-- By whichever ways the calls of a run come in, each of them is replied to as in the run of
-- direct calls, with the same sessions and files behind it.
theorem entries_agree (exact : routing.Exact) (server : Server) (calls : List (Entry × ToolCall))
    (carried : ∀ call ∈ calls, call.1.Carries call.2) :
    server.enterEach routing calls =
      (server.callEach (calls.map (·.2))).map fun (reply,after) => (some reply,after) := by
  induction calls generalizing server with
  | nil => rfl
  | cons first rest ih =>
    obtain ⟨entry,call⟩ := first
    have own : entry.Carries call := carried (entry,call) List.mem_cons_self
    have others : ∀ call ∈ rest, call.1.Carries call.2 := by
      intro call member
      exact carried call (List.mem_cons_of_mem _ member)
    rw [enterEach,server.enter_eq call exact entry own]
    simp only [List.map_cons,callEach]
    rw [ih _ others]

theorem entries_agree_across_ways :
    let params : Json := .object [("name",.text "create_file"),
      ("arguments",.object [("session_id",.text "s"),("file_path",.text "notes.txt")])]
    let calls : List (Entry × ToolCall) := [
      (.message ⟨"2.0",some (.int 1),"tools/call",some params⟩,
        ⟨"create_file",.object [("session_id",.text "s"),("file_path",.text "notes.txt")],⟨0,"first"⟩⟩),
      (.kept,⟨"create_file",.object [("session_id",.text "s"),("content",.text "kept")],⟨1,"second"⟩⟩),
      (.checked,⟨"remove_file",.null,⟨2,"third"⟩⟩)]
    let server := start .standard ⟨[],[]⟩
    Routing.table.Exact ∧ (∀ call ∈ calls, call.1.Carries call.2) ∧
      server.enterEach Routing.table calls =
        (server.callEach (calls.map (·.2))).map fun (reply,after) => (some reply,after) := by
  intro params calls server
  have carried : ∀ call ∈ calls, call.1.Carries call.2 := by
    intro call member
    simp only [calls,List.mem_cons,List.not_mem_nil,or_false] at member
    rcases member with rfl | rfl | rfl
    · exact ⟨rfl,rfl,params,rfl,rfl,rfl⟩
    · trivial
    · trivial
  exact ⟨Routing.table_exact,carried,entries_agree Routing.table_exact server calls carried⟩

end Server

end ToolDialogue
