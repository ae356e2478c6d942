import ToolDialogue.Json.Read
import ToolDialogue.Mcp.Message
import ToolDialogue.Rpc.Message
import ToolDialogue.Server.Router
import ToolDialogue.Tool.InputSchema

namespace ToolDialogue.Mcp

-- How far a connection has come: a client greets, is answered, says that it is
-- ready and is then served. A message that cannot be read ends the service, and
-- one out of turn ends the connection before it is served.
inductive Stage where
  | opening
  | greeted
  | serving
  | deaf
  | refused
  deriving DecidableEq, Repr

structure Connection where
  stage : Stage
  server : Server
  deriving Repr

namespace Connection

def start (server : Server) : Connection := ⟨.opening,server⟩

def served (connection : Connection) : Bool :=
  connection.stage == .serving || connection.stage == .deaf

def newestRevision : String := "2025-03-26"

def agreed (revision : String) : String :=
  if revision < newestRevision then revision else newestRevision

def instructions : String :=
  "Stateful tool server. Tools may be called with only some of their parameters; " ++
  "the reply names the next missing parameter and a session ID. Pass that " ++
  "session_id back with the remaining parameters to continue. " ++
  "Use list_sessions to see open sessions."

def greeting (revision : String) : Json :=
  Json.obj [
    ("protocolVersion",.text revision),
    ("capabilities",Json.obj [("tools",Json.obj [])]),
    ("serverInfo",Json.obj [("name",.text "rmcp"),("version",.text "0.11.0")]),
    ("instructions",.text instructions)]

def answer (server : Server) (request : Request) (moment : Moment) : Rpc.Content × Server :=
  match request with
  | .greet _ => (.result (greeting newestRevision),server)
  | .ping => (.result (Json.obj []),server)
  | .listTools => (.result Tool.listing,server)
  | .callTool name arguments =>
    match server.callRouted Routing.table name arguments moment with
    | some (reply,server) => (.result reply.toJson,server)
    | none => (Rpc.invalidParams "tool not found",server)
  | .listNone name => (.result (Json.obj [(name,.array [])]),server)
  | .complete =>
    (.result (Json.obj [("completion",Json.obj [("values",.array [])])]),server)
  | .notOffered method => (.error (-32601) method,server)

def respond (id : Json) (content : Rpc.Content) : Option Rpc.Response := some ⟨some id,content⟩

def receiveMessage (connection : Connection) (message : Message) (moment : Moment) :
    Option Rpc.Response × Connection :=
  match connection.stage,message with
  | .opening,.request id (.greet revision) =>
    (respond id (.result (greeting (agreed revision))),{ connection with stage := .greeted })
  | .greeted,.opened => (none,{ connection with stage := .serving })
  | .serving,.request id request =>
    let (content,server) := answer connection.server request moment
    (respond id content,{ connection with server })
  | .serving,_ => (none,connection)
  | .deaf,_ => (none,connection)
  | _,_ => (none,{ connection with stage := .refused })

def lose (connection : Connection) : Connection :=
  { connection with stage := if connection.served then .deaf else .refused }

def receive (connection : Connection) (value : Json) (moment : Moment) :
    Option Rpc.Response × Connection :=
  match Message.ofJson? value with
  | some message => connection.receiveMessage message moment
  | none => (none,connection.lose)

def receiveLine (connection : Connection) (line : String) (moment : Moment) :
    Option Rpc.Response × Connection :=
  match Json.read line with
  | .ok value => connection.receive value moment
  | .error _ => (none,connection.lose)

end Connection

end ToolDialogue.Mcp
