import ToolDialogue.Config.Transport
import ToolDialogue.Http.MediaType
import ToolDialogue.Http.Message
import ToolDialogue.Http.PathPattern
import ToolDialogue.Rpc.Answer
import ToolDialogue.Rpc.Body

namespace ToolDialogue

namespace Http

def healthPath : String := "/health"

def rootPath : String := "/"

def isPage (path : String) : Bool := path == healthPath || path == rootPath

-- The path of the messages may have places to fill in. A page is not taken for
-- such a place.
def takesMessages (settings : HttpSettings) (path : String) : Bool :=
  match PathPattern.ofText? settings.rpcPath with
  | some pattern => pattern.fits path.toList && (pattern.isFixed || !isPage path)
  | none => false

def methodsAt (settings : HttpSettings) (path : String) : List String :=
  (if takesMessages settings path then ["POST"] else []) ++
    (if isPage path then ["GET","HEAD"] else [])

def allowHeader (methods : List String) : List (String × String) :=
  if methods = [] then [] else [("allow",String.intercalate "," methods)]

def originHeader : String × String := ("access-control-allow-origin","*")

def preflightHeaders : List (String × String) :=
  [originHeader,("access-control-allow-methods","*"),("access-control-allow-headers","*")]

def bodyLimit : Nat := 2097152

def refused : Rpc.Refusal → Response
  | .malformed => .refusal 400 "Failed to parse the request body as JSON"
  | .unfit => .refusal 422 "Failed to deserialize the JSON body into the target type"

end Http

namespace Server

open Http

def respondRpc? (server : Server) (request : Request) (moment : Moment) : Option (Response × Server) :=
  if !(request.header? contentType).any MediaType.isJson then
    some (.refusal 415 "Expected request with `Content-Type: application/json`",server)
  else if bodyLimit < request.body.utf8ByteSize then
    some (.refusal 413 "Failed to buffer the request body: length limit exceeded",server)
  else match Rpc.Request.read request.body with
    | .error refusal => some (refused refusal,server)
    | .ok message =>
      (server.answer? message moment).map fun (answered,server) =>
        ((answered.map fun response => Response.ofJson response.toJson).getD (.bare 202),server)

def health (server : Server) (now : Instant) : Json :=
  Json.obj [("status",.text "healthy"),("activeSessions",.nat server.store.size),
    ("timestamp",.text (timestamp utcOffset now))]

def about (server : Server) : Json :=
  Json.obj [
    ("name",.text server.config.name),("version",.text server.config.version),
    ("transport",.text "HTTP"),("protocol",.text "JSON-RPC 2.0"),
    ("endpoints",Json.obj [
      ("rpc",.text "POST with JSON-RPC messages"),("health",.text healthPath)])]

def page (server : Server) (path : String) (now : Instant) : Json :=
  if path = healthPath then server.health now else server.about

def respondDirect? (server : Server) (settings : HttpSettings) (request : Request)
    (moment : Moment) : Option (Response × Server) :=
  let methods := methodsAt settings request.path
  if methods = [] then some (.bare 404,server)
  else if !methods.contains request.method then
    some ((Response.bare 405).withHeaders (allowHeader methods),server)
  else match request.method with
    | "POST" => server.respondRpc? request moment
    | "HEAD" =>
      some ({ Response.ofJson (server.page request.path moment.now) with body := .empty },server)
    | _ => some (.ofJson (server.page request.path moment.now),server)

def respond? (server : Server) (settings : HttpSettings) (request : Request)
    (moment : Moment) : Option (Response × Server) :=
  if !settings.openToOrigins then server.respondDirect? settings request moment
  else if request.method = "OPTIONS" then
    some (⟨200,preflightHeaders ++ allowHeader (methodsAt settings request.path),.empty⟩,server)
  else
    (server.respondDirect? settings request moment).map fun (response,server) =>
      (response.withHeaders [originHeader],server)

end Server

end ToolDialogue
