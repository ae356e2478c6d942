import ToolDialogue.Rpc.Message
import ToolDialogue.Server.Basic
import ToolDialogue.Tool.InputSchema

namespace ToolDialogue

namespace Rpc

def protocolRevision : String := "2024-11-05"

def notificationStart : String := "notifications/"

def Request.isNotification (request : Request) : Bool :=
  notificationStart.toList.isPrefixOf request.method.toList

end Rpc

namespace Server

open Rpc

def greeting (server : Server) : Json :=
  Json.obj [
    ("protocolVersion",.text protocolRevision),
    ("capabilities",Json.obj [("tools",Json.obj [])]),
    ("serverInfo",Json.obj [
      ("name",.text server.config.name),("version",.text server.config.version)])]

def answerCall (server : Server) (params : Option Json) (moment : Moment) : Content × Server :=
  match params with
  | none => (invalidParams "Missing params",server)
  | some params =>
    match params.member? "name" with
    | some (.text name) =>
      match server.callWith name ((params.member? "arguments").getD .null) moment with
      | (.ok reply,server) => (.result reply.toJson,server)
      | (.error text,server) => (invalidParams text,server)
    | _ => (invalidParams "Missing tool name",server)

def answerMethod (server : Server) (request : Request) (moment : Moment) : Content × Server :=
  match request.method with
  | "initialize" => (.result server.greeting,server)
  | "tools/list" => (.result Tool.listing,server)
  | "tools/call" => server.answerCall request.params moment
  | _ => (methodNotFound,server)

-- Notifications get no answer; every other message gets one, with or without id.
def answer (server : Server) (request : Request) (moment : Moment) :
    Option Response × Server :=
  if request.version ≠ "2.0" then (some ⟨request.id,invalidRequest⟩,server)
  else if request.isNotification then (none,server)
  else
    let (content,server) := server.answerMethod request moment
    (some ⟨request.id,content⟩,server)

-- The same where the program may come to a stop.
def answerCall? (server : Server) (params : Option Json) (moment : Moment) : Option (Content × Server) :=
  match params with
  | none => some (invalidParams "Missing params",server)
  | some params =>
    match params.member? "name" with
    | some (.text name) =>
      (server.callWith? name ((params.member? "arguments").getD .null) moment).map fun (replied,server) =>
        match replied with
        | .ok reply => (.result reply.toJson,server)
        | .error text => (invalidParams text,server)
    | _ => some (invalidParams "Missing tool name",server)

def answerMethod? (server : Server) (request : Request) (moment : Moment) : Option (Content × Server) :=
  match request.method with
  | "tools/call" => server.answerCall? request.params moment
  | _ => some (server.answerMethod request moment)

def answer? (server : Server) (request : Request) (moment : Moment) : Option (Option Response × Server) :=
  if request.version ≠ "2.0" ∨ request.isNotification then some (server.answer request moment)
  else (server.answerMethod? request moment).map fun (content,server) => (some ⟨request.id,content⟩,server)

end Server

end ToolDialogue
