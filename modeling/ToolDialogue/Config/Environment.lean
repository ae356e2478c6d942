import ToolDialogue.Config.Assignments
import ToolDialogue.Config.Basic
import ToolDialogue.Text.LetterCase
import ToolDialogue.Text.Whole

namespace ToolDialogue

open Assignments (Environment)

def settingsFile : File.Path := ".env".toList

-- The file of settings in the directory or the nearest one above it. A directory
-- of that name is passed over; whatever else goes wrong ends the search.
def settingsFrom (tree : File.Tree) : Nat → File.Location → Option String
  | 0,_ => none
  | levels+1,place =>
    match tree.locate .meaning (File.append (File.pathOf place) settingsFile) with
    | .error .notFound => settingsFrom tree levels place.dropLast
    | .error _ => none
    | .ok found =>
      match tree.node? found with
      | some (.file content) => some content
      | _ => settingsFrom tree levels place.dropLast

def settings? (tree : File.Tree) : Option String :=
  settingsFrom tree (tree.working.length + 1) tree.working

namespace Config

def portOr (fallback : UInt16) (setting : Option String) : UInt16 :=
  match setting.bind fun text => Text.whole? (Nat.pow 2 16) text.toList with
  | some port => UInt16.ofNat port
  | none => fallback

def isRefusal (setting : String) : Bool :=
  ["false","0","no"].contains (Text.lower setting)

def transportOf (env : Environment) : Transport :=
  let setting (name : String) : Option String := Table.get? name env
  let wanted := Text.lower (Text.trim ((setting "MCP_TRANSPORT").getD ""))
  if wanted = "tcp" then
    .tcp ((setting "MCP_TCP_HOST").getD defaultHost)
      (portOr Transport.defaultTcpPort (setting "MCP_TCP_PORT"))
  else if wanted = "http" then
    .http {
      host := (setting "MCP_HTTP_HOST").getD defaultHost
      port := portOr Transport.defaultHttpPort (setting "MCP_HTTP_PORT")
      rpcPath := (setting "MCP_HTTP_PATH").getD defaultRpcPath
      openToOrigins := !(setting "MCP_HTTP_CORS").any isRefusal }
  else .stdio

-- Zero seconds are no limit, as is what is no number.
def idleOf (setting : Option String) : Option Nat :=
  match setting.bind fun text => Text.whole? (Nat.pow 2 64) text.toList with
  | some 0 => none
  | limit => limit

def ofEnvironment (env : Environment) : Config :=
  let setting (name : String) : Option String := Table.get? name env
  { standard with
    name := (setting "MCP_SERVER_NAME").getD standard.name
    logLevel := (setting "MCP_LOG_LEVEL").getD standard.logLevel
    transport := transportOf env
    rules := ⟨setting "MCP_ROOT_PATH",setting "MCP_ALLOW_SYMLINKS" != some "false"⟩
    idleSeconds := idleOf (setting "MCP_SESSION_IDLE_TIMEOUT_SECS")
    profileDirectory := (setting "MCP_PROFILE_DIR").getD standard.profileDirectory }

-- The environment counts before the file of settings.
def load (tree : File.Tree) (env : Environment) : Config :=
  ofEnvironment (match settings? tree with
    | some text => Assignments.load env text
    | none => env)

end Config

end ToolDialogue
