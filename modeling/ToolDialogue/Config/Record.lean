import ToolDialogue.Config.Basic
import ToolDialogue.Json.Record

namespace ToolDialogue

open Json (fields? fieldOr natBelow? nullableField?)

def portOf? (value : Json) : Option UInt16 := (natBelow? (Nat.pow 2 16) value).map UInt16.ofNat

namespace Transport

def tcpOf? (record : Json) : Option Transport :=
  match fields? ["host","port"] record with
  | some [host,port] => do
    let host ← fieldOr defaultHost Json.text? host
    let port ← port.bind portOf?
    pure (.tcp host port)
  | _ => none

def httpOf? (record : Json) : Option Transport :=
  match fields? ["host","port","rpc_path","enable_cors"] record with
  | some [host,port,path,origins] => do
    let host ← fieldOr defaultHost Json.text? host
    let port ← port.bind portOf?
    let path ← fieldOr defaultRpcPath Json.text? path
    let origins ← fieldOr true Json.bool? origins
    pure (.http ⟨host,port,path,origins⟩)
  | _ => none

-- The kind of transport and its settings: in a list, the kind comes first.
def tagged? : Json → Option (String × Json)
  | .object members => do
    let kind ← (Table.get? "type" members).bind Json.text?
    pure (kind,.object members)
  | .array (.text kind :: settings) => some (kind,.array settings)
  | _ => none

def ofJson? (record : Json) : Option Transport := do
  let (kind,settings) ← tagged? record
  match kind,settings with
  | "stdio",.array (_ :: _) => none
  | "stdio",_ => some .stdio
  | "tcp",_ => tcpOf? settings
  | "http",_ => httpOf? settings
  | _,_ => none

end Transport

namespace Config

def toJson (config : Config) : Json :=
  Json.obj [
    ("server",Json.obj [("name",.text config.name),("version",.text config.version)]),
    ("logging",Json.obj [("level",.text config.logLevel)]),
    ("transport",config.transport.toJson),
    ("security",Json.obj [
      ("root_path",(config.rules.root.map Json.text).getD .null),
      ("allow_symlinks",.bool config.rules.allowLinks)]),
    ("sessions",Json.obj [
      ("idle_timeout_secs",(config.idleSeconds.map Json.nat).getD .null)]),
    ("tools",Json.obj [("profile_dir",.text config.profileDirectory)])]

def serverOf? (record : Json) : Option (String × String) :=
  match fields? ["name","version"] record with
  | some [some (.text name),some (.text version)] => some (name,version)
  | _ => none

def oneText? (name : String) (record : Json) : Option String :=
  match fields? [name] record with
  | some [some (.text value)] => some value
  | _ => none

def rulesOf? (record : Json) : Option File.Confinement :=
  match fields? ["root_path","allow_symlinks"] record with
  | some [root,some (.bool allow)] => do
    let root ← nullableField? Json.text? record root
    pure ⟨root,allow⟩
  | _ => none

def idleOf? (record : Json) : Option (Option Nat) :=
  match fields? ["idle_timeout_secs"] record with
  | some [limit] => nullableField? (natBelow? (Nat.pow 2 64)) record limit
  | _ => none

def ofJson? (record : Json) : Option Config :=
  match fields? ["server","logging","transport","security","sessions","tools"] record with
  | some [some server,some logging,some transport,some security,some sessions,some tools] => do
    let (name,version) ← serverOf? server
    let logLevel ← oneText? "level" logging
    let transport ← Transport.ofJson? transport
    let rules ← rulesOf? security
    let idleSeconds ← idleOf? sessions
    let profileDirectory ← oneText? "profile_dir" tools
    pure ⟨name,version,logLevel,transport,rules,idleSeconds,profileDirectory⟩
  | _ => none

end Config

end ToolDialogue
