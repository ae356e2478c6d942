import ToolDialogue.Dialogue.Turn
import ToolDialogue.Json.Record

namespace ToolDialogue.Mcp

inductive Request where
  | greet (revision : String)
  | ping
  | listTools
  | callTool (name : String) (arguments : Option Arguments)
  | listNone (name : String)
  | complete
  -- known, but for servers that offer more
  | notOffered (method : String)
  deriving Repr

inductive Message where
  | request (id : Json) (request : Request)
  | opened
  | noted
  deriving Repr

def isId : Json → Bool
  | .text _ => true
  | .int value => -9223372036854775808 ≤ value && value ≤ 9223372036854775807
  | _ => false

def member? (value : Option Json) (name : String) : Option Json :=
  value.bind (·.member? name)

def optionalText (value : Option Json) (name : String) : Bool :=
  match member? value name with
  | none => true
  | some .null => true
  | some (.text _) => true
  | _ => false

def isObject : Option Json → Bool
  | some (.object _) => true
  | _ => false

def greeting? (params : Option Json) : Option Request :=
  let info := member? params "clientInfo"
  match member? params "protocolVersion",member? info "name",member? info "version" with
  | some (.text revision),some (.text _),some (.text _) =>
    if isObject (member? params "capabilities") then some (.greet revision) else none
  | _,_,_ => none

def toolCall? (params : Option Json) : Option Request :=
  match member? params "name",member? params "arguments" with
  | some (.text name),none => some (.callTool name none)
  | some (.text name),some .null => some (.callTool name none)
  | some (.text name),some (.object arguments) => some (.callTool name (some arguments))
  | _,_ => none

def listOf? (params : Option Json) (request : Request) : Option Request :=
  match params with
  | none => some request
  | some .null => some request
  | some (.object members) =>
    if optionalText (some (.object members)) "cursor" then some request else none
  | _ => none

def withTexts? (params : Option Json) (names : List String) (request : Request) :
    Option Request :=
  if names.all fun name => ((member? params name).bind Json.text?).isSome then some request
  else none

def request? (method : String) (params : Option Json) : Option Request :=
  match method with
  | "initialize" => greeting? params
  | "ping" => some .ping
  | "tools/list" => listOf? params .listTools
  | "tools/call" => toolCall? params
  | "prompts/list" => listOf? params (.listNone "prompts")
  | "resources/list" => listOf? params (.listNone "resources")
  | "resources/templates/list" => listOf? params (.listNone "resourceTemplates")
  | "completion/complete" =>
    if isObject (member? params "ref") && isObject (member? params "argument") then
      some .complete
    else none
  | "prompts/get" => withTexts? params ["name"] (.notOffered method)
  | "logging/setLevel" => withTexts? params ["level"] (.notOffered method)
  | "resources/read" => withTexts? params ["uri"] (.notOffered method)
  | "resources/subscribe" => withTexts? params ["uri"] (.notOffered method)
  | "resources/unsubscribe" => withTexts? params ["uri"] (.notOffered method)
  | _ => none

def requestMethods : List String := ["initialize","ping","tools/list","tools/call",
  "prompts/list","prompts/get","resources/list","resources/templates/list","resources/read",
  "resources/subscribe","resources/unsubscribe","completion/complete","logging/setLevel"]

-- A message without an id tells something. One of an unknown kind is passed over.
def note? (method : String) : Option Message :=
  if method = "notifications/initialized" then some .opened
  else if requestMethods.contains method then none
  else some .noted

def Message.ofJson? (value : Json) : Option Message :=
  if value.member? "jsonrpc" |>.any (·.same (.text "2.0")) then
    match value.member? "method",value.member? "id" with
    | some (.text method),none => note? method
    | some (.text method),some id =>
      if isId id then (request? method (value.member? "params")).map (.request id) else none
    | none,some id =>
      if isId id && ((value.member? "result").isSome || (value.member? "error").isSome) then
        some .noted
      else none
    | _,_ => none
  else none

end ToolDialogue.Mcp
