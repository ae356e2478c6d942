import ToolDialogue.Json.Record

namespace ToolDialogue.Rpc

structure Request where
  version : String
  id : Option Json
  method : String
  params : Option Json
  deriving Repr

def present : Option Json → Option Json
  | some .null => none
  | value => value

def Request.ofJson? (value : Json) : Option Request :=
  match Json.fields? ["jsonrpc","id","method","params"] value with
  | some [some (.text version),id,some (.text method),params] =>
    some ⟨version,present id,method,present params⟩
  | _ => none

inductive Content where
  | result (value : Json)
  | error (code : Int) (message : String)
  deriving Repr

structure Response where
  id : Option Json
  content : Content
  deriving Repr

def Content.member : Content → String × Json
  | .result value => ("result",value)
  | .error code message =>
    ("error",Json.obj [("code",.int code),("message",.text message)])

def Response.toJson (response : Response) : Json :=
  Json.obj ([("jsonrpc",.text "2.0"),response.content.member] ++
    (response.id.map fun id => ("id",id)).toList)

def invalidRequest : Content := .error (-32600) "Invalid Request"

def methodNotFound : Content := .error (-32601) "Method not found"

def invalidParams (text : String) : Content := .error (-32602) text

end ToolDialogue.Rpc
