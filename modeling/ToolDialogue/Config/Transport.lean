import ToolDialogue.Json.Basic

namespace ToolDialogue

def defaultHost : String := "127.0.0.1"

def defaultRpcPath : String := "/mcp"

structure HttpSettings where
  host : String
  port : UInt16
  rpcPath : String
  openToOrigins : Bool
  deriving DecidableEq, Repr

inductive Transport where
  | stdio
  | tcp (host : String) (port : UInt16)
  | http (settings : HttpSettings)
  deriving DecidableEq, Repr

namespace Transport

def defaultTcpPort : UInt16 := 3000

def defaultHttpPort : UInt16 := 8080

def address (host : String) (port : UInt16) : String := host ++ ":" ++ toString port.toNat

def description : Transport → String
  | .stdio => "STDIO (standard MCP mode)"
  | .tcp host port => "TCP on " ++ address host port
  | .http settings => "HTTP on " ++ address settings.host settings.port ++ settings.rpcPath

def isStdio : Transport → Bool
  | .stdio => true
  | _ => false

def toJson : Transport → Json
  | .stdio => Json.obj [("type",.text "stdio")]
  | .tcp host port =>
    Json.obj [("type",.text "tcp"),("host",.text host),("port",.nat port.toNat)]
  | .http settings =>
    Json.obj [("type",.text "http"),("host",.text settings.host),
      ("port",.nat settings.port.toNat),("rpc_path",.text settings.rpcPath),
      ("enable_cors",.bool settings.openToOrigins)]

end Transport

end ToolDialogue
