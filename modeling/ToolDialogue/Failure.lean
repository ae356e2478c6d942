import ToolDialogue.Config.Basic
import ToolDialogue.Json.Cursor
import ToolDialogue.Tool.Error

namespace ToolDialogue

inductive TransportError where
  | bind (address : String) (cause : File.Cause)
  | start (text : String)
  | service (text : String)
  | http (text : String)
  | system (cause : File.Cause)
  deriving DecidableEq, Repr

def TransportError.message : TransportError → String
  | .bind address cause => "Failed to bind to " ++ address ++ ": " ++ cause.message
  | .start text => "Server initialization error: " ++ text
  | .service text => "Service error: " ++ text
  | .http text => "HTTP error: " ++ text
  | .system cause => "IO error: " ++ cause.message

inductive Failure where
  | tool (error : ToolError)
  | path (refusal : File.Refusal)
  | transport (error : TransportError)
  | config (text : String)
  | system (cause : File.Cause)
  | json (error : Json.ReadError)
  | internal (text : String)
  deriving DecidableEq, Repr

def Failure.message : Failure → String
  | .tool error => "Tool error: " ++ error.message
  | .path refusal => "Path security error: " ++ refusal.message
  | .transport error => "Transport error: " ++ error.message
  | .config text => "Configuration error: " ++ text
  | .system cause => "I/O error: " ++ cause.message
  | .json error => "JSON error: " ++ error.message
  | .internal text => "Internal error: " ++ text

def Config.Fault.failure (fault : Config.Fault) : Failure := .config fault.message

end ToolDialogue
