import ToolDialogue.Json.Basic

namespace ToolDialogue

-- How one call of a tool ends. The session of a completed call is gone, the
-- others are still open under the id.
inductive Outcome where
  | awaiting (tool parameter description id : String)
  | completed (output id : String)
  | failed (tool message id : String)
  deriving DecidableEq, Repr

namespace Outcome

def id : Outcome → String
  | .awaiting _ _ _ id => id
  | .completed _ id => id
  | .failed _ _ id => id

def isError : Outcome → Bool
  | .failed _ _ _ => true
  | _ => false

def marker : String := "Session ID: `"

def text : Outcome → String
  | .awaiting tool parameter description id =>
    "I need more information to complete the " ++ tool ++ " operation.\n\n" ++
    "Missing parameter: **" ++ parameter ++ "**\n" ++
    "Description: " ++ description ++ "\n\n" ++
    marker ++ id ++ "`\n" ++
    "Please call the tool again with this parameter."
  | .completed output id => output ++ "\n\n" ++ marker ++ id ++ "`"
  | .failed tool message id =>
    "Error in " ++ tool ++ ": " ++ message ++ "\n\n" ++
    marker ++ id ++ "`\n" ++
    "Please call the tool again with corrected parameters."

end Outcome

structure Reply where
  text : String
  isError : Bool
  deriving DecidableEq, Repr

def Outcome.reply (outcome : Outcome) : Reply := ⟨outcome.text,outcome.isError⟩

def Reply.content (reply : Reply) : Json :=
  .array [Json.obj [("type",.text "text"),("text",.text reply.text)]]

def Reply.toJson (reply : Reply) : Json :=
  Json.obj [("content",reply.content),("isError",.bool reply.isError)]

end ToolDialogue
