import ToolDialogue.Clock
import ToolDialogue.Session.Schema
import ToolDialogue.Table

namespace ToolDialogue

inductive Phase where
  | awaiting
  | ready
  | completed
  deriving DecidableEq, Repr

def Phase.name : Phase → String
  | .awaiting => "awaiting_params"
  | .ready => "ready"
  | .completed => "completed"

abbrev Collected := Table String Json

structure Session where
  tool : String
  phase : Phase
  collected : Collected
  missing : List String
  createdAt : Instant
  updatedAt : Instant
  deriving Repr

namespace Session

def start (tool : String) (schema : Schema) (now : Instant) : Session :=
  let missing := schema.requiredNames
  ⟨tool,if missing.isEmpty then .ready else .awaiting,[],missing,now,now⟩

-- A name need not belong to the schema. A completed session stays completed.
def add (session : Session) (name : String) (value : Json) (now : Instant) : Session :=
  let missing := session.missing.filter (· ≠ name)
  { session with
    missing
    collected := Table.put name value session.collected
    updatedAt := now
    phase := if missing.isEmpty && session.phase == .awaiting then .ready else session.phase }

def complete (session : Session) (now : Instant) : Session :=
  { session with phase := .completed, updatedAt := now }

def touch (session : Session) (now : Instant) : Session := { session with updatedAt := now }

def isComplete (session : Session) : Bool := session.missing.isEmpty

def nextMissing? (session : Session) : Option String := session.missing.head?

def toJson (session : Session) : Json :=
  Json.obj [
    ("tool_name",.text session.tool),
    ("state",.text session.phase.name),
    ("collected",Json.obj session.collected),
    ("missing",.array (session.missing.map .text)),
    ("created_at",.text (timestamp "Z" session.createdAt)),
    ("updated_at",.text (timestamp "Z" session.updatedAt))]

end Session

end ToolDialogue
