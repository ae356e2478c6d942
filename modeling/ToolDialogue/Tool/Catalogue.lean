import ToolDialogue.Config.Basic
import ToolDialogue.Dialogue.Turn
import ToolDialogue.Tool.Calculate
import ToolDialogue.Tool.CreateFile
import ToolDialogue.Tool.Profile

namespace ToolDialogue

inductive AskingTool where
  | calculate
  | createFile
  | buildProfile
  deriving DecidableEq, Repr

namespace AskingTool

def name : AskingTool → String
  | .calculate => "calculate"
  | .createFile => "create_file"
  | .buildProfile => "build_profile"

def description : AskingTool → String
  | .calculate =>
    "Perform mathematical calculations. Supports +, -, *, /, ^, parentheses, sqrt, pow, sin, " ++
    "cos, tan, pi and e. Can collect parameters across multiple interactions."
  | .createFile =>
    "Create a file with specified content. Can collect parameters across multiple interactions."
  | .buildProfile =>
    "Build a user profile by collecting information across multiple interactions. " ++
    "Can gather name, email, preferences, and other details progressively."

def schema : AskingTool → Schema
  | .calculate => Calculate.schema
  | .createFile => CreateFile.schema
  | .buildProfile => Profile.schema

def job (tool : AskingTool) (config : Config) (now : Instant) : Job File.Tree :=
  match tool with
  | .calculate => fun values tree => (Calculate.run values,tree)
  | .createFile => CreateFile.run config.rules
  | .buildProfile => Profile.run config.profileDirectory.toList now

end AskingTool

inductive Tool where
  | asking (tool : AskingTool)
  | listSessions
  deriving DecidableEq, Repr

namespace Tool

def all : List Tool :=
  [.asking .calculate,.asking .createFile,.asking .buildProfile,.listSessions]

def name : Tool → String
  | .asking tool => tool.name
  | .listSessions => "list_sessions"

def description : Tool → String
  | .asking tool => tool.description
  | .listSessions => "List all active conversation sessions"

def ofName? (name : String) : Option Tool := all.find? (·.name == name)

theorem ofName?_name (tool : Tool) : ofName? tool.name = some tool := by
  rcases tool with tool | _
  · cases tool <;> decide
  · decide

end Tool

end ToolDialogue
