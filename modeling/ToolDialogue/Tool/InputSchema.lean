import ToolDialogue.Tool.Catalogue

namespace ToolDialogue

structure Property where
  name : String
  description : String
  kind : Option String
  deriving DecidableEq, Repr

def Property.toJson (property : Property) : Json :=
  Json.obj (("description",.text property.description) ::
    match property.kind with
    | some kind => [("type",.text kind),("nullable",.bool true)]
    | none => [])

namespace AskingTool

def sessionProperty : Property :=
  ⟨sessionArgument,"Session id from an earlier reply, to continue that conversation.",
    some "string"⟩

def ownProperties : AskingTool → List Property
  | .calculate => [
    ⟨"expression",
      "Mathematical expression to evaluate (e.g. \"2 + 2\", \"sqrt(16)\", \"(10 + 5) * 2\").",
      some "string"⟩,
    ⟨"format","Output format: decimal (default), scientific, fraction or integer.",
      some "string"⟩]
  | .createFile => [
    ⟨"file_path","The path where the file should be created (e.g. /tmp/example.txt).",
      some "string"⟩,
    ⟨"content","The content to write to the file.",some "string"⟩,
    ⟨"encoding","Text encoding of the file. Only UTF-8 is supported.",some "string"⟩]
  | .buildProfile => [
    ⟨"name","User's full name.",some "string"⟩,
    ⟨"email","User's email address.",some "string"⟩,
    ⟨"age","User's age (as a number).",none⟩,
    ⟨"preferences","User preferences or interests (comma-separated list).",some "string"⟩,
    ⟨"save_to_file","Also write the profile to a JSON file.",some "boolean"⟩]

def properties (tool : AskingTool) : List Property := sessionProperty :: tool.ownProperties

def title : AskingTool → String
  | .calculate => "CalculateParams"
  | .createFile => "CreateFileParams"
  | .buildProfile => "BuildProfileParams"

end AskingTool

namespace Tool

def inputTitle : Tool → String
  | .asking tool => tool.title
  | .listSessions => "ListSessionsParams"

def inputDescription : Tool → String
  | .asking tool =>
    "Parameters for the " ++ tool.name ++ " tool. Every field may arrive in a later call."
  | .listSessions => "The list_sessions tool takes no parameters."

def inputProperties : Tool → List (String × Json)
  | .asking tool =>
    [("properties",Json.obj (tool.properties.map fun p => (p.name,p.toJson)))]
  | .listSessions => []

def inputSchema (tool : Tool) : Json :=
  Json.obj ([
    ("$schema",.text "https://json-schema.org/draft/2020-12/schema"),
    ("title",.text tool.inputTitle),
    ("description",.text tool.inputDescription),
    ("type",.text "object")] ++ tool.inputProperties)

def toJson (tool : Tool) : Json :=
  Json.obj [("name",.text tool.name),("description",.text tool.description),
    ("inputSchema",tool.inputSchema)]

def listing : Json := Json.obj [("tools",.array (all.map toJson))]

end Tool

end ToolDialogue
