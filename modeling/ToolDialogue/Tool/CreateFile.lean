import ToolDialogue.File.Change
import ToolDialogue.Tool.Argument

namespace ToolDialogue.CreateFile

def defaultEncoding : String := "UTF-8"

def schema : Schema where
  required := [
    ⟨"file_path","The path where the file should be created (e.g., /tmp/example.txt)"⟩,
    ⟨"content","The content to write to the file"⟩]
  optional := [⟨"encoding","Text encoding of the file",.text defaultEncoding⟩]

def isSupported (encoding : String) : Bool :=
  let name := Text.asciiLower (Text.trim encoding)
  name == "utf-8" || name == "utf8"

structure Plan where
  requested : String
  target : File.Path
  content : String
  deriving DecidableEq, Repr

def encodingOf (values : Collected) : String :=
  match Argument.text values "encoding" with
  | .ok name => name
  | .error _ => defaultEncoding

def plan (rules : File.Confinement) (values : Collected) (tree : File.Tree) :
    Except ToolError Plan := do
  let requested ← Argument.text values "file_path"
  let content ← Argument.text values "content"
  if isSupported (encodingOf values) then
    match rules.resolve tree requested with
    | .ok target => .ok ⟨requested,target,content⟩
    | .error refusal => .error (.path refusal)
  else
    Argument.invalid ("Unsupported encoding " ++ Argument.quoted (encodingOf values) ++
      ", only UTF-8 is supported")

def makeParents (tree : File.Tree) (path : File.Path) : Except File.Cause Unit × File.Tree :=
  match File.parent? path with
  | none => (.ok (),tree)
  | some [] => (.ok (),tree)
  | some parent => tree.makeDirectories parent

-- Directories that were made stay, also where the file cannot be written.
def place (tree : File.Tree) (path : File.Path) (content : String) :
    Except File.Cause Unit × File.Tree :=
  match makeParents tree path with
  | (.error cause,tree) => (.error cause,tree)
  | (.ok (),tree) =>
    match tree.write path content with
    | .ok written => (.ok (),written)
    | .error cause => (.error cause,tree)

def Plan.report (plan : Plan) : String :=
  "Successfully created file: " ++ plan.requested ++ "\nSize: " ++
    toString plan.content.length ++ " characters"

def run (rules : File.Confinement) (values : Collected) (tree : File.Tree) :
    Except ToolError String × File.Tree :=
  match plan rules values tree with
  | .error error => (.error error,tree)
  | .ok plan =>
    match place tree plan.target plan.content with
    | (.ok (),tree) => (.ok plan.report,tree)
    | (.error cause,tree) => (.error (.system cause),tree)

end ToolDialogue.CreateFile
