import ToolDialogue.File.Walk
import ToolDialogue.Text.Blank

namespace ToolDialogue.File

structure Confinement where
  root : Option String
  allowLinks : Bool
  deriving DecidableEq, Repr

inductive Refusal where
  | outsideRoot (path root : Path)
  | linkNotAllowed (path : Path)
  | emptyPath
  | system (path : Path) (cause : Cause)
  deriving DecidableEq, Repr

def shown (path : Path) : String := "'" ++ String.ofList path ++ "'"

def Refusal.message : Refusal → String
  | .outsideRoot path root =>
    "Path " ++ shown path ++ " is outside allowed root directory " ++ shown root
  | .linkNotAllowed path =>
    "Path " ++ shown path ++ " is a symlink and symlinks are not allowed"
  | .emptyPath => "Path is empty"
  | .system path cause => "IO error for path " ++ shown path ++ ": " ++ cause.message

def asking {α : Type} (path : Path) : Except Cause α → Except Refusal α
  | .ok a => .ok a
  | .error cause => .error (.system path cause)

-- The deepest path above the given one that has an entry, and the components
-- below it. The topmost is taken if none has.
def Tree.deepest (tree : Tree) (path : Path) : Path × List Name :=
  let steps := climb path
  match steps.find? (tree.hasEntry ·.1) with
  | some step => step
  | none => steps.getLast?.getD (path,[])

-- Inside a root: the existing part is resolved by the system, the rest is
-- appended, and dots that lead up are refused there.
def Tree.resolveWithin (tree : Tree) (allowLinks : Bool) (root path : Path) :
    Except Refusal Path := do
  let root ← asking root (tree.canonical root)
  let absolute := if isAbsolute path then path else append root path
  if tree.isLink absolute && !allowLinks then .error (.linkNotAllowed absolute)
  else
    let (ancestor,below) := tree.deepest absolute
    let standing ← asking ancestor (tree.canonical ancestor)
    let resolved := append standing (below.foldl append [])
    if below.contains parentName || !isWithin resolved root then
      .error (.outsideRoot resolved root)
    else .ok resolved

def Confinement.resolve (rules : Confinement) (tree : Tree) (requested : String) :
    Except Refusal Path :=
  if Text.allBlank requested then .error .emptyPath
  else match rules.root with
    | none => .ok requested.toList
    | some root => tree.resolveWithin rules.allowLinks root.toList requested.toList

end ToolDialogue.File
