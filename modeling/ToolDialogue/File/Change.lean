import ToolDialogue.File.Walk

namespace ToolDialogue.File

def withoutSlashes (parts : List Name) : List Name :=
  (parts.reverse.dropWhile (· == [])).reverse

-- One new directory. Slashes behind the name do not matter, and a link under the
-- name is in the way wherever it leads.
def Tree.makeDirectory (tree : Tree) (path : Path) : Except Cause Tree := do
  checkPath path
  match ← walk tree .itself linkLimit (tree.start path) (withoutSlashes (segments path)) with
  | .present _ => .error .exists
  | .vacant directory name => .ok (tree.put (directory ++ [name]) .directory)

-- Climbs until a directory stands or could be made: the paths still to be made,
-- the highest first.
def climbMissing (tree : Tree) : List Path → List Path → Except Cause (Tree × List Path)
  | [],missing => .ok (tree,missing)
  | path :: above,missing =>
    if path = [] then .ok (tree,missing)
    else match tree.makeDirectory path with
      | .ok made => .ok (made,missing)
      | .error .notFound => climbMissing tree above (path :: missing)
      | .error cause => if tree.isDirectory path then .ok (tree,missing) else .error cause

def makeEach (tree : Tree) : List Path → Except Cause Unit × Tree
  | [] => (.ok (),tree)
  | path :: rest =>
    match tree.makeDirectory path with
    | .ok made => makeEach made rest
    | .error cause => if tree.isDirectory path then makeEach tree rest else (.error cause,tree)

def Tree.makeDirectories (tree : Tree) (path : Path) : Except Cause Unit × Tree :=
  match climbMissing tree ((climb path).map (·.1)) [] with
  | .ok (tree,missing) => makeEach tree missing
  | .error cause => (.error cause,tree)

def Tree.write (tree : Tree) (path : Path) (content : String) : Except Cause Tree := do
  match ← tree.find .writing path with
  | .vacant directory name => .ok (tree.put (directory ++ [name]) (.file content))
  | .present location =>
    match tree.node? location with
    | some (.file _) => .ok (tree.put location (.file content))
    | _ => .error .isDirectory

end ToolDialogue.File
