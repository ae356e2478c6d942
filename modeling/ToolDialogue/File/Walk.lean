import ToolDialogue.File.Tree

namespace ToolDialogue.File

-- Longest path, one byte less, and longest name, in bytes.
def pathLimit : Nat := 4096

def nameLimit : Nat := 255

def linkLimit : Nat := 40

def sizeOf (text : List Char) : Nat := text.foldl (fun n c => n + c.utf8Size) 0

-- What a walk is for: the node itself, what a link stands for, or a place to
-- write a file.
inductive Aim where
  | itself
  | meaning
  | writing
  deriving DecidableEq, Repr

inductive Found where
  | present (location : Location)
  | vacant (directory : Location) (name : Name)
  deriving DecidableEq, Repr

-- From a directory down the segments. `relink` continues where a link leads. A last
-- name with a slash behind it must be a directory; for writing it is refused
-- before it is looked up.
def walkWith (tree : Tree) (aim : Aim) (relink : Location → List Name → Except Cause Found) :
    Location → List Name → Except Cause Found
  | place,[] => .ok (.present place)
  | place,segment :: rest =>
    if isIdle segment then walkWith tree aim relink place rest
    else if segment = parentName then walkWith tree aim relink place.dropLast rest
    else if aim = .writing ∧ rest ≠ [] ∧ rest.all (· == []) then .error .isDirectory
    else if nameLimit < sizeOf segment then .error .nameTooLong
    else match tree.node? (place ++ [segment]) with
      | none =>
        if rest.all (· == []) then .ok (.vacant place segment) else .error .notFound
      | some .directory => walkWith tree aim relink (place ++ [segment]) rest
      | some (.file _) =>
        if rest = [] then .ok (.present (place ++ [segment])) else .error .notDirectory
      | some (.link target) =>
        if rest = [] ∧ aim = .itself then .ok (.present (place ++ [segment]))
        else relink (if isAbsolute target then [] else place) (segments target ++ rest)

def walk (tree : Tree) (aim : Aim) : Nat → Location → List Name → Except Cause Found
  | 0 => walkWith tree aim fun _ _ => .error .tooManyLinks
  | links+1 => walkWith tree aim (walk tree aim links)

def checkPath (path : Path) : Except Cause Unit :=
  if path.contains (Char.ofNat 0) then .error .nulByte
  else if path = [] then .error .notFound
  else if pathLimit ≤ sizeOf path then .error .nameTooLong
  else .ok ()

def Tree.start (tree : Tree) (path : Path) : Location :=
  if isAbsolute path then [] else tree.working

def Tree.find (tree : Tree) (aim : Aim) (path : Path) : Except Cause Found := do
  checkPath path
  walk tree aim linkLimit (tree.start path) (segments path)

def Tree.locate (tree : Tree) (aim : Aim) (path : Path) : Except Cause Location := do
  match ← tree.find aim path with
  | .present location => .ok location
  | .vacant _ _ => .error .notFound

def Tree.hasEntry (tree : Tree) (path : Path) : Bool :=
  (tree.locate .itself path).toOption.isSome

def Tree.isLink (tree : Tree) (path : Path) : Bool :=
  match tree.locate .itself path with
  | .ok location =>
    match tree.node? location with
    | some (.link _) => true
    | _ => false
  | .error _ => false

def Tree.isDirectory (tree : Tree) (path : Path) : Bool :=
  match tree.locate .meaning path with
  | .ok location => tree.node? location == some .directory
  | .error _ => false

def Tree.canonical (tree : Tree) (path : Path) : Except Cause Path :=
  pathOf <$> tree.locate .meaning path

end ToolDialogue.File
