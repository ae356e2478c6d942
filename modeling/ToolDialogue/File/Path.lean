import ToolDialogue.Text.Pieces

namespace ToolDialogue.File

abbrev Path := List Char

abbrev Name := List Char

def segments (path : Path) : List Name := Text.pieces '/' path

def joined (parts : List Name) : Path := List.intercalate ['/'] parts

theorem joined_segments (path : Path) : joined (segments path) = path :=
  Text.intercalate_pieces '/' path

def isIdle (segment : Name) : Bool := segment == [] || segment == ['.']

def parentName : Name := ['.','.']

def isAbsolute (path : Path) : Bool := path.head? == some '/'

inductive Component where
  | root
  | here
  | up
  | name (text : Name)
  deriving DecidableEq, Repr

def componentOf (segment : Name) : Component :=
  if segment = parentName then .up else .name segment

def components (path : Path) : List Component :=
  match segments path with
  | [] => []
  | head :: tail =>
    let front := if head = [] then if isAbsolute path then [.root] else []
      else if head = ['.'] then [.here] else [componentOf head]
    front ++ (tail.filter (!isIdle ·)).map componentOf

-- An absolute path replaces the base. An empty path leaves the base with a slash.
def append (base path : Path) : Path :=
  if isAbsolute path then path
  else if base = [] ∨ base.getLast? = some '/' then base ++ path
  else base ++ '/' :: path

-- The path without its last component, and that component. The root and the
-- empty path have none. What stays in front is kept as it was written.
def pop? (path : Path) : Option (Path × Name) :=
  match segments path with
  | [] => none
  | head :: tail =>
    match tail.reverse.dropWhile isIdle with
    | last :: before =>
      match (before.dropWhile isIdle).reverse with
      | [] => some (if head = [] then ['/'] else head,last)
      | kept => some (joined (head :: kept),last)
    | [] => if head = [] then none else some ([],head)

def parent? (path : Path) : Option Path := (pop? path).map (·.1)

-- The path and all paths above it, each with the components taken off so far.
-- Every one is shorter than the one before.
def climbFrom : Nat → Path → List Name → List (Path × List Name)
  | 0,path,below => [(path,below)]
  | steps+1,path,below =>
    (path,below) :: match pop? path with
      | none => []
      | some (parent,last) => climbFrom steps parent (last :: below)

def climb (path : Path) : List (Path × List Name) := climbFrom path.length path []

def isWithin (path root : Path) : Bool := (components root).isPrefixOf (components path)

end ToolDialogue.File
