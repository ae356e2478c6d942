import ToolDialogue.File.Cause
import ToolDialogue.File.Path
import ToolDialogue.Table

namespace ToolDialogue.File

abbrev Location := List Name

inductive Node where
  | directory
  | file (content : String)
  | link (target : Path)
  deriving DecidableEq, Repr

-- All nodes but the root, which is always a directory, and the directory that
-- relative paths start from.
structure Tree where
  nodes : Table Location Node
  working : Location
  deriving Repr

def Tree.node? (tree : Tree) (location : Location) : Option Node :=
  if location = [] then some .directory else Table.get? location tree.nodes

def Tree.put (tree : Tree) (location : Location) (node : Node) : Tree :=
  { tree with nodes := Table.put location node tree.nodes }

def pathOf (location : Location) : Path := '/' :: joined location

theorem Tree.node?_put (tree : Tree) {location : Location} (below : location ≠ [])
    (node : Node) (other : Location) :
    (tree.put location node).node? other =
      if other = location then some node else tree.node? other := by
  by_cases root : other = []
  · subst root; simp [Tree.node?,Ne.symm below]
  · simp [Tree.node?,Tree.put,root,Table.get?_put]

theorem Tree.put_same {tree : Tree} {location : Location} {node : Node} (below : location ≠ [])
    (stands : tree.node? location = some node) : tree.put location node = tree := by
  rw [node?,if_neg below] at stands
  rw [put,Table.put_get? stands]

end ToolDialogue.File
