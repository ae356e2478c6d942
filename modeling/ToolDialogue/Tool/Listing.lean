import ToolDialogue.Session.Store
import ToolDialogue.Text.Blank

namespace ToolDialogue.Listing

abbrev Entry := String × Session

-- Oldest first; sessions of one instant by their ids.
def precedes (a b : Entry) : Bool :=
  a.2.createdAt < b.2.createdAt || (a.2.createdAt == b.2.createdAt && a.1 ≤ b.1)

def sorted (entries : List Entry) : List Entry := entries.mergeSort precedes

def sortedNames (names : List String) : List String := names.mergeSort fun a b => a ≤ b

def block (entry : Entry) : String :=
  "**Session ID:** `" ++ entry.1 ++ "`\n**Tool:** " ++ entry.2.tool ++
  "\n**State:** " ++ entry.2.phase.name ++
  "\n**Collected params:** [" ++
    String.intercalate ", " (sortedNames (Table.keys entry.2.collected)) ++
  "]\n**Missing params:** [" ++ String.intercalate ", " entry.2.missing ++ "]\n\n"

def render (entries : List Entry) : String :=
  if entries = [] then "No active sessions."
  else
    let ending := if 1 < entries.length then "---\n" else ""
    Text.trim ("**Active Sessions:**\n\n" ++
      String.join ((sorted entries).map fun entry => block entry ++ ending))

end ToolDialogue.Listing
