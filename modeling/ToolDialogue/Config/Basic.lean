import ToolDialogue.Config.Transport
import ToolDialogue.File.Confinement

namespace ToolDialogue

structure Config where
  name : String
  version : String
  logLevel : String
  transport : Transport
  rules : File.Confinement
  -- after how many seconds without a call a session is dropped
  idleSeconds : Option Nat
  profileDirectory : String
  deriving DecidableEq, Repr

namespace Config

def standard : Config where
  name := "stateful-mcp-server"
  version := "0.1.0"
  logLevel := "info"
  transport := .stdio
  rules := ⟨none,true⟩
  idleSeconds := none
  profileDirectory := "."

inductive Fault where
  | blankName
  | rootNotDirectory (root : String)
  | emptyProfileDirectory
  deriving DecidableEq, Repr

def Fault.message : Fault → String
  | .blankName => "server name must not be empty"
  | .rootNotDirectory root => "MCP_ROOT_PATH " ++ root ++ " is not a directory"
  | .emptyProfileDirectory => "profile directory must not be empty"

def rootStands (config : Config) (tree : File.Tree) : Bool :=
  match config.rules.root with
  | none => true
  | some root => tree.isDirectory root.toList

def fault? (config : Config) (tree : File.Tree) : Option Fault :=
  if Text.allBlank config.name then some .blankName
  else if !config.rootStands tree then some (.rootNotDirectory (config.rules.root.getD ""))
  else if config.profileDirectory = "" then some .emptyProfileDirectory
  else none

end Config

end ToolDialogue
