import ToolDialogue.Tool.Catalogue
import ToolDialogue.Tool.Listing

namespace ToolDialogue

structure Server where
  config : Config
  store : Store
  tree : File.Tree
  deriving Repr

-- What a call takes from outside: the time, and an id no session has had.
structure Moment where
  now : Instant
  fresh : String
  deriving DecidableEq, Repr

namespace Server

def start (config : Config) (tree : File.Tree) : Server :=
  ⟨config,match config.idleSeconds with
    | some seconds => .withIdleLimit seconds
    | none => .empty,tree⟩

def turn (server : Server) (tool : AskingTool) (arguments : Arguments) (moment : Moment) :
    Turn File.Tree :=
  Call.run ⟨tool.name,tool.schema,arguments,moment.fresh,moment.now⟩
    (tool.job server.config moment.now) server.store server.tree

def useTool (server : Server) (tool : Tool) (arguments : Arguments) (moment : Moment) :
    Reply × Server :=
  match tool with
  | .asking tool =>
    let turn := server.turn tool arguments moment
    (turn.outcome.reply,{ server with store := turn.store, tree := turn.world })
  | .listSessions =>
    let (sessions,store) := server.store.list moment.now []
    (⟨Listing.render sessions,false⟩,{ server with store })

def callTool (server : Server) (name : String) (arguments : Arguments) (moment : Moment) :
    Reply × Server :=
  match Tool.ofName? name with
  | some tool => server.useTool tool arguments moment
  | none => (⟨"Unknown tool: " ++ name,true⟩,server)

def argumentsOf : Json → Except String Arguments
  | .object members => .ok members
  | .null => .ok []
  | other => .error ("Tool arguments must be an object, got " ++ other.compact)

def callWith (server : Server) (name : String) (arguments : Json) (moment : Moment) :
    Except String Reply × Server :=
  match argumentsOf arguments with
  | .ok arguments =>
    let (reply,server) := server.callTool name arguments moment
    (.ok reply,server)
  | .error text => (.error text,server)

-- The same where the program may come to a stop.
def turn? (server : Server) (tool : AskingTool) (arguments : Arguments) (moment : Moment) :
    Option (Turn File.Tree) :=
  Call.run? ⟨tool.name,tool.schema,arguments,moment.fresh,moment.now⟩
    (tool.job server.config moment.now) server.store server.tree

def useTool? (server : Server) (tool : Tool) (arguments : Arguments) (moment : Moment) :
    Option (Reply × Server) :=
  match tool with
  | .asking tool =>
    (server.turn? tool arguments moment).map fun turn =>
      (turn.outcome.reply,{ server with store := turn.store, tree := turn.world })
  | .listSessions =>
    (server.store.list? moment.now []).map fun (sessions,store) =>
      (⟨Listing.render sessions,false⟩,{ server with store })

def callTool? (server : Server) (name : String) (arguments : Arguments) (moment : Moment) :
    Option (Reply × Server) :=
  match Tool.ofName? name with
  | some tool => server.useTool? tool arguments moment
  | none => some (⟨"Unknown tool: " ++ name,true⟩,server)

def callWith? (server : Server) (name : String) (arguments : Json) (moment : Moment) :
    Option (Except String Reply × Server) :=
  match argumentsOf arguments with
  | .ok arguments =>
    (server.callTool? name arguments moment).map fun (reply,server) => (.ok reply,server)
  | .error text => some (.error text,server)

end Server

end ToolDialogue
