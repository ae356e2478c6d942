import ToolDialogue.Config.Environment
import ToolDialogue.Failure
import ToolDialogue.Mcp.Connection
import ToolDialogue.Session.Identifier

-- The server on standard input and output: one message a line. Calls work on an
-- image of the file system, and what they change in it is then made on the disk.
namespace ToolDialogue.Main

def settingNames : List String := ["MCP_SERVER_NAME","MCP_LOG_LEVEL","MCP_TRANSPORT",
  "MCP_TCP_HOST","MCP_TCP_PORT","MCP_HTTP_HOST","MCP_HTTP_PORT","MCP_HTTP_PATH",
  "MCP_HTTP_CORS","MCP_ROOT_PATH","MCP_ALLOW_SYMLINKS","MCP_SESSION_IDLE_TIMEOUT_SECS",
  "MCP_PROFILE_DIR"]

def environment : IO Assignments.Environment :=
  settingNames.filterMapM fun name => do
    pure ((← IO.getEnv name).map fun value => (name,value))

def locationOf (path : File.Path) : File.Location :=
  (File.segments path).filter (!File.isIdle ·)

def withDirectory (tree : File.Tree) (location : File.Location) : File.Tree :=
  (List.range location.length).foldl
    (fun tree above => tree.put (location.take (above+1)) .directory) tree

def stands (path : String) : IO Bool := do
  try
    let _ ← IO.FS.realPath path
    pure true
  catch _ => pure false

def textOf? (path : String) : IO (Option String) := do
  try
    pure (some (← IO.FS.readFile path))
  catch _ => pure none

def image (env : Assignments.Environment) : IO File.Tree := do
  let working := locationOf ((← IO.getEnv "PWD").getD "/").toList
  let tree := withDirectory ⟨[],working⟩ working
  let tree ← match Table.get? "MCP_ROOT_PATH" env with
    | none => pure tree
    | some root => do
      let place := if File.isAbsolute root.toList then [] else working
      if root ≠ "" ∧ (← stands root) then
        pure (withDirectory tree (place ++ locationOf root.toList))
      else pure tree
  match ← textOf? ".env" with
  | some text => pure (tree.put (working ++ [settingsFile]) (.file text))
  | none => pure tree

def make (location : File.Location) (node : File.Node) : IO Unit := do
  let path := String.ofList (File.pathOf location)
  match node with
  | .directory => IO.FS.createDirAll path
  | .file content =>
    let parent := String.ofList (File.pathOf location.dropLast)
    if (← IO.FS.realPath parent).toString = parent then IO.FS.writeFile path content
    else throw (IO.userError (parent ++ " is not where it seems to be"))
  | .link _ => pure ()

def makeChanges (before after : File.Tree) : IO Unit := do
  for (location,node) in after.nodes do
    if before.node? location ≠ some node then
      try make location node
      catch e => IO.eprintln (toString e)

def startOfMachine : IO Nat := do
  match ← textOf? "/proc/stat" with
  | none => pure 0
  | some text =>
    let line := (text.splitOn "\n").find? fun line => "btime ".toList.isPrefixOf line.toList
    pure ((line.bind fun line => (String.ofList (line.toList.drop 6)).toNat?).getD 0)

def moment (start : Nat) : IO Moment := do
  let random ← IO.getRandomBytes 16
  let bits := random.toList.foldl (fun n byte => 256*n + byte.toNat) 0
  pure ⟨start * second + (← IO.monoNanosNow),Identifier.ofRandom bits⟩

partial def serve (start : Nat) (input output : IO.FS.Stream) (connection : Mcp.Connection) :
    IO Mcp.Connection := do
  let line ← input.getLine
  if line.isEmpty then return connection
  let now ← moment start
  if connection.server.store.overruns now.now then
    throw (IO.userError "the idle timeout reaches back before the calendar")
  let (response,after) := connection.receiveLine line now
  makeChanges connection.server.tree after.server.tree
  if let some response := response then
    output.putStrLn response.toJson.compact
    output.flush
  serve start input output after

def run : IO (Except Failure Unit) := do
  let env ← environment
  let tree ← image env
  let config := Config.load tree env
  match config.fault? tree,config.transport with
  | some fault,_ => pure (.error fault.failure)
  | none,.stdio =>
    let connection ← serve (← startOfMachine) (← IO.getStdin) (← IO.getStdout)
      (.start (.start config tree))
    if connection.served then pure (.ok ())
    else pure (.error (.transport (.start "the client did not open a connection")))
  | none,transport =>
    pure (.error (.transport (.service (transport.description ++ " is not carried here"))))

end ToolDialogue.Main

def main : IO UInt32 := do
  match ← ToolDialogue.Main.run with
  | .ok () => pure 0
  | .error failure =>
    IO.eprintln ("Error: " ++ failure.message)
    pure 1
