import ToolDialogue.Dialogue.Outcome
import ToolDialogue.Session.Store
import ToolDialogue.Text.Blank
import ToolDialogue.Tool.Error

namespace ToolDialogue

abbrev Arguments := Table String Json

abbrev Job (σ : Type) := Collected → σ → Except ToolError String × σ

def supplied? (arguments : Arguments) (name : String) : Option Json :=
  match Table.get? name arguments with
  | none => none
  | some .null => none
  | some (.text value) => if Text.allBlank value then none else some (.text value)
  | some value => some value

def sessionArgument : String := "session_id"

def requestedId? (arguments : Arguments) : Option String :=
  match Table.get? sessionArgument arguments with
  | some (.text value) =>
    let id := Text.trim value
    if id = "" then none else some id
  | _ => none

def Session.addSupplied (arguments : Arguments) (now : Instant) (session : Session)
    (name : String) : Session :=
  match supplied? arguments name with
  | some value => session.add name value now
  | none => session

def Session.addOptional (arguments : Arguments) (now : Instant) (session : Session)
    (parameter : OptionalParameter) : Session :=
  session.add parameter.name ((supplied? arguments parameter.name).getD parameter.fallback) now

def Session.absorb (session : Session) (schema : Schema) (arguments : Arguments)
    (now : Instant) : Session :=
  schema.optional.foldl (addOptional arguments now)
    (schema.requiredNames.foldl (addSupplied arguments now) (session.touch now))

-- One call of a tool. `fresh` is the id of the session if the caller names none.
structure Call where
  tool : String
  schema : Schema
  arguments : Arguments
  fresh : String
  now : Instant
  deriving Repr

structure Resolved where
  id : String
  handle : Handle
  store : Store
  deriving Repr

structure Turn (σ : Type) where
  outcome : Outcome
  store : Store
  world : σ
  -- the values the job was given, if it was run
  ranOn : Option Collected

namespace Call

variable {σ : Type}

-- The session to go on with. An unknown id is taken for a new session.
def resolve (call : Call) (store : Store) : Resolved :=
  match requestedId? call.arguments with
  | some id =>
    let obtained := store.getOrCreate id call.tool call.schema call.now []
    ⟨id,obtained.handle,obtained.store⟩
  | none =>
    let (handle,store) := store.create call.fresh call.tool call.schema call.now []
    ⟨call.fresh,handle,store⟩

-- Asks for the first value that is still missing, or runs the job. Only a job that
-- succeeds closes the session.
def finish (call : Call) (job : Job σ) (id : String) (handle : Handle) (session : Session)
    (store : Store) (world : σ) : Turn σ :=
  let kept := store.modify handle fun _ => session
  match session.nextMissing? with
  | some parameter =>
    let description := (call.schema.description? parameter).getD parameter
    ⟨.awaiting session.tool parameter description id,kept,world,none⟩
  | none =>
    match job session.collected world with
    | (.ok output,world) =>
      let closed := store.modify handle fun _ => session.complete call.now
      ⟨.completed output id,closed.delete id,world,some session.collected⟩
    | (.error error,world) =>
      ⟨.failed session.tool error.message id,kept,world,some session.collected⟩

abbrev Interlude := Store → Store

-- A session that was closed or replaced meanwhile is looked up again.
def settle (call : Call) (store : Store) : List Interlude → Resolved
  | [] => call.resolve store
  | wait :: later =>
    let resolved := call.resolve store
    let store := wait resolved.store
    if store.isCurrent resolved.id resolved.handle then { resolved with store }
    else call.settle store later

def runAmong (call : Call) (waits : List Interlude) (job : Job σ) (store : Store) (world : σ) :
    Turn σ :=
  let resolved := call.settle store waits
  let session := (resolved.store.session? resolved.handle).getD
    (.start call.tool call.schema call.now)
  call.finish job resolved.id resolved.handle
    (session.absorb call.schema call.arguments call.now) resolved.store world

def run (call : Call) (job : Job σ) (store : Store) (world : σ) : Turn σ :=
  call.runAmong [] job store world

def resolve? (call : Call) (store : Store) : Option Resolved :=
  match requestedId? call.arguments with
  | some id =>
    (store.getOrCreate? id call.tool call.schema call.now []).map fun obtained =>
      ⟨id,obtained.handle,obtained.store⟩
  | none =>
    (store.create? call.fresh call.tool call.schema call.now []).map fun (handle,store) =>
      ⟨call.fresh,handle,store⟩

def run? (call : Call) (job : Job σ) (store : Store) (world : σ) : Option (Turn σ) :=
  (call.resolve? store).map fun resolved =>
    let session := (resolved.store.session? resolved.handle).getD
      (.start call.tool call.schema call.now)
    call.finish job resolved.id resolved.handle
      (session.absorb call.schema call.arguments call.now) resolved.store world

end Call

end ToolDialogue
