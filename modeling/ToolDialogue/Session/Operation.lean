import ToolDialogue.Session.Store

namespace ToolDialogue

-- What may be done with a store, and which sessions others have locked meanwhile. A listing
-- waits until none is locked. Whoever holds a session may change it.
inductive Operation where
  | create (id tool : String) (schema : Schema) (locks : Locks)
  | getOrCreate (id tool : String) (schema : Schema) (locks : Locks)
  | get (id : String) (locks : Locks)
  | delete (id : String)
  | list
  | change (handle : Handle) (change : Session → Session)

structure Step where
  now : Instant
  operation : Operation

inductive Answer where
  | object (handle : Handle) (created : Bool)
  | found (handle : Option Handle)
  | copies (sessions : Table String Session)
  | nothing

namespace Store

def perform (store : Store) (step : Step) : Answer × Store :=
  match step.operation with
  | .create id tool schema locks =>
    let (handle,store) := store.create id tool schema step.now locks
    (.object handle true,store)
  | .getOrCreate id tool schema locks =>
    let obtained := store.getOrCreate id tool schema step.now locks
    (.object obtained.handle obtained.created,obtained.store)
  | .get id locks =>
    let (handle,store) := store.get id step.now locks
    (.found handle,store)
  | .delete id => (.nothing,store.delete id)
  | .list =>
    let (sessions,store) := store.list step.now []
    (.copies sessions,store)
  | .change handle change => (.nothing,store.modify handle change)

def perform? (store : Store) (step : Step) : Option (Answer × Store) :=
  match step.operation with
  | .create id tool schema locks =>
    (store.create? id tool schema step.now locks).map fun (handle,store) => (.object handle true,store)
  | .getOrCreate id tool schema locks =>
    (store.getOrCreate? id tool schema step.now locks).map fun obtained =>
      (.object obtained.handle obtained.created,obtained.store)
  | .get id locks => (store.get? id step.now locks).map fun (handle,store) => (.found handle,store)
  | .delete id => some (.nothing,store.delete id)
  | .list => (store.list? step.now []).map fun (sessions,store) => (.copies sessions,store)
  | .change handle change => some (.nothing,store.modify handle change)

end Store

end ToolDialogue
