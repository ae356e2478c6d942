import ToolDialogue.Session.Basic

namespace ToolDialogue

structure Handle where
  place : Nat
  deriving DecidableEq, Repr

-- Every session ever opened, at the place its handle names, and the ones that are
-- registered under an id. A session that is replaced, deleted or expired is no
-- longer registered but can still be used by whoever holds its handle.
structure Store where
  sessions : List Session
  registered : Table String Handle
  idleLimit : Option Span
  deriving Repr

abbrev Locks := List Handle

namespace Store

def empty : Store := ⟨[],[],none⟩

-- A limit that the calendar cannot count with is no limit.
def withIdleLimit (seconds : Nat) : Store := ⟨[],[],Span.ofSeconds? seconds⟩

def session? (store : Store) (handle : Handle) : Option Session := store.sessions[handle.place]?

def modify (store : Store) (handle : Handle) (change : Session → Session) : Store :=
  { store with sessions := store.sessions.modify handle.place change }

def isLive (store : Store) (limit : Span) (now : Instant) (locks : Locks) (handle : Handle) :
    Bool :=
  locks.contains handle ||
    match store.session? handle with
    | some session => now - limit ≤ session.updatedAt
    | none => false

def purge (store : Store) (now : Instant) (locks : Locks) : Store :=
  match store.idleLimit with
  | none => store
  | some limit =>
    { store with registered := store.registered.filter fun (_,handle) =>
        store.isLive limit now locks handle }

def register (store : Store) (id : String) (session : Session) : Handle × Store :=
  let handle : Handle := ⟨store.sessions.length⟩
  (handle,{ store with
    sessions := store.sessions ++ [session]
    registered := Table.put id handle store.registered })

def create (store : Store) (id tool : String) (schema : Schema) (now : Instant)
    (locks : Locks) : Handle × Store :=
  (store.purge now locks).register id (.start tool schema now)

structure Obtained where
  handle : Handle
  created : Bool
  store : Store

def getOrCreate (store : Store) (id tool : String) (schema : Schema) (now : Instant)
    (locks : Locks) : Obtained :=
  let store := store.purge now locks
  match Table.get? id store.registered with
  | some handle => ⟨handle,false,store⟩
  | none =>
    let (handle,store) := store.register id (.start tool schema now)
    ⟨handle,true,store⟩

def get (store : Store) (id : String) (now : Instant) (locks : Locks) : Option Handle × Store :=
  let store := store.purge now locks
  (Table.get? id store.registered,store)

def isCurrent (store : Store) (id : String) (handle : Handle) : Bool :=
  Table.get? id store.registered == some handle

def delete (store : Store) (id : String) : Store :=
  { store with registered := Table.erase id store.registered }

def snapshot (store : Store) : Table String Session :=
  store.registered.filterMap fun (id,handle) => (store.session? handle).map fun s => (id,s)

def list (store : Store) (now : Instant) (locks : Locks) : Table String Session × Store :=
  let store := store.purge now locks
  (store.snapshot,store)

-- Expired sessions count until something purges them.
def size (store : Store) : Nat := store.registered.length

def isEmpty (store : Store) : Bool := store.registered.isEmpty

def contains (store : Store) (id : String) : Bool := Table.has id store.registered

def overruns (store : Store) (now : Instant) : Bool :=
  match store.idleLimit with
  | none => false
  | some limit => now - limit < earliest

-- The same operations as they come to a stop: a purge first takes the limit off the time, and
-- the program ends where that leaves the calendar.
def purge? (store : Store) (now : Instant) (locks : Locks) : Option Store :=
  match store.idleLimit with
  | none => some store
  | some limit => (cutoff? now limit).map fun cutoff =>
    { store with registered := store.registered.filter fun (_,handle) =>
        locks.contains handle || (store.session? handle).any fun session => cutoff ≤ session.updatedAt }

def create? (store : Store) (id tool : String) (schema : Schema) (now : Instant) (locks : Locks) :
    Option (Handle × Store) :=
  (store.purge? now locks).map fun store => store.register id (.start tool schema now)

def getOrCreate? (store : Store) (id tool : String) (schema : Schema) (now : Instant) (locks : Locks) :
    Option Obtained :=
  (store.purge? now locks).map fun store =>
    match Table.get? id store.registered with
    | some handle => ⟨handle,false,store⟩
    | none =>
      let (handle,store) := store.register id (.start tool schema now)
      ⟨handle,true,store⟩

def get? (store : Store) (id : String) (now : Instant) (locks : Locks) : Option (Option Handle × Store) :=
  (store.purge? now locks).map fun store => (Table.get? id store.registered,store)

def list? (store : Store) (now : Instant) (locks : Locks) : Option (Table String Session × Store) :=
  (store.purge? now locks).map fun store => (store.snapshot,store)

end Store

end ToolDialogue
