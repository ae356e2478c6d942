import Mathlib.Data.List.Nodup
import Mathlib.Tactic.Tauto
import ToolDialogue.Session.Store

namespace ToolDialogue

namespace Store

variable {store : Store} {now : Instant} {locks : Locks}

@[simp] theorem purge_sessions : (store.purge now locks).sessions = store.sessions := by
  unfold purge; split <;> rfl

@[simp] theorem purge_idleLimit : (store.purge now locks).idleLimit = store.idleLimit := by
  unfold purge; split <;> rfl

@[simp] theorem purge_session? (handle : Handle) :
    (store.purge now locks).session? handle = store.session? handle := by
  simp [session?]

theorem purge_unlimited (unlimited : store.idleLimit = none) : store.purge now locks = store := by
  simp [purge,unlimited]

theorem purge_registered {entry : String × Handle}
    (member : entry ∈ (store.purge now locks).registered) : entry ∈ store.registered := by
  unfold purge at member
  split at member
  · exact member
  · exact List.mem_of_mem_filter member

@[simp] theorem modify_registered (handle : Handle) (change : Session → Session) :
    (store.modify handle change).registered = store.registered := rfl

@[simp] theorem modify_length (handle : Handle) (change : Session → Session) :
    (store.modify handle change).sessions.length = store.sessions.length := by
  simp [modify]

@[simp] theorem modify_idleLimit (handle : Handle) (change : Session → Session) :
    (store.modify handle change).idleLimit = store.idleLimit := rfl

@[simp] theorem delete_sessions (id : String) : (store.delete id).sessions = store.sessions := rfl

@[simp] theorem delete_session? (id : String) (handle : Handle) :
    (store.delete id).session? handle = store.session? handle := rfl

theorem modify_session? (handle other : Handle) (change : Session → Session) :
    (store.modify handle change).session? other =
      if other = handle then (store.session? other).map change else store.session? other := by
  obtain ⟨place⟩ := handle
  obtain ⟨spot⟩ := other
  simp only [modify,session?,List.getElem?_modify,Handle.mk.injEq]
  by_cases same : place = spot
  · subst same; simp
  · simp [same,Ne.symm same]

theorem register_session? (id : String) (session : Session) (handle : Handle) :
    (store.register id session).2.session? handle =
      if handle = ⟨store.sessions.length⟩ then some session else store.session? handle := by
  obtain ⟨place⟩ := handle
  simp only [register,session?,Handle.mk.injEq]
  rcases Nat.lt_trichotomy place store.sessions.length with below | equal | above
  · simp [List.getElem?_append_left below,Nat.ne_of_lt below]
  · subst equal; simp
  · rw [List.getElem?_eq_none (by simpa [Nat.succ_le_iff] using above),if_neg (Nat.ne_of_gt above),
      List.getElem?_eq_none (Nat.le_of_lt above)]

def Placed (store : Store) : Prop :=
  ∀ entry ∈ store.registered, entry.2.place < store.sessions.length

theorem session?_of_placed {handle : Handle} (placed : handle.place < store.sessions.length) :
    ∃ session, store.session? handle = some session :=
  ⟨_,List.getElem?_eq_getElem placed⟩

theorem empty_placed (limit : Option Span) : Placed ⟨[],[],limit⟩ := by
  intro entry member
  cases member

theorem purge_placed (placed : store.Placed) : (store.purge now locks).Placed := by
  intro entry member
  simpa using placed entry (purge_registered member)

theorem register_placed (placed : store.Placed) (id : String) (session : Session) :
    (store.register id session).2.Placed := by
  intro entry member
  rcases Table.mem_put member with rfl | old
  · simp [register]
  · have bound := placed entry old
    simp only [register,List.length_append,List.length_singleton]
    omega

theorem modify_placed (placed : store.Placed) (handle : Handle) (change : Session → Session) :
    (store.modify handle change).Placed := by
  intro entry member
  simpa using placed entry member

theorem delete_placed (placed : store.Placed) (id : String) : (store.delete id).Placed :=
  fun entry member => placed entry (List.mem_of_mem_filter member)

end Store

end ToolDialogue
