import Mathlib.Data.List.Induction
import Mathlib.Data.List.Pairwise
import ToolDialogue.Proofs.Dialogue.Standing
import ToolDialogue.Proofs.Session.Objects

namespace ToolDialogue

inductive Change where
  | add (name : String) (value : Json)
  | complete
  | touch

abbrev Changes := List (Instant × Change)

def Change.gives? (name : String) : Change → Option Json
  | .add other value => if other = name then some value else none
  | _ => none

namespace Changes

def latest? (changes : Changes) (name : String) : Option Json :=
  changes.reverse.findSome? fun (_,change) => change.gives? name

def Adds (changes : Changes) (name : String) : Prop := ∃ now value, (now,.add name value) ∈ changes

def Completes (changes : Changes) : Prop := ∃ now, (now,.complete) ∈ changes

def Forward (begun : Instant) (changes : Changes) : Prop :=
  (begun :: changes.map (·.1)).Pairwise (· ≤ ·)

variable {changes : Changes} {now : Instant} {change : Change} {name : String}

theorem latest?_concat : latest? (changes ++ [(now,change)]) name = (change.gives? name).or (changes.latest? name) := by
  cases given : change.gives? name <;> simp [latest?,given]

theorem latest?_isSome : (changes.latest? name).isSome = true ↔ changes.Adds name := by
  rw [latest?,List.findSome?_isSome_iff]
  constructor
  · rintro ⟨⟨now,change⟩,member,given⟩
    cases change with
    | add other value =>
      by_cases same : other = name
      · subst same
        exact ⟨now,value,List.mem_reverse.mp member⟩
      · simp [Change.gives?,same] at given
    | complete => cases given
    | touch => cases given
  · rintro ⟨now,value,member⟩
    exact ⟨_,List.mem_reverse.mpr member,by simp [Change.gives?]⟩

theorem completes_concat : Completes (changes ++ [(now,change)]) ↔ changes.Completes ∨ change = .complete := by
  simp only [Completes,List.mem_append,List.mem_singleton,Prod.mk.injEq,exists_or]
  constructor
  · rintro (before | ⟨_,-,same⟩)
    · exact .inl before
    · exact .inr same.symm
  · rintro (before | same)
    · exact .inl before
    · exact .inr ⟨now,rfl,same.symm⟩

end Changes

namespace Session

def change (session : Session) (now : Instant) : Change → Session
  | .add name value => session.add name value now
  | .complete => session.complete now
  | .touch => session.touch now

def after (session : Session) (changes : Changes) : Session :=
  changes.foldl (fun session (now,change) => session.change now change) session

structure Follows (session : Session) (tool : String) (schema : Schema) (begun : Instant) (changes : Changes) :
    Prop where
  tool : session.tool = tool
  createdAt : session.createdAt = begun
  keys : (Table.keys session.collected).Nodup
  collected : ∀ name, Table.get? name session.collected = changes.latest? name
  missing : session.missing = schema.requiredNames.filter fun name => (changes.latest? name).isNone
  completed : changes.Completes → session.phase = .completed
  steady : ¬changes.Completes → session.Steady

variable {session : Session} {tool : String} {schema : Schema} {begun now : Instant} {changes : Changes}

theorem after_concat (session : Session) (changes : Changes) (now : Instant) (change : Change) :
    session.after (changes ++ [(now,change)]) = (session.after changes).change now change := by simp [after]

theorem change_updatedAt (session : Session) (now : Instant) (change : Change) :
    (session.change now change).updatedAt = now := by cases change <;> rfl

theorem start_follows (tool : String) (schema : Schema) (begun : Instant) :
    (start tool schema begun).Follows tool schema begun [] where
  tool := rfl
  createdAt := rfl
  keys := List.nodup_nil
  collected _ := rfl
  missing := (List.filter_true _).symm
  completed := by rintro ⟨now,member⟩; cases member
  steady _ := steady_start tool schema begun

theorem change_collected (session : Session) (now : Instant) (change : Change) (name : String) :
    Table.get? name (session.change now change).collected =
      (change.gives? name).or (Table.get? name session.collected) := by
  cases change with
  | add other value =>
    simp only [Session.change,add,Table.get?_put,Change.gives?]
    by_cases same : other = name
    · simp [same]
    · simp [same,Ne.symm same]
  | complete => rfl
  | touch => rfl

theorem change_missing (session : Session) (now : Instant) (change : Change) :
    (session.change now change).missing = session.missing.filter fun name => (change.gives? name).isNone := by
  cases change with
  | add other value =>
    refine List.filter_congr fun name _ => ?_
    by_cases same : other = name
    · simp [Change.gives?,same]
    · simp [Change.gives?,same,Ne.symm same]
  | complete => exact (List.filter_true _).symm
  | touch => exact (List.filter_true _).symm

theorem change_keys (distinct : (Table.keys session.collected).Nodup) (now : Instant) (change : Change) :
    (Table.keys (session.change now change).collected).Nodup := by
  cases change with
  | add other value => exact Table.put_distinct distinct value
  | complete => exact distinct
  | touch => exact distinct

theorem change_completed (completed : session.phase = .completed) (now : Instant) (change : Change) :
    (session.change now change).phase = .completed := by
  cases change with
  | add other value => simp [Session.change,add,completed]
  | complete => rfl
  | touch => exact completed

theorem Steady.change (steady : session.Steady) (now : Instant) {change : Change} (going : change ≠ .complete) :
    (session.change now change).Steady := by
  cases change with
  | add other value => exact steady.add other value now
  | complete => exact absurd rfl going
  | touch => exact steady.touch now

theorem Follows.change (follows : session.Follows tool schema begun changes) (now : Instant) (change : Change) :
    (session.change now change).Follows tool schema begun (changes ++ [(now,change)]) where
  tool := by cases change <;> exact follows.tool
  createdAt := by cases change <;> exact follows.createdAt
  keys := change_keys follows.keys now change
  collected name := by rw [change_collected,follows.collected,Changes.latest?_concat]
  missing := by
    rw [change_missing,follows.missing,List.filter_filter]
    refine List.filter_congr fun name _ => ?_
    rw [Changes.latest?_concat,Option.isNone_or]
  completed := by
    rw [Changes.completes_concat]
    rintro (before | rfl)
    · exact change_completed (follows.completed before) now change
    · rfl
  steady := by
    rw [Changes.completes_concat,not_or]
    rintro ⟨before,going⟩
    exact (follows.steady before).change now going

theorem after_follows (tool : String) (schema : Schema) (begun : Instant) (changes : Changes) :
    ((start tool schema begun).after changes).Follows tool schema begun changes := by
  induction changes using List.reverseRecOn with
  | nil => exact start_follows tool schema begun
  | append_singleton changes last ih =>
    rw [after_concat]
    exact ih.change last.1 last.2

theorem after_updatedAt (tool : String) (schema : Schema) (begun : Instant) (changes : Changes) :
    ((start tool schema begun).after changes).updatedAt =
      (begun :: changes.map (·.1)).getLast (List.cons_ne_nil _ _) := by
  induction changes using List.reverseRecOn with
  | nil => rfl
  | append_singleton changes last ih =>
    rw [after_concat,change_updatedAt]
    simp

theorem updatedAt_forward {front back : Changes} (forward : Changes.Forward begun (front ++ back)) :
    begun ≤ ((start tool schema begun).after front).updatedAt ∧
      ((start tool schema begun).after front).updatedAt ≤
        ((start tool schema begun).after (front ++ back)).updatedAt := by
  have earlier : (begun :: front.map (·.1)).Sublist (begun :: (front ++ back).map (·.1)) := by
    rw [List.map_append]
    exact (List.sublist_append_left _ _).cons_cons begun
  have early : Changes.Forward begun front := forward.sublist earlier
  rw [after_updatedAt,after_updatedAt]
  exact ⟨early.rel_getLast List.mem_cons_self,forward.rel_getLast (earlier.mem (List.getLast_mem _))⟩

-- A session after any changes: the values are the last ones added, what is missing is what the
-- schema requires and nobody has added, the phase says whether it was ever completed and else
-- whether anything is missing, and its time goes forward with the clock.
theorem session_follows_changes (tool : String) (schema : Schema) (begun : Instant) (changes : Changes)
    (forward : changes.Forward begun) :
    let session := (start tool schema begun).after changes
    session.Follows tool schema begun changes ∧
      (∀ name, name ∈ Table.keys session.collected ↔ changes.Adds name) ∧
      session.nextMissing? = schema.requiredNames.find? (fun name => (changes.latest? name).isNone) ∧
      (session.isComplete = true ↔ ∀ name ∈ schema.requiredNames, changes.Adds name) ∧
      ∀ front back, changes = front ++ back →
        begun ≤ ((start tool schema begun).after front).updatedAt ∧
          ((start tool schema begun).after front).updatedAt ≤ session.updatedAt := by
  intro session
  have follows : session.Follows tool schema begun changes := after_follows tool schema begun changes
  refine ⟨follows,?_,?_,?_,?_⟩
  · intro name
    rw [Table.mem_keys,Table.has,follows.collected,Changes.latest?_isSome]
  · rw [nextMissing?,follows.missing,List.head?_filter]
  · rw [isComplete,follows.missing,List.isEmpty_iff,List.filter_eq_nil_iff]
    refine forall₂_congr fun name _ => ?_
    rw [Bool.not_eq_true,Option.isNone_eq_false_iff,Changes.latest?_isSome]
  · rintro front back rfl
    exact updatedAt_forward forward

theorem session_follows_changes_beyond_completion :
    let schema : Schema := ⟨[⟨"a","first"⟩,⟨"b","second"⟩,⟨"a","again"⟩],[]⟩
    let changes : Changes := [(1,.add "a" (.int 1)),(1,.complete),(2,.add "c" .null),(4,.add "a" (.int 2)),(4,.touch)]
    let session := (start "tool" schema 0).after changes
    changes.Forward 0 ∧ session.missing = ["b"] ∧ session.phase = .completed ∧
      session.nextMissing? = some "b" ∧ session.isComplete = false ∧
      Table.get? "a" session.collected = some (.int 2) ∧ session.updatedAt = 4 := by
  intro schema changes session
  have forward : changes.Forward 0 := by simp [Changes.Forward,changes]
  obtain ⟨follows,-,next,complete,-⟩ := session_follows_changes "tool" schema 0 changes forward
  have missing : session.missing = ["b"] := follows.missing
  refine ⟨forward,missing,follows.completed ⟨1,?_⟩,next,?_,follows.collected "a",rfl⟩
  · simp [changes]
  · rw [isComplete,missing]
    rfl

end Session

end ToolDialogue
