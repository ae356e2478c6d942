import Mathlib.Data.List.Nodup
import Mathlib.Tactic.Tauto
import ToolDialogue.Dialogue.Turn

namespace ToolDialogue

-- What one call leaves in a session under a name. An optional parameter always
-- leaves something, a required one only where it is supplied; where the name is
-- declared twice the optional declaration counts, and of those the last.
def merged? (schema : Schema) (arguments : Arguments) (name : String) : Option Json :=
  match schema.optional.reverse.find? (·.name == name) with
  | some parameter => some ((supplied? arguments name).getD parameter.fallback)
  | none => if name ∈ schema.requiredNames then supplied? arguments name else none

theorem declaredLast_eq_none (schema : Schema) (name : String) :
    schema.optional.reverse.find? (·.name == name) = none ↔ name ∉ schema.optionalNames := by
  simp [Schema.optionalNames]

theorem merged?_required {schema : Schema} {arguments : Arguments} {name : String}
    (only : name ∉ schema.optionalNames) (declared : name ∈ schema.requiredNames) :
    merged? schema arguments name = supplied? arguments name := by
  have absent := (declaredLast_eq_none schema name).mpr only
  simp [merged?,absent,declared]

theorem merged?_optional {schema : Schema} {arguments : Arguments} {parameter : OptionalParameter}
    (distinct : schema.optionalNames.Nodup) (declared : parameter ∈ schema.optional) :
    merged? schema arguments parameter.name =
      some ((supplied? arguments parameter.name).getD parameter.fallback) := by
  cases found : schema.optional.reverse.find? (·.name == parameter.name) with
  | none => exact absurd (List.mem_map_of_mem declared) ((declaredLast_eq_none _ _).mp found)
  | some other =>
    have same : other.name = parameter.name := by simpa using List.find?_some found
    have listed : other ∈ schema.optional := by simpa using List.mem_of_find?_eq_some found
    have equal := List.inj_on_of_nodup_map distinct listed declared same
    simp [merged?,found,equal]

theorem merged?_undeclared {schema : Schema} {arguments : Arguments} {name : String}
    (required : name ∉ schema.requiredNames) (optional : name ∉ schema.optionalNames) :
    merged? schema arguments name = none := by
  have absent := (declaredLast_eq_none schema name).mpr optional
  simp [merged?,absent,required]

theorem merged?_isSome (schema : Schema) (arguments : Arguments) (name : String) :
    (merged? schema arguments name).isSome ↔
      name ∈ schema.optionalNames ∨
        name ∈ schema.requiredNames ∧ (supplied? arguments name).isSome := by
  by_cases optional : name ∈ schema.optionalNames
  · cases found : schema.optional.reverse.find? (·.name == name) with
    | none => exact absurd optional ((declaredLast_eq_none _ _).mp found)
    | some parameter => simp [merged?,found,optional]
  · have absent := (declaredLast_eq_none schema name).mpr optional
    by_cases required : name ∈ schema.requiredNames <;> simp [merged?,absent,optional,required]

namespace Session

variable {now : Instant} {name : String}

theorem addSupplied_collected (arguments : Arguments) (names : List String) (session : Session) :
    Table.get? name (names.foldl (addSupplied arguments now) session).collected =
      (if name ∈ names then supplied? arguments name else none).or
        (Table.get? name session.collected) := by
  induction names generalizing session with
  | nil => simp
  | cons first rest ih =>
    rw [List.foldl_cons,ih]
    cases value : supplied? arguments first with
    | none =>
      by_cases here : name = first
      · subst here; simp [addSupplied,value]
      · simp [addSupplied,value,here]
    | some given =>
      by_cases here : name = first
      · subst here; by_cases again : name ∈ rest <;> simp [addSupplied,value,add,Table.get?_put,again]
      · simp [addSupplied,value,add,Table.get?_put,here]

theorem addOptional_collected (arguments : Arguments) (parameters : List OptionalParameter)
    (session : Session) :
    Table.get? name (parameters.foldl (addOptional arguments now) session).collected =
      ((parameters.reverse.find? (·.name == name)).map fun parameter =>
        (supplied? arguments name).getD parameter.fallback).or
        (Table.get? name session.collected) := by
  induction parameters generalizing session with
  | nil => simp
  | cons first rest ih =>
    rw [List.foldl_cons,ih,List.reverse_cons,List.find?_append]
    cases later : rest.reverse.find? (·.name == name) with
    | some parameter => simp
    | none =>
      by_cases here : first.name = name
      · subst here; simp [addOptional,add,Table.get?_put]
      · simp [addOptional,add,Table.get?_put,here,Ne.symm here]

theorem absorb_collected (session : Session) (schema : Schema) (arguments : Arguments) :
    Table.get? name (session.absorb schema arguments now).collected =
      (merged? schema arguments name).or (Table.get? name session.collected) := by
  rw [absorb,addOptional_collected,addSupplied_collected]
  cases found : schema.optional.reverse.find? (·.name == name) with
  | some parameter => simp [merged?,found]
  | none => simp [merged?,found,touch]

theorem addSupplied_missing (arguments : Arguments) (names : List String) (session : Session) :
    (names.foldl (addSupplied arguments now) session).missing =
      session.missing.filter fun name => !(decide (name ∈ names) && (supplied? arguments name).isSome) := by
  induction names generalizing session with
  | nil => exact (List.filter_true _).symm
  | cons first rest ih =>
    rw [List.foldl_cons,ih]
    cases value : supplied? arguments first with
    | none =>
      simp only [addSupplied,value]
      refine List.filter_congr fun other _ => ?_
      by_cases here : other = first
      · subst here; simp [value]
      · simp [here]
    | some given =>
      simp only [addSupplied,value,add,List.filter_filter]
      refine List.filter_congr fun other _ => ?_
      by_cases here : other = first
      · subst here; simp [value]
      · simp [here]

theorem addOptional_missing (arguments : Arguments) (parameters : List OptionalParameter)
    (session : Session) :
    (parameters.foldl (addOptional arguments now) session).missing =
      session.missing.filter (· ∉ parameters.map (·.name)) := by
  induction parameters generalizing session with
  | nil => simp
  | cons first rest ih =>
    rw [List.foldl_cons,ih]
    simp only [addOptional,add,List.filter_filter]
    refine List.filter_congr fun other _ => ?_
    by_cases here : other = first.name <;> simp [here]

theorem absorb_missing (session : Session) (schema : Schema) (arguments : Arguments) :
    (session.absorb schema arguments now).missing =
      session.missing.filter fun name => (merged? schema arguments name).isNone := by
  rw [absorb,addOptional_missing,addSupplied_missing,List.filter_filter]
  refine List.filter_congr fun name _ => ?_
  have given := merged?_isSome schema arguments name
  rw [Bool.eq_iff_iff,Option.isNone_iff_eq_none,← Option.not_isSome_iff_eq_none,given]
  simp only [Bool.and_eq_true,Bool.not_eq_true',Bool.and_eq_false_iff,decide_eq_true_eq,
    decide_eq_false_iff_not,Schema.optionalNames]
  simp only [← Bool.not_eq_true]
  tauto

theorem absorb_tool (session : Session) (schema : Schema) (arguments : Arguments) :
    (session.absorb schema arguments now).tool = session.tool := by
  have supplied : ∀ (names : List String) (s : Session),
      (names.foldl (addSupplied arguments now) s).tool = s.tool := by
    intro names
    induction names with
    | nil => simp
    | cons first rest ih =>
      intro s
      rw [List.foldl_cons,ih]
      cases value : supplied? arguments first <;> simp [addSupplied,value,add]
  have optional : ∀ (parameters : List OptionalParameter) (s : Session),
      (parameters.foldl (addOptional arguments now) s).tool = s.tool := by
    intro parameters
    induction parameters with
    | nil => simp
    | cons first rest ih => intro s; rw [List.foldl_cons,ih]; rfl
  rw [absorb,optional,supplied,touch]

end Session

end ToolDialogue
