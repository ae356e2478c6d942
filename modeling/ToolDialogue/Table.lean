namespace ToolDialogue

-- Values under keys in the order of their first arrival. A key occurs once in a
-- table that `put` and `erase` have made.
abbrev Table (κ ν : Type) := List (κ × ν)

namespace Table

variable {κ ν : Type} [DecidableEq κ]

def get? (key : κ) : Table κ ν → Option ν
  | [] => none
  | (other,value) :: rest => if key = other then some value else get? key rest

def put (key : κ) (value : ν) : Table κ ν → Table κ ν
  | [] => [(key,value)]
  | (other,old) :: rest =>
    if key = other then (key,value) :: rest else (other,old) :: put key value rest

def erase (key : κ) (table : Table κ ν) : Table κ ν := table.filter (·.1 ≠ key)

def keys (table : Table κ ν) : List κ := table.map (·.1)

def has (key : κ) (table : Table κ ν) : Bool := (get? key table).isSome

theorem mem_of_get? {key : κ} {value : ν} {table : Table κ ν} (found : get? key table = some value) :
    (key,value) ∈ table := by
  induction table with
  | nil => cases found
  | cons entry rest ih =>
    obtain ⟨other,old⟩ := entry
    by_cases here : key = other
    · simp_all [get?]
    · exact List.mem_cons_of_mem _ (ih (by simpa [get?,here] using found))

theorem mem_put {key : κ} {value : ν} {table : Table κ ν} {entry : κ × ν}
    (member : entry ∈ put key value table) : entry = (key,value) ∨ entry ∈ table := by
  induction table with
  | nil => exact .inl (by simpa [put] using member)
  | cons head rest ih =>
    obtain ⟨other,old⟩ := head
    by_cases here : key = other
    · simp only [put,here,if_true,List.mem_cons] at member ⊢
      rcases member with same | later
      · exact .inl same
      · exact .inr (.inr later)
    · simp only [put,here,if_false,List.mem_cons] at member ⊢
      rcases member with same | later
      · exact .inr (.inl same)
      · exact (ih later).imp_right .inr

theorem get?_put (key other : κ) (value : ν) (table : Table κ ν) :
    get? other (put key value table) = if other = key then some value else get? other table := by
  induction table with
  | nil => simp [put,get?]
  | cons entry rest ih =>
    obtain ⟨first,old⟩ := entry
    by_cases found : key = first
    · subst found; by_cases same : other = key <;> simp [put,get?,same]
    · by_cases here : other = first
      · subst here; simp [put,get?,found,Ne.symm found]
      · simp [put,get?,found,here,ih]

theorem put_get? {key : κ} {value : ν} {table : Table κ ν} (found : get? key table = some value) :
    put key value table = table := by
  induction table with
  | nil => cases found
  | cons entry rest ih =>
    obtain ⟨other,old⟩ := entry
    by_cases here : key = other
    · simp_all [put,get?]
    · rw [put,if_neg here,ih (by simpa [get?,here] using found)]

theorem get?_erase (key other : κ) (table : Table κ ν) :
    get? other (erase key table) = if other = key then none else get? other table := by
  induction table with
  | nil => simp [erase,get?]
  | cons entry rest ih =>
    obtain ⟨first,old⟩ := entry
    by_cases gone : first = key
    · subst gone
      by_cases same : other = first <;> simp_all [erase,get?]
    · by_cases here : other = first
      · subst here; simp [erase,get?,gone]
      · simp_all [erase,get?]

end Table

end ToolDialogue
