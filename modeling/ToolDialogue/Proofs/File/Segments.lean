import Mathlib.Data.List.Basic
import Mathlib.Data.List.Induction
import ToolDialogue.File.Walk

namespace ToolDialogue

namespace Text

theorem not_mem_pieces {mark : Char} {text piece : List Char} (member : piece ∈ pieces mark text) :
    mark ∉ piece := by
  induction text generalizing piece with
  | nil => simp [pieces] at member; simp [member]
  | cons c rest ih =>
    rw [pieces_cons] at member
    split at member
    · rcases List.mem_cons.mp member with rfl | old
      · simp
      · exact ih old
    · next other =>
      cases found : pieces mark rest with
      | nil => exact absurd found (pieces_ne_nil mark rest)
      | cons first others =>
        simp only [found,List.headD_cons,List.tail_cons] at member ih
        rcases List.mem_cons.mp member with rfl | old
        · simpa [Ne.symm other] using ih List.mem_cons_self
        · exact ih (List.mem_cons_of_mem _ old)

theorem pieces_of_not_mem {mark : Char} {text : List Char} (free : mark ∉ text) :
    pieces mark text = [text] := by
  induction text with
  | nil => rfl
  | cons c rest ih =>
    obtain ⟨other,free⟩ := List.ne_and_not_mem_of_not_mem_cons free
    rw [pieces_cons,if_neg (Ne.symm other),ih free]; rfl

theorem pieces_append_mark (mark : Char) (front rest : List Char) :
    pieces mark (front ++ mark :: rest) = pieces mark front ++ pieces mark rest := by
  induction front with
  | nil => rw [List.nil_append,pieces_cons,if_pos rfl]; rfl
  | cons c front ih =>
    rw [List.cons_append,pieces_cons,ih,pieces_cons]
    cases found : pieces mark front with
    | nil => exact absurd found (pieces_ne_nil mark front)
    | cons first others => split <;> simp

end Text

namespace File

theorem joined_cons {part : Name} {parts : List Name} (more : parts ≠ []) :
    joined (part :: parts) = part ++ '/' :: joined parts := by
  cases parts with
  | nil => exact absurd rfl more
  | cons next rest => simp [joined,List.intercalate]

theorem joined_append {front back : List Name} (some : front ≠ []) (more : back ≠ []) :
    joined (front ++ back) = joined front ++ '/' :: joined back := by
  induction front with
  | nil => exact absurd rfl some
  | cons part front ih =>
    by_cases last : front = []
    · subst last; simpa [joined,List.intercalate] using (joined_cons more : joined (part :: back) = _)
    · rw [List.cons_append,joined_cons (by simp [last]),ih last,joined_cons last]; simp

theorem mem_joined {c : Char} {parts : List Name} (member : c ∈ joined parts) :
    c = '/' ∨ ∃ part ∈ parts, c ∈ part := by
  induction parts with
  | nil => simp [joined,List.intercalate] at member
  | cons part parts ih =>
    by_cases last : parts = []
    · subst last; exact .inr ⟨part,by simp,by simpa [joined,List.intercalate] using member⟩
    · rw [joined_cons last] at member
      rcases List.mem_append.mp member with here | later
      · exact .inr ⟨part,by simp,here⟩
      · rcases List.mem_cons.mp later with slash | deeper
        · exact .inl slash
        · obtain same | ⟨other,listed,within⟩ := ih deeper
          · exact .inl same
          · exact .inr ⟨other,by simp [listed],within⟩

theorem mem_joined_of_mem {c : Char} {part : Name} {parts : List Name} (listed : part ∈ parts)
    (within : c ∈ part) : c ∈ joined parts := by
  induction parts with
  | nil => cases listed
  | cons first parts ih =>
    by_cases last : parts = []
    · subst last
      rw [List.mem_singleton.mp listed] at within
      simpa [joined,List.intercalate] using within
    · rw [joined_cons last]
      rcases List.mem_cons.mp listed with rfl | later
      · simp [within]
      · simp [ih later]

theorem segments_joined {parts : List Name} (some : parts ≠ []) (whole : ∀ part ∈ parts, '/' ∉ part) :
    segments (joined parts) = parts := by
  induction parts with
  | nil => exact absurd rfl some
  | cons part parts ih =>
    have free : '/' ∉ part := whole part (by simp)
    by_cases last : parts = []
    · subst last; simpa [segments,joined,List.intercalate] using Text.pieces_of_not_mem free
    · rw [joined_cons last,segments,Text.pieces_append_mark,Text.pieces_of_not_mem free]
      exact congrArg (part :: ·) (ih last fun other member => whole other (by simp [member]))

theorem segments_whole (path : Path) {segment : Name} (member : segment ∈ segments path) :
    '/' ∉ segment := Text.not_mem_pieces member

theorem segments_absolute {path : Path} (absolute : isAbsolute path) :
    ∃ tail, segments path = [] :: tail ∧ tail ≠ [] := by
  cases path with
  | nil => simp [isAbsolute] at absolute
  | cons c rest =>
    have slash : c = '/' := by simpa [isAbsolute] using absolute
    exact ⟨segments rest,by rw [segments,Text.pieces_cons,if_pos slash]; rfl,Text.pieces_ne_nil _ _⟩

def IsName (segment : Name) : Prop :=
  '/' ∉ segment ∧ isIdle segment = false ∧ segment ≠ parentName

instance (segment : Name) : Decidable (IsName segment) :=
  inferInstanceAs (Decidable (_ ∧ _ ∧ _))

theorem IsName.ne_nil {segment : Name} (name : IsName segment) : segment ≠ [] := by
  rintro rfl; exact absurd name.2.1 (by decide)

def Named (location : Location) : Prop := ∀ name ∈ location, IsName name

instance (location : Location) : Decidable (Named location) :=
  inferInstanceAs (Decidable (∀ name ∈ location, IsName name))

theorem Named.append {front back : Location} (upper : Named front) (lower : Named back) :
    Named (front ++ back) := by
  intro name member
  rcases List.mem_append.mp member with old | new
  · exact upper name old
  · exact lower name new

theorem Named.concat {location : Location} {name : Name} (named : Named location)
    (last : IsName name) : Named (location ++ [name]) :=
  named.append fun _ member => List.mem_singleton.mp member ▸ last

theorem Named.of_prefix {front location : Location} (named : Named location)
    (above : front <+: location) : Named front := fun name member => named name (above.subset member)

theorem Named.of_suffix {back location : Location} (named : Named location)
    (below : back <:+ location) : Named back := fun name member => named name (below.subset member)

theorem Named.ne_nil {location : Location} (named : Named location) (name : Name)
    (member : name ∈ location) : name ≠ [] := (named name member).ne_nil

theorem Named.all_nil {location : Location} (named : Named location) (some : location ≠ []) :
    location.all (· == []) = false := by
  obtain ⟨name,rest,rfl⟩ := List.exists_cons_of_ne_nil some
  simp [named.ne_nil name (by simp)]

theorem pathOf_eq_joined {location : Location} (below : location ≠ []) :
    pathOf location = joined ([] :: location) := by
  rw [joined_cons below]; rfl

theorem isAbsolute_pathOf (location : Location) : isAbsolute (pathOf location) := rfl

theorem segments_pathOf {location : Location} (named : Named location) :
    segments (pathOf location) = if location = [] then [[],[]] else [] :: location := by
  split
  · next top => subst top; rfl
  · next below =>
    rw [pathOf_eq_joined below]
    refine segments_joined (by simp) fun part member => ?_
    rcases List.mem_cons.mp member with rfl | listed
    · simp
    · exact (named part listed).1

theorem components_pathOf {location : Location} (named : Named location) :
    components (pathOf location) = .root :: location.map .name := by
  have kept : location.filter (!isIdle ·) = location :=
    List.filter_eq_self.mpr fun name member => by simp [(named name member).2.1]
  have plain : location.map componentOf = location.map .name :=
    List.map_congr_left fun name member => by simp [componentOf,(named name member).2.2]
  rw [components,segments_pathOf named]
  by_cases top : location = []
  · subst top; rfl
  · simp [top,isAbsolute_pathOf,kept,plain]

theorem isWithin_pathOf {root location : Location} (top : Named root) (named : Named location) :
    isWithin (pathOf location) (pathOf root) = true ↔ root <+: location := by
  rw [isWithin,components_pathOf top,components_pathOf named]
  have apart : Function.Injective Component.name := fun _ _ same => by injection same
  simp [List.prefix_map_iff_of_injective apart]

theorem segments_slashed {location : Location} (named : Named location) (below : location ≠ []) :
    segments (pathOf location ++ ['/']) = [] :: (location ++ [[]]) := by
  have front := segments_pathOf named
  rw [if_neg below,segments] at front
  have split : pathOf location ++ ['/'] = pathOf location ++ '/' :: [] := rfl
  rw [split,segments,Text.pieces_append_mark,front]; rfl

theorem joined_singleton (part : Name) : joined [part] = part := by simp [joined,List.intercalate]

theorem isAbsolute_of_whole {text : Path} (whole : text.head? ≠ some '/') : isAbsolute text = false := by
  simp [isAbsolute,whole]

theorem joined_getLast? {parts : List Name} {last : Name} (real : last ≠ []) :
    (joined (parts ++ [last])).getLast? = last.getLast? := by
  by_cases alone : parts = []
  · rw [alone,List.nil_append,joined_singleton]
  · rw [joined_append alone (by simp),joined_singleton,List.getLast?_append,
      List.getLast?_cons_of_ne_nil real,List.getLast?_eq_some_getLast real,Option.some_or]

theorem head?_ne_slash {name : Name} (whole : '/' ∉ name) : name.head? ≠ some '/' :=
  fun starts => whole (List.mem_of_head? starts)

theorem getLast?_ne_slash {name : Name} (whole : '/' ∉ name) : name.getLast? ≠ some '/' :=
  fun ends => whole (List.mem_of_getLast? ends)

theorem append_named {parts : List Name} {last : Name} (whole : '/' ∉ last) (real : last ≠ [])
    {rest : Path} (relative : rest.head? ≠ some '/') :
    append (joined (parts ++ [last])) rest = joined (parts ++ [last]) ++ '/' :: rest := by
  have ends : (joined (parts ++ [last])).getLast? = last.getLast? := joined_getLast? real
  have filled : joined (parts ++ [last]) ≠ [] := by
    intro bare
    rw [bare] at ends; simp [eq_comm,real] at ends
  simp [append,isAbsolute_of_whole relative,filled,ends,getLast?_ne_slash whole]

theorem foldl_append {names : List Name} (plain : ∀ name ∈ names, '/' ∉ name ∧ name ≠ []) :
    names.foldl append [] = joined names := by
  induction names using List.reverseRecOn with
  | nil => rfl
  | append_singleton front name ih =>
    have upper := ih fun other member => plain other (by simp [member])
    obtain ⟨whole,-⟩ := plain name (by simp)
    have relative := head?_ne_slash whole
    rw [List.foldl_append,List.foldl_cons,List.foldl_nil,upper]
    rcases List.eq_nil_or_concat' front with rfl | ⟨init,last,rfl⟩
    · simp [append,isAbsolute_of_whole relative,joined,List.intercalate]
    · obtain ⟨free,real⟩ := plain last (by simp)
      rw [append_named free real relative,← joined_singleton name,← joined_append (by simp) (by simp),
        joined_singleton]

theorem append_pathOf {location below : Location} (named : Named location) (lower : Named below)
    (deeper : below ≠ []) : append (pathOf location) (joined below) = pathOf (location ++ below) := by
  have relative : (joined below).head? ≠ some '/' := by
    obtain ⟨name,rest,rfl⟩ := List.exists_cons_of_ne_nil deeper
    have real := lower name (by simp)
    obtain ⟨c,text,rfl⟩ := List.exists_cons_of_ne_nil real.ne_nil
    have other := head?_ne_slash real.1
    by_cases last : rest = []
    · simpa [last,joined_singleton] using other
    · simpa [joined_cons last] using other
  rcases List.eq_nil_or_concat' location with rfl | ⟨front,last,rfl⟩
  · rw [append,isAbsolute_of_whole relative]; rfl
  · have real := named last (by simp)
    rw [pathOf_eq_joined (by simp),pathOf_eq_joined (by simp),← List.cons_append,
      append_named real.1 real.ne_nil relative,← joined_append (by simp) deeper]; simp

theorem append_pathOf_nil {location : Location} (named : Named location) :
    append (pathOf location) [] = if location = [] then ['/'] else pathOf location ++ ['/'] := by
  rcases List.eq_nil_or_concat' location with rfl | ⟨front,last,rfl⟩
  · rfl
  · have real := named last (by simp)
    rw [if_neg (by simp),pathOf_eq_joined (by simp),← List.cons_append,
      append_named real.1 real.ne_nil (by simp)]

end File

end ToolDialogue
