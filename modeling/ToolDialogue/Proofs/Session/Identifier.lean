import Mathlib.Data.List.TakeWhile
import ToolDialogue.Session.Identifier
import ToolDialogue.Text.Blank

namespace ToolDialogue

namespace Text

structure Tight (value : String) : Prop where
  filled : value ≠ ""
  front : ∀ c, value.toList.head? = some c → isBlank c = false
  back : ∀ c, value.toList.getLast? = some c → isBlank c = false

theorem head?_dropWhile {text : List Char} {c : Char} (first : (text.dropWhile isBlank).head? = some c) :
    isBlank c = false := by
  have rule := List.head?_dropWhile_not isBlank text
  rw [first] at rule
  exact rule

theorem head?_trimmed {text : List Char} {c : Char} (first : (trimmed text).head? = some c) :
    isBlank c = false := by
  have kept : trimmed text <+: text.dropWhile isBlank := by
    rw [trimmed,← List.reverse_suffix,List.reverse_reverse]
    exact List.dropWhile_suffix _
  obtain ⟨rest,whole⟩ := kept
  have same : (text.dropWhile isBlank).head? = some c := by
    rw [← whole,List.head?_append,first]
    rfl
  exact head?_dropWhile same

theorem getLast?_trimmed {text : List Char} {c : Char} (last : (trimmed text).getLast? = some c) :
    isBlank c = false := by
  rw [trimmed,List.getLast?_reverse] at last
  exact head?_dropWhile last

theorem tight_trim {value : String} (filled : trim value ≠ "") : Tight (trim value) := by
  refine ⟨filled,?_,?_⟩
  · intro c first
    rw [trim,String.toList_ofList] at first
    exact head?_trimmed first
  · intro c last
    rw [trim,String.toList_ofList] at last
    exact getLast?_trimmed last

theorem dropWhile_blank {text : List Char} (front : ∀ c, text.head? = some c → isBlank c = false) :
    text.dropWhile isBlank = text := by
  cases text with
  | nil => rfl
  | cons c rest =>
    have plain := front c rfl
    rw [List.dropWhile_cons,plain]
    rfl

theorem Tight.trim {value : String} (tight : Tight value) : trim value = value := by
  have back : value.toList.reverse.dropWhile isBlank = value.toList.reverse := by
    apply dropWhile_blank
    intro c last
    rw [List.head?_reverse] at last
    exact tight.back c last
  rw [Text.trim,trimmed,dropWhile_blank tight.front,back,List.reverse_reverse,String.ofList_toList]

theorem tight_of_unblanked {value : String} (filled : value ≠ "")
    (plain : ∀ c ∈ value.toList, isBlank c = false) : Tight value := by
  refine ⟨filled,?_,?_⟩
  · intro c first
    exact plain c (List.mem_of_head? first)
  · intro c last
    exact plain c (List.mem_of_getLast? last)

end Text

namespace Identifier

theorem hexDigit_unblanked (n : Nat) : Text.isBlank (Json.hexDigit n) = false := by
  have digits : ("0123456789abcdef".toList.all fun c => !Text.isBlank c) = true := by decide
  unfold Json.hexDigit
  cases found : "0123456789abcdef".toList[n]? with
  | none => decide
  | some c => simpa using List.all_eq_true.mp digits c (List.mem_of_getElem? found)

theorem hexDigits_unblanked (count n : Nat) : ∀ c ∈ hexDigits count n, Text.isBlank c = false := by
  induction count generalizing n with
  | zero =>
    intro c member
    cases member
  | succ count ih =>
    intro c member
    rcases List.mem_append.mp member with higher | lowest
    · exact ih _ c higher
    · cases List.mem_singleton.mp lowest
      exact hexDigit_unblanked _

theorem mem_intercalate {mark : List Char} {parts : List (List Char)} {c : Char}
    (member : c ∈ mark.intercalate parts) : c ∈ mark ∨ ∃ part ∈ parts, c ∈ part := by
  induction parts with
  | nil => cases member
  | cons first rest ih =>
    cases rest with
    | nil => exact .inr ⟨first,List.mem_cons_self,by simpa using member⟩
    | cons second others =>
      rw [List.intercalate_cons_cons,List.append_assoc] at member
      rcases List.mem_append.mp member with front | behind
      · exact .inr ⟨first,List.mem_cons_self,front⟩
      · rcases List.mem_append.mp behind with between | later
        · exact .inl between
        · obtain marked | ⟨part,listed,inside⟩ := ih later
          · exact .inl marked
          · exact .inr ⟨part,List.mem_cons_of_mem _ listed,inside⟩

theorem tight_ofRandom (bits : Nat) : Text.Tight (ofRandom bits) := by
  apply Text.tight_of_unblanked
  · intro empty
    have none := congrArg String.toList empty
    simp [ofRandom] at none
  · intro c member
    rw [ofRandom,String.toList_intercalate] at member
    rcases mem_intercalate member with stroke | ⟨part,listed,inside⟩
    · cases List.mem_singleton.mp stroke
      decide
    · obtain ⟨group,grouped,rfl⟩ := List.mem_map.mp listed
      have digits : ∃ count n, group = String.ofList (hexDigits count n) := by
        simp only [List.mem_cons,List.not_mem_nil,or_false] at grouped
        rcases grouped with rfl | rfl | rfl | rfl | rfl <;> exact ⟨_,_,rfl⟩
      obtain ⟨count,n,rfl⟩ := digits
      rw [String.toList_ofList] at inside
      exact hexDigits_unblanked count n c inside

end Identifier

end ToolDialogue
