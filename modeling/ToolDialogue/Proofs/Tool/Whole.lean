import ToolDialogue.Proofs.Json.Token
import ToolDialogue.Proofs.Session.Identifier
import ToolDialogue.Tool.Argument

namespace ToolDialogue

namespace Argument

open Decimal

-- The whole number that a stored value stands for: an integer or a double with that very
-- value, or a text of its digits with blanks around them and a plus sign in front.
inductive Denotes : Json → ℕ → Prop
  | int (n : ℕ) : Denotes (.int n) n
  | double {bits : UInt64} {negative : Bool} {magnitude : Binary} {n : ℕ}
      (read : Double.ofBits bits.toNat = .finite negative magnitude)
      (equal : (if negative then -magnitude.value else magnitude.value) = n) : Denotes (.double bits) n
  | text {value : String} {sign digits : List Char} (spelled : Text.trimmed value.toList = sign ++ digits)
      (plus : sign = [] ∨ sign = ['+']) (filled : digits ≠ []) (all : ∀ c ∈ digits, c.isDigit = true) :
      Denotes (.text value) (natOf digits)

theorem signed_iff {negative : Bool} {magnitude : Binary} {n : ℕ} :
    (if negative then -magnitude.value else magnitude.value) = n ↔
      magnitude.value = n ∧ (magnitude.mantissa = 0 ∨ negative = false) := by
  cases negative with
  | false => simp
  | true =>
    rw [if_pos rfl,← Binary.value_eq_zero]
    have below := magnitude.value_nonneg
    have count : (0 : ℚ) ≤ n := Nat.cast_nonneg n
    constructor
    · intro same
      have zero : magnitude.value = 0 := by linarith
      exact ⟨by linarith,.inl zero⟩
    · rintro ⟨same,zero | impossible⟩
      · linarith
      · cases impossible

theorem wholeDouble_iff {bits : UInt64} {k : ℕ} :
    wholeDouble? bits = some k ↔ ∃ n, Denotes (.double bits) n ∧ k = min n (wholeLimit - 1) := by
  rw [wholeDouble?]
  constructor
  · intro answered
    split at answered
    · next negative magnitude read =>
      split at answered
      · next whole =>
        cases answered
        refine ⟨magnitude.floor,.double read (signed_iff.mpr ⟨Binary.value_iff.mpr ⟨whole.1,rfl⟩,whole.2⟩),rfl⟩
      · cases answered
    · cases answered
  · rintro ⟨n,denotes,rfl⟩
    cases denotes with
    | double read equal =>
      obtain ⟨same,sign⟩ := signed_iff.mp equal
      obtain ⟨whole,rfl⟩ := Binary.value_iff.mp same
      rw [read]
      exact if_pos ⟨whole,sign⟩

def unsigned (text : List Char) : List Char :=
  match text with
  | '+' :: rest => rest
  | _ => text

theorem whole?_unsigned (limit : ℕ) (text : List Char) : Text.whole? limit text =
    if unsigned text ≠ [] ∧ (unsigned text).all Char.isDigit ∧ natOf (unsigned text) < limit then
      some (natOf (unsigned text)) else none := rfl

theorem spelled_unsigned (text : List Char) :
    ∃ sign, text = sign ++ unsigned text ∧ (sign = [] ∨ sign = ['+']) := by
  rw [unsigned.eq_def]
  split
  · exact ⟨['+'],rfl,.inr rfl⟩
  · exact ⟨[],rfl,.inl rfl⟩

theorem unsigned_spelled {sign digits : List Char} (plus : sign = [] ∨ sign = ['+'])
    (all : ∀ c ∈ digits, c.isDigit = true) : unsigned (sign ++ digits) = digits := by
  obtain rfl | rfl := plus
  · rw [List.nil_append,unsigned.eq_def]
    split
    · exact absurd (all '+' List.mem_cons_self) (by decide)
    · rfl
  · rfl

theorem wholeText_iff {value : String} {n : ℕ} :
    Text.whole? wholeLimit (Text.trimmed value.toList) = some n ↔ Denotes (.text value) n ∧ n < wholeLimit := by
  generalize read : Text.trimmed value.toList = text
  rw [whole?_unsigned]
  constructor
  · intro answered
    split at answered
    · next right =>
      cases answered
      obtain ⟨sign,spelled,plus⟩ := spelled_unsigned text
      exact ⟨.text (read.trans spelled) plus right.1 (List.all_eq_true.mp right.2.1),right.2.2⟩
    · cases answered
  · rintro ⟨denotes,below⟩
    cases denotes with
    | text spelled plus filled all =>
      rw [← read,spelled,unsigned_spelled plus all]
      exact if_pos ⟨filled,List.all_eq_true.mpr all,below⟩

theorem Denotes.unique {stored : Json} {n m : ℕ} (first : Denotes stored n) (second : Denotes stored m) : n = m := by
  cases first with
  | int => cases second; rfl
  | double read equal =>
    cases second with
    | double read' equal' =>
      rw [read] at read'
      cases read'
      exact_mod_cast equal.symm.trans equal'
  | text spelled plus _ all =>
    cases second with
    | text spelled' plus' _ all' =>
      rw [← unsigned_spelled plus all,← unsigned_spelled plus' all',← spelled,← spelled']

-- A number too large for 64 bits. No text is one.
def Oversized (stored : Json) : Prop :=
  (∀ value, stored ≠ .text value) ∧ ∃ n, Denotes stored n ∧ wholeLimit ≤ n

theorem wholeInt_iff {value : ℤ} {n : ℕ} : whole? (.int value) = some n ↔ Denotes (.int value) n := by
  rw [whole?]
  constructor
  · intro answered
    split at answered
    · next above =>
      cases answered
      obtain ⟨n,rfl⟩ := Int.eq_ofNat_of_zero_le above
      exact .int n
    · cases answered
  · intro denotes
    cases denotes with
    | int => exact if_pos (Int.natCast_nonneg n)

theorem whole?_iff {stored : Json} {n : ℕ} (small : ¬Oversized stored) :
    whole? stored = some n ↔ Denotes stored n ∧ n < wholeLimit := by
  have within {stored : Json} (small : ¬Oversized stored) (other : ∀ value, stored ≠ .text value) {n : ℕ}
      (denotes : Denotes stored n) : n < wholeLimit :=
    Nat.lt_of_not_le fun beyond => small ⟨other,n,denotes,beyond⟩
  cases stored with
  | int value => exact wholeInt_iff.trans ⟨fun denotes => ⟨denotes,within small nofun denotes⟩,And.left⟩
  | double bits =>
    have answered : whole? (.double bits) = some n ↔ _ := wholeDouble_iff
    refine answered.trans ⟨?_,fun ⟨denotes,below⟩ => ⟨n,denotes,?_⟩⟩
    · rintro ⟨m,denotes,rfl⟩
      have below := within small nofun denotes
      rw [Nat.min_eq_left (Nat.le_sub_one_of_lt below)]
      exact ⟨denotes,below⟩
    · exact (Nat.min_eq_left (Nat.le_sub_one_of_lt below)).symm
  | text value => exact wholeText_iff
  | null => exact ⟨nofun,fun ⟨denotes,_⟩ => by cases denotes⟩
  | bool => exact ⟨nofun,fun ⟨denotes,_⟩ => by cases denotes⟩
  | array => exact ⟨nofun,fun ⟨denotes,_⟩ => by cases denotes⟩
  | object => exact ⟨nofun,fun ⟨denotes,_⟩ => by cases denotes⟩

theorem whole?_oversized {stored : Json} (large : Oversized stored) : ∃ n, whole? stored = some n := by
  obtain ⟨other,n,denotes,-⟩ := large
  cases denotes with
  | int => exact ⟨n,wholeInt_iff.mpr (.int n)⟩
  | double read equal => exact ⟨_,wholeDouble_iff.mpr ⟨n,.double read equal,rfl⟩⟩
  | text => exact absurd rfl (other _)

theorem wholeNumber_cases (values : Collected) (name : String) :
    (∃ stored n, Table.get? name values = some stored ∧ whole? stored = some n ∧ wholeNumber values name = .ok n) ∨
    (∀ stored, Table.get? name values = some stored → whole? stored = none) ∧
      ∃ text, wholeNumber values name = .error (.invalidArguments text) := by
  rw [wholeNumber]
  cases Table.get? name values with
  | none => exact .inr ⟨nofun,_,rfl⟩
  | some stored =>
    dsimp only
    cases read : whole? stored with
    | none => exact .inr ⟨fun _ same => Option.some.inj same ▸ read,_,rfl⟩
    | some n => exact .inl ⟨stored,n,rfl,read,rfl⟩

structure Exact (values : Collected) (name : String) : Prop where
  answered : ∀ n, wholeNumber values name = .ok n →
    n < wholeLimit ∧ ∃ stored, Table.get? name values = some stored ∧ Denotes stored n
  refused : (¬∃ stored n, Table.get? name values = some stored ∧ Denotes stored n ∧ n < wholeLimit) →
    ∃ text, wholeNumber values name = .error (.invalidArguments text)

theorem exact_iff (values : Collected) (name : String) :
    Exact values name ↔ ∀ stored, Table.get? name values = some stored → ¬Oversized stored := by
  constructor
  · intro exact stored found large
    obtain ⟨n,read⟩ := whole?_oversized large
    have ended : wholeNumber values name = .ok n := by rw [wholeNumber,found]; dsimp only; rw [read]
    obtain ⟨below,other,same,denotes⟩ := exact.answered n ended
    cases found.symm.trans same
    obtain ⟨-,m,denotes',beyond⟩ := large
    cases denotes.unique denotes'
    exact Nat.not_lt_of_le beyond below
  · intro small
    obtain ⟨stored,n,found,read,ended⟩ | ⟨unread,text,ended⟩ := wholeNumber_cases values name
    · obtain ⟨denotes,below⟩ := (whole?_iff (small stored found)).mp read
      refine ⟨fun m same => ?_,fun none => absurd ⟨stored,n,found,denotes,below⟩ none⟩
      cases ended.symm.trans same
      exact ⟨below,stored,found,denotes⟩
    · refine ⟨fun m same => ?_,fun _ => ⟨text,ended⟩⟩
      cases ended.symm.trans same

theorem oversized_of_atLeast {x : Float} (least : AtLeast x (2^(64 : ℤ))) (finite : x.isInf = false) :
    Oversized (.double x.toBits) := by
  obtain infinite | ⟨f,e,fits,read,above⟩ := least
  · change x.toModel.unpack.isInf = false at finite
    rw [infinite] at finite
    cases finite
  · have up : 64 < (53 : ℕ) + e := exponent_of_le fits.narrow above
    obtain ⟨k,rfl⟩ := Int.eq_ofNat_of_zero_le (show 0 ≤ e by omega)
    have bits : Double.ofBits x.toBits.toNat = .finite false ⟨f,k⟩ := by
      change Double.of x = _
      rw [Double.of_eq,read]; rfl
    have equal : ((f * 2^k : ℕ) : ℚ) = f * 2^(k : ℤ) := by push_cast; rw [zpow_natCast]
    refine ⟨nofun,f * 2^k,.double bits equal.symm,?_⟩
    rw [← equal] at above
    exact_mod_cast above

theorem wholeDouble_oversized {bits : UInt64} (large : Oversized (.double bits)) :
    whole? (.double bits) = some (wholeLimit - 1) := by
  obtain ⟨-,n,denotes,beyond⟩ := large
  exact wholeDouble_iff.mpr ⟨n,denotes,(Nat.min_eq_right ((Nat.sub_le ..).trans beyond)).symm⟩

theorem trimmed_digits {digits : List Char} (filled : digits ≠ []) (all : ∀ c ∈ digits, c.isDigit = true) :
    Text.trimmed (String.ofList digits).toList = digits := by
  have tight : Text.Tight (String.ofList digits) := by
    refine Text.tight_of_unblanked (by simpa using filled) fun c member => Text.digit_unblanked (all c ?_)
    simpa using member
  have same := congrArg String.toList tight.trim
  rw [Text.trim,String.toList_ofList] at same
  rw [same,String.toList_ofList]

theorem wholeNumber_stored (stored : Json) (name : String) : wholeNumber [(name,stored)] name =
    match whole? stored with
    | some n => .ok n
    | none => invalid (quoted name ++ " must be a whole number") := by
  have found : Table.get? name [(name,stored)] = some stored := by rw [Table.get?,if_pos rfl]
  cases read : whole? stored with
  | none => simp only [wholeNumber,found,read]
  | some n => simp only [wholeNumber,found,read]

theorem wholeNumber_digits {digits : List Char} (plain : Json.Plain digits) (name : String) :
    wholeNumber [(name,.text (String.ofList digits))] name =
      if natOf digits < wholeLimit then .ok (natOf digits)
      else invalid (quoted name ++ " must be a whole number") := by
  have spelled : Text.trimmed (String.ofList digits).toList = [] ++ digits := trimmed_digits plain.filled plain.all
  have denotes : Denotes (.text (String.ofList digits)) (natOf digits) :=
    .text spelled (.inl rfl) plain.filled plain.all
  rw [wholeNumber_stored]
  by_cases below : natOf digits < wholeLimit
  · have read : whole? (.text (String.ofList digits)) = some (natOf digits) := wholeText_iff.mpr ⟨denotes,below⟩
    rw [read,if_pos below]
  · have unread : whole? (.text (String.ofList digits)) = none := by
      refine Option.eq_none_iff_forall_ne_some.mpr fun n read => ?_
      obtain ⟨other,within⟩ := wholeText_iff.mp read
      exact below (other.unique denotes ▸ within)
    rw [unread,if_neg below]

theorem wholeNumber_token {cur behind : Json.Cursor} {digits rest : List Char} {token : Json} (plain : Json.Plain digits)
    (ends : Json.Ends rest) (here : cur.rest = digits ++ rest)
    (read : Json.readNumber .full false cur = .ok (token,behind)) (name : String) :
    wholeNumber [(name,token)] name = .ok (min (natOf digits) (wholeLimit - 1)) := by
  rw [wholeNumber_stored]
  obtain below | beyond := Nat.lt_or_ge (natOf digits) wholeLimit
  · rw [Json.readNumber_plain plain ends here,if_pos (show natOf digits < 2^64 from below)] at read
    cases read
    rw [wholeInt_iff.mpr (.int (natOf digits)),Nat.min_eq_left (Nat.le_sub_one_of_lt below)]
  · obtain ⟨x,rfl,least,finite⟩ := Json.readNumber_large plain ends here beyond read
    rw [wholeDouble_oversized (oversized_of_atLeast least finite),Nat.min_eq_right ((Nat.sub_le ..).trans beyond)]

-- Reading is exact but for the numbers of 2^64 and above, which are cut to the last below.
-- The digits of a whole number are answered alike as a number and as a text where 64 bits
-- hold it.
theorem wholeNumber_exact (values : Collected) (name : String) :
    (Exact values name ↔ ∀ stored, Table.get? name values = some stored → ¬Oversized stored) ∧
    (∀ bits, Table.get? name values = some (.double bits) → Oversized (.double bits) →
      wholeNumber values name = .ok (wholeLimit - 1)) ∧
    ∀ digits, Json.Plain digits →
      wholeNumber [(name,.text (String.ofList digits))] name =
        (if natOf digits < wholeLimit then .ok (natOf digits)
          else .error (.invalidArguments (quoted name ++ " must be a whole number"))) ∧
      ∀ (cur : Json.Cursor) rest, cur.rest = digits ++ rest → Json.Ends rest →
        (natOf digits < wholeLimit →
          Json.readNumber .full false cur = .ok (.int (natOf digits),cur.skip digits.length)) ∧
        ∀ token behind, Json.readNumber .full false cur = .ok (token,behind) →
          wholeNumber [(name,token)] name = .ok (min (natOf digits) (wholeLimit - 1)) := by
  refine ⟨exact_iff values name,fun bits found large => ?_,fun digits plain =>
    ⟨wholeNumber_digits plain name,fun cur rest here ends => ⟨fun below => ?_,fun token behind read => ?_⟩⟩⟩
  · rw [wholeNumber,found]
    dsimp only
    rw [wholeDouble_oversized large]
  · exact (Json.readNumber_plain plain ends here).trans (if_pos below)
  · exact wholeNumber_token plain ends here read name

theorem power_is_cut :
    (Json.readNumber .full false (.start "18446744073709551616")).map (·.1) = .ok (.double 0x43F0000000000000) ∧
    Denotes (.double 0x43F0000000000000) (2^64) ∧
    wholeNumber [("n",.double 0x43F0000000000000)] "n" = .ok 18446744073709551615 ∧
    ¬Exact [("n",.double 0x43F0000000000000)] "n" ∧
    wholeNumber [("n",.text "18446744073709551616")] "n" =
      .error (.invalidArguments (quoted "n" ++ " must be a whole number")) := by
  have read : Double.ofBits (0x43F0000000000000 : UInt64).toNat = .finite false ⟨2^52,12⟩ := by decide +kernel
  have denotes : Denotes (.double 0x43F0000000000000) (2^64) := .double read (by norm_num [Binary.value])
  have large : Oversized (.double 0x43F0000000000000) := ⟨fun value same => (by cases same),2^64,denotes,le_rfl⟩
  refine ⟨by rfl,denotes,?_,fun exact => (exact_iff _ _).mp exact _ rfl large,by decide +kernel⟩
  exact (wholeNumber_stored ..).trans (by rw [wholeDouble_oversized large]; rfl)

end Argument

end ToolDialogue
