import Mathlib.Data.List.TakeWhile
import ToolDialogue.Decimal.Reading
import ToolDialogue.Json.Number
import ToolDialogue.Proofs.Decimal.AtLeast

namespace ToolDialogue.Json

open Decimal

def Gathered.Holds (g : Gathered) (n : ℕ) : Prop :=
  g.dropped = 0 ∧ g.value = n ∧ n < 2^64 ∨ 0 < g.dropped ∧ 2^64 ≤ 10*g.value + 9 ∧ 2^64 ≤ n

theorem Gathered.Holds.push {g : Gathered} {n : ℕ} (holds : g.Holds n) {c : Char} (digit : c.isDigit = true) :
    (g.push c).Holds (10*n + (c.toNat - '0'.toNat)) := by
  have small : c.toNat - '0'.toNat ≤ 9 := by
    have range := Char.isDigit_iff_toNat.mp digit
    have ends : '0'.toNat = 48 ∧ '9'.toNat = 57 := ⟨rfl,rfl⟩
    omega
  rw [Gathered.push]
  generalize c.toNat - '0'.toNat = d at small
  change Holds (if g.dropped = 0 ∧ 10*g.value + d < 2^64 then _ else _) _
  unfold Holds at holds ⊢
  split
  · next fits => exact .inl ⟨rfl,show 10*g.value + d = _ by omega,by omega⟩
  · next beyond => exact .inr ⟨Nat.succ_pos _,show _ ≤ 10*g.value + 9 by omega,by omega⟩

theorem gather_holds {digits : List Char} (all : ∀ c ∈ digits, c.isDigit = true) :
    (gather 0 digits).Holds (natOf digits) := by
  have step (digits : List Char) (all : ∀ c ∈ digits, c.isDigit = true) (g : Gathered) (n : ℕ) (holds : g.Holds n) :
      (digits.foldl Gathered.push g).Holds (digits.foldl (fun n c => 10*n + (c.toNat - '0'.toNat)) n) := by
    induction digits generalizing g n with
    | nil => exact holds
    | cons c rest ih =>
      exact ih (fun d later => all d (List.mem_cons_of_mem c later)) _ _ (holds.push (all c List.mem_cons_self))
  exact step digits all ⟨0,0,0⟩ 0 (.inl ⟨rfl,rfl,by decide⟩)

structure Plain (digits : List Char) : Prop where
  filled : digits ≠ []
  all : ∀ c ∈ digits, c.isDigit = true
  lead : digits.head? = some '0' → digits = ['0']

def Ends (rest : List Char) : Prop :=
  ∀ c, rest.head? = some c → c.isDigit = false ∧ c ≠ '.' ∧ c ≠ 'e' ∧ c ≠ 'E'

theorem readRest_ended {care : Care} {negative : Bool} {g : Gathered} {cur : Cursor} (ends : Ends cur.rest) :
    readRest care negative g cur =
      if g.dropped = 0 then .ok (wholeNumber negative g.value,cur)
      else finishDouble care negative g.value g.dropped cur := by
  have other (c : Char) (mark : c = '.' ∨ c = 'e' ∨ c = 'E') : (cur.rest.head? == some c) = false := by
    rw [beq_eq_false_iff_ne]
    intro first
    obtain ⟨-,point,small,large⟩ := ends c first
    rcases mark with rfl | rfl | rfl <;> contradiction
  rw [readRest,other '.' (by simp),startsExponent,other 'e' (by simp),other 'E' (by simp)]
  simp

theorem takeWhile_plain {digits rest : List Char} (all : ∀ c ∈ digits, c.isDigit = true) (ends : Ends rest) :
    (digits ++ rest).takeWhile Char.isDigit = digits := by
  rw [List.takeWhile_append_of_pos all]
  cases rest with
  | nil => simp
  | cons c others => simp [(ends c rfl).1]

theorem readNumber_plain {care : Care} {cur : Cursor} {digits rest : List Char} (plain : Plain digits)
    (ends : Ends rest) (here : cur.rest = digits ++ rest) :
    readNumber care false cur =
      if natOf digits < 2^64 then .ok (.int (natOf digits),cur.skip digits.length)
      else finishDouble care false (gather 0 digits).value (gather 0 digits).dropped (cur.skip digits.length) := by
  have behind : Ends (cur.skip digits.length).rest := by
    rw [Cursor.skip,here,List.drop_left]; exact ends
  -- a lone zero is read as it stands, all else is gathered
  have read : readNumber care false cur = readRest care false (gather 0 digits) (cur.skip digits.length) := by
    obtain ⟨c,others,rfl⟩ := List.exists_cons_of_ne_nil plain.filled
    have digit := plain.all c List.mem_cons_self
    by_cases zero : c = '0'
    · subst zero
      cases plain.lead rfl
      rw [readNumber,here]
      cases rest with
      | nil => rfl
      | cons d more => simp [(ends d rfl).1]; rfl
    · rw [readNumber,here]
      have whole := takeWhile_plain plain.all ends
      simp only [List.cons_append] at whole ⊢
      rw [if_pos digit,whole]
  rw [read,readRest_ended behind]
  obtain ⟨none,value,fits⟩ | ⟨some,-,beyond⟩ := gather_holds plain.all
  · rw [if_pos none,if_pos fits,value,wholeNumber,if_neg (by decide)]
  · rw [if_neg some.ne',if_neg (by omega)]

-- A number whose digits are not all gathered is infinite or at least 2^64.
theorem scale_atLeast {value : ℕ} {power : ℕ} {x : Float} (many : 2^64 ≤ 10*value + 9) (up : 0 < power)
    (scaled : scale value power = some x) : AtLeast x (2^(64 : ℤ)) ∧ x.isInf = false := by
  have number : AtLeast (Float.ofNat value) (7205759403792794 * 2^(8 : ℤ)) := number_atLeast (by omega)
  rw [scale,scaleFrom] at scaled
  rw [Int.natAbs_natCast] at scaled
  split at scaled
  · rw [if_pos (Int.natCast_nonneg power)] at scaled
    split at scaled
    · cases scaled
    · next finite =>
      cases scaled
      have ten : AtLeast (Float.ofScientific 1 false power) 10 := power_atLeast up (by omega)
      exact ⟨number.mul ten (by norm_num) (by norm_num) (by norm_num),by simpa using finite⟩
  · rw [number.ne_zero,if_neg (by decide),if_pos (Int.natCast_nonneg power)] at scaled
    cases scaled

theorem readNumber_large {cur behind : Cursor} {digits rest : List Char} {token : Json} (plain : Plain digits)
    (ends : Ends rest) (here : cur.rest = digits ++ rest) (large : 2^64 ≤ natOf digits)
    (read : readNumber .full false cur = .ok (token,behind)) :
    ∃ x : Float, token = .double x.toBits ∧ AtLeast x (2^(64 : ℤ)) ∧ x.isInf = false := by
  rw [readNumber_plain plain ends here,if_neg (Nat.not_lt_of_le large)] at read
  unfold finishDouble at read
  obtain ⟨-,-,fits⟩ | ⟨up,many,-⟩ := gather_holds plain.all
  · exact absurd fits (Nat.not_lt_of_le large)
  · cases scaled : scale (gather 0 digits).value (gather 0 digits).dropped with
    | none => rw [scaled] at read; cases read
    | some x =>
      rw [scaled] at read
      cases read
      exact ⟨x,rfl,scale_atLeast many up scaled⟩

end ToolDialogue.Json
