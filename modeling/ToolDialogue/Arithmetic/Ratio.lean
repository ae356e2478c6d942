namespace ToolDialogue.Arithmetic

-- Signed 64-bit words. There is no result where it does not fit or would divide by zero.
namespace Word

def limit : Nat := Nat.pow 2 63

def fit? (n : Int) : Option Int := if -limit ≤ n ∧ n < limit then some n else none

def abs? (n : Int) : Option Int := fit? n.natAbs

def quotient? (a b : Int) : Option Int := if b = 0 then none else fit? (a.tdiv b)

def remainder? (a b : Int) : Option Int := (quotient? a b).map fun _ => a.tmod b

theorem fit?_of_lt {n : Int} (small : n.natAbs < limit) : fit? n = some n := by
  rw [fit?,if_pos]
  omega

theorem quotient?_eq {a b : Int} (small : a.natAbs < limit) (nonzero : b ≠ 0) : quotient? a b = some (a.tdiv b) := by
  rw [quotient?,if_neg nonzero,fit?_of_lt]
  rw [Int.natAbs_tdiv]
  exact Nat.lt_of_le_of_lt (Nat.div_le_self ..) small

theorem remainder?_eq {a b : Int} (small : a.natAbs < limit) (nonzero : b ≠ 0) : remainder? a b = some (a.tmod b) := by
  rw [remainder?,quotient?_eq small nonzero,Option.map_some]

theorem remainder?_shorter {a b left : Int} (found : remainder? a b = some left) : left.natAbs < b.natAbs := by
  unfold remainder? quotient? at found
  split at found
  · cases found
  · next nonzero =>
    obtain ⟨_,-,rfl⟩ := Option.map_eq_some_iff.mp found
    rw [Int.natAbs_tmod]
    exact Nat.mod_lt _ (Int.natAbs_pos.mpr nonzero)

def common? (a b : Int) : Option Int :=
  if b = 0 then some a
  else
    match _ : remainder? a b with
    | none => none
    | some left => common? b left
termination_by b.natAbs
decreasing_by exact remainder?_shorter ‹_›

theorem common?_eq (a b : Nat) (small : a < limit) (narrow : b < limit) : common? a b = some (a.gcd b : Int) := by
  induction b using Nat.strongRecOn generalizing a with
  | ind b ih =>
    rw [common?]
    by_cases zero : b = 0
    · simp [zero]
    · have left : remainder? a b = some ((a % b : Nat) : Int) := remainder?_eq small (Int.natCast_ne_zero.mpr zero)
      have less : a % b < b := Nat.mod_lt a (Nat.pos_of_ne_zero zero)
      rw [if_neg (Int.natCast_ne_zero.mpr zero)]
      split
      · next none =>
        rw [left] at none
        cases none
      · next found =>
        rw [left] at found
        cases found
        rw [ih _ less b narrow (Nat.lt_trans less narrow),Nat.gcd_comm b,← Nat.gcd_rec,Nat.gcd_comm]

end Word

def denominator : Nat := 1000000

structure Ratio where
  top : Int
  bottom : Int
  deriving DecidableEq, Repr

def Ratio.ofMillionths? (millionths : Int) : Option Ratio := do
  let top ← Word.fit? millionths
  let shared ← Word.common? (← Word.abs? top) denominator
  some ⟨← Word.quotient? top shared,← Word.quotient? denominator shared⟩

theorem Ratio.ofMillionths?_eq {millionths : Int} (small : millionths.natAbs < Word.limit) :
    ofMillionths? millionths = some ⟨millionths.tdiv (millionths.natAbs.gcd denominator),
      (denominator / millionths.natAbs.gcd denominator : Nat)⟩ := by
  have narrow : denominator < Word.limit := by decide
  have positive : 0 < denominator := by decide
  unfold ofMillionths?
  generalize denominator = parts at narrow positive ⊢
  have nonzero : (millionths.natAbs.gcd parts : Int) ≠ 0 :=
    Int.natCast_ne_zero.mpr (Nat.pos_iff_ne_zero.mp (Nat.gcd_pos_of_pos_right _ positive))
  have absolute : Word.abs? millionths = some (millionths.natAbs : Int) := Word.fit?_of_lt small
  have shared := Word.common?_eq _ _ small narrow
  have bottom : Word.quotient? parts (millionths.natAbs.gcd parts) =
      some ((parts / millionths.natAbs.gcd parts : Nat) : Int) := Word.quotient?_eq (a := parts) narrow nonzero
  simp only [Option.bind_eq_bind]
  rw [Word.fit?_of_lt small,Option.bind_some,absolute,Option.bind_some,shared,Option.bind_some,
    Word.quotient?_eq small nonzero,Option.bind_some,bottom,Option.bind_some]

theorem Ratio.ofMillionths?_isSome {millionths : Int} (small : millionths.natAbs < Word.limit) :
    (ofMillionths? millionths).isSome := by
  rw [ofMillionths?_eq small,Option.isSome_some]

def Ratio.text (ratio : Ratio) : String :=
  if ratio.bottom = 1 then toString ratio.top else toString ratio.top ++ "/" ++ toString ratio.bottom

end ToolDialogue.Arithmetic
