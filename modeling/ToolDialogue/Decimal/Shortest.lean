import ToolDialogue.Decimal.Binary

namespace ToolDialogue.Decimal

structure Scaled where
  significand : Nat
  exponent : Int
  deriving DecidableEq, Repr

inductive Tie where
  | up
  | even
  deriving DecidableEq, Repr

def Tie.takesUpper (tie : Tie) (lower : Nat) : Bool :=
  match tie with
  | .up => true
  | .even => lower % 2 == 1

def digitCount (n : Nat) : Nat := (Nat.toDigits 10 n).length

-- The least k with top/bottom < 10^k, for a positive fraction. The lengths of
-- the two numbers leave two candidates.
def decade (top bottom : Nat) : Int :=
  let guess : Int := digitCount top - digitCount bottom
  if top * Nat.pow 10 (-guess).toNat < bottom * Nat.pow 10 guess.toNat then guess else guess + 1

-- The reals that round to the double: from `low` to `high` over the common
-- denominator, with the double itself at `middle`. Below a power of two the
-- spacing halves, save at the least exponent. The ends belong to the double
-- exactly when its mantissa is even.
structure Interval where
  low : Nat
  middle : Nat
  high : Nat
  bottom : Nat
  closed : Bool

def Binary.interval (b : Binary) : Interval :=
  let (top,bottom) := b.ratio
  let unit := Nat.pow 2 b.exponent.toNat
  let below := if b.mantissa = Nat.pow 2 52 ∧ b.exponent ≠ -1074 then unit else 2*unit
  ⟨4*top - below,4*top,4*top + 2*unit,4*bottom,b.mantissa % 2 == 0⟩

def Interval.onGrid (i : Interval) (tie : Tie) (exponent : Int) : Option Nat :=
  let down := Nat.pow 10 (-exponent).toNat
  let step := i.bottom * Nat.pow 10 exponent.toNat
  let lower := i.middle * down / step
  let atLeast := if i.closed then i.low * down ≤ lower * step else i.low * down < lower * step
  let upper := lower + 1
  let atMost := if i.closed then upper * step ≤ i.high * down else upper * step < i.high * down
  if atLeast then
    if atMost then
      let before := i.middle * down - lower * step
      let after := upper * step - i.middle * down
      if before < after then some lower
      else if after < before then some upper
      else if tie.takesUpper lower then some upper
      else some lower
    else some lower
  else if atMost then some upper
  else none

def Interval.search (i : Interval) (tie : Tie) (top : Int) : Nat → Nat → Scaled
  | _,0 => ⟨0,0⟩
  | digits,tries+1 =>
    match i.onGrid tie (top - digits) with
    | some significand => ⟨significand,top - digits⟩
    | none => i.search tie top (digits+1) tries

def Scaled.reduced (s : Scaled) : Scaled :=
  let zeros := ((Nat.toDigits 10 s.significand).reverse.takeWhile (· == '0')).length
  if s.significand = 0 then ⟨0,0⟩ else ⟨s.significand / Nat.pow 10 zeros,s.exponent + zeros⟩

-- The fewest digits that read back as the double. Seventeen always do.
def Binary.shortest (b : Binary) (tie : Tie) : Scaled :=
  if b.mantissa = 0 then ⟨0,0⟩
  else
    let (top,bottom) := b.ratio
    (b.interval.search tie (decade top bottom) 1 17).reduced

def roundDiv (tie : Tie) (top bottom : Nat) : Nat :=
  let lower := top / bottom
  let left := top % bottom
  if 2*left < bottom then lower
  else if bottom < 2*left then lower + 1
  else if tie.takesUpper lower then lower + 1
  else lower

def Binary.rounded (b : Binary) (tie : Tie) (digits : Nat) : Scaled :=
  if b.mantissa = 0 then ⟨0,0⟩
  else
    let (top,bottom) := b.ratio
    let exponent := decade top bottom - digits
    let significand := roundDiv tie (top * Nat.pow 10 (-exponent).toNat) (bottom * Nat.pow 10 exponent.toNat)
    if significand = Nat.pow 10 digits then ⟨Nat.pow 10 (digits-1),exponent + 1⟩ else ⟨significand,exponent⟩

end ToolDialogue.Decimal
