namespace ToolDialogue.Decimal

-- The magnitude mantissa · 2^exponent.
structure Binary where
  mantissa : Nat
  exponent : Int
  deriving DecidableEq, Repr

inductive Double where
  | nan
  | infinite (negative : Bool)
  | finite (negative : Bool) (magnitude : Binary)
  deriving DecidableEq, Repr

-- One sign bit, eleven exponent bits, fifty-two fraction bits. The mantissa's
-- leading one is implied, except where the exponent bits are all zero.
def Double.ofBits (bits : Nat) : Double :=
  let negative := bits / Nat.pow 2 63 % 2 == 1
  let raised : Nat := bits / Nat.pow 2 52 % 2048
  let fraction : Nat := bits % Nat.pow 2 52
  if raised = 2047 then
    if fraction = 0 then .infinite negative else .nan
  else if raised = 0 then .finite negative ⟨fraction,-1074⟩
  else .finite negative ⟨fraction + Nat.pow 2 52,(raised : Int) - 1075⟩

def Double.of (x : Float) : Double := .ofBits x.toBits.toNat

def Binary.ratio (b : Binary) : Nat × Nat :=
  (b.mantissa * Nat.pow 2 b.exponent.toNat,Nat.pow 2 (-b.exponent).toNat)

def Binary.isWhole (b : Binary) : Bool := b.ratio.1 % b.ratio.2 == 0

def Binary.floor (b : Binary) : Nat := b.ratio.1 / b.ratio.2

def Binary.nearest (b : Binary) : Nat := (2*b.ratio.1 + b.ratio.2) / (2*b.ratio.2)

def isWhole (x : Float) : Bool :=
  match Double.of x with
  | .finite _ magnitude => magnitude.isWhole
  | _ => false

def nearest? (x : Float) : Option Int :=
  match Double.of x with
  | .finite negative magnitude => some (if negative then -magnitude.nearest else magnitude.nearest)
  | _ => none

end ToolDialogue.Decimal
