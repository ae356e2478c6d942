import ToolDialogue.Decimal.Shortest

namespace ToolDialogue.Decimal

def digitsOf (n : Nat) : List Char := Nat.toDigits 10 n

def zeros (n : Nat) : List Char := List.replicate n '0'

def Scaled.order (s : Scaled) : Int := digitCount s.significand + s.exponent - 1

def Scaled.positional (s : Scaled) (ending : List Char) : List Char :=
  let digits := digitsOf s.significand
  if 0 ≤ s.exponent then digits ++ zeros s.exponent.toNat ++ ending
  else
    let places := (-s.exponent).toNat
    if places < digits.length then
      digits.take (digits.length - places) ++ '.' :: digits.drop (digits.length - places)
    else '0' :: '.' :: zeros (places - digits.length) ++ digits

def Scaled.leading (s : Scaled) : List Char :=
  match digitsOf s.significand with
  | [] => []
  | [digit] => [digit]
  | digit :: rest => digit :: '.' :: rest

def exponentText (order : Int) (width : Nat) : List Char :=
  let digits := digitsOf order.natAbs
  'e' :: (if order < 0 then '-' else '+') :: zeros (width - digits.length) ++ digits

structure Layout where
  tie : Tie
  ending : List Char
  positional : Int → Bool

def signed (negative : Bool) (text : List Char) : List Char :=
  if negative then '-' :: text else text

def Layout.finite (layout : Layout) (negative : Bool) (b : Binary) : List Char :=
  let s := b.shortest layout.tie
  signed negative
    (if layout.positional s.order then s.positional layout.ending
     else s.leading ++ exponentText s.order 1)

def Layout.text (layout : Layout) (x : Float) : List Char :=
  match Double.of x with
  | .nan => ['N','a','N']
  | .infinite negative => signed negative ['i','n','f']
  | .finite negative b => layout.finite negative b

-- Results of arithmetic are always positional, a zero keeps its sign, and a half
-- goes up.
def plain : Layout := ⟨.up,[],fun _ => true⟩

def scientific (negative : Bool) (b : Binary) : List Char :=
  let s := b.rounded .even 3
  let digits := if s.significand = 0 then ['0','0','0'] else digitsOf s.significand
  let order := if s.significand = 0 then 0 else s.order
  signed negative (digits.take 1 ++ '.' :: digits.drop 1 ++ exponentText order 2)

end ToolDialogue.Decimal
