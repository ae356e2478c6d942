import ToolDialogue.Json.Basic
import ToolDialogue.Json.Cursor

namespace ToolDialogue.Json

structure Gathered where
  value : Nat
  kept : Nat
  dropped : Nat

def Gathered.push (g : Gathered) (digit : Char) : Gathered :=
  let value := 10*g.value + (digit.toNat - '0'.toNat)
  if g.dropped = 0 ∧ value < Nat.pow 2 64 then ⟨value,g.kept+1,0⟩ else ⟨g.value,g.kept,g.dropped+1⟩

def gather (start : Nat) (digits : List Char) : Gathered :=
  digits.foldl Gathered.push ⟨start,0,0⟩

-- The double for value · 10^exponent by one multiplication or division with a
-- power of ten; below 10^-308 by two. `none` where the result is infinite.
def scaleFrom : Nat → Float → Int → Option Float
  | 0,_,_ => some 0.0
  | tries+1,x,exponent =>
    if exponent.natAbs ≤ 308 then
      let power := Float.ofScientific 1 false exponent.natAbs
      if 0 ≤ exponent then
        if (x * power).isInf then none else some (x * power)
      else some (x / power)
    else if x == 0.0 then some x
    else if 0 ≤ exponent then none
    else scaleFrom tries (x / Float.ofScientific 1 false 308) (exponent + 308)

def scale (value : Nat) (exponent : Int) : Option Float :=
  scaleFrom 4 (Float.ofNat value) exponent

-- How strictly a value is read. Where it is only passed over, the range of
-- numbers and the pairing of surrogates do not matter.
inductive Care where
  | full
  | passing
  deriving DecidableEq, Repr

def ofDouble (x : Float) : Json := .double x.toBits

def signedDouble (negative : Bool) (x : Float) : Json := ofDouble (if negative then -x else x)

def finishDouble (care : Care) (negative : Bool) (value : Nat) (exponent : Int) (cur : Cursor) :
    Except ReadError (Json × Cursor) :=
  match scale value exponent,care with
  | some x,_ => .ok (signedDouble negative x,cur)
  | none,.passing => .ok (.null,cur)
  | none,.full => cur.fail .numberOutOfRange

inductive Power where
  | small (value : Nat)
  | large (count : Nat)

def powerFrom : Nat → Nat → List Char → Power
  | value,_,[] => .small value
  | value,count,digit :: rest =>
    let next := 10*value + (digit.toNat - '0'.toNat)
    if Nat.pow 2 31 ≤ next then .large (count+1) else powerFrom next (count+1) rest

def readExponent (care : Care) (negative : Bool) (value : Nat) (exponent : Int) (cur : Cursor) :
    Except ReadError (Json × Cursor) :=
  let down := cur.rest.head? == some '-'
  let cur := if down || cur.rest.head? == some '+' then cur.skip 1 else cur
  let digits := cur.rest.takeWhile Char.isDigit
  if digits = [] then
    if cur.rest = [] then cur.fail .endInValue else cur.failNext .badNumber
  else match powerFrom 0 0 digits with
    | .small power =>
      finishDouble care negative value (if down then exponent - power else exponent + power)
        (cur.skip digits.length)
    | .large count =>
      if care = .full ∧ value ≠ 0 ∧ ¬down then (cur.skip count).fail .numberOutOfRange
      else .ok (signedDouble negative 0.0,cur.skip digits.length)

def startsExponent (cur : Cursor) : Bool :=
  cur.rest.head? == some 'e' || cur.rest.head? == some 'E'

def readFraction (care : Care) (negative : Bool) (value : Nat) (exponent : Int) (cur : Cursor) :
    Except ReadError (Json × Cursor) :=
  let digits := cur.rest.takeWhile Char.isDigit
  if digits = [] then
    if cur.rest = [] then cur.fail .endInValue else cur.failNext .badNumber
  else
    let gathered := gather value digits
    let cur := cur.skip digits.length
    let exponent := exponent - gathered.kept
    if startsExponent cur then readExponent care negative gathered.value exponent (cur.skip 1)
    else finishDouble care negative gathered.value exponent cur

def wholeNumber (negative : Bool) (value : Nat) : Json :=
  if negative then
    if value = 0 ∨ Nat.pow 2 63 < value then signedDouble true (Float.ofNat value) else .int (-value)
  else .int value

def readRest (care : Care) (negative : Bool) (gathered : Gathered) (cur : Cursor) :
    Except ReadError (Json × Cursor) :=
  if cur.rest.head? == some '.' then
    readFraction care negative gathered.value gathered.dropped (cur.skip 1)
  else if startsExponent cur then
    readExponent care negative gathered.value gathered.dropped (cur.skip 1)
  else if gathered.dropped = 0 then .ok (wholeNumber negative gathered.value,cur)
  else finishDouble care negative gathered.value gathered.dropped cur

def readNumber (care : Care) (negative : Bool) (cur : Cursor) : Except ReadError (Json × Cursor) :=
  match cur.rest with
  | [] => cur.fail .endInValue
  | '0' :: rest =>
    match rest with
    | c :: _ => if c.isDigit then (cur.skip 1).failNext .badNumber
                else readRest care negative ⟨0,1,0⟩ (cur.skip 1)
    | [] => readRest care negative ⟨0,1,0⟩ (cur.skip 1)
  | c :: _ =>
    if c.isDigit then
      let digits := cur.rest.takeWhile Char.isDigit
      readRest care negative (gather 0 digits) (cur.skip digits.length)
    else cur.failNext .badNumber

end ToolDialogue.Json
