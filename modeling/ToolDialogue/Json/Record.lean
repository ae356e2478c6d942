import ToolDialogue.Json.Basic

namespace ToolDialogue.Json

-- A value with the given fields: an object, whose other members do not matter, or
-- a list of the fields in their order, which may end early.
def fields? (names : List String) : Json → Option (List (Option Json))
  | .object members => some (names.map fun name => Table.get? name members)
  | .array items =>
    if items.length ≤ names.length then
      some (items.map some ++ List.replicate (names.length - items.length) none)
    else none
  | _ => none

def bool? : Json → Option Bool
  | .bool value => some value
  | _ => none

def natBelow? (limit : Nat) : Json → Option Nat
  | .int value => if 0 ≤ value ∧ value < limit then some value.toNat else none
  | _ => none

def nullable? {α : Type} (read : Json → Option α) : Json → Option (Option α)
  | .null => some none
  | value => (read value).map some

def fieldOr {α : Type} (fallback : α) (read : Json → Option α) : Option Json → Option α
  | none => some fallback
  | some value => read value

def nullableField? {α : Type} (read : Json → Option α) (record : Json) :
    Option Json → Option (Option α)
  | some value => nullable? read value
  | none =>
    match record with
    | .object _ => some none
    | _ => none

end ToolDialogue.Json
