import ToolDialogue.Arithmetic.Call
import ToolDialogue.Arithmetic.Operator
import ToolDialogue.Text.Blank

namespace ToolDialogue.Arithmetic

variable {α : Type}

def isDecimal (text : List Char) : Bool :=
  text.all (fun c => c.isDigit || c == '.') && text.any Char.isDigit && text.count '.' ≤ 1

def isReserved (text : List Char) : Bool :=
  text == ['i','n','f'] || text == ['N','a','N']

def isNumeral (text : List Char) : Bool :=
  let unsigned := match text with
    | '-' :: rest => rest
    | _ => text
  isDecimal unsigned || isReserved unsigned

def operand (ops : Numbers α) (group : List Char → Except Error α) (text : List Char) :
    Except Error α :=
  if isNumeral text then .ok (ops.value text)
  else match text with
    | '-' :: '(' :: rest =>
      match enclosed? ('(' :: rest) with
      | some inner => ops.neg <$> group inner
      | none => .error (.invalidNumber ('(' :: rest))
    | _ => .error (.invalidNumber text)

def sideValue (evaluate : List Char → Except Error α) (whole side : List Char) : Except Error α :=
  if side = [] then .error (.missingOperand whole) else evaluate side

-- The value of a text whose operators are those of the given levels. A text
-- wholly in parentheses is a group and starts again at the loosest level.
def levelValue (ops : Numbers α) (group : List Char → Except Error α) :
    List (List Char) → List Char → Except Error α
  | levels,text =>
    match enclosed? text with
    | some inner => group inner
    | none =>
      if text = [] then .error (.missingOperand text)
      else match levels with
        | [] => operand ops group text
        | operators :: tighter =>
          let sides := sidesOf operators text
          if sides.rest = [] then levelValue ops group tighter text
          else do
            let first ← sideValue (levelValue ops group tighter) text sides.first
            sides.rest.foldlM (fun left (operator,side) => do
              let right ← sideValue (levelValue ops group tighter) text side
              applyOperator ops operator left right) first

-- Each group stands one parenthesis deeper, so `levels` bounds how many more may
-- be opened.
def arithmeticWithin (ops : Numbers α) : Nat → List Char → Except Error α
  | 0,_ => .error .tooDeep
  | levels+1,text => levelValue ops (arithmeticWithin ops levels) precedence text

def arithmetic (ops : Numbers α) (text : List Char) : Except Error α :=
  arithmeticWithin ops (nesting text + 1) text

def evaluateWithin (ops : Numbers α) : Nat → List Char → Except Error α
  | 0,_ => .error .tooDeep
  | levels+1,text => do
    checkBalanced text
    let expanded ← expandAll ops (evaluateWithin ops levels) text
    arithmetic ops expanded

def evaluatePrepared (ops : Numbers α) (text : List Char) : Except Error α :=
  evaluateWithin ops (maxNesting + 1) text

def piText : List Char := "3.141592653589793".toList

def eText : List Char := "2.718281828459045".toList

-- Every `pi` and then every remaining `e` becomes its value, also inside words.
def substituteConstants (text : List Char) : List Char :=
  let withPi := text.foldl (fun done c =>
    match c,done with
    | 'i','p' :: rest => piText.reverse ++ rest
    | _,_ => c :: done) []
  withPi.reverse.flatMap fun c => if c = 'e' then eText else [c]

def byteLength (text : List Char) : Nat := text.foldl (fun n c => n + c.utf8Size) 0

def evaluateText (ops : Numbers α) (text : List Char) : Except Error α :=
  let compact := text.filter (!Text.isBlank ·)
  if compact = [] then .error .empty
  else if maxLength < byteLength compact then .error .tooLong
  else evaluatePrepared ops (substituteConstants compact)

def evaluate (ops : Numbers α) (expression : String) : Except Error α :=
  evaluateText ops expression.toList

end ToolDialogue.Arithmetic
