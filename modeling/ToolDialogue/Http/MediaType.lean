import ToolDialogue.Text.LetterCase
import ToolDialogue.Text.Pieces

namespace ToolDialogue.Http.MediaType

def isToken (c : Char) : Bool := c.isAlphanum || "!#$%&'*+-.^_`|~".toList.contains c

-- Where the reading of the parameters stands. A parameter is a name, an equals
-- sign and a token or quoted text. Quoted text is not empty: a quote that comes
-- first belongs to it, and the next one ends it whatever stands in between.
inductive Parameters where
  | start
  | name
  | value (empty : Bool)
  | quoted (empty : Bool)
  | behindQuote
  deriving DecidableEq, Repr

def isQuotable (c : Char) : Bool := 32 ≤ c.toNat && c.toNat < 127

def Parameters.next? (state : Parameters) (c : Char) : Option Parameters :=
  match state with
  | .start => if c = ' ' then some .start else if isToken c then some .name else none
  | .name => if isToken c then some .name else if c = '=' then some (.value true) else none
  | .value empty =>
    if c = '"' ∧ empty then some (.quoted true)
    else if isToken c then some (.value false)
    else if c = ';' ∧ !empty then some .start
    else none
  | .quoted empty =>
    if c = '"' ∧ !empty then some .behindQuote
    else if isQuotable c then some (.quoted false)
    else none
  | .behindQuote =>
    if c = ';' then some .start else if c = ' ' then some .behindQuote else none

def Parameters.isEnd : Parameters → Bool
  | .start => true
  | .value _ => true
  | .behindQuote => true
  | _ => false

def areParameters (text : List Char) : Bool :=
  (text.foldlM Parameters.next? Parameters.start).any Parameters.isEnd

def suffix? (subtype : List Char) : Option (List Char × List Char) :=
  let behind := (subtype.reverse.takeWhile (· != '+')).reverse
  let before := subtype.take (subtype.length - behind.length - 1)
  if behind.length < subtype.length ∧ before ≠ [] then some (before,behind) else none

def isJsonSubtype (subtype : List Char) : Bool :=
  let json := "json".toList
  match suffix? subtype with
  | some (before,behind) => before == json || behind == json
  | none => subtype == json

def isJson (text : String) : Bool :=
  let text := (Text.asciiLower text).toList
  let essence := text.takeWhile (· != ';')
  let subtype := (essence.dropWhile (· != '/')).drop 1
  essence.takeWhile (· != '/') == "application".toList && subtype.all isToken &&
    isJsonSubtype subtype && areParameters ((text.dropWhile (· != ';')).drop 1)

end ToolDialogue.Http.MediaType
