import ToolDialogue.Table
import ToolDialogue.Text.Alphanumeric
import ToolDialogue.Text.Blank

namespace ToolDialogue.Assignments

-- A file of settings: one assignment `NAME=value` a line. A quoted value may go on
-- over several lines, and a comment starts with `#` at the front of a line or
-- behind a blank.

abbrev Environment := Table String String

def apostrophe : Char := '\x27'

inductive Scan where
  | plain
  | blank
  | escape
  | strong
  | strongEscape
  | weak
  | weakEscape
  deriving DecidableEq, Repr

def Scan.unquoted (c : Char) : Scan :=
  if c = '\\' then .escape
  else if c = '"' then .weak
  else if c = apostrophe then .strong
  else .plain

def Scan.next? (scan : Scan) (c : Char) : Option Scan :=
  match scan with
  | .plain => some (if Text.isBlank c ∧ c ≠ '\n' ∧ c ≠ '\r' then .blank else unquoted c)
  | .blank => if c = '#' then none else some (unquoted c)
  | .escape => some .plain
  | .strong => some (if c = '\\' then .strongEscape else if c = apostrophe then .plain else .strong)
  | .strongEscape => some .strong
  | .weak => some (if c = '\\' then .weakEscape else if c = '"' then .plain else .weak)
  | .weakEscape => some .weak

def scanLine (scan : Scan) (read : List Char) : List Char → List Char ⊕ Scan
  | [] => .inr scan
  | c :: rest =>
    match scan.next? c with
    | none => .inl read.reverse
    | some scan => scanLine scan (c :: read) rest

def lines (text : List Char) : List (List Char) :=
  text.foldr (fun c done =>
    if c = '\n' then [c] :: done
    else match done with
      | [] => [[c]]
      | line :: rest => (c :: line) :: rest) []

def isComment (text : List Char) : Bool := (text.dropWhile Text.isBlank).head? == some '#'

def entriesFrom (pending : List Char) (scan : Scan) : List (List Char) → List (List Char)
  | [] => []
  | line :: rest =>
    if isComment (pending ++ line) then entriesFrom [] .plain rest
    else match scanLine scan [] line with
      | .inl before => (pending ++ before) :: entriesFrom [] .plain rest
      | .inr .plain => (pending ++ line) :: entriesFrom [] .plain rest
      | .inr scan => entriesFrom (pending ++ line) scan rest

def entries (text : List Char) : List (List Char) := entriesFrom [] .plain (lines text)

inductive Reading where
  | plain
  | strong
  | weak
  | escape (quoted : Bool)
  | name (quoted : Bool) (read : List Char)
  | braced (quoted : Bool) (read : List Char)
  | ended
  | comment
  deriving DecidableEq, Repr

def Reading.resume (quoted : Bool) : Reading := if quoted then .weak else .plain

def lookUp (env : Environment) (name : List Char) : List Char :=
  ((Table.get? (String.ofList name) env).getD "").toList

def isEscapable (c : Char) : Bool := ['\\',apostrophe,'"','$',' '].contains c

-- The next state and what the character adds to the value. `none` where the value
-- is malformed. A name without braces holds letters and digits only, and the
-- character that ends it belongs to the value whatever it is.
def Reading.next? (env : Environment) (reading : Reading) (c : Char) :
    Option (Reading × List Char) :=
  match reading with
  | .comment => some (.comment,[])
  | .ended =>
    if c = ' ' ∨ c = '\t' then some (.ended,[])
    else if c = '#' then some (.comment,[])
    else none
  | .escape quoted =>
    if isEscapable c then some (resume quoted,[c])
    else if c = 'n' then some (resume quoted,['\n'])
    else none
  | .strong => if c = apostrophe then some (.plain,[]) else some (.strong,[c])
  | .name quoted read =>
    if Text.isAlphanumeric c then some (.name quoted (read ++ [c]),[])
    else if c = '\x7b' ∧ read = [] then some (.braced quoted [],[])
    else if c = '$' then some (.name quoted [],lookUp env read)
    else some (resume quoted,lookUp env read ++ [c])
  | .braced quoted read =>
    if c = '\x7d' then some (resume quoted,lookUp env read)
    else some (.braced quoted (read ++ [c]),[])
  | .weak =>
    if c = '$' then some (.name true [],[])
    else if c = '"' then some (.plain,[])
    else if c = '\\' then some (.escape true,[])
    else some (.weak,[c])
  | .plain =>
    if c = '$' then some (.name false [],[])
    else if c = apostrophe then some (.strong,[])
    else if c = '"' then some (.weak,[])
    else if c = '\\' then some (.escape false,[])
    else if c = ' ' ∨ c = '\t' then some (.ended,[])
    else some (.plain,[c])

def Reading.finish? (env : Environment) : Reading → Option (List Char)
  | .strong => none
  | .weak => none
  | .braced _ _ => none
  | .escape quoted => if quoted then none else some []
  | .name quoted read => if quoted then none else some (lookUp env read)
  | _ => some []

def valueFrom? (env : Environment) (reading : Reading) : List Char → Option (List Char)
  | [] => reading.finish? env
  | c :: rest => do
    let (reading,added) ← reading.next? env c
    let more ← valueFrom? env reading rest
    pure (added ++ more)

def isNameStart (c : Char) : Bool := c.isAlpha || c == '_'

def isNamePart (c : Char) : Bool := c.isAlphanum || c == '_' || c == '.'

def name? (text : List Char) : Option (String × List Char) :=
  if text.head?.any isNameStart then
    some (String.ofList (text.takeWhile isNamePart),
      (text.dropWhile isNamePart).dropWhile Text.isBlank)
  else none

def assigned? (text : List Char) : Option (List Char) :=
  match text with
  | '=' :: rest => some (rest.dropWhile Text.isBlank)
  | _ => none

def split? (text : List Char) : Option (String × List Char) := do
  let (name,rest) ← name? text
  match assigned? rest with
  | some value => pure (name,value)
  | none =>
    if name = "export" then do
      let (name,rest) ← name? rest
      let value ← assigned? rest
      pure (name,value)
    else none

def value? (env : Environment) (text : List Char) : Option String :=
  if text.head?.all (· == '#') then some ""
  else String.ofList <$> valueFrom? env .plain text

def assign (env : Environment) (name value : String) : Environment :=
  if Table.has name env then env else Table.put name value env

def loadEntries (env : Environment) : List (List Char) → Environment
  | [] => env
  | entry :: rest =>
    let text := Text.trimmed entry
    if text.head?.all (· == '#') then loadEntries env rest
    else match split? text with
      | none => env
      | some (name,value) =>
        match value? env value with
        | none => env
        | some value => loadEntries (assign env name value) rest

def load (env : Environment) (text : String) : Environment :=
  let content := text.toList
  loadEntries env (entries (if content.head? = some '\ufeff' then content.drop 1 else content))

end ToolDialogue.Assignments
