namespace ToolDialogue.Json

structure Cursor where
  rest : List Char
  line : Nat
  column : Nat

def Cursor.start (text : String) : Cursor := ⟨text.toList,1,0⟩

def Cursor.past (cur : Cursor) (c : Char) (rest : List Char) : Cursor :=
  if c = '\n' then ⟨rest,cur.line+1,0⟩ else ⟨rest,cur.line,cur.column + c.utf8Size⟩

def pastAll : List Char → Cursor → Cursor
  | [],cur => cur
  | c :: rest,cur => pastAll rest (cur.past c rest)

def Cursor.finish (cur : Cursor) : Cursor := pastAll cur.rest cur

def Cursor.skip (cur : Cursor) (n : Nat) : Cursor :=
  ⟨cur.rest.drop n,cur.line,cur.column + n⟩

def pastBytes : Nat → List Char → Cursor → Cursor
  | 0,_,cur => cur
  | _,[],cur => cur
  | n+1,c :: rest,cur =>
    if n + 1 < c.utf8Size then ⟨rest,cur.line,cur.column + n + 1⟩
    else pastBytes (n + 1 - c.utf8Size) rest (cur.past c rest)

def isBlankByte (c : Char) : Bool := c == ' ' || c == '\n' || c == '\t' || c == '\r'

def skipBlanksFrom : List Char → Cursor → Cursor
  | [],cur => cur
  | c :: rest,cur => if isBlankByte c then skipBlanksFrom rest (cur.past c rest) else cur

def Cursor.skipBlanks (cur : Cursor) : Cursor := skipBlanksFrom cur.rest cur

inductive Fault where
  | endInList
  | endInObject
  | endInString
  | endInValue
  | expectedColon
  | expectedListEnd
  | expectedObjectEnd
  | expectedWord
  | expectedValue
  | badEscape
  | badNumber
  | numberOutOfRange
  | controlCharacter
  | keyNotText
  | loneSurrogate
  | unfinishedSurrogate
  | trailingComma
  | trailingCharacters
  | tooDeep
  deriving DecidableEq, Repr

def Fault.message : Fault → String
  | .endInList => "EOF while parsing a list"
  | .endInObject => "EOF while parsing an object"
  | .endInString => "EOF while parsing a string"
  | .endInValue => "EOF while parsing a value"
  | .expectedColon => "expected `:`"
  | .expectedListEnd => "expected `,` or `]`"
  | .expectedObjectEnd => "expected `,` or `\x7d`"
  | .expectedWord => "expected ident"
  | .expectedValue => "expected value"
  | .badEscape => "invalid escape"
  | .badNumber => "invalid number"
  | .numberOutOfRange => "number out of range"
  | .controlCharacter =>
    "control character (\\u0000-\\u001F) found while parsing a string"
  | .keyNotText => "key must be a string"
  | .loneSurrogate => "lone leading surrogate in hex escape"
  | .unfinishedSurrogate => "unexpected end of hex escape"
  | .trailingComma => "trailing comma"
  | .trailingCharacters => "trailing characters"
  | .tooDeep => "recursion limit exceeded"

structure ReadError where
  fault : Fault
  line : Nat
  column : Nat
  deriving DecidableEq, Repr

def ReadError.message (e : ReadError) : String :=
  e.fault.message ++ " at line " ++ toString e.line ++ " column " ++ toString e.column

def Cursor.fail {β : Type} (cur : Cursor) (fault : Fault) : Except ReadError β :=
  .error ⟨fault,cur.line,cur.column⟩

-- A fault seen in the next byte is reported behind that byte.
def Cursor.failNext {β : Type} (cur : Cursor) (fault : Fault) : Except ReadError β :=
  match cur.rest with
  | [] => .error ⟨fault,cur.line,cur.column⟩
  | c :: _ =>
    if c = '\n' then .error ⟨fault,cur.line+1,0⟩ else .error ⟨fault,cur.line,cur.column+1⟩

end ToolDialogue.Json
