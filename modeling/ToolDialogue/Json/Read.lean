import ToolDialogue.Json.Number

namespace ToolDialogue.Json

-- Deepest accepted nesting is one less.
def depthLimit : Nat := 128

def hexValue? (c : Char) : Option Nat :=
  if c.isDigit then some (c.toNat - '0'.toNat)
  else if 'a' ≤ c ∧ c ≤ 'f' then some (c.toNat - 'a'.toNat + 10)
  else if 'A' ≤ c ∧ c ≤ 'F' then some (c.toNat - 'A'.toNat + 10)
  else none

def readHex (cur : Cursor) : Except ReadError (Nat × Cursor) :=
  match (cur.rest.take 4).mapM hexValue? with
  | some [a,b,c,d] => .ok (((a*16 + b)*16 + c)*16 + d,cur.skip 4)
  | _ =>
    if (cur.rest.take 4).foldl (fun n c => n + c.utf8Size) 0 < 4 then cur.finish.fail .endInString
    else (pastBytes 4 cur.rest cur).fail .badEscape

def isTrailing (unit : Nat) : Bool := 0xDC00 ≤ unit && unit ≤ 0xDFFF

def isLeading (unit : Nat) : Bool := 0xD800 ≤ unit && unit ≤ 0xDBFF

def readPair (leading : Nat) (cur : Cursor) : Except ReadError (Char × Cursor) :=
  match cur.rest with
  | [] => cur.fail .endInString
  | '\\' :: [] => (cur.skip 1).fail .endInString
  | '\\' :: 'u' :: _ => do
    let (trailing,cur) ← readHex (cur.skip 2)
    if isTrailing trailing then
      .ok (Char.ofNat ((leading - 0xD800) * 0x400 + (trailing - 0xDC00) + 0x10000),cur)
    else cur.fail .loneSurrogate
  | '\\' :: _ => (cur.skip 1).failNext .unfinishedSurrogate
  | _ => cur.failNext .unfinishedSurrogate

def readUnit (care : Care) (cur : Cursor) : Except ReadError (Char × Cursor) := do
  let (unit,cur) ← readHex cur
  if care = .passing then .ok ('?',cur)
  else if isTrailing unit then cur.fail .loneSurrogate
  else if isLeading unit then readPair unit cur
  else .ok (Char.ofNat unit,cur)

def readEscape (care : Care) (cur : Cursor) : Except ReadError (Char × Cursor) :=
  match cur.rest with
  | [] => cur.fail .endInString
  | '"' :: _ => .ok ('"',cur.skip 1)
  | '\\' :: _ => .ok ('\\',cur.skip 1)
  | '/' :: _ => .ok ('/',cur.skip 1)
  | 'b' :: _ => .ok (Char.ofNat 8,cur.skip 1)
  | 'f' :: _ => .ok (Char.ofNat 12,cur.skip 1)
  | 'n' :: _ => .ok ('\n',cur.skip 1)
  | 'r' :: _ => .ok ('\r',cur.skip 1)
  | 't' :: _ => .ok ('\t',cur.skip 1)
  | 'u' :: _ => readUnit care (cur.skip 1)
  | _ => cur.failNext .badEscape

def readCharacters (care : Care) : Nat → List Char → Cursor → Except ReadError (String × Cursor)
  | 0,_,cur => cur.fail .endInString
  | rounds+1,done,cur =>
    match cur.rest with
    | [] => cur.fail .endInString
    | '"' :: _ => .ok (String.ofList done.reverse,cur.skip 1)
    | '\\' :: _ => do
      let (c,cur) ← readEscape care (cur.skip 1)
      readCharacters care rounds (c :: done) cur
    | c :: rest =>
      if c.toNat < 32 then cur.failNext .controlCharacter
      else readCharacters care rounds (c :: done) (cur.past c rest)

def readWord (value : Json) : List Char → Cursor → Except ReadError (Json × Cursor)
  | [],cur => .ok (value,cur)
  | letter :: letters,cur =>
    match cur.rest with
    | [] => cur.fail .endInValue
    | c :: _ =>
      if c = letter then readWord value letters (cur.skip 1) else cur.failNext .expectedWord

def readItems (value : Cursor → Except ReadError (Json × Cursor)) :
    Nat → List Json → Cursor → Except ReadError (List Json × Cursor)
  | 0,_,cur => cur.fail .endInList
  | rounds+1,done,cur =>
    let cur := cur.skipBlanks
    match cur.rest with
    | [] => cur.fail .endInList
    | ']' :: _ => .ok (done.reverse,cur.skip 1)
    | c :: _ =>
      if done = [] then do
        let (item,cur) ← value cur
        readItems value rounds [item] cur
      else if c = ',' then
        let cur := (cur.skip 1).skipBlanks
        match cur.rest with
        | [] => cur.fail .endInValue
        | ']' :: _ => cur.failNext .trailingComma
        | _ => do
          let (item,cur) ← value cur
          readItems value rounds (item :: done) cur
      else cur.failNext .expectedListEnd

def readMember (value : Cursor → Except ReadError (Json × Cursor)) (rounds : Nat) (care : Care)
    (cur : Cursor) : Except ReadError ((String × Json) × Cursor) := do
  let (name,cur) ← readCharacters care rounds [] (cur.skip 1)
  let cur := cur.skipBlanks
  match cur.rest with
  | [] => cur.fail .endInObject
  | ':' :: _ => do
    let (item,cur) ← value (cur.skip 1)
    .ok ((name,item),cur)
  | _ => cur.failNext .expectedColon

def readMembers (value : Cursor → Except ReadError (Json × Cursor)) (care : Care) :
    Nat → List (String × Json) → Cursor → Except ReadError (List (String × Json) × Cursor)
  | 0,_,cur => cur.fail .endInObject
  | rounds+1,done,cur =>
    let cur := cur.skipBlanks
    match cur.rest with
    | [] => cur.fail .endInObject
    | '\x7d' :: _ => .ok (done.reverse,cur.skip 1)
    | c :: _ =>
      if done = [] then
        if c = '"' then do
          let (member,cur) ← readMember value (rounds+1) care cur
          readMembers value care rounds [member] cur
        else cur.failNext .keyNotText
      else if c = ',' then
        let cur := (cur.skip 1).skipBlanks
        match cur.rest with
        | [] => cur.fail .endInValue
        | '"' :: _ => do
          let (member,cur) ← readMember value (rounds+1) care cur
          readMembers value care rounds (member :: done) cur
        | '\x7d' :: _ => cur.failNext .trailingComma
        | _ => cur.failNext .keyNotText
      else cur.failNext .expectedObjectEnd

-- One value with the blanks before it. `rounds` bounds the characters left and
-- the last argument the brackets that may still be opened.
def readValue (care : Care) (rounds : Nat) : Nat → Cursor → Except ReadError (Json × Cursor)
  | 0,cur => cur.failNext .tooDeep
  | depth+1,cur =>
    let cur := cur.skipBlanks
    match cur.rest with
    | [] => cur.fail .endInValue
    | 'n' :: _ => readWord .null ['u','l','l'] (cur.skip 1)
    | 't' :: _ => readWord (.bool true) ['r','u','e'] (cur.skip 1)
    | 'f' :: _ => readWord (.bool false) ['a','l','s','e'] (cur.skip 1)
    | '-' :: _ => readNumber care true (cur.skip 1)
    | '"' :: _ => do
      let (content,cur) ← readCharacters care rounds [] (cur.skip 1)
      .ok (.text content,cur)
    | '[' :: _ =>
      if depth = 0 then cur.failNext .tooDeep
      else do
        let (items,cur) ← readItems (readValue care rounds depth) rounds [] (cur.skip 1)
        .ok (.array items,cur)
    | '\x7b' :: _ =>
      if depth = 0 then cur.failNext .tooDeep
      else do
        let (members,cur) ← readMembers (readValue care rounds depth) care rounds [] (cur.skip 1)
        .ok (obj members,cur)
    | c :: _ => if c.isDigit then readNumber care false cur else cur.failNext .expectedValue

def readEnd (cur : Cursor) : Except ReadError Unit :=
  let cur := cur.skipBlanks
  if cur.rest = [] then .ok () else cur.failNext .trailingCharacters

def roundsFor (text : String) : Nat := text.utf8ByteSize + 1

def read (text : String) : Except ReadError Json := do
  let (value,cur) ← readValue .full (roundsFor text) depthLimit (.start text)
  readEnd cur
  pure value

end ToolDialogue.Json
