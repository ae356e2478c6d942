import ToolDialogue.Json.Read
import ToolDialogue.Rpc.Message

namespace ToolDialogue.Rpc

open Json (Cursor Care ReadError)

-- Why a text is no request: it is no JSON, or the JSON is of another form. The
-- text is read from the front and the first fault counts.
inductive Refusal where
  | malformed
  | unfit
  deriving DecidableEq, Repr

def readingJson {α : Type} : Except ReadError α → Except Refusal α
  | .ok a => .ok a
  | .error _ => .error .malformed

structure Draft where
  version : Option String
  id : Option (Option Json)
  method : Option String
  params : Option (Option Json)

def Draft.finish (draft : Draft) : Except Refusal Request :=
  match draft.version,draft.method with
  | some version,some method => .ok ⟨version,draft.id.join,method,draft.params.join⟩
  | _,_ => .error .unfit

-- Inside of the message the brackets may go one level less deep. What is passed over
-- may go as deep as it likes.
def readItem (care : Care) (rounds : Nat) (cur : Cursor) : Except Refusal (Json × Cursor) :=
  readingJson (Json.readValue care rounds
    (match care with
      | .full => Json.depthLimit - 1
      | .passing => rounds) cur)

def readText (rounds : Nat) (cur : Cursor) : Except Refusal (String × Cursor) :=
  let cur := cur.skipBlanks
  if cur.rest.head? = some '[' ∨ cur.rest.head? = some '\x7b' then .error .unfit
  else do
    match ← readItem .full rounds cur with
    | (.text value,cur) => .ok (value,cur)
    | _ => .error .unfit

def readOptional (rounds : Nat) (cur : Cursor) : Except Refusal (Option Json × Cursor) := do
  let (value,cur) ← readItem .full rounds cur
  .ok (present (some value),cur)

def behindColon {α : Type} (read : Cursor → Except Refusal (α × Cursor)) (cur : Cursor) :
    Except Refusal (α × Cursor) :=
  let cur := cur.skipBlanks
  if cur.rest.head? = some ':' then read (cur.skip 1) else .error .malformed

-- A field that comes a second time is refused before its value is read. Other
-- members are passed over.
def readField (rounds : Nat) (draft : Draft) (name : String) (cur : Cursor) :
    Except Refusal (Draft × Cursor) :=
  match name with
  | "jsonrpc" =>
    if draft.version.isSome then .error .unfit
    else do
      let (value,cur) ← behindColon (readText rounds) cur
      .ok ({ draft with version := some value },cur)
  | "id" =>
    if draft.id.isSome then .error .unfit
    else do
      let (value,cur) ← behindColon (readOptional rounds) cur
      .ok ({ draft with id := some value },cur)
  | "method" =>
    if draft.method.isSome then .error .unfit
    else do
      let (value,cur) ← behindColon (readText rounds) cur
      .ok ({ draft with method := some value },cur)
  | "params" =>
    if draft.params.isSome then .error .unfit
    else do
      let (value,cur) ← behindColon (readOptional rounds) cur
      .ok ({ draft with params := some value },cur)
  | _ => do
    let (_,cur) ← behindColon (readItem .passing rounds) cur
    .ok (draft,cur)

def readNamed (rounds : Nat) (draft : Draft) (cur : Cursor) : Except Refusal (Draft × Cursor) := do
  let (name,cur) ← readingJson (Json.readCharacters .full rounds [] (cur.skip 1))
  readField rounds draft name cur

def readDraft (rounds : Nat) : Nat → Bool → Draft → Cursor → Except Refusal (Draft × Cursor)
  | 0,_,_,_ => .error .malformed
  | left+1,first,draft,cur =>
    let cur := cur.skipBlanks
    match cur.rest with
    | '\x7d' :: _ => .ok (draft,cur)
    | '"' :: _ =>
      if first then do
        let (draft,cur) ← readNamed rounds draft cur
        readDraft rounds left false draft cur
      else .error .malformed
    | ',' :: _ =>
      if first then .error .malformed
      else
        let cur := (cur.skip 1).skipBlanks
        if cur.rest.head? = some '"' then do
          let (draft,cur) ← readNamed rounds draft cur
          readDraft rounds left false draft cur
        else .error .malformed
    | _ => .error .malformed

def readNext {α : Type} (read : Cursor → Except Refusal (α × Cursor)) (first : Bool)
    (cur : Cursor) : Except Refusal (Option α × Cursor) :=
  let cur := cur.skipBlanks
  match cur.rest with
  | ']' :: _ => .ok (none,cur)
  | c :: _ =>
    if first then do
      let (value,cur) ← read cur
      .ok (some value,cur)
    else if c = ',' then
      let cur := (cur.skip 1).skipBlanks
      if cur.rest.head? = some ']' then .error .malformed
      else do
        let (value,cur) ← read cur
        .ok (some value,cur)
    else .error .malformed
  | [] => .error .malformed

def readListed (rounds : Nat) (cur : Cursor) : Except Refusal (Request × Cursor) := do
  let (version,cur) ← readNext (readText rounds) true cur
  match version with
  | none => .error .unfit
  | some version =>
    let (id,cur) ← readNext (readOptional rounds) false cur
    let (method,cur) ← readNext (readText rounds) false cur
    match method with
    | none => .error .unfit
    | some method =>
      let (params,cur) ← readNext (readOptional rounds) false cur
      .ok (⟨version,id.join,method,params.join⟩,cur)

def closing (bracket : Char) (cur : Cursor) : Except Refusal Cursor :=
  let cur := cur.skipBlanks
  if cur.rest.head? = some bracket then .ok (cur.skip 1) else .error .malformed

def readRequest (rounds : Nat) (cur : Cursor) : Except Refusal (Request × Cursor) :=
  let cur := cur.skipBlanks
  match cur.rest with
  | '\x7b' :: _ => do
    let (draft,cur) ← readDraft rounds (rounds+1) true ⟨none,none,none,none⟩ (cur.skip 1)
    let request ← draft.finish
    let cur ← closing '\x7d' cur
    .ok (request,cur)
  | '[' :: _ => do
    let (request,cur) ← readListed rounds (cur.skip 1)
    let cur ← closing ']' cur
    .ok (request,cur)
  | _ => do
    let _ ← readItem .full rounds cur
    .error .unfit

def Request.read (text : String) : Except Refusal Request := do
  let (request,cur) ← readRequest (Json.roundsFor text) (.start text)
  readingJson (Json.readEnd cur)
  .ok request

end ToolDialogue.Rpc
