import ToolDialogue.Json.Print
import ToolDialogue.Text.LetterCase

namespace ToolDialogue.Http

structure Request where
  method : String
  target : String
  headers : List (String × String)
  body : String
  deriving Repr

def isPathEnd (c : Char) : Bool := c == '?' || c == '#'

-- A target may name a scheme and a host in front of the path.
def behindHost? (target : List Char) : Option (List Char) :=
  if target.head? = some '/' then none
  else match target.dropWhile (· != ':') with
    | ':' :: '/' :: '/' :: rest => some (rest.dropWhile fun c => c != '/' && !isPathEnd c)
    | _ => none

def Request.path (request : Request) : String :=
  let target := request.target.toList
  match behindHost? target with
  | none => String.ofList (target.takeWhile (!isPathEnd ·))
  | some rest =>
    let path := rest.takeWhile (!isPathEnd ·)
    if path = [] then "/" else String.ofList path

def Request.header? (request : Request) (name : String) : Option String :=
  (request.headers.find? fun header => Text.asciiLower header.1 == name).map (·.2)

inductive Body where
  | empty
  | json (value : Json)
  | plain (text : String)
  deriving Repr

structure Response where
  status : Nat
  headers : List (String × String)
  body : Body
  deriving Repr

def contentType : String := "content-type"

def Response.ofJson (value : Json) : Response :=
  ⟨200,[(contentType,"application/json")],.json value⟩

def Response.refusal (status : Nat) (text : String) : Response :=
  ⟨status,[(contentType,"text/plain; charset=utf-8")],.plain text⟩

def Response.bare (status : Nat) : Response := ⟨status,[],.empty⟩

def Response.withHeaders (response : Response) (more : List (String × String)) : Response :=
  { response with headers := response.headers ++ more }

end ToolDialogue.Http
