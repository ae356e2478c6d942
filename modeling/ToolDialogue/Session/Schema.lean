import ToolDialogue.Json.Basic

namespace ToolDialogue

structure Parameter where
  name : String
  description : String
  deriving DecidableEq, Repr

structure OptionalParameter where
  name : String
  description : String
  fallback : Json
  deriving Repr

structure Schema where
  required : List Parameter
  optional : List OptionalParameter
  deriving Repr

namespace Schema

def empty : Schema := ⟨[],[]⟩

def requiredNames (schema : Schema) : List String := schema.required.map (·.name)

def optionalNames (schema : Schema) : List String := schema.optional.map (·.name)

-- Required parameters are searched first; of equal names the first counts.
def description? (schema : Schema) (name : String) : Option String :=
  match schema.required.find? (·.name == name) with
  | some parameter => some parameter.description
  | none => (schema.optional.find? (·.name == name)).map (·.description)

def isEmpty (schema : Schema) : Bool := schema.required.isEmpty && schema.optional.isEmpty

def sameOptional (a b : OptionalParameter) : Bool :=
  a.name == b.name && a.description == b.description && a.fallback.same b.fallback

def same (a b : Schema) : Bool :=
  a.required == b.required && a.optional.length == b.optional.length &&
    (a.optional.zip b.optional).all fun (x,y) => sameOptional x y

def toJson (schema : Schema) : Json :=
  Json.obj [
    ("required",.array (schema.required.map fun p =>
      Json.obj [("name",.text p.name),("description",.text p.description)])),
    ("optional",.array (schema.optional.map fun p =>
      Json.obj [("name",.text p.name),("description",.text p.description),
        ("default",p.fallback)]))]

end Schema

end ToolDialogue
