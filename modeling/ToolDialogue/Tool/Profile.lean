import ToolDialogue.Clock
import ToolDialogue.File.Change
import ToolDialogue.Text.Alphanumeric
import ToolDialogue.Text.Pieces
import ToolDialogue.Tool.Argument

namespace ToolDialogue

structure Profile where
  name : String
  email : String
  age : Nat
  preferences : List String
  createdAt : Instant
  deriving DecidableEq, Repr

namespace Profile

def schema : Schema where
  required := [
    ⟨"name","User's full name"⟩,
    ⟨"email","User's email address"⟩,
    ⟨"age","User's age (as a number)"⟩,
    ⟨"preferences","User preferences or interests (comma-separated list)"⟩]
  optional := [⟨"save_to_file","Also write the profile to a JSON file",.bool false⟩]

def trimmedPieces (list : String) : List String :=
  (Text.pieces ',' list.toList).map fun piece => String.ofList (Text.trimmed piece)

def ofValues (values : Collected) (now : Instant) : Except ToolError Profile := do
  let name ← Argument.text values "name"
  let email := Text.trim (← Argument.text values "email")
  if email.toList.contains '@' then do
    let age ← Argument.wholeNumber values "age"
    let preferences ← Argument.text values "preferences"
    .ok ⟨Text.trim name,email,age,trimmedPieces preferences,now⟩
  else Argument.invalid (Argument.quoted email ++ " is not a valid email address")

def isKept (c : Char) : Bool :=
  Text.isAlphanumeric c || c == '-' || c == '_' || c == '.'

-- The name in small letters; what could trouble a file system becomes an
-- underscore.
def fileName (profile : Profile) : String :=
  "profile_" ++ (Text.lower profile.name).map (fun c => if isKept c then c else '_') ++ ".json"

def toJson (profile : Profile) : Json :=
  .object [
    ("name",.text profile.name),
    ("email",.text profile.email),
    ("age",.nat profile.age),
    ("preferences",.array (profile.preferences.map .text)),
    ("created_at",.text (timestamp utcOffset profile.createdAt))]

def save (profile : Profile) (directory : File.Path) (tree : File.Tree) :
    Except File.Cause File.Path × File.Tree :=
  match tree.makeDirectories directory with
  | (.error cause,tree) => (.error cause,tree)
  | (.ok (),tree) =>
    let path := File.append directory profile.fileName.toList
    match tree.write path profile.toJson.pretty with
    | .ok written => (.ok path,written)
    | .error cause => (.error cause,tree)

def report (profile : Profile) : String :=
  "Profile created successfully!\n\n" ++ profile.toJson.pretty

-- A profile that cannot be saved is still a profile.
def run (directory : File.Path) (now : Instant) (values : Collected) (tree : File.Tree) :
    Except ToolError String × File.Tree :=
  match do
    let profile ← ofValues values now
    let saving ← Argument.flag values "save_to_file" false
    .ok (profile,saving) with
  | .error error => (.error error,tree)
  | .ok (profile,false) => (.ok profile.report,tree)
  | .ok (profile,true) =>
    match profile.save directory tree with
    | (.ok path,tree) =>
      (.ok (profile.report ++ "\nProfile saved to: " ++ String.ofList path),tree)
    | (.error cause,tree) =>
      (.ok (profile.report ++ "\nWarning: Could not save to file: " ++ cause.message),tree)

end Profile

end ToolDialogue
