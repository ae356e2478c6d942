namespace ToolDialogue.Http

inductive PatternPart where
  | exact (c : Char)
  | capture
  | remainder
  deriving DecidableEq, Repr

abbrev PathPattern := List PatternPart

namespace PathPattern

def isPlaceName (name : List Char) : Bool := name != [] && name.all fun c => c != '*' && c != '/'

-- A name in braces is a capture and fills up its segment to the end; behind an
-- asterisk it is the remainder and ends the pattern. Doubled braces stand for
-- themselves.
def read? (text : List Char) : Option PathPattern :=
  match text with
  | [] => some []
  | '\x7b' :: '\x7b' :: rest => (.exact '\x7b' :: ·) <$> read? rest
  | '\x7d' :: '\x7d' :: rest => (.exact '\x7d' :: ·) <$> read? rest
  | '\x7d' :: _ => none
  | '\x7b' :: '*' :: rest =>
    if isPlaceName (rest.takeWhile (· != '\x7d')) ∧ rest.dropWhile (· != '\x7d') = ['\x7d'] then
      some [.remainder]
    else none
  | '\x7b' :: rest =>
    if isPlaceName (rest.takeWhile (· != '\x7d')) then
      let behind := rest.dropWhile (· != '\x7d')
      if behind.length = 1 then some [.capture]
      else if behind[1]? = some '/' then
        (fun parts => .capture :: .exact '/' :: parts) <$> read? (behind.drop 2)
      else none
    else none
  | c :: rest => (.exact c :: ·) <$> read? rest
  termination_by text.length
  decreasing_by
    all_goals simp only [List.length_cons,List.length_drop]
    all_goals have shorter := (List.dropWhile_sublist (· != '\x7d') (l := rest)).length_le
    all_goals omega

def ofText? (text : String) : Option PathPattern :=
  if text.toList.head? = some '/' then read? text.toList else none

def fits : PathPattern → List Char → Bool
  | [],path => path == []
  | .exact c :: parts,path =>
    match path with
    | [] => false
    | d :: rest => c == d && fits parts rest
  | .capture :: parts,path =>
    path.takeWhile (· != '/') != [] && fits parts (path.dropWhile (· != '/'))
  | .remainder :: parts,path => path != [] && parts == []

def isFixed (pattern : PathPattern) : Bool :=
  pattern.all fun part => match part with
    | .exact _ => true
    | _ => false

end PathPattern

end ToolDialogue.Http
