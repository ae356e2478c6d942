import ToolDialogue.Proofs.Arithmetic.Reduction

namespace ToolDialogue.Arithmetic

def CommaFree (text : List Char) : Prop :=
  ∀ before rest, commaFrom 0 before (text ++ rest) = commaFrom 0 (text.reverse ++ before) rest

theorem CommaFree.append {front back : List Char} (first : CommaFree front) (second : CommaFree back) :
    CommaFree (front ++ back) := by
  intro before rest
  rw [List.append_assoc,first,second]; simp

theorem CommaFree.flat {text : List Char} (plain : ∀ c ∈ text, c ∉ ['(',')',',']) : CommaFree text := by
  intro before rest
  induction text generalizing before with
  | nil => rfl
  | cons c text ih =>
    have apart := plain c List.mem_cons_self
    rw [List.cons_append,commaFrom,if_neg (by simp_all),if_neg (by simp_all),if_neg (by simp_all),
      ih fun other member => plain other (List.mem_cons_of_mem _ member)]
    simp

theorem CommaFree.bracket {n : Nat} {inner : List Char} (nested : Nested n inner) :
    CommaFree ('(' :: (inner ++ [')'])) := by
  intro before rest
  have inside := nested.commaFrom_within 0 ('(' :: before) (')' :: rest)
  rw [List.cons_append,List.append_assoc,commaFrom,if_neg (by simp),if_pos rfl]
  refine inside.trans ?_
  rw [commaFrom,if_neg (by simp),if_neg (by decide),if_pos rfl]
  simp

theorem CommaFree.numeral {text : List Char} (reads : isNumeral text = true) : CommaFree text := by
  refine .flat ?_
  intro c member
  have apart := numeral_apart reads c member
  simp_all

namespace Expression

end Expression

variable {α : Type} {ops : Numbers α} {evaluate : List Char → Except Error α} {function : Function}

def gathered (ops : Numbers α) (evaluate : List Char → Except Error α) (function : Function) :
    List Piece → Except Error (List Char)
  | [] => .ok []
  | piece :: earlier => do
    let before ← gathered ops evaluate function earlier
    let own ← piece.written ops evaluate function
    pure (before ++ own)

def Reader.output (ops : Numbers α) (evaluate : List Char → Except Error α) (function : Function)
    (reader : Reader) : Except Error (List Char) :=
  gathered ops evaluate function (.plain reader.held.reverse :: reader.pieces)

def Reader.push (reader : Reader) (text : List Char) : Reader :=
  ⟨0,text.reverse ++ reader.held,reader.pieces⟩

theorem flatten_written (pieces : List Piece) :
    List.flatten <$> pieces.reverse.mapM (·.written ops evaluate function) =
      gathered ops evaluate function pieces := by
  induction pieces with
  | nil => rfl
  | cons piece earlier ih =>
    rw [gathered,← ih,List.reverse_cons,List.mapM_append]
    simp [List.mapM_cons]

theorem finish_outside {reader : Reader} (outside : reader.depth = 0) :
    reader.finish = (.plain reader.held.reverse :: reader.pieces).reverse := by
  simp only [Reader.finish,if_pos outside]

theorem expandCalls_output {text : List Char}
    (outside : (text.foldl (Reader.step function.letters) ⟨0,[],[]⟩).depth = 0) :
    expandCalls ops evaluate function text =
      (text.foldl (Reader.step function.letters) ⟨0,[],[]⟩).output ops evaluate function := by
  rw [Reader.output,← flatten_written]
  exact congrArg (List.flatten <$> List.mapM _ ·) (finish_outside outside)

theorem output_push (reader : Reader) (text : List Char) :
    (reader.push text).output ops evaluate function = (do
      let front ← reader.output ops evaluate function
      pure (front ++ text)) := by
  simp [Reader.output,Reader.push,gathered,Piece.written]

theorem output_of_none_held (pieces : List Piece) :
    Reader.output ops evaluate function ⟨0,[],pieces⟩ = gathered ops evaluate function pieces := by
  rw [Reader.output,gathered]
  cases gathered ops evaluate function pieces with
  | error e => rfl
  | ok before => exact congrArg Except.ok (List.append_nil before)

def Reader.Fresh (reader : Reader) : Prop := ∀ c ∈ reader.held.head?, c ∉ ['t','w','n','s']

theorem step_push {name : List Char} {reader : Reader} (outside : reader.depth = 0) {c : Char}
    (apart : c = '(' → ¬name.reverse.isPrefixOf reader.held = true) :
    Reader.step name reader c = reader.push [c] := by
  rw [Reader.step,if_pos outside,if_neg fun call => apart call.1 call.2]; rfl

theorem fold_push (name : List Char) {reader : Reader} (outside : reader.depth = 0) {text : List Char}
    (plain : ∀ c ∈ text, c ≠ '(') : text.foldl (Reader.step name) reader = reader.push text := by
  induction text generalizing reader with
  | nil => cases reader; cases outside; rfl
  | cons c rest ih =>
    rw [List.foldl_cons,step_push outside fun opens => absurd opens (plain c List.mem_cons_self),
      ih rfl fun other member => plain other (List.mem_cons_of_mem _ member)]
    simp [Reader.push]

-- From wherever no name may be under way, the text is read to its end and leaves that
-- behind.
def Expands (ops : Numbers α) (evaluate : List Char → Except Error α) (function : Function)
    (text : List Char) (left : Except Error (List Char)) : Prop :=
  ∀ reader : Reader, reader.depth = 0 → reader.Fresh →
    (text.foldl (Reader.step function.letters) reader).depth = 0 ∧
      (text.foldl (Reader.step function.letters) reader).output ops evaluate function = (do
        let front ← reader.output ops evaluate function
        let back ← left
        pure (front ++ back))

namespace Expands

variable {text behind : List Char} {left right : Except Error (List Char)}

theorem plain (flat : ∀ c ∈ text, c ≠ '(') : Expands ops evaluate function text (.ok text) := by
  intro reader outside fresh
  rw [fold_push _ outside flat]
  exact ⟨rfl,output_push reader text⟩

theorem enclosed (front : List Char) (flat : ∀ c ∈ front, c ≠ '(')
    (apart : ∀ reader : Reader, reader.Fresh →
      ¬function.letters.reverse.isPrefixOf (front.reverse ++ reader.held) = true)
    (inner : Expands ops evaluate function text left) :
    Expands ops evaluate function (front ++ '(' :: (text ++ [')'])) (do
      let within ← left
      pure (front ++ '(' :: (within ++ [')']))) := by
  intro reader outside fresh
  obtain ⟨closed,written⟩ := inner ((reader.push front).push ['(']) rfl
    (fun other head => by cases head; decide)
  rw [List.foldl_append,List.foldl_cons,fold_push _ outside flat,step_push rfl fun _ => apart reader fresh,
    List.foldl_append,fold_push _ closed (by simp)]
  refine ⟨rfl,?_⟩
  rw [output_push,written,output_push,output_push]
  simp

theorem call {n : Nat} (nested : Nested n text) :
    Expands ops evaluate function (function.letters ++ '(' :: (text ++ [')']))
      (ops.print <$> callValue ops evaluate function text) := by
  intro reader outside fresh
  have opened : Reader.step function.letters (reader.push function.letters) '(' =
      ⟨1,[],.plain reader.held.reverse :: reader.pieces⟩ := by
    simp [Reader.step,Reader.push]
  have closed : Reader.step function.letters ⟨1,text.reverse,.plain reader.held.reverse :: reader.pieces⟩ ')' =
      ⟨0,[],.call text :: .plain reader.held.reverse :: reader.pieces⟩ := by
    simp [Reader.step]
  have letters := fold_push function.letters outside fun c member => (letters_plain function c member).1
  have within := nested.reader_within function.letters 0 [] (.plain reader.held.reverse :: reader.pieces)
  rw [List.append_nil] at within
  rw [List.foldl_append,List.foldl_cons,letters,opened,List.foldl_append,within,List.foldl_cons,closed]
  exact ⟨rfl,output_of_none_held _⟩

end Expands

namespace Expression

variable {lawful : ops.Lawful} {left right t : Expression} {operation : Operation}

def passed (lawful : ops.Lawful) (function : Function) (t : Expression) : Except Error (List Char) :=
  if t.blocked ops function then .error .divisionByZero else .ok (t.reduced lawful function).text

end Expression

end ToolDialogue.Arithmetic
