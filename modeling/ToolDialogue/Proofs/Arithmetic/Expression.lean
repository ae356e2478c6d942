import ToolDialogue.Arithmetic.Evaluate
import ToolDialogue.Proofs.Arithmetic.Nested

namespace ToolDialogue.Arithmetic

inductive Constant where
  | pi
  | e
  deriving DecidableEq, Repr

def Constant.name : Constant → List Char
  | .pi => ['p','i']
  | .e => ['e']

def Constant.numeral : Constant → List Char
  | .pi => piText
  | .e => eText

inductive Operation where
  | add
  | sub
  | mul
  | div
  | pow
  deriving DecidableEq, Repr

def Operation.sign : Operation → Char
  | .add => '+'
  | .sub => '-'
  | .mul => '*'
  | .div => '/'
  | .pow => '^'

def Operation.level : Operation → Nat
  | .add => 0
  | .sub => 0
  | .mul => 1
  | .div => 1
  | .pow => 2

variable {α : Type}

def Operation.apply (ops : Numbers α) : Operation → α → α → α
  | .add => ops.add
  | .sub => ops.sub
  | .mul => ops.mul
  | .div => ops.div
  | .pow => ops.pow

def Function.letters (function : Function) : List Char := function.name.toList

-- An expression as it is meant. A numeral has digits and at most one point, or is one
-- of the two reserved words, with or without a minus in front.
inductive Expression where
  | numeral (text : List Char) (reads : isNumeral text = true)
  | constant (which : Constant)
  | binary (operation : Operation) (left right : Expression)
  | group (inner : Expression)
  | negated (inner : Expression)
  | call (function : Function) (single : function ≠ .pow) (argument : Expression)
  | power (base exponent : Expression)

namespace Expression

def level : Expression → Nat
  | .binary operation _ _ => operation.level
  | _ => 3

def held (least : Nat) (t : Expression) : Expression := if t.level < least then .group t else t

def bracketed (loose : Bool) (text : List Char) : List Char :=
  if loose then '(' :: (text ++ [')']) else text

-- The written expression, given how constants are written. Operations bind to the
-- left: what stands on the right is one level tighter.
def print (constants : Constant → List Char) : Expression → List Char
  | .numeral text _ => text
  | .constant which => constants which
  | .binary operation left right =>
    bracketed (left.level < operation.level) (left.print constants) ++
      operation.sign :: bracketed (right.level < operation.level + 1) (right.print constants)
  | .group inner => '(' :: (inner.print constants ++ [')'])
  | .negated inner => '-' :: '(' :: (inner.print constants ++ [')'])
  | .call function _ argument => function.letters ++ '(' :: (argument.print constants ++ [')'])
  | .power base exponent =>
    Function.pow.letters ++ '(' :: (base.print constants ++ ',' :: exponent.print constants ++ [')'])

def typed (t : Expression) : List Char := t.print Constant.name

def text (t : Expression) : List Char := t.print Constant.numeral

def depth : Expression → Nat
  | .numeral _ _ => 0
  | .constant _ => 0
  | .binary operation left right =>
    max (left.depth + if left.level < operation.level then 1 else 0)
      (right.depth + if right.level < operation.level + 1 then 1 else 0)
  | .group inner => inner.depth + 1
  | .negated inner => inner.depth + 1
  | .call _ _ argument => argument.depth + 1
  | .power base exponent => max base.depth exponent.depth + 1

def value (ops : Numbers α) : Expression → α
  | .numeral text _ => ops.value text
  | .constant which => ops.value which.numeral
  | .binary operation left right => operation.apply ops (left.value ops) (right.value ops)
  | .group inner => inner.value ops
  | .negated inner => ops.neg (inner.value ops)
  | .call function _ argument => ops.unary function (argument.value ops)
  | .power base exponent => ops.pow (base.value ops) (exponent.value ops)

def dividesByZero (ops : Numbers α) : Expression → Bool
  | .numeral _ _ => false
  | .constant _ => false
  | .binary operation left right =>
    left.dividesByZero ops || right.dividesByZero ops ||
      (operation == .div && ops.isZero (right.value ops))
  | .group inner => inner.dividesByZero ops
  | .negated inner => inner.dividesByZero ops
  | .call _ _ argument => argument.dividesByZero ops
  | .power base exponent => base.dividesByZero ops || exponent.dividesByZero ops

def outcome (ops : Numbers α) (t : Expression) : Except Error α :=
  if t.dividesByZero ops then .error .divisionByZero else .ok (t.value ops)

def calls (function : Function) : Expression → Bool
  | .numeral _ _ => false
  | .constant _ => false
  | .binary _ left right => left.calls function || right.calls function
  | .group inner => inner.calls function
  | .negated inner => inner.calls function
  | .call other _ argument => other == function || argument.calls function
  | .power base exponent => function == .pow || base.calls function || exponent.calls function

def CallFree (t : Expression) : Prop := ∀ function, t.calls function = false

variable {constants : Constant → List Char} {ops : Numbers α} {t left right : Expression}
  {operation : Operation}

theorem held_of_loose {least : Nat} (loose : t.level < least) : t.held least = .group t := if_pos loose

theorem held_of_tight {least : Nat} (tight : least ≤ t.level) : t.held least = t :=
  if_neg (Nat.not_lt.mpr tight)

theorem held_cases {motive : Expression → Prop} (least : Nat) (own : motive t) (grouped : motive (.group t)) :
    motive (t.held least) := by
  unfold held; split
  · exact grouped
  · exact own

theorem print_held (least : Nat) :
    (t.held least).print constants = bracketed (t.level < least) (t.print constants) := by
  cases Nat.lt_or_ge t.level least with
  | inl loose => rw [held_of_loose loose,bracketed,if_pos (decide_eq_true loose)]; rfl
  | inr tight => rw [held_of_tight tight,bracketed,if_neg (by simpa using tight)]

theorem print_binary : (binary operation left right).print constants =
    (left.held operation.level).print constants ++
      operation.sign :: (right.held (operation.level+1)).print constants := by
  rw [print,print_held,print_held]

theorem text_binary : (binary operation left right).text =
    (left.held operation.level).text ++ operation.sign :: (right.held (operation.level+1)).text :=
  print_binary

theorem depth_binary : (binary operation left right).depth =
    max (left.held operation.level).depth (right.held (operation.level+1)).depth := by
  rw [depth,held,held]
  split <;> split <;> rfl

@[simp] theorem value_held (least : Nat) : (t.held least).value ops = t.value ops := by
  unfold held; split <;> rfl

@[simp] theorem dividesByZero_held (least : Nat) :
    (t.held least).dividesByZero ops = t.dividesByZero ops := by
  unfold held; split <;> rfl

theorem outcome_of_zero (zero : t.dividesByZero ops = true) :
    t.outcome ops = .error .divisionByZero := if_pos zero

theorem outcome_of_nonzero (nonzero : ¬t.dividesByZero ops = true) :
    t.outcome ops = .ok (t.value ops) := if_neg nonzero

theorem CallFree.sides (free : (binary operation left right).CallFree) :
    left.CallFree ∧ right.CallFree :=
  ⟨fun function => (Bool.or_eq_false_iff.mp (free function)).1,
    fun function => (Bool.or_eq_false_iff.mp (free function)).2⟩

theorem CallFree.held (free : t.CallFree) (least : Nat) : (t.held least).CallFree :=
  held_cases (motive := CallFree) least free free

theorem not_callFree_call {function : Function} {single : function ≠ .pow} :
    ¬(call function single t).CallFree := fun free => by simpa [calls] using free function

theorem not_callFree_power : ¬(power left right).CallFree := fun free => by
  simpa [calls] using free .pow

theorem level_held (least : Nat) (within : least ≤ 3) : least ≤ (t.held least).level := by
  cases Nat.lt_or_ge t.level least with
  | inl loose => rw [held_of_loose loose]; exact within
  | inr tight => rw [held_of_tight tight]; exact tight

end Expression

def isPart (c : Char) : Bool := c.isDigit || ['.','i','n','f','N','a'].contains c

theorem isPart_of_unsigned {text : List Char} (reads : isDecimal text = true ∨ isReserved text = true) :
    text ≠ [] ∧ ∀ c ∈ text, isPart c = true := by
  rcases reads with decimal | reserved
  · simp only [isDecimal,Bool.and_eq_true,List.all_eq_true,List.any_eq_true] at decimal
    obtain ⟨⟨plain,digit,member,-⟩,-⟩ := decimal
    refine ⟨List.ne_nil_of_mem member,fun c listed => ?_⟩
    have either := plain c listed
    simp only [Bool.or_eq_true,beq_iff_eq] at either
    rcases either with digit | rfl
    · simp [isPart,digit]
    · rfl
  · simp only [isReserved,Bool.or_eq_true,beq_iff_eq] at reserved
    rcases reserved with rfl | rfl <;> exact ⟨by simp,by simp [isPart]⟩

theorem numeral_parts {text : List Char} (reads : isNumeral text = true) :
    ∃ digits, (text = digits ∨ text = '-' :: digits) ∧ digits ≠ [] ∧ ∀ c ∈ digits, isPart c = true := by
  unfold isNumeral at reads
  split at reads
  · next rest => exact ⟨rest,.inr rfl,isPart_of_unsigned (by simpa using reads)⟩
  · exact ⟨text,.inl rfl,isPart_of_unsigned (by simpa using reads)⟩

theorem isPart_apart {c : Char} (part : isPart c = true) :
    c ∉ ['(',')',',','+','-','*','/','^','p','e'] := by
  intro member
  simp only [List.mem_cons,List.not_mem_nil,or_false] at member
  rcases member with rfl | rfl | rfl | rfl | rfl | rfl | rfl | rfl | rfl | rfl <;> revert part <;> decide

theorem letters_apart (function : Function) : ∀ c ∈ function.letters, c ∉ ['(',')',','] := by
  cases function <;> simp [Function.letters,Function.name]

theorem letters_plain (function : Function) : ∀ c ∈ function.letters, c ≠ '(' ∧ c ≠ ')' := by
  intro c member
  have apart := letters_apart function c member
  simp_all

theorem numeral_ne_nil {text : List Char} (reads : isNumeral text = true) : text ≠ [] := by
  rintro rfl
  cases reads

theorem numeral_apart {text : List Char} (reads : isNumeral text = true) :
    ∀ c ∈ text, c ∉ ['(',')',',','p','e'] := by
  obtain ⟨digits,spelled,-,parts⟩ := numeral_parts reads
  have digit (c : Char) (member : c ∈ digits) : c ∉ ['(',')',',','p','e'] := by
    have apart := isPart_apart (parts c member)
    simp_all
  intro c member
  rcases spelled with rfl | rfl
  · exact digit c member
  · rcases List.mem_cons.mp member with rfl | later
    · decide
    · exact digit c later

theorem numeral_unopened {text : List Char} (reads : isNumeral text = true) : '(' ∉ text :=
  fun member => numeral_apart reads '(' member (by decide)

theorem numeral_flat {text : List Char} (reads : isNumeral text = true) : Nested 0 text := by
  refine .flat ?_
  intro c member
  have apart := numeral_apart reads c member
  simp_all

theorem Constant.reads (which : Constant) : isNumeral which.numeral = true := by
  cases which <;> decide

namespace Expression

theorem nested {constants : Constant → List Char} (flat : ∀ which, Nested 0 (constants which))
    (t : Expression) : Nested t.depth (t.print constants) := by
  induction t with
  | numeral text reads => exact numeral_flat reads
  | constant which => exact flat which
  | binary operation left right before behind =>
    have bracket {t : Expression} (inner : Nested t.depth (t.print constants)) (least : Nat) :=
      held_cases (motive := fun t => Nested t.depth (t.print constants)) least inner inner.enclosed
    rw [print_binary,depth_binary]
    refine (bracket before _).append (.char ?_ ?_ (bracket behind _)) <;> cases operation <;> decide
  | group inner ih => exact ih.enclosed
  | negated inner ih => exact .char (by decide) (by decide) ih.enclosed
  | call function single argument ih =>
    have whole := (Nested.flat (letters_plain function)).append ih.enclosed
    rwa [Nat.zero_max] at whole
  | power base exponent before behind =>
    have arguments := before.append (.char (by decide) (by decide) behind : Nested _ (',' :: _))
    have whole := (Nested.flat (letters_plain .pow)).append arguments.enclosed
    simpa [print,depth] using whole

theorem nested_text (t : Expression) : Nested t.depth t.text :=
  t.nested fun which => numeral_flat which.reads

theorem nesting_text (t : Expression) : nesting t.text = t.depth := t.nested_text.nesting_eq

end Expression

end ToolDialogue.Arithmetic
