import ToolDialogue.Text.Ranges

namespace ToolDialogue.Text

-- The characters with the White_Space property. U+200B is not among them.
def blanks : Ranges :=
  [(0x09,0x0D),(0x20,0x20),(0x85,0x85),(0xA0,0xA0),(0x1680,0x1680),(0x2000,0x200A),
   (0x2028,0x2029),(0x202F,0x202F),(0x205F,0x205F),(0x3000,0x3000)]

def isBlank (c : Char) : Bool := blanks.holds c

def trimmed (text : List Char) : List Char :=
  ((text.dropWhile isBlank).reverse.dropWhile isBlank).reverse

def trim (text : String) : String := String.ofList (trimmed text.toList)

def allBlank (text : String) : Bool := text.toList.all isBlank

theorem digit_unblanked {c : Char} (digit : c.isDigit = true) : isBlank c = false := by
  have range := Char.isDigit_iff_toNat.mp digit
  have ends : '0'.toNat = 48 ∧ '9'.toNat = 57 := ⟨rfl,rfl⟩
  simp [isBlank,blanks,Ranges.holds]
  omega

end ToolDialogue.Text
