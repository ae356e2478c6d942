namespace ToolDialogue.Text

abbrev Ranges := List (Nat × Nat)

def Ranges.holds (table : Ranges) (c : Char) : Bool :=
  table.any fun (low,high) => low ≤ c.toNat && c.toNat ≤ high

end ToolDialogue.Text
