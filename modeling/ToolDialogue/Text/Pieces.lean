namespace ToolDialogue.Text

-- What stands between the marks, empty stretches included. There is always at
-- least one piece.
def pieces (mark : Char) (text : List Char) : List (List Char) :=
  text.foldr (fun c done =>
    match done with
    | [] => [[c]]
    | first :: rest => if c = mark then [] :: first :: rest else (c :: first) :: rest) [[]]

theorem pieces_ne_nil (mark : Char) (text : List Char) : pieces mark text ≠ [] := by
  induction text with
  | nil => simp [pieces]
  | cons c rest ih =>
    simp only [pieces,List.foldr_cons] at ih ⊢
    split
    · simp
    · split <;> simp

theorem pieces_cons (mark c : Char) (text : List Char) :
    pieces mark (c :: text) =
      if c = mark then [] :: pieces mark text
      else (c :: (pieces mark text).headD []) :: (pieces mark text).tail := by
  have some := pieces_ne_nil mark text
  cases found : pieces mark text with
  | nil => exact absurd found some
  | cons first rest =>
    have step : pieces mark (c :: text) =
        match pieces mark text with
        | [] => [[c]]
        | first :: rest => if c = mark then [] :: first :: rest else (c :: first) :: rest := rfl
    rw [step,found]; rfl

theorem intercalate_pieces (mark : Char) (text : List Char) :
    List.intercalate [mark] (pieces mark text) = text := by
  induction text with
  | nil => simp [pieces,List.intercalate]
  | cons c rest ih =>
    rw [pieces_cons]
    cases found : pieces mark rest with
    | nil => exact absurd found (pieces_ne_nil mark rest)
    | cons first others =>
      rw [found] at ih
      by_cases same : c = mark
      · subst same
        cases others <;> simp_all [List.intercalate]
      · cases others <;> simp_all [List.intercalate]

end ToolDialogue.Text
