import TagQuery.Text.Blank

namespace TagQuery.Text

def pieces (isSeparator : Char → Bool) : List Char → List (List Char)
  | [] => [[]]
  | c :: cs =>
    if isSeparator c then [] :: pieces isSeparator cs
    else match pieces isSeparator cs with
      | [] => [[c]]
      | piece :: rest => (c :: piece) :: rest

def nonemptyPieces (isSeparator : Char → Bool) (cs : List Char) : List String :=
  ((pieces isSeparator cs).filter fun piece => !piece.isEmpty).map String.ofList

def words (s : String) : List String := nonemptyPieces isBlank s.toList

def commaItems (cs : List Char) : List String := nonemptyPieces (· == ',') cs

def joined (separator : String) : List String → String
  | [] => ""
  | [s] => s
  | s :: rest => s ++ separator ++ joined separator rest

theorem pieces_ne_nil (isSeparator : Char → Bool) (cs : List Char) :
    pieces isSeparator cs ≠ [] := by
  cases cs with
  | nil => simp [pieces]
  | cons c cs =>
    unfold pieces
    split
    · simp
    · split <;> simp

end TagQuery.Text
