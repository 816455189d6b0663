namespace TagQuery.Text

def isSpace (c : Char) : Bool := c == ' ' || c == '\t' || c == '\n' || c == '\r'

def skipSpace (cs : List Char) : List Char := cs.dropWhile isSpace

theorem length_dropWhile_le (test : Char → Bool) (cs : List Char) :
    (cs.dropWhile test).length ≤ cs.length :=
  (List.dropWhile_sublist test).length_le

theorem length_skipSpace_le (cs : List Char) : (skipSpace cs).length ≤ cs.length :=
  length_dropWhile_le isSpace cs

theorem length_lt_of_skipSpace {cs rest : List Char} {c : Char} (found : skipSpace cs = c :: rest) :
    rest.length < cs.length := by
  have shorter := length_skipSpace_le cs
  rw [found, List.length_cons] at shorter
  omega

end TagQuery.Text
