import TagQuery.Text.Space

/-!
# Control sequences

What is printed for people goes to files as well as to terminals, so the control sequences that set
colours and move the cursor are left out. A control sequence is an escape character and an opening
bracket, then parameters from `0` to `?`, then intermediate characters from the space to `/`, and at
last one character from `@` to `~`. Any other character within breaks it off, and then all of it is
text. Escape characters that introduce something else are text as well.
-/

namespace TagQuery.Text

def isParameter (c : Char) : Bool := '0' ≤ c && c ≤ '?'

def isIntermediate (c : Char) : Bool := ' ' ≤ c && c ≤ '/'

def isFinal (c : Char) : Bool := '@' ≤ c && c ≤ '~'

def afterSequence? : List Char → Option (List Char)
  | '[' :: cs =>
    match (cs.dropWhile isParameter).dropWhile isIntermediate with
    | c :: rest => if isFinal c then some rest else none
    | [] => none
  | _ => none

theorem length_afterSequence?_le {cs rest : List Char} (found : afterSequence? cs = some rest) :
    rest.length ≤ cs.length := by
  unfold afterSequence? at found
  split at found
  · next more =>
    have parameters := length_dropWhile_le isParameter more
    have intermediates := length_dropWhile_le isIntermediate (more.dropWhile isParameter)
    split at found
    · next inner =>
      rw [inner, List.length_cons] at intermediates
      split at found
      · simp only [Option.some.injEq] at found
        rw [← found, List.length_cons]
        omega
      · simp at found
    · simp at found
  · simp at found

def dropSequences (cs : List Char) : List Char :=
  match cs with
  | [] => []
  | c :: rest =>
    if c = '\x1b' then
      match _found : afterSequence? rest with
      | some after => dropSequences after
      | none => c :: dropSequences rest
    else c :: dropSequences rest
termination_by cs.length
decreasing_by
  · exact Nat.lt_succ_of_le (length_afterSequence?_le _found)
  all_goals simp

def plain (s : String) : String := String.ofList (dropSequences s.toList)

end TagQuery.Text
