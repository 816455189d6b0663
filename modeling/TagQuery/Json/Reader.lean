import TagQuery.Json.Number
import TagQuery.Json.Text

/-!
# Reading JSON

Reads one value from a text. Beyond JSON the names `NaN`, `Infinity` and `-Infinity` are numbers.
A field that is repeated keeps its first place and takes its last value. Containers part way through
are held in a list, innermost first, so that every step takes at least one character.
-/

namespace TagQuery.Json

open Text

/-! ## Values without parts -/

def after? : List Char → List Char → Option (List Char)
  | [], cs => some cs
  | _ :: _, [] => none
  | w :: word, c :: cs => if w = c then after? word cs else none

def namedValues : List (List Char × Value) :=
  [("null".toList, .null), ("true".toList, .bool true), ("false".toList, .bool false),
    ("NaN".toList, .float (0.0 / 0.0)), ("Infinity".toList, .float (1.0 / 0.0)),
    ("-Infinity".toList, .float (-1.0 / 0.0))]

def readNamed (cs : List Char) : List (List Char × Value) → Option (Value × List Char)
  | [] => none
  | (word, value) :: named =>
    match after? word cs with
    | some rest => some (value, rest)
    | none => readNamed cs named

def readScalar (cs : List Char) : Except Stop (Value × List Char) :=
  match cs with
  | '"' :: rest => (readText cs rest).map fun (s, rest) => (.text (String.ofList s), rest)
  | cs =>
    match readNamed cs namedValues with
    | some found => .ok found
    | none =>
      match readNumber cs with
      | some (value, rest) => value.map fun value => (value, rest)
      | none => .error (.cause .value cs.length)

def readName (cs : List Char) : Except Stop (String × List Char) :=
  match cs with
  | '"' :: rest =>
    match readText cs rest with
    | .error stop => .error stop
    | .ok (name, rest) =>
      match skipSpace rest with
      | ':' :: rest => .ok (String.ofList name, skipSpace rest)
      | rest => .error (.cause .colon rest.length)
  | cs => .error (.cause .name cs.length)

/-! ## Progress -/

theorem length_lt_succ_of_skipSpace {cs rest : List Char} (found : skipSpace cs = rest) :
    rest.length < cs.length + 1 := by
  have shorter := length_skipSpace_le cs
  rw [found] at shorter
  omega

theorem length_after? {word cs rest : List Char} (found : after? word cs = some rest) :
    rest.length + word.length = cs.length := by
  fun_induction after? word cs with
  | case1 => simp_all
  | case2 => simp at found
  | case3 _ _ _ ih =>
    simp only [List.length_cons]
    have := ih found
    omega
  | case4 => simp at found

theorem length_readNamed_lt {cs rest : List Char} {named : List (List Char × Value)} {value : Value}
    (nonempty : ∀ item ∈ named, item.1 ≠ []) (found : readNamed cs named = some (value, rest)) :
    rest.length < cs.length := by
  induction named with
  | nil => simp [readNamed] at found
  | cons item named ih =>
    unfold readNamed at found
    split at found
    · next inner =>
      simp only [Option.some.injEq, Prod.mk.injEq] at found
      have total := length_after? inner
      have positive := List.length_pos_iff.mpr (nonempty item (by simp))
      rw [← found.2]
      omega
    · exact ih (fun other member => nonempty other (by simp [member])) found

theorem namedValues_nonempty : ∀ item ∈ namedValues, item.1 ≠ [] := by
  simp [namedValues]

theorem length_readScalar_lt {cs rest : List Char} {value : Value}
    (read : readScalar cs = .ok (value, rest)) : rest.length < cs.length := by
  unfold readScalar at read
  split at read
  · next more =>
    simp only [Except.map] at read
    split at read
    · simp at read
    · next inner =>
      have shorter := length_readText_lt inner
      simp only [Except.ok.injEq, Prod.mk.injEq] at read
      rw [← read.2, List.length_cons]
      omega
  · split at read
    · next named =>
      simp only [Except.ok.injEq] at read
      exact length_readNamed_lt namedValues_nonempty (read ▸ named)
    · split at read
      · next number =>
        have shorter := length_readNumber_lt number
        simp only [Except.map] at read
        split at read
        · simp at read
        · simp only [Except.ok.injEq, Prod.mk.injEq] at read
          exact read.2 ▸ shorter
      · simp at read

theorem length_readName_lt {cs rest : List Char} {name : String}
    (read : readName cs = .ok (name, rest)) : rest.length < cs.length := by
  unfold readName at read
  split at read
  · split at read
    · simp at read
    · next inner =>
      have shorter := length_readText_lt inner
      split at read
      · next more found =>
        have colon := length_lt_of_skipSpace found
        have space := length_skipSpace_le more
        simp only [Except.ok.injEq, Prod.mk.injEq] at read
        rw [← read.2, List.length_cons]
        omega
      · simp at read
  · simp at read

/-! ## Containers -/

/-- A container part way through, with what it holds before the value that is being read. -/
inductive Frame where
  /-- The items of a list, last first. -/
  | list (done : List Value)
  | object (done : List (String × Value)) (name : String)

def readIn (stack : List Frame) (value : Option Value) (cs : List Char) :
    Except Stop (Value × List Char) :=
  match value, cs with
  | none, '[' :: rest =>
    match _space : skipSpace rest with
    | ']' :: rest => readIn stack (some (.list [])) rest
    | rest => readIn (.list [] :: stack) none rest
  | none, '\x7b' :: rest =>
    match _space : skipSpace rest with
    | '\x7d' :: rest => readIn stack (some (.object [])) rest
    | rest =>
      match _name : readName rest with
      | .error stop => .error stop
      | .ok (name, rest) => readIn (.object [] name :: stack) none rest
  | none, cs =>
    match _scalar : readScalar cs with
    | .error stop => .error stop
    | .ok (value, rest) => readIn stack (some value) rest
  | some value, cs =>
    match stack with
    | [] => .ok (value, cs)
    | .list done :: stack =>
      match _space : skipSpace cs with
      | ']' :: rest => readIn stack (some (.list (value :: done).reverse)) rest
      | ',' :: rest => readIn (.list (value :: done) :: stack) none (skipSpace rest)
      | rest => .error (.cause .comma rest.length)
    | .object done name :: stack =>
      match _space : skipSpace cs with
      | '\x7d' :: rest => readIn stack (some (.object (Value.put name value done))) rest
      | ',' :: rest =>
        match _name : readName (skipSpace rest) with
        | .error stop => .error stop
        | .ok (next, rest) => readIn (.object (Value.put name value done) next :: stack) none rest
      | rest => .error (.cause .comma rest.length)
termination_by cs.length
decreasing_by
  · exact Nat.lt_succ_of_lt (length_lt_of_skipSpace _space)
  · exact length_lt_succ_of_skipSpace _space
  · exact Nat.lt_succ_of_lt (length_lt_of_skipSpace _space)
  · exact Nat.lt_trans (length_readName_lt _name) (length_lt_succ_of_skipSpace _space)
  · exact length_readScalar_lt _scalar
  · exact length_lt_of_skipSpace _space
  · exact Nat.lt_of_le_of_lt (length_skipSpace_le _) (length_lt_of_skipSpace _space)
  · exact length_lt_of_skipSpace _space
  · exact Nat.lt_of_lt_of_le (length_readName_lt _name)
      (Nat.le_trans (length_skipSpace_le _) (Nat.le_of_lt (length_lt_of_skipSpace _space)))

def read (text : List Char) : Except Stop Value :=
  match text with
  | '\ufeff' :: _ => .error (.cause .byteOrderMark text.length)
  | _ =>
    match readIn [] none (skipSpace text) with
    | .error stop => .error stop
    | .ok (value, rest) =>
      match skipSpace rest with
      | [] => .ok value
      | extra => .error (.cause .extra extra.length)

end TagQuery.Json
