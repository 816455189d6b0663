import TagQuery.Text.Hex
import TagQuery.Text.Space

namespace TagQuery.Selector

inductive Token where
  | bang | both | either | opening | closing | comma | dot
  | word (name : String)
  | literal (content : String)
  | stray
deriving DecidableEq, Repr

/-- A token with the number of characters from its first to the end of the text. -/
structure Lexeme where
  token : Token
  left : Nat
deriving DecidableEq, Repr

/-! ## Character classes -/

def isWordStart (c : Char) : Bool := c.isAlpha || c == '_' || c == '$'

def isWordPart (c : Char) : Bool := isWordStart c || c.isDigit

def isQuote (c : Char) : Bool := c == '\'' || c == '"'

def isContent (quote c : Char) : Bool := c != quote && c != '\n' && c != '\r'

/-! ## Escapes -/

def control? : Char → Option Char
  | 't' => some '\t'
  | 'n' => some '\n'
  | 'f' => some '\x0c'
  | 'r' => some '\r'
  | _ => none

/-- The character whose code has two hexadecimal digits, any one and then the given one. -/
def codeWith (last : Char) (value : Nat) : List Char → Option (List Char × List Char)
  | digit :: next :: cs =>
    if next = last then
      (Text.hexValue? digit).map fun high => ([Char.ofNat (high * 16 + value)], cs)
    else none
  | _ => none

/-- What an escape stands for and what follows it, from the characters behind a backslash. A letter
names a control character; an octal digit before a `3` loses the backslash; `0` is the null
character; `x` takes a code that ends in `2` and `u` one that ends in `4`. -/
def escape? : List Char → Option (List Char × List Char)
  | [] => none
  | c :: cs =>
    match control? c with
    | some control => some ([control], cs)
    | none =>
      if '0' ≤ c && c ≤ '7' && cs.head? == some '3' then some ([c, '3'], cs.drop 1)
      else if c = '0' then some (['\x00'], cs)
      else if c = 'x' then codeWith '2' 2 cs
      else if c = 'u' then codeWith '4' 4 cs
      else none

theorem length_codeWith_le {last : Char} {value : Nat} {cs replaced rest : List Char}
    (read : codeWith last value cs = some (replaced, rest)) : rest.length ≤ cs.length := by
  unfold codeWith at read
  split at read
  · split at read
    · simp only [Option.map_eq_some_iff, Prod.mk.injEq] at read
      obtain ⟨_, _, _, rfl⟩ := read
      simp only [List.length_cons]
      omega
    · simp at read
  · simp at read

theorem length_escape?_le {cs replaced rest : List Char}
    (read : escape? cs = some (replaced, rest)) : rest.length ≤ cs.length := by
  cases cs with
  | nil => simp [escape?] at read
  | cons c cs =>
    simp only [escape?] at read
    split at read
    · simp only [Option.some.injEq, Prod.mk.injEq] at read
      simp [← read.2]
    · split at read
      · simp only [Option.some.injEq, Prod.mk.injEq] at read
        simp only [← read.2, List.length_drop, List.length_cons]
        omega
      · split at read
        · simp only [Option.some.injEq, Prod.mk.injEq] at read
          simp [← read.2]
        · split at read
          · exact Nat.le_succ_of_le (length_codeWith_le read)
          · split at read
            · exact Nat.le_succ_of_le (length_codeWith_le read)
            · simp at read

/-- The text that the characters of a literal stand for. A backslash that begins no escape stands
for itself. -/
def unescape (cs : List Char) : List Char :=
  match cs with
  | [] => []
  | c :: rest =>
    if c = '\\' then
      match _read : escape? rest with
      | some (replaced, after) => replaced ++ unescape after
      | none => c :: unescape rest
    else c :: unescape rest
termination_by cs.length
decreasing_by
  · have shorter := length_escape?_le _read
    simp only [List.length_cons]
    omega
  all_goals simp

/-! ## Reading tokens -/

def scanLiteral (quote : Char) (cs : List Char) : Token × List Char :=
  match cs.dropWhile (isContent quote) with
  | [] => (.stray, [])
  | c :: rest =>
    if c = quote then
      (.literal (String.ofList (unescape (cs.takeWhile (isContent quote)))), rest)
    else (.stray, [])

def scanDoubled (c : Char) (token : Token) : List Char → Token × List Char
  | next :: rest => if next = c then (token, rest) else (.stray, [])
  | [] => (.stray, [])

def single? : Char → Option Token
  | '!' => some .bang
  | '(' => some .opening
  | ')' => some .closing
  | ',' => some .comma
  | '.' => some .dot
  | _ => none

def doubled? : Char → Option Token
  | '&' => some .both
  | '|' => some .either
  | _ => none

def scan (c : Char) (cs : List Char) : Token × List Char :=
  match single? c, doubled? c with
  | some token, _ => (token, cs)
  | none, some token => scanDoubled c token cs
  | none, none =>
    if isQuote c then scanLiteral c cs
    else if isWordStart c then
      (.word (String.ofList (c :: cs.takeWhile isWordPart)), cs.dropWhile isWordPart)
    else (.stray, [])

theorem length_scanDoubled_le (c : Char) (token : Token) (cs : List Char) :
    (scanDoubled c token cs).2.length ≤ cs.length := by
  unfold scanDoubled
  split
  · split <;> simp
  · simp

theorem length_scanLiteral_le (quote : Char) (cs : List Char) :
    (scanLiteral quote cs).2.length ≤ cs.length := by
  unfold scanLiteral
  split
  · simp
  · next rest found =>
    have shorter := Text.length_dropWhile_le (isContent quote) cs
    rw [found, List.length_cons] at shorter
    split
    · exact Nat.le_of_succ_le shorter
    · simp

theorem length_scan_le (c : Char) (cs : List Char) : (scan c cs).2.length ≤ cs.length := by
  unfold scan
  split
  · exact Nat.le_refl _
  · exact length_scanDoubled_le c _ cs
  · split
    · exact length_scanLiteral_le c cs
    · split
      · exact Text.length_dropWhile_le isWordPart cs
      · exact Nat.zero_le _

def lexemes (cs : List Char) : List Lexeme :=
  match _found : Text.skipSpace cs with
  | [] => []
  | c :: rest => ⟨(scan c rest).1, rest.length + 1⟩ :: lexemes (scan c rest).2
termination_by cs.length
decreasing_by
  exact Nat.lt_of_le_of_lt (length_scan_le c rest) (Text.length_lt_of_skipSpace _found)

end TagQuery.Selector
