import TagQuery.Json.Fault
import TagQuery.Text.Hex

namespace TagQuery.Json

def fourDigits : List Char → Option (Nat × List Char)
  | a :: b :: c :: d :: cs => do
    let a ← Text.hexValue? a
    let b ← Text.hexValue? b
    let c ← Text.hexValue? c
    let d ← Text.hexValue? d
    some (((a * 16 + b) * 16 + c) * 16 + d, cs)
  | _ => none

/-- The code point that a first code unit begins, with what follows it. A high surrogate takes the
low surrogate that is written right behind it, unless the text ends there; a surrogate alone becomes
the replacement character. -/
def joinSurrogates (unit : Nat) (cs : List Char) : Nat × List Char :=
  if 0xD800 ≤ unit && unit < 0xDC00 then
    match cs with
    | '\\' :: 'u' :: more =>
      match fourDigits more with
      | some (low, rest) =>
        if 0xDC00 ≤ low && low < 0xE000 && !rest.isEmpty then
          (0x10000 + (unit - 0xD800) * 0x400 + (low - 0xDC00), rest)
        else (0xFFFD, cs)
      | none => (0xFFFD, cs)
    | _ => (0xFFFD, cs)
  else if 0xDC00 ≤ unit && unit < 0xE000 then (0xFFFD, cs)
  else (unit, cs)

def escaped? : Char → Option Char
  | '"' => some '"'
  | '\\' => some '\\'
  | '/' => some '/'
  | 'b' => some '\x08'
  | 'f' => some '\x0c'
  | 'n' => some '\n'
  | 'r' => some '\r'
  | 't' => some '\t'
  | _ => none

/-- The character that an escape stands for, from the characters behind its backslash. The four
digits of a code unit may not be the last characters of the text. -/
def readEscape (opening : List Char) : List Char → Except Stop (Char × List Char)
  | [] => .error (.cause .unterminated opening.length)
  | 'u' :: cs =>
    match fourDigits cs with
    | some (unit, rest) =>
      if rest.isEmpty then .error (.cause .codeUnit (cs.length + 1))
      else
        let (code, rest) := joinSurrogates unit rest
        .ok (Char.ofNat code, rest)
    | none => .error (.cause .codeUnit (cs.length + 1))
  | c :: cs =>
    match escaped? c with
    | some character => .ok (character, cs)
    | none => .error (.cause .escape (cs.length + 2))

theorem length_fourDigits_le {cs rest : List Char} {n : Nat}
    (read : fourDigits cs = some (n, rest)) : rest.length ≤ cs.length := by
  unfold fourDigits at read
  split at read
  · simp only [Option.bind_eq_bind, Option.bind_eq_some_iff, Option.some.injEq,
      Prod.mk.injEq] at read
    obtain ⟨_, _, _, _, _, _, _, _, _, rfl⟩ := read
    simp only [List.length_cons]
    omega
  · simp at read

theorem length_joinSurrogates_le (unit : Nat) (cs : List Char) :
    (joinSurrogates unit cs).2.length ≤ cs.length := by
  unfold joinSurrogates
  split
  · split
    · split
      · next found =>
        have shorter := length_fourDigits_le found
        split
        · simp only [List.length_cons]
          omega
        · simp
      · simp
    · simp
  · split <;> simp

theorem length_readEscape_le {opening : List Char} {cs rest : List Char} {c : Char}
    (read : readEscape opening cs = .ok (c, rest)) : rest.length ≤ cs.length := by
  unfold readEscape at read
  split at read
  · simp at read
  · next more =>
    split at read
    · next found =>
      have shorter := length_fourDigits_le found
      split at read
      · simp at read
      · simp only [Except.ok.injEq, Prod.mk.injEq] at read
        have joined := length_joinSurrogates_le ‹Nat› ‹List Char›
        rw [read.2] at joined
        simp only [List.length_cons]
        omega
    · simp at read
  · split at read
    · simp only [Except.ok.injEq, Prod.mk.injEq] at read
      simp [read.2]
    · simp at read

/-- The rest of a text value behind its opening quote, where `opening` is the text from that quote
on. -/
def readText (opening : List Char) (cs : List Char) : Except Stop (List Char × List Char) :=
  match cs with
  | [] => .error (.cause .unterminated opening.length)
  | c :: rest =>
    if c = '"' then .ok ([], rest)
    else if c = '\\' then
      match _read : readEscape opening rest with
      | .error stop => .error stop
      | .ok (character, after) =>
        (readText opening after).map fun (content, after) => (character :: content, after)
    else if c.toNat < 0x20 then .error (.cause .control (rest.length + 1))
    else (readText opening rest).map fun (content, after) => (c :: content, after)
termination_by cs.length
decreasing_by
  · have shorter := length_readEscape_le _read
    simp only [List.length_cons]
    omega
  · simp

theorem length_readText_lt {opening : List Char} {cs content rest : List Char}
    (read : readText opening cs = .ok (content, rest)) : rest.length < cs.length := by
  fun_induction readText opening cs generalizing content rest with
  | case1 => simp at read
  | case2 more =>
    simp only [Except.ok.injEq, Prod.mk.injEq] at read
    simp [read.2]
  | case3 => simp at read
  | case4 more character after found _ ih =>
    have shorter := length_readEscape_le found
    match inner : readText opening after with
    | .error _ => simp [inner, Except.map] at read
    | .ok (text, left) =>
      simp only [inner, Except.map, Except.ok.injEq, Prod.mk.injEq] at read
      have shorter' := ih inner
      simp only [← read.2, List.length_cons]
      omega
  | case5 => simp at read
  | case6 c more _ _ _ ih =>
    match inner : readText opening more with
    | .error _ => simp [inner, Except.map] at read
    | .ok (text, left) =>
      simp only [inner, Except.map, Except.ok.injEq, Prod.mk.injEq] at read
      have shorter' := ih inner
      simp only [← read.2, List.length_cons]
      omega

end TagQuery.Json
