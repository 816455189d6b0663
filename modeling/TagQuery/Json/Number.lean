import TagQuery.Json.Fault
import TagQuery.Text.Space
import TagQuery.Value.Basic

namespace TagQuery.Json

structure Numeral where
  whole : List Char
  fraction : List Char
  exponent : Option Int

def digitsValue (digits : List Char) : Nat :=
  digits.foldl (fun n c => n * 10 + (c.toNat - '0'.toNat)) 0

/-! ## Reading -/

def wholePart : List Char → Option (List Char × List Char)
  | [] => none
  | c :: cs =>
    if c = '0' then some (['0'], cs)
    else if c.isDigit then some (c :: cs.takeWhile Char.isDigit, cs.dropWhile Char.isDigit)
    else none

def fractionPart : List Char → List Char × List Char
  | [] => ([], [])
  | c :: cs =>
    if c = '.' && !(cs.takeWhile Char.isDigit).isEmpty then
      (cs.takeWhile Char.isDigit, cs.dropWhile Char.isDigit)
    else ([], c :: cs)

def takeSign : List Char → Bool × List Char
  | '-' :: cs => (true, cs)
  | '+' :: cs => (false, cs)
  | cs => (false, cs)

def exponentPart : List Char → Option Int × List Char
  | [] => (none, [])
  | c :: cs =>
    let (negative, rest) := takeSign cs
    if (c = 'e' || c = 'E') && !(rest.takeWhile Char.isDigit).isEmpty then
      let power : Int := digitsValue (rest.takeWhile Char.isDigit)
      (some (if negative then -power else power), rest.dropWhile Char.isDigit)
    else (none, c :: cs)

def readNumeral (cs : List Char) : Option (Numeral × List Char) :=
  (wholePart cs).map fun (whole, cs) =>
    let (fraction, cs) := fractionPart cs
    let (exponent, cs) := exponentPart cs
    (⟨whole, fraction, exponent⟩, cs)

/-! ## Values -/

/-- The float nearest to `m · 10^e`. A number that is far out of range is zero or infinite. -/
def nearestFloat (m : Nat) (e : Int) : Float :=
  let size : Int := (toString m).length + e
  if m = 0 ∨ size < -400 then 0.0
  else if size > 400 then 1.0 / 0.0
  else Float.ofScientific m (e < 0) e.natAbs

def maxDigits : Nat := 4300

def Numeral.value (negative : Bool) (numeral : Numeral) : Except Stop Value :=
  if numeral.fraction.isEmpty && numeral.exponent.isNone then
    if numeral.whole.length > maxDigits then .error (.numeral numeral.whole.length)
    else
      let n : Int := digitsValue numeral.whole
      .ok (.int (if negative then -n else n))
  else
    let power := numeral.exponent.getD 0 - numeral.fraction.length
    let x := nearestFloat (digitsValue (numeral.whole ++ numeral.fraction)) power
    .ok (.float (if negative then -x else x))

def readNumber : List Char → Option (Except Stop Value × List Char)
  | '-' :: cs => (readNumeral cs).map fun (numeral, rest) => (numeral.value true, rest)
  | cs => (readNumeral cs).map fun (numeral, rest) => (numeral.value false, rest)

/-! ## Progress -/

theorem length_wholePart_lt {cs whole rest : List Char}
    (found : wholePart cs = some (whole, rest)) : rest.length < cs.length := by
  cases cs with
  | nil => simp [wholePart] at found
  | cons c cs =>
    have dropped := Text.length_dropWhile_le Char.isDigit cs
    simp only [wholePart] at found
    split at found
    · simp only [Option.some.injEq, Prod.mk.injEq] at found
      simp [found.2]
    · split at found
      · simp only [Option.some.injEq, Prod.mk.injEq] at found
        rw [← found.2, List.length_cons]
        omega
      · simp at found

theorem length_fractionPart_le (cs : List Char) : (fractionPart cs).2.length ≤ cs.length := by
  cases cs with
  | nil => simp [fractionPart]
  | cons c cs =>
    have dropped := Text.length_dropWhile_le Char.isDigit cs
    simp only [fractionPart, List.length_cons]
    split <;> simp only [List.length_cons] <;> omega

theorem length_takeSign_le (cs : List Char) : (takeSign cs).2.length ≤ cs.length := by
  unfold takeSign
  split <;> simp

theorem length_exponentPart_le (cs : List Char) : (exponentPart cs).2.length ≤ cs.length := by
  cases cs with
  | nil => simp [exponentPart]
  | cons c cs =>
    have signed := length_takeSign_le cs
    have dropped := Text.length_dropWhile_le Char.isDigit (takeSign cs).2
    simp only [exponentPart, List.length_cons]
    split <;> simp only [List.length_cons] <;> omega

theorem length_readNumeral_lt {cs rest : List Char} {numeral : Numeral}
    (found : readNumeral cs = some (numeral, rest)) : rest.length < cs.length := by
  simp only [readNumeral, Option.map_eq_some_iff, Prod.mk.injEq] at found
  obtain ⟨⟨whole, after⟩, inner, _, rfl⟩ := found
  have first := length_wholePart_lt inner
  have second := length_fractionPart_le after
  have third := length_exponentPart_le (fractionPart after).2
  exact Nat.lt_of_le_of_lt (Nat.le_trans third second) first

theorem length_readNumber_lt {cs rest : List Char} {value : Except Stop Value}
    (found : readNumber cs = some (value, rest)) : rest.length < cs.length := by
  unfold readNumber at found
  split at found
  all_goals
    simp only [Option.map_eq_some_iff, Prod.mk.injEq] at found
    obtain ⟨⟨numeral, after⟩, inner, _, rfl⟩ := found
    have shorter := length_readNumeral_lt inner
    simp only [List.length_cons] at *
    omega

end TagQuery.Json
