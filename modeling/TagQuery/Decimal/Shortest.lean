/-!
# The shortest decimal of a binary number

A finite binary64 magnitude `m · 2^q` stands for an interval of reals: all that round to it, to
nearest with ties to even. `Magnitude.shortest` selects the decimal with the fewest digits in that
interval, and of those the nearest to the magnitude. All comparisons are exact, in natural numbers.
-/

namespace TagQuery.Decimal

/-- The finite magnitude `significand · 2^exponent`. -/
structure Magnitude where
  significand : Nat
  exponent : Int
  /-- The next magnitude below is half as far away as the next above. -/
  narrowBelow : Bool
deriving DecidableEq, Repr

/-- The decimal `digits · 10^scale`. -/
structure Scaled where
  digits : Nat
  scale : Int
deriving DecidableEq, Repr

def Magnitude.ofBits (bits : Nat) : Magnitude :=
  let field : Nat := bits / Nat.pow 2 52
  let fraction : Nat := bits % Nat.pow 2 52
  if field = 0 then ⟨fraction, -1074, false⟩
  else ⟨Nat.pow 2 52 + fraction, (field : Int) - 1075, fraction = 0 && field > 1⟩

/-- Compares `a · 10^i` with `b · 2^j`. -/
def compareScaled (a : Nat) (i : Int) (b : Nat) (j : Int) : Ordering :=
  compare (a * Nat.pow 10 i.toNat * Nat.pow 2 (-j).toNat)
    (b * Nat.pow 2 j.toNat * Nat.pow 10 (-i).toNat)

/-- Whether the decimal is one of the reals that round to the magnitude. The ends of the interval
lie halfway to the neighbours and belong to it exactly when the significand is even. -/
def Magnitude.admits (x : Magnitude) (d : Scaled) : Bool :=
  let low := if x.narrowBelow then 4 * x.significand - 1 else 4 * x.significand - 2
  let high := 4 * x.significand + 2
  let closed := x.significand % 2 == 0
  let fromLow := compareScaled d.digits d.scale low (x.exponent - 2)
  let fromHigh := compareScaled d.digits d.scale high (x.exponent - 2)
  (fromLow == .gt || closed && fromLow == .eq) && (fromHigh == .lt || closed && fromHigh == .eq)

/-- The least power of ten above a positive magnitude. The binary length gives a lower bound that
is at most three too small. -/
def Magnitude.tenPower (x : Magnitude) : Int :=
  let bound := ((x.significand.log2 : Int) + x.exponent) * 30103 / 100000
  let above := fun k => compareScaled 1 k x.significand x.exponent == .gt
  ((List.range 4).map fun (step : Nat) => bound + (step : Int)).find? above |>.getD (bound + 4)

def Magnitude.inUnits (x : Magnitude) (scale : Int) : Nat × Nat :=
  (x.significand * Nat.pow 2 x.exponent.toNat * Nat.pow 10 (-scale).toNat,
    Nat.pow 2 (-x.exponent).toNat * Nat.pow 10 scale.toNat)

/-- Of the two multiples of `10^scale` around the magnitude the nearer one that rounds to it; a tie
goes to the even digit. -/
def Magnitude.onGrid (x : Magnitude) (scale : Int) : Option Scaled :=
  let (num, den) := x.inUnits scale
  let lower : Scaled := ⟨num / den, scale⟩
  let upper : Scaled := ⟨num / den + 1, scale⟩
  match x.admits lower, x.admits upper with
  | true, true =>
    match compare (2 * num) ((2 * lower.digits + 1) * den) with
    | .lt => some lower
    | .gt => some upper
    | .eq => some (if lower.digits % 2 == 0 then lower else upper)
  | true, false => some lower
  | false, true => some upper
  | false, false => none

def Scaled.strip : Nat → Scaled → Scaled
  | 0, d => d
  | limit + 1, d =>
    if d.digits % 10 = 0 then strip limit ⟨d.digits / 10, d.scale + 1⟩ else d

/-- The decimal with the fewest digits that rounds to a positive magnitude, the nearest if there
are several. Seventeen digits suffice for binary64; the exact value would stand in otherwise. -/
def Magnitude.shortest (x : Magnitude) : Scaled :=
  let top := x.tenPower
  let exact : Scaled :=
    ⟨x.significand * Nat.pow 2 x.exponent.toNat * Nat.pow 5 (-x.exponent).toNat, min x.exponent 0⟩
  let found := (List.range 17).findSome? fun (n : Nat) => x.onGrid (top - ((n : Int) + 1))
  (found.getD exact).strip 20

end TagQuery.Decimal
