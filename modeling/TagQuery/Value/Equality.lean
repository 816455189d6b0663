import TagQuery.Decimal.Shortest
import TagQuery.Value.Basic

namespace TagQuery

/-- A number in a form that is unique: whole, or an odd multiple of a negative power of two. -/
inductive Quantity where
  | whole (n : Int)
  /-- `odd / 2 ^ halvings` with a positive number of halvings. -/
  | fraction (odd : Int) (halvings : Nat)
  | infinite (negative : Bool)
  | undefined
deriving DecidableEq, Repr

def Quantity.ofHalvings (n : Int) : Nat → Quantity
  | 0 => .whole n
  | halvings + 1 => if n % 2 = 0 then ofHalvings (n / 2) halvings else .fraction n (halvings + 1)

def Quantity.ofFloat (x : Float) : Quantity :=
  let bits := x.toBits.toNat
  let negative := bits / Nat.pow 2 63 = 1
  let rest := bits % Nat.pow 2 63
  if rest > 0x7FF0000000000000 then .undefined
  else if rest = 0x7FF0000000000000 then .infinite negative
  else
    let magnitude := Decimal.Magnitude.ofBits rest
    let n : Int := magnitude.significand * Nat.pow 2 magnitude.exponent.toNat
    ofHalvings (if negative then -n else n) (-magnitude.exponent).toNat

namespace Value

def quantity? : Value → Option Quantity
  | .bool b => some (.whole (if b then 1 else 0))
  | .int n => some (.whole n)
  | .float x => some (.ofFloat x)
  | _ => none

def sameQuantity (a b : Value) : Bool :=
  match a.quantity?, b.quantity? with
  | some p, some q => p == q && p != .undefined
  | _, _ => false

mutual

def same : Value → Value → Bool
  | .null, .null => true
  | .text s, .text t => s == t
  | .list items, .list others => sameItems items others
  | .object fields, .object others => fields.length == others.length && sameFields fields others
  | a, b => sameQuantity a b

def sameItems : List Value → List Value → Bool
  | [], [] => true
  | item :: items, other :: others => same item other && sameItems items others
  | _, _ => false

def sameFields : List (String × Value) → List (String × Value) → Bool
  | [], _ => true
  | (name, value) :: fields, others =>
    (match others.lookup name with
      | some other => same value other
      | none => false) && sameFields fields others

end

def isIn (value : Value) (items : List Value) : Bool := items.any fun item => value.same item

def isHashable : Value → Bool
  | .list _ => false
  | .object _ => false
  | _ => true

def hashable : List Value → Except Fault Unit
  | [] => .ok ()
  | value :: values => if value.isHashable then hashable values else .error (.unhashable value.kind)

end Value

end TagQuery
