import TagQuery.Value.Equality

/-!
# Digests

Members of sets are found by their digests. Equal values have equal digests: a number of any kind
has the residue of its quantity modulo the prime `2^61 - 1`. The residue `-1` is reserved and
stands aside to `-2`; the empty text has the digest of zero.
-/

namespace TagQuery

inductive Digest where
  | absent
  | residue (n : Int)
  | text (s : String)
deriving DecidableEq, Repr

namespace Digest

def modulus : Nat := Nat.pow 2 61 - 1

def ofHalvings (n : Int) (halvings : Nat) : Digest :=
  let half := Nat.pow 2 ((61 - halvings % 61) % 61)
  let size : Int := ((n.natAbs % modulus * half % modulus : Nat) : Int)
  let signed := if n < 0 then -size else size
  .residue (if signed = -1 then -2 else signed)

def ofQuantity : Quantity → Digest
  | .whole n => ofHalvings n 0
  | .fraction odd halvings => ofHalvings odd halvings
  | .infinite negative => .residue (if negative then -314159 else 314159)
  | .undefined => .residue 0

def ofText (s : String) : Digest := if s.isEmpty then .residue 0 else .text s

def ofValue (value : Value) : Digest :=
  match value with
  | .text s => ofText s
  | _ => (value.quantity?.map ofQuantity).getD .absent

end Digest

end TagQuery
