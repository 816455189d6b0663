import TagQuery.Decimal.Shortest

namespace TagQuery.Decimal

structure Form where
  infinity : String
  undefined : String

def zeros (count : Nat) : String := String.ofList (List.replicate count '0')

def pointAfter (count : Nat) (digits : String) : String :=
  String.ofList (digits.toList.take count) ++ "." ++ String.ofList (digits.toList.drop count)

def exponentText (exponent : Int) : String :=
  let digits := toString exponent.natAbs
  "e" ++ (if exponent < 0 then "-" else "+") ++ zeros (2 - digits.length) ++ digits

def Scaled.text (d : Scaled) : String :=
  let digits := toString d.digits
  let lead : Int := d.scale + digits.length - 1
  if -4 ≤ lead ∧ lead < 16 then
    if 0 ≤ d.scale then digits ++ zeros d.scale.toNat ++ ".0"
    else if 0 ≤ lead then pointAfter (lead.toNat + 1) digits
    else "0." ++ zeros (-lead - 1).toNat ++ digits
  else
    (if digits.length = 1 then digits else pointAfter 1 digits) ++ exponentText lead

def Form.text (form : Form) (x : Float) : String :=
  let bits := x.toBits.toNat
  let sign := if bits / Nat.pow 2 63 = 1 then "-" else ""
  let rest := bits % Nat.pow 2 63
  if rest > 0x7FF0000000000000 then form.undefined
  else if rest = 0x7FF0000000000000 then sign ++ form.infinity
  else if rest = 0 then sign ++ "0.0"
  else sign ++ (Magnitude.ofBits rest).shortest.text

def messageForm : Form := ⟨"inf", "nan"⟩

def reportForm : Form := ⟨"Infinity", "NaN"⟩

end TagQuery.Decimal
