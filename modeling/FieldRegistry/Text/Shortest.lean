import FieldRegistry.Text.Pieces
import FieldRegistry.Text.Decimal

/-!
The shortest decimal that reads back as a given double, found in exact arithmetic, and its text.
-/

namespace FieldRegistry.Text

/-- A positive double as `mantissa * 2 ^ exponent`. -/
structure Binary where
  mantissa : Nat
  exponent : Int

/-- Splits the magnitude of a finite double. -/
def Binary.ofFloat (x : Float) : Binary :=
  let bits : Nat := x.toBits.toNat
  let fraction := bits % Nat.pow 2 52
  let biased : Nat := bits / Nat.pow 2 52 % Nat.pow 2 11
  if biased == 0 then ⟨fraction, -1074⟩ else ⟨Nat.pow 2 52 + fraction, (biased : Int) - 1075⟩

/-- The reals that round to a double, as multiples of `1 / scale`: the double itself is `value`, the
ends belong to it when `closed` holds. -/
structure Rounding where
  scale : Nat
  value : Nat
  low : Nat
  high : Nat
  closed : Bool

def Binary.rounding (b : Binary) : Rounding :=
  let up := Nat.pow 2 b.exponent.toNat
  let below := if b.mantissa == Nat.pow 2 52 && b.exponent > -1074 then 1 else 2
  { scale := 4 * Nat.pow 2 (-b.exponent).toNat
    value := 4 * b.mantissa * up
    low := (4 * b.mantissa - below) * up
    high := (4 * b.mantissa + 2) * up
    closed := b.mantissa % 2 == 0 }

/-- The number `digits * 10 ^ exponent`. -/
structure DecimalFloat where
  digits : Nat
  exponent : Int

/-- The decimal as a multiple of `1 / scale`, over the denominator in the second place. -/
def DecimalFloat.scaled (d : DecimalFloat) (scale : Nat) : Nat × Nat :=
  (d.digits * Nat.pow 10 d.exponent.toNat * scale, Nat.pow 10 (-d.exponent).toNat)

def Rounding.contains (r : Rounding) (d : DecimalFloat) : Bool :=
  let (n, q) := d.scaled r.scale
  if r.closed then r.low * q ≤ n && n ≤ r.high * q else r.low * q < n && n < r.high * q

/-- The exponent of the leading digit of `value / scale`, searched upward from `start`. -/
def leadingExponent (value scale : Nat) : Nat → Int → Int
  | 0, e => e
  | fuel + 1, e =>
    if value * Nat.pow 10 (-(e + 1)).toNat < Nat.pow 10 (e + 1).toNat * scale then e
    else leadingExponent value scale fuel (e + 1)

/-- Of the two decimals with `exponent` around the value, the one that reads back; the nearer of two,
and the even one when both are equally near. -/
def Rounding.nearest? (r : Rounding) (exponent : Int) : Option DecimalFloat :=
  let num := r.value * Nat.pow 10 (-exponent).toNat
  let den := r.scale * Nat.pow 10 exponent.toNat
  let floor : DecimalFloat := ⟨num / den, exponent⟩
  let ceil : DecimalFloat := ⟨num / den + 1, exponent⟩
  let rest := num % den
  let floorFirst := 2 * rest < den || (2 * rest == den && floor.digits % 2 == 0)
  match r.contains floor && floor.digits != 0, r.contains ceil with
  | true, true => some (if floorFirst then floor else ceil)
  | true, false => some floor
  | false, true => some ceil
  | false, false => none

/-- The first decimal that reads back, with as few digits as possible. A value just below a power of
ten may round up to it. -/
def Rounding.shortest (r : Rounding) (lead : Int) : Nat → Nat → DecimalFloat
  | 0, _ => ⟨0, 0⟩
  | fuel + 1, places =>
    match r.nearest? (lead - places) with
    | some d => if d.digits == Nat.pow 10 (places + 1) then ⟨1, lead + 1⟩ else d
    | none => r.shortest lead fuel (places + 1)

/-- The shortest decimal for the magnitude of a finite double other than zero. -/
def shortestDecimal (x : Float) : DecimalFloat :=
  let r := (Binary.ofFloat x).rounding
  r.shortest (leadingExponent r.value r.scale 700 (-330)) 18 0

/-- How decimals are written: plain up to sixteen places before the point and five after it, with a
point in every plain numeral; a signed power of ten follows an `e` otherwise. -/
def DecimalFloat.text (d : DecimalFloat) : String :=
  let digits := decimal d.digits
  let point := (digits.length : Int) + d.exponent
  if 0 ≤ d.exponent && point ≤ 16 then digits ++ repeated d.exponent.toNat '0' ++ ".0"
  else if 0 < point && point ≤ 16 then
    String.ofList (digits.toList.take point.toNat) ++ "." ++
      String.ofList (digits.toList.drop point.toNat)
  else if -5 < point && point ≤ 0 then "0." ++ repeated (-point).toNat '0' ++ digits
  else
    let power := point - 1
    let mark := "e" ++ (if power < 0 then "-" else "+") ++ decimal power.natAbs
    match digits.toList with
    | [c] => String.ofList [c] ++ mark
    | c :: cs => String.ofList (c :: '.' :: cs) ++ mark
    | [] => mark

/-- The text of a finite double. -/
def floatText (x : Float) : String :=
  let sign := if x.toBits.toNat / Nat.pow 2 63 == 1 then "-" else ""
  if x == 0.0 then sign ++ "0.0" else sign ++ (shortestDecimal x).text

end FieldRegistry.Text
