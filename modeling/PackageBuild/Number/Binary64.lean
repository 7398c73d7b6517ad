/-!
# Binary floating point with 53 significant bits

Numbers of documents and seconds of durations are held as the nearest value `m * 2 ^ e` with
`m < 2 ^ 53`, and shown by the fewest decimal digits that are nearer to it than to any other such
value. All arithmetic is on natural numbers, so rounding is an ordinary definition.
-/

namespace PackageBuild

/-- A non-negative dyadic number `mantissa * 2 ^ exponent`. -/
structure Dyadic where
  /-- The significant bits. -/
  mantissa : Nat
  /-- The power of two they are scaled by. -/
  exponent : Int
deriving DecidableEq, Repr

namespace Dyadic

/-- A mantissa is below this power of two. -/
def mantissaBound : Nat := Nat.pow 2 53

/-- The least exponent a 53-bit mantissa is scaled by. -/
def leastExponent : Int := -1074

/-- Numerator and denominator of a dyadic number. -/
def ratio (x : Dyadic) : Nat × Nat :=
  (x.mantissa * Nat.pow 2 x.exponent.toNat, Nat.pow 2 (-x.exponent).toNat)

/-- The integer nearest to `num / den`; a half goes to the even neighbour. -/
def nearestEven (num den : Nat) : Nat :=
  let q := num / den
  let r := num % den
  if 2 * r > den || (2 * r == den && q % 2 == 1) then q + 1 else q

/-- The value with at most 53 significant bits that is nearest to `num / den`. -/
def round (num den : Nat) : Dyadic :=
  let scale : Int := (num.log2 : Int) - den.log2 - 53
  let at_ (e : Int) : Nat :=
    nearestEven (num * Nat.pow 2 (-e).toNat) (den * Nat.pow 2 e.toNat)
  let first := max scale leastExponent
  let e := if at_ first < mantissaBound then first else first + 1
  let m := at_ e
  if m = mantissaBound then ⟨mantissaBound / 2, e + 1⟩ else ⟨m, e⟩

/-- The sum of two values, rounded once. -/
def add (x y : Dyadic) : Dyadic :=
  let (a, b) := x.ratio
  let (c, d) := y.ratio
  round (a * d + c * b) (b * d)

/-- Whether `num / den` rounds to `x`: it lies between the midpoints to both neighbours, which
belong to `x` exactly when its mantissa is even. -/
def roundsTo (x : Dyadic) (num den : Nat) : Bool :=
  let (a, b) := x.ratio
  let half : Nat × Nat := ratio ⟨1, x.exponent - 1⟩
  let below : Nat × Nat :=
    if x.mantissa = mantissaBound / 2 ∧ leastExponent < x.exponent then ratio ⟨1, x.exponent - 2⟩
    else half
  let even := x.mantissa % 2 == 0
  let low := a * below.2 - below.1 * b
  let lowDen := b * below.2
  let high := a * half.2 + half.1 * b
  let highDen := b * half.2
  let aboveLow := if even then low * den ≤ num * lowDen else low * den < num * lowDen
  let underHigh := if even then num * highDen ≤ high * den else num * highDen < high * den
  aboveLow && underHigh

/-- The decimal `digits * 10 ^ power` with the fewest digits that rounds to `x`, and of several
such the nearest; the search starts at `count` digits and `fuel` more may be tried. -/
def shortestFrom (x : Dyadic) (top : Int) (count : Nat) : Nat → Nat × Int
  | 0 => (0, 0)
  | fuel + 1 =>
    let (a, b) := x.ratio
    let power := top - count
    let num := a * Nat.pow 10 (-power).toNat
    let den := b * Nat.pow 10 power.toNat
    let floor := num / den
    let fits (d : Nat) : Bool :=
      x.roundsTo (d * Nat.pow 10 power.toNat) (Nat.pow 10 (-power).toNat)
    let nearest := nearestEven num den
    if fits nearest then (nearest, power)
    else if fits floor then (floor, power)
    else if fits (floor + 1) then (floor + 1, power)
    else shortestFrom x top (count + 1) fuel

/-- The number of decimal digits of the integer part, or minus the number of zeros after the
point: the least `k` in reach with `x < 10 ^ k`. -/
def decimalTop (x : Dyadic) : Int :=
  let (a, b) := x.ratio
  let guess : Int := ((a.log2 : Int) - b.log2) * 30103 / 100000
  let under (k : Int) : Bool := a * Nat.pow 10 (-k).toNat < b * Nat.pow 10 k.toNat
  if under (guess - 1) then guess - 1 else if under guess then guess
  else if under (guess + 1) then guess + 1 else guess + 2

/-- Decimal digits and a power of ten: the shortest decimal that rounds to `x`. A value just below
a power of ten is found as ten units of the place below it. -/
def shortest (x : Dyadic) : Nat × Int :=
  if x.mantissa = 0 then (0, 0)
  else
    match x.shortestFrom x.decimalTop 1 18 with
    | (10, power) => (1, power + 1)
    | found => found

/-- Positional text of `digits * 10 ^ power`, always with a decimal point. -/
def positional (digits : Nat) (power : Int) : String :=
  let shown := (toString digits).toList
  if 0 ≤ power then String.ofList (shown ++ List.replicate power.toNat '0') ++ ".0"
  else
    let places := (-power).toNat
    let padded := List.replicate (places + 1 - shown.length) '0' ++ shown
    let whole := padded.take (padded.length - places)
    String.ofList (whole ++ '.' :: padded.drop (padded.length - places))

/-- The value with exactly `places` decimals; of two equally near the even last digit is kept. -/
def fixed (x : Dyadic) (places : Nat) : String :=
  let (a, b) := x.ratio
  positional (nearestEven (a * Nat.pow 10 places) b) (-(places : Int))

end Dyadic

/-- A number of a document that is not written as an integer. -/
inductive Binary64 where
  | nan
  /-- A value beyond every finite one. -/
  | infinite (negative : Bool)
  | finite (negative : Bool) (magnitude : Dyadic)
deriving DecidableEq, Repr

namespace Binary64

/-- The value nearest to `±digits * 10 ^ power`; from `2 ^ 1024` on it is infinite. -/
def ofDecimal (negative : Bool) (digits : Nat) (power : Int) : Binary64 :=
  let places : Int := (Nat.toDigits 10 digits).length
  if digits = 0 ∨ power + places < -330 then .finite negative ⟨0, Dyadic.leastExponent⟩
  else if 320 < power + places then .infinite negative
  else
    let x := Dyadic.round (digits * Nat.pow 10 power.toNat) (Nat.pow 10 (-power).toNat)
    if x.exponent > 971 then .infinite negative else .finite negative x

/-- The value as text: shortest digits in positional form, with a decimal point. -/
def display : Binary64 → String
  | .nan => "NaN"
  | .infinite negative => if negative then "-inf" else "inf"
  | .finite negative x =>
    let (digits, power) := x.shortest
    let text := Dyadic.positional digits power
    if negative then "-" ++ text else text

end Binary64
end PackageBuild
