/-!
# Shortest decimal text of a binary fraction

A double is `m * 2 ^ q` and stands for the interval of reals that round to it.
The text takes the coarsest decimal grid with a point in that interval, and of
two such points the nearer. All comparisons are exact.
-/

namespace SearchRelay.Decimal

abbrev power (base exponent : Nat) : Nat := Nat.pow base exponent

/-- A positive double: the significand, the exponent, and whether the gap below it is half as wide. -/
structure Binary where
  m : Nat
  q : Int
  narrowBelow : Bool
deriving DecidableEq, Repr

/-- The parts of a finite double other than zero, from its bits without the sign. -/
def Binary.ofBits (bits : Nat) : Binary :=
  let fraction := bits % 4503599627370496
  let exponent : Nat := bits / 4503599627370496
  if exponent = 0 then ⟨fraction, -1074, false⟩
  else ⟨4503599627370496 + fraction, (exponent : Int) - 1075, fraction == 0 && exponent != 1⟩

/-- The interval of a double over a common denominator: low end, value, high end, denominator. -/
def Binary.interval (b : Binary) : Nat × Nat × Nat × Nat :=
  let up := power 2 (b.q - 2).toNat
  let down := power 2 (2 - b.q).toNat
  ((4 * b.m - if b.narrowBelow then 1 else 2) * up, 4 * b.m * up, (4 * b.m + 2) * up, down)

/-- The nearest point of the grid of multiples of `10 ^ e` inside the interval, an even one on a tie. -/
def Binary.gridPoint? (b : Binary) (e : Int) : Option Nat :=
  let (low, value, high, den) := b.interval
  let up := power 10 e.toNat
  let down := power 10 (-e).toNat
  let unit := den * up
  let value := value * down
  let inside (d : Nat) : Bool :=
    if b.m % 2 = 0 then low * down ≤ d * unit && d * unit ≤ high * down
    else low * down < d * unit && d * unit < high * down
  let d := value / unit
  match inside d, inside (d + 1) with
  | true, false => some d
  | false, true => some (d + 1)
  | false, false => none
  | true, true =>
    let below := value - d * unit
    let above := (d + 1) * unit - value
    some (if below < above then d else if above < below then d + 1 else if d % 2 = 0 then d else d + 1)

/-- The number of digits before the point of `n / d`, counted down from the number `k` to try. -/
def digitsBelow (n d : Nat) : Nat → Int
  | 0 => 0
  | k + 1 => if d * power 10 k ≤ n then k + 1 else digitsBelow n d k

/-- The least `k ≤ limit` for which `n * 10 ^ k` reaches `d`. -/
def zerosAfterPoint (n d limit : Nat) : Nat → Nat
  | 0 => limit
  | k + 1 => if d ≤ n * power 10 (limit - (k + 1)) then limit - (k + 1) else zerosAfterPoint n d limit k

def Binary.magnitude (b : Binary) : Int :=
  let (_, value, _, den) := b.interval
  if den ≤ value then digitsBelow value den 310 else 1 - (zerosAfterPoint value den 330 330 : Int)

/-- The digits of the coarsest grid with a point in the interval, and the grid's exponent. -/
def Binary.shortestFrom (b : Binary) (magnitude : Int) (digits : Nat) : Nat → Nat × Int
  | 0 => ((b.gridPoint? (magnitude - digits)).getD 0, magnitude - digits)
  | more + 1 =>
    match b.gridPoint? (magnitude - digits) with
    | some d => (d, magnitude - digits)
    | none => b.shortestFrom magnitude (digits + 1) more

def Binary.shortest (b : Binary) : Nat × Int := b.shortestFrom b.magnitude 1 16

/-- How a decimal is laid out: the exponents of the first digit that are written positionally. -/
structure Layout where
  least : Int
  most : Int
deriving DecidableEq, Repr

def trimZeros (digits : List Char) : List Char := (digits.reverse.dropWhile (· == '0')).reverse

/-- `d * 10 ^ e` in a layout: positional with at least one place after the point, else one digit
before the point and a signed exponent. -/
def Layout.write (layout : Layout) (d : Nat) (e : Int) : String :=
  let digits := Nat.toDigits 10 d
  let first := e + digits.length - 1
  let digits := trimZeros digits
  if layout.least ≤ first && first ≤ layout.most then
    if first < 0 then String.ofList ('0' :: '.' :: List.replicate (-first - 1).toNat '0' ++ digits)
    else
      let whole := (first + 1).toNat
      let front := digits.take whole ++ List.replicate (whole - digits.length) '0'
      let back := digits.drop whole
      String.ofList (front ++ '.' :: if back.isEmpty then ['0'] else back)
  else
    let back := digits.drop 1
    let mantissa := String.ofList (digits.take 1 ++ if back.isEmpty then [] else '.' :: back)
    let sign := if first < 0 then "-" else "+"
    s!"{mantissa}e{sign}{first.natAbs}"

def Layout.ofFloat (layout : Layout) (x : Float) : String :=
  let bits := x.toBits.toNat
  let sign := if 9223372036854775808 ≤ bits then "-" else ""
  let bits := bits % 9223372036854775808
  if bits = 0 then s!"{sign}0.0"
  else
    let (d, e) := (Binary.ofBits bits).shortest
    s!"{sign}{layout.write d e}"

end SearchRelay.Decimal
