import LinkedDocs.Number.Double

/-!
The text of a number: the fewest decimal digits that read back as the same number, the nearest of
those, written positionally for moderate exponents.
-/

namespace LinkedDocs.Double

/-- The decimal `digits * 10 ^ exponent`. -/
structure Decimal where
  digits : Nat
  exponent : Int
deriving DecidableEq, Repr

/-- The weight, in units, of the last of the 53 significant bits. -/
def lastBit (units : Nat) : Nat :=
  Nat.pow 2 (units.log2 - 52)

/-- Half the distance down to the next number, in quarters of a unit. The numbers below a power of
two are twice as dense as those above it. -/
def lowerGap (units : Nat) : Nat :=
  if units = Nat.pow 2 52 * lastBit units ∧ 1 < lastBit units then lastBit units
  else 2 * lastBit units

/-- Whether `quarters / scale` quarters of a unit read back as `units`. The halfway points belong to
the number whose last bit is even. -/
def readsBack (units quarters scale : Nat) : Bool :=
  let low := (4 * units - lowerGap units) * scale
  let high := (4 * units + 2 * lastBit units) * scale
  if units / lastBit units % 2 = 0 then
    low ≤ quarters && quarters ≤ high
  else
    low < quarters && quarters < high

/-- The value on the grid `10 ^ exponent` that is nearest to `units` and reads back, if there is
one. Only the two neighbours of `units` on the grid have to be tried. -/
def nearestOn? (units : Nat) (exponent : Int) : Option Decimal :=
  let step := if exponent < 0 then 1 else Nat.pow 10 exponent.natAbs
  let scale := if exponent < 0 then Nat.pow 10 exponent.natAbs else 1
  let below := units * scale / (unitScale * step)
  let quarters (digits : Nat) : Nat := 4 * digits * unitScale * step
  let exact := 4 * units * scale
  let hits (digits : Nat) : Bool := 0 < digits && readsBack units (quarters digits) scale
  match hits below, hits (below + 1) with
  | false, false => none
  | true, false => some ⟨below, exponent⟩
  | false, true => some ⟨below + 1, exponent⟩
  | true, true =>
    let down := exact - quarters below
    let up := quarters (below + 1) - exact
    let lower := if down = up then below % 2 = 0 else down < up
    some ⟨if lower then below else below + 1, exponent⟩

/-- Tries ever finer grids until one holds a value that reads back. -/
def shortestFrom (units : Nat) (exponent : Int) : Nat → Decimal
  | 0 => ⟨0, 0⟩
  | tries + 1 =>
    match nearestOn? units exponent with
    | some decimal => decimal
    | none => shortestFrom units (exponent - 1) tries

/-- A power of ten above the number, at most two places above its first digit. -/
def startExponent (units : Nat) : Int :=
  ((units.log2 : Int) - 1073) * 30103 / 100000 + 1

/-- The fewest digits that read back. -/
def shortest (units : Nat) : Decimal :=
  if units = 0 then ⟨0, 0⟩ else shortestFrom units (startExponent units) 20

/-- The places of the decimal point, counted from the first digit, for which a number is written
positionally. -/
structure PositionalRange where
  least : Int
  greatest : Int

/-- Numbers from `0.00001` up to sixteen whole digits are written positionally. -/
def positional : PositionalRange := ⟨-4, 16⟩

def zeros (count : Int) : List Char :=
  List.replicate count.toNat '0'

/-- The text of a positive decimal. A positional text always has a digit after the point; an
exponent always has a sign. -/
def Decimal.toChars (decimal : Decimal) : List Char :=
  let digits := Nat.toDigits 10 decimal.digits
  let point := (digits.length : Int) + decimal.exponent
  if positional.least ≤ point ∧ point ≤ positional.greatest then
    if point ≤ 0 then
      '0' :: '.' :: zeros (-point) ++ digits
    else
      let whole := digits.take point.toNat ++ zeros (point - digits.length)
      let fraction := digits.drop point.toNat
      whole ++ '.' :: (if fraction.isEmpty then ['0'] else fraction)
  else
    let fraction := digits.drop 1
    let exponent := point - 1
    digits.take 1 ++ (if fraction.isEmpty then [] else '.' :: fraction) ++
      'e' :: (if exponent < 0 then '-' else '+') :: Nat.toDigits 10 exponent.natAbs

def toChars (number : Double) : List Char :=
  let magnitude :=
    if number.units = 0 then ['0', '.', '0'] else (shortest number.units).toChars
  if number.negative then '-' :: magnitude else magnitude

def toText (number : Double) : String :=
  String.ofList number.toChars

end LinkedDocs.Double
