set_option autoImplicit false

/-! # The shortest decimal of a binary floating point value

A finite value `m · 2^q` stands for the interval of reals that round to it. The decimal written
for it is the point of the **coarsest grid of multiples of a power of ten that meets this
interval**, so no decimal with fewer digits reads back; of two points of that grid in the
interval the nearer one is taken, and of two equally near ones the even one.

All comparisons are exact, on natural numbers.
-/

namespace SchemaHeader.Decimal

/-- A finite non-negative 64-bit value, `mantissa · 2^exponent`. -/
structure Binary where
  mantissa : Nat
  exponent : Int
  /-- Whether the value below is only half as far away as the value above. -/
  narrowBelow : Bool
  deriving DecidableEq, Repr

/-- Reads the magnitude of a finite value from its bits. -/
def Binary.ofBits (bits : UInt64) : Binary :=
  let biased := ((bits >>> 52) &&& 0x7FF).toNat
  let fraction := (bits &&& 0xFFFFFFFFFFFFF).toNat
  if biased = 0 then ⟨fraction, -1074, false⟩
  else ⟨0x10000000000000 + fraction, (biased : Int) - 1075, fraction == 0 && decide (1 < biased)⟩

/-- A decimal `significand · 10^exponent`. -/
structure Scaled where
  significand : Nat
  exponent : Int
  deriving DecidableEq, Repr

/-- A value and the multiples of `10^j`, over one denominator: the value is
`mantissa · unit / step`, a multiple `c` of the grid is `c · step / step`. -/
structure Grid where
  unit : Nat
  step : Nat

/-- The grid of multiples of `10^j` for a value with binary exponent `q`. -/
def Grid.of (q j : Int) : Grid :=
  ⟨Nat.pow 2 q.toNat * Nat.pow 10 (-j).toNat, Nat.pow 2 (-q).toNat * Nat.pow 10 j.toNat⟩

/-- Whether the grid point `c` rounds to the value: it lies between the halfway points to the
two neighbours, and may be a halfway point itself if the mantissa is even. -/
def Binary.meets (x : Binary) (g : Grid) (c : Nat) : Bool :=
  let low := (4 * x.mantissa - (if x.narrowBelow then 1 else 2)) * g.unit
  let high := (4 * x.mantissa + 2) * g.unit
  let point := 4 * (c * g.step)
  if x.mantissa % 2 = 0 then decide (low ≤ point) && decide (point ≤ high)
  else decide (low < point) && decide (point < high)

/-- The point of one grid that is written for the value, if the grid meets its interval. Only
the two grid points next to the value need a test. -/
def Binary.onGrid (x : Binary) (g : Grid) : Option Nat :=
  let below := x.mantissa * g.unit / g.step
  let above := below + 1
  match x.meets g below, x.meets g above with
  | false, false => none
  | true, false => some below
  | false, true => some above
  | true, true =>
    match compare (2 * (x.mantissa * g.unit)) ((2 * below + 1) * g.step) with
    | .lt => some below
    | .gt => some above
    | .eq => some (if below % 2 = 0 then below else above)

/-- The exponent of a grid too coarse to meet the interval: the search starts there and needs
at most the seventeen digits that tell any two values apart. -/
def Binary.coarse (x : Binary) : Int :=
  (((Nat.log2 x.mantissa : Nat) : Int) + x.exponent) * 1233 / 4096 + 2

/-- The value itself, as a decimal with all its digits. -/
def Binary.exact (x : Binary) : Scaled :=
  if 0 ≤ x.exponent then ⟨x.mantissa * Nat.pow 2 x.exponent.toNat, 0⟩
  else ⟨x.mantissa * Nat.pow 5 (-x.exponent).toNat, x.exponent⟩

/-- **The shortest decimal that reads back** as a positive value. -/
def shortest (x : Binary) : Scaled :=
  ((List.range 24).findSome? fun (n : Nat) =>
    let j := x.coarse - (n : Int)
    (x.onGrid (.of x.exponent j)).map (⟨·, j⟩)).getD x.exact

end SchemaHeader.Decimal
