import LaneChart.Decimal.Binary

/-!
# The fewest digits that read back

A single `m · 2^u` is the nearest single to every real in an interval around it: from halfway to
its lower neighbour to halfway to its upper one, the ends included exactly when `m` is even. The
shortest decimal of the value is the decimal in this interval with the fewest digits, and the
nearest to the value among those.

For each number of digits from one to nine there are two candidates, the neighbours of the value
on that decimal grid; if any point of the grid lies in the interval, one of these two does. So
the first grid with a hit has the fewest digits, and of two hits the nearer one is taken. When
the value lies halfway between them the format that is written decides (`Tie`). Nine digits always
suffice for a single.
-/

namespace LaneChart.Decimal

/-- A positive decimal `digits · 10^exponent`. -/
structure Scientific where
  digits : Nat
  exponent : Int
deriving DecidableEq

/-- The interval of reals that round to `m · 2^u`, in fourths of the last place: twice two
fourths wide, but on the lower side only one fourth when `m` is the first significand of its
exponent, whose lower neighbour is half a place away. -/
structure RoundingInterval where
  low : Nat
  value : Nat
  high : Nat
  unit : Int
  closed : Bool

/-- The interval around a positive finite single. -/
def RoundingInterval.ofSingle (bits : Nat) : RoundingInterval :=
  let (m, u) := Format.single.parts bits
  let narrower := m = Nat.pow 2 23 ∧ u ≠ Format.single.leastUnit
  { low := 4 * m - (if narrower then 1 else 2)
    value := 4 * m
    high := 4 * m + 2
    unit := u - 2
    closed := m % 2 == 0 }

namespace RoundingInterval

/-- How a number `n` of units compares with `d · 10^k`: both sides as naturals over a common
denominator. -/
def scale (n : Nat) (unit : Int) (d : Nat) (k : Int) : Nat × Nat :=
  let (n₁, d₁) := shiftRatio n 1 unit
  let (n₂, d₂) := decimalRatio d k
  (n₁ * d₂, n₂ * d₁)

/-- Whether `d · 10^k` lies in the interval. -/
def holds (r : RoundingInterval) (d : Nat) (k : Int) : Bool :=
  let (l, x) := scale r.low r.unit d k
  let (h, y) := scale r.high r.unit d k
  if r.closed then l ≤ x && y ≤ h else l < x && y < h

/-- The exponent `p` with `10^p ≤ value < 10^(p+1)`, searched downward from a bound. -/
def leadingExponent (r : RoundingInterval) : Nat → Int → Int
  | 0, p => p
  | steps + 1, p =>
    let (v, x) := scale r.value r.unit 1 p
    if x ≤ v then p else leadingExponent r steps (p - 1)

/-- The candidate on the grid `10^k`: the neighbour of the value that lies in the interval, the
nearer one if both do. -/
def candidate? (r : RoundingInterval) (t : Tie) (k : Int) : Option Scientific :=
  let (v, g) := scale r.value r.unit 1 k
  let below := v / g
  let rest := v % g
  let lower := r.holds below k && below != 0
  let upper := r.holds (below + 1) k
  if lower && !(upper && t.goesUp below rest g) then some ⟨below, k⟩
  else if upper then some ⟨below + 1, k⟩
  else none

/-- The first grid with a candidate, going from `10^k` to finer ones. -/
def search (r : RoundingInterval) (t : Tie) : Nat → Int → Scientific
  | 0, k => (r.candidate? t k).getD ⟨0, 0⟩
  | steps + 1, k =>
    match r.candidate? t k with
    | some s => s
    | none => search r t steps (k - 1)

end RoundingInterval

/-- Drop the zeros at the end of the digits, at most as many as a count allows. -/
def Scientific.trim : Nat → Scientific → Scientific
  | 0, s => s
  | steps + 1, s =>
    if s.digits % 10 = 0 ∧ s.digits ≠ 0 then trim steps ⟨s.digits / 10, s.exponent + 1⟩ else s

/-- The shortest decimal of the positive finite single with a given pattern. -/
def shortest (t : Tie) (bits : Nat) : Scientific :=
  let r := RoundingInterval.ofSingle bits
  (r.search t 9 (r.leadingExponent 90 39)).trim 10

example : shortest .up 0x3dcccccd = ⟨1, -1⟩ := by decide +kernel
example : shortest .up 1 = ⟨1, -45⟩ := by decide +kernel
example : shortest .up 0x7f7fffff = ⟨34028235, 31⟩ := by decide +kernel
example : shortest .up 0x4b800000 = ⟨16777216, 0⟩ := by decide +kernel
example : shortest .up 0x49800002 = ⟨10485763, -1⟩ := by decide +kernel
example : shortest .toEven 0x49800002 = ⟨10485762, -1⟩ := by decide +kernel

end LaneChart.Decimal
