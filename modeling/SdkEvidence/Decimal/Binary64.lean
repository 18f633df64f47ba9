/-!
# Binary floating point of sixty-four bits

The non-negative finite values, as a significand below `2 ^ 53` and a power of two. A decimal is
rounded to the nearest value; the shortest decimal that rounds back is found by trying one grid
of decimals after another.
-/
namespace SdkEvidence.Decimal

/-! ## Rounding quotients

Main statement: the rounded quotient is within half a unit of the quotient.
-/

/-- The integer nearest to `num / den`; a tie goes to the even neighbour. -/
def roundDiv (num den : Nat) : Nat :=
  let q := num / den
  let r := num % den
  if 2 * r < den then q
  else if den < 2 * r then q + 1
  else if q % 2 = 0 then q else q + 1

theorem two_mul_roundDiv_le (num den : Nat) (h : 0 < den) :
    2 * (roundDiv num den * den) ≤ 2 * num + den := by
  have hq := Nat.div_add_mod num den
  have hr := Nat.mod_lt num h
  rw [Nat.mul_comm] at hq
  unfold roundDiv
  dsimp only
  split
  · omega
  · split
    · rw [Nat.add_mul]; omega
    · split
      · omega
      · rw [Nat.add_mul]; omega

theorem le_two_mul_roundDiv (num den : Nat) (h : 0 < den) :
    2 * num ≤ 2 * (roundDiv num den * den) + den := by
  have hq := Nat.div_add_mod num den
  have hr := Nat.mod_lt num h
  rw [Nat.mul_comm] at hq
  unfold roundDiv
  dsimp only
  split
  · omega
  · split
    · rw [Nat.add_mul]; omega
    · split
      · omega
      · rw [Nat.add_mul]; omega

/-! ## Values -/

/-- Powers of the two bases. -/
def twoTo (n : Nat) : Nat := Nat.pow 2 n
def tenTo (n : Nat) : Nat := Nat.pow 10 n

/-- The value `significand * 2 ^ exponent`. -/
structure Binary64 where
  significand : Nat
  exponent : Int
  deriving DecidableEq, Repr

/-- The least and the greatest exponent. -/
def leastExponent : Int := -1074
def greatestExponent : Int := 971

/-- A fraction: numerator and denominator of `n * 2 ^ e`. -/
def scaled (n : Nat) (e : Int) : Nat × Nat :=
  if 0 ≤ e then (n * twoTo e.toNat, 1) else (n, twoTo (-e).toNat)

/-- The value nearest to `num / den`, or none where that is beyond the greatest one. -/
def Binary64.ofFraction? (num den : Nat) : Option Binary64 :=
  if num = 0 then some ⟨0, leastExponent⟩
  else
    let low : Int := max leastExponent ((num.log2 : Int) - (den.log2 : Int) - 53)
    let ratio (e : Int) : Nat × Nat :=
      if 0 ≤ e then (num, den * twoTo e.toNat) else (num * twoTo (-e).toNat, den)
    let e := if twoTo 53 ≤ (ratio low).1 / (ratio low).2 then low + 1 else low
    let m := roundDiv (ratio e).1 (ratio e).2
    let value : Binary64 := if m = twoTo 53 then ⟨twoTo 52, e + 1⟩ else ⟨m, e⟩
    if greatestExponent < value.exponent then none else some value

/-- The value nearest to `digits * 10 ^ power`, or none where that is beyond the greatest one.
Decimals far outside the range are decided by their size alone. -/
def Binary64.ofDecimal? (digits : Nat) (power : Int) : Option Binary64 :=
  let size : Int := (Nat.toDigits 10 digits).length + power
  if digits = 0 then some ⟨0, leastExponent⟩
  else if 400 < size then none
  else if size < -400 then some ⟨0, leastExponent⟩
  else if 0 ≤ power then ofFraction? (digits * tenTo power.toNat) 1
  else ofFraction? digits (tenTo (-power).toNat)

/-- Twice the ends of the interval of reals that round to a value, on the scale of half a unit of
its significand: below a power of two the gap to the next value is half as wide. -/
def Binary64.bounds (v : Binary64) : Nat × Nat :=
  let m := v.significand
  let below := if m = twoTo 52 ∧ leastExponent < v.exponent then 4 * m - 1 else 4 * m - 2
  (below, 4 * m + 2)

/-- Whether `digits * 10 ^ power` rounds to the value. An end of the interval does exactly when
the significand is even. -/
def Binary64.roundsFrom (v : Binary64) (digits : Nat) (power : Int) : Bool :=
  let (below, above) := v.bounds
  let (num, den) :=
    if 0 ≤ power then (digits * tenTo power.toNat, 1) else (digits, tenTo (-power).toNat)
  let compare (n : Nat) : Nat × Nat :=
    let (top, bottom) := scaled n (v.exponent - 2)
    (top * den, num * bottom)
  let (lowLeft, lowRight) := compare below
  let (highLeft, highRight) := compare above
  if v.significand % 2 = 0 then lowLeft ≤ lowRight && highRight ≤ highLeft
  else lowLeft < lowRight && highRight < highLeft

/-- The greatest integer `k` with `10 ^ k` at most the value, for a positive value. -/
def Binary64.decimalOrder (v : Binary64) : Int :=
  let (num, den) := scaled v.significand v.exponent
  if den ≤ num then ((Nat.toDigits 10 (num / den)).length : Int) - 1
  else
    Int.neg (Nat.toDigits 10 ((den - 1) / num)).length

/-- The two neighbours of the value on the grid of multiples of `10 ^ power`, and whether the
upper one is nearer or as near and even. -/
def Binary64.neighbours (v : Binary64) (power : Int) : Nat × Nat × Bool :=
  let (num, den) := scaled v.significand v.exponent
  let (num, den) :=
    if 0 ≤ power then (num, den * tenTo power.toNat) else (num * tenTo (-power).toNat, den)
  let low := num / den
  (low, low + 1, decide (roundDiv num den = low + 1))

/-- The first grid on which a neighbour rounds to the value, tried from `count` digits on. -/
def Binary64.shortestFrom (v : Binary64) : Nat → Nat → Nat × Int
  | 0, _ => (v.significand, v.exponent)
  | fuel + 1, count =>
      let power := v.decimalOrder - (count : Int) + 1
      let (low, high, upper) := v.neighbours power
      let lowFits := v.roundsFrom low power
      let highFits := v.roundsFrom high power
      if lowFits && highFits then (if upper then high else low, power)
      else if lowFits then (low, power)
      else if highFits then (high, power)
      else v.shortestFrom fuel (count + 1)

/-- The shortest decimal that rounds to a positive value: its digits and a power of ten. -/
def Binary64.shortest (v : Binary64) : Nat × Int :=
  v.shortestFrom 17 1

/-- Digits and a power of ten without zeros at the end of the digits. -/
def strip : Nat → Nat → Int → Nat × Int
  | 0, digits, power => (digits, power)
  | fuel + 1, digits, power =>
      if digits % 10 = 0 then strip fuel (digits / 10) (power + 1) else (digits, power)

/-- The text of a value: at least one place after the point, and an exponent where the number
has more than sixteen places before the point or more than four zeros after it. -/
def Binary64.text (v : Binary64) : String :=
  if v.significand = 0 then "0.0"
  else
    let (digits, power) := v.shortest
    let (digits, power) := strip 20 digits power
    let shown := Nat.toDigits 10 digits
    let point : Int := shown.length + power
    let zeros (n : Int) : List Char := List.replicate n.toNat '0'
    String.ofList <|
      if 0 ≤ power ∧ point ≤ 16 then shown ++ zeros power ++ ['.', '0']
      else if 0 < point ∧ point ≤ 16 then shown.take point.toNat ++ '.' :: shown.drop point.toNat
      else if -5 < point ∧ point ≤ 0 then '0' :: '.' :: zeros (-point) ++ shown
      else
        let mantissa := match shown with
          | [d] => [d]
          | d :: more => d :: '.' :: more
          | [] => []
        mantissa ++ 'e' :: (toString (point - 1)).toList

end SdkEvidence.Decimal
