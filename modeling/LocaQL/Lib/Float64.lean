import LocaQL.Lib.GoText
import LocaQL.Lib.Json
import Mathlib.Data.Nat.Log

/-!
# 64-bit floats

A finite float is a mantissa of 53 bits times a power of two, in its normal form: the
mantissa has all its bits, or the exponent is the least one.  `nearest` rounds a fraction
to the nearest float, ties to even, and `ofLiteral` is the float of a number literal.
`toInt64` is the conversion `int64(x)`, and `shortest` the shortest decimal that a float is
the nearest one to, which `strconv` and `encoding/json` print.
-/

/-- The integer of a sign and a magnitude. -/
def signed (negative : Bool) (n : Nat) : Int := if negative then -n else n

/-- The finite float `mantissa * 2 ^ exponent`. -/
structure FiniteFloat where
  negative : Bool
  mantissa : Nat
  exponent : Int
  mantissa_lt : mantissa < 2 ^ 53
  exponent_le : exponent ≤ 971
  normal : 2 ^ 52 ≤ mantissa ∧ -1074 ≤ exponent ∨ exponent = -1074
deriving DecidableEq, Repr

namespace FiniteFloat

variable (x : FiniteFloat)

/-- The magnitude as a fraction. -/
def num : Nat := x.mantissa * 2 ^ x.exponent.toNat

def den : Nat := 2 ^ (-x.exponent).toNat

/-- The magnitude of `math.Trunc(x)`. -/
def whole : Nat := x.num / x.den

/-- `x == math.Trunc(x)`. -/
def isWhole : Bool := x.num % x.den == 0

def trunc : Int := signed x.negative x.whole

end FiniteFloat

inductive Float64 where
  | nan
  | inf (negative : Bool)
  | finite (x : FiniteFloat)
deriving DecidableEq, Repr

namespace Float64

/-! ## Rounding and truncating -/

def zero (negative : Bool) : Float64 :=
  .finite ⟨negative, 0, -1074, by decide, by decide, .inr rfl⟩

/-- The float `mantissa * 2 ^ exponent` of a mantissa in normal form, and an infinity when the
exponent is too large. -/
def ofParts (negative : Bool) (mantissa : Nat) (exponent : Int) : Float64 :=
  if h : mantissa < 2 ^ 53 ∧ exponent ≤ 971 ∧
      (2 ^ 52 ≤ mantissa ∧ -1074 ≤ exponent ∨ exponent = -1074) then
    .finite ⟨negative, mantissa, exponent, h.1, h.2.1, h.2.2⟩
  else .inf negative

/-- The float nearest to `num / den`. -/
def nearest (negative : Bool) (num den : Nat) : Float64 :=
  let (q, k) := Json.nearestFloat num den
  if q = 0 then zero negative
  -- rounding up carried into a bit more
  else if q = 2 ^ 53 then ofParts negative (2 ^ 52) (k + 1)
  else ofParts negative q k

/-- The float of a number literal. -/
def ofLiteral (literal : List Char) : Float64 :=
  let (negative, mantissa, exp) := Json.decimal literal
  nearest negative (mantissa * 10 ^ exp.toNat) (10 ^ (-exp).toNat)

/-- The value of a float is the integer `n`. -/
def IsInt : Float64 → Int → Prop
  | .finite x, n => x.num = n.natAbs * x.den ∧ n = signed x.negative n.natAbs
  | _, _ => False

instance : (x : Float64) → (n : Int) → Decidable (x.IsInt n)
  | .finite x, n => inferInstanceAs
      (Decidable (x.num = n.natAbs * x.den ∧ n = signed x.negative n.natAbs))
  | .nan, _ => inferInstanceAs (Decidable False)
  | .inf _, _ => inferInstanceAs (Decidable False)

/-- `int64(x)` as amd64 computes it: the least integer stands for what is out of range. -/
def toInt64 : Float64 → Int64
  | .finite x =>
    if -2 ^ 63 ≤ x.trunc ∧ x.trunc < 2 ^ 63 then Int64.ofInt x.trunc else Int64.minValue
  | _ => Int64.minValue

/-- `!math.IsInf(x, 0) && x == math.Trunc(x)`. -/
def isIntegral : Float64 → Bool
  | .finite x => x.isWhole
  | _ => false

/-! ## Printing -/

end Float64

namespace FiniteFloat

variable (x : FiniteFloat)

/-- Whether `x` is the float nearest to the decimal `c * 10 ^ j`: it lies in the interval
around `x`, whose ends count when the mantissa is even.  The interval is half as wide below a
power of two. -/
def nearTo (c : Nat) (j : Int) : Bool :=
  let below := if x.mantissa = 2 ^ 52 ∧ -1074 < x.exponent then 1 else 2
  let scale := 2 ^ x.exponent.toNat * 10 ^ (-j).toNat
  let low := (4 * x.mantissa - below) * scale
  let high := (4 * x.mantissa + 2) * scale
  let scaled := c * 10 ^ j.toNat * 4 * x.den
  if x.mantissa % 2 = 0 then decide (low ≤ scaled ∧ scaled ≤ high)
  else decide (low < scaled ∧ scaled < high)

/-- The number of digits of the magnitude before the decimal point; it is not positive for a
magnitude below one tenth. -/
def intDigits : Int :=
  if x.den ≤ x.num then Nat.log 10 x.whole + 1
  else 1 - Nat.clog 10 ((x.den + x.num - 1) / x.num)

/-- The decimal `c * 10 ^ j` closest to `x` among those near to it, if there is one. -/
def decimalAt (j : Int) : Option (Nat × Int) :=
  let num := x.num * 10 ^ (-j).toNat
  let den := x.den * 10 ^ j.toNat
  let c := num / den
  let closest := if 2 * num ≤ (2 * c + 1) * den then [c, c + 1] else [c + 1, c]
  -- a single digit rounded up to ten is a one
  (closest.find? fun c => x.nearTo c j).map fun c => if c % 10 = 0 then (c / 10, j + 1) else (c, j)

/-- The shortest decimal `c * 10 ^ j` that `x` is the nearest float to. -/
def shortest : Nat × Int :=
  if x.mantissa = 0 then (0, 0)
  else if x.exponent ≤ 0 ∧ x.isWhole then (x.whole, 0)
  else
    let lengths := (List.range 17).map fun d : Nat => x.intDigits - (d + 1)
    (lengths.findSome? x.decimalAt).getD (0, 0)

/-- A decimal without an exponent, as the verb `f` writes it. -/
def fixed (c : Nat) (j : Int) : List Char :=
  if 0 ≤ j then (Nat.repr (c * 10 ^ j.toNat)).toList
  else
    let places := (-j).toNat
    let frac := (Nat.repr (c % 10 ^ places)).toList
    (Nat.repr (c / 10 ^ places)).toList ++ '.' :: (List.replicate (places - frac.length) '0' ++ frac)

/-- A decimal with an exponent, as the verb `e` writes it but without the zero that pads a
negative exponent of one digit. -/
def scientific (c : Nat) (j : Int) : List Char :=
  let digits := (Nat.repr c).toList
  let exp : Int := j + digits.length - 1
  let expText := (Nat.repr exp.natAbs).toList
  let expText := if 0 ≤ exp ∧ expText.length < 2 then '0' :: expText else expText
  digits.take 1 ++ (if digits.length ≤ 1 then [] else '.' :: digits.drop 1) ++
    'e' :: (if exp < 0 then '-' else '+') :: expText

end FiniteFloat

namespace Float64

def sign (negative : Bool) : List Char := if negative then ['-'] else []

/-- `strconv.FormatFloat(x, 'f', -1, 64)`. -/
def format : Float64 → List Char
  | .nan => ['N', 'a', 'N']
  | .inf negative => (if negative then '-' else '+') :: ['I', 'n', 'f']
  | .finite x => sign x.negative ++ FiniteFloat.fixed x.shortest.1 x.shortest.2

/-- Whether `json.Marshal` writes a float without an exponent: it is zero, or its magnitude is
at least `1e-6` and below `1e21`. -/
def isPlain (x : FiniteFloat) : Bool :=
  x.mantissa == 0 || decide (x.den ≤ x.num * 10 ^ 6 ∧ x.num < x.den * 10 ^ 21)

/-- `json.Marshal`; it has no text for an infinity or NaN. -/
def marshal : Float64 → Option (List Char)
  | .finite x =>
    let (c, j) := x.shortest
    some (sign x.negative ++
      if isPlain x then FiniteFloat.fixed c j else FiniteFloat.scientific c j)
  | _ => none

example : marshal (ofLiteral "1152921504606846976".toList) =
    some "1152921504606847000".toList := by decide +kernel

example : format (ofLiteral "1e-7".toList) = "0.0000001".toList := by decide +kernel

example : marshal (ofLiteral "15e-10".toList) = some "1.5e-9".toList := by decide +kernel

example : marshal (ofLiteral "1000000000000000000000".toList) = some "1e+21".toList := by
  decide +kernel

end Float64

/-! ## Integers -/

theorem signed_natAbs (n : Int) : signed (decide (n < 0)) n.natAbs = n := by
  unfold signed
  by_cases neg : n < 0
  · rw [if_pos (decide_eq_true neg)]
    omega
  · rw [if_neg (by simpa using neg)]
    omega

theorem FiniteFloat.den_pos (x : FiniteFloat) : 0 < x.den := Nat.two_pow_pos _

namespace Float64

theorem trunc_of_isInt {x : FiniteFloat} {n : Int} (h : IsInt (.finite x) n) : x.trunc = n := by
  obtain ⟨eq, sign⟩ := h
  rw [FiniteFloat.trunc, FiniteFloat.whole, eq, Nat.mul_div_cancel _ x.den_pos, ← sign]

theorem isIntegral_of_isInt {x : Float64} {n : Int} (h : x.IsInt n) : x.isIntegral := by
  cases x with
  | finite x => simp [isIntegral, FiniteFloat.isWhole, h.1]
  | _ => exact h.elim

theorem toInt64_of_isInt {x : Float64} {n : Int} (h : x.IsInt n) :
    x.toInt64 = if -2 ^ 63 ≤ n ∧ n < 2 ^ 63 then Int64.ofInt n else Int64.minValue := by
  cases x with
  | finite x => rw [toInt64, trunc_of_isInt h]
  | _ => exact h.elim

/-! ## Integer literals -/

theorem digitsValue_repr (n : Nat) : Json.digitsValue (Nat.repr n).toList = n := by
  have go (ds : List Char) (m : Nat) :
      ds.foldl (fun n c => n * 10 + (c.toNat - '0'.toNat)) m = Nat.ofDigitChars 10 ds m := by
    induction ds generalizing m with
    | nil => rfl
    | cons c ds ih =>
      rw [List.foldl_cons, ih, Nat.mul_comm m]
      rfl
  rw [Json.digitsValue, go, Nat.repr_eq_ofList_toDigits, String.toList_ofList,
    Nat.ofDigitChars_ten_toDigits]

/-- The decimal text of an integer is its sign and the digits of its magnitude. -/
theorem toString_toList (n : Int) :
    (toString n).toList = sign (decide (n < 0)) ++ (Nat.repr n.natAbs).toList := by
  cases n with
  | ofNat m =>
    have nonneg : ¬Int.ofNat m < 0 := Int.not_lt.mpr (Int.natCast_nonneg m)
    rw [decide_eq_false nonneg]
    rfl
  | negSucc m =>
    rw [decide_eq_true (Int.negSucc_lt_zero m)]
    show ("-" ++ Nat.repr (m + 1)).toList = _
    rw [String.toList_append]
    rfl

end Float64
