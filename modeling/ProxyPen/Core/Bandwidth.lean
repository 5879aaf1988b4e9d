import ProxyPen.Core.Stats
import ProxyPen.Lib.Outcome
import ProxyPen.Lib.Rounding

/-!
# Bandwidth Text

`parse_bandwidth` and `parse_bandwidth_list` of `bench/client.rs`, with the
grammar of the standard library's `f64::from_str`. Reading a number keeps its
exact decimal meaning as a `Numeral`. It is rounded to a double in a step of
its own, as the documentation of `from_str` has it, and the product with the
unit is rounded once more before it is cast to an integer.

## Main definitions

* `Numeral`: What a text that parses as a float stands for.
* `readF64`: The grammar of `f64::from_str`.
* `splitUnit`: The numeric part and the unit of a trimmed text.
* `parseBandwidth`, `parseBandwidthList`: Rates in bits a second.
-/

namespace ProxyPen

namespace Bandwidth

open Outcome

/-! ## Text -/

/-- `char::is_whitespace` -/
def isWhitespace (c : Char) : Bool :=
  let n := c.toNat
  (0x9 ≤ n && n ≤ 0xD) || n == 0x20 || n == 0x85 || n == 0xA0 || n == 0x1680 ||
    (0x2000 ≤ n && n ≤ 0x200A) || n == 0x2028 || n == 0x2029 || n == 0x202F || n == 0x205F ||
    n == 0x3000

/-- `str::trim` -/
def trim (cs : List Char) : List Char :=
  ((cs.dropWhile isWhitespace).reverse.dropWhile isWhitespace).reverse

/-! ## Floats -/

/-- The exact meaning of a float's text: no number, an infinity, or the decimal
    `digits * 10 ^ exponent`. All of them may carry a sign. -/
inductive Numeral where
  | nan
  | inf (neg : Bool)
  | num (neg : Bool) (digits : Nat) (exponent : Int)
  deriving DecidableEq

def digitsValue (cs : List Char) : Nat := cs.foldl (fun n c => 10 * n + (c.toNat - 48)) 0

/-- A sign in front, and whether it is a minus. -/
def readSign : List Char → Bool × List Char
  | '-' :: cs => (true, cs)
  | '+' :: cs => (false, cs)
  | cs => (false, cs)

/-- The text behind an `e`: a sign and at least one digit, to the end. -/
def readExponent (cs : List Char) : Option Int :=
  let (neg, digits) := readSign cs
  if digits = [] then none
  else if digits.all Char.isDigit then
    some (if neg then -digitsValue digits else digitsValue digits)
  else none

/-- A decimal without a sign, to the end: the value of all its digits, and the
    exponent that puts the point in its place. -/
def readNumber (cs : List Char) : Option (Nat × Int) :=
  let whole := cs.takeWhile Char.isDigit
  let (frac, rest) := match cs.dropWhile Char.isDigit with
    | '.' :: rest => (rest.takeWhile Char.isDigit, rest.dropWhile Char.isDigit)
    | rest => ([], rest)
  -- There is a digit on at least one side of the point.
  if whole = [] ∧ frac = [] then none
  else match rest with
    | [] => some (digitsValue (whole ++ frac), -frac.length)
    | c :: rest =>
        if c = 'e' ∨ c = 'E' then
          (readExponent rest).map (fun e => (digitsValue (whole ++ frac), e - frac.length))
        else none

/-- The grammar of `f64::from_str`. -/
def readF64 (cs : List Char) : Option Numeral :=
  let (neg, body) := readSign cs
  match readNumber body with
  | some (digits, exponent) => some (.num neg digits exponent)
  | none =>
      let word := body.map Char.toLower
      if word = "inf".toList ∨ word = "infinity".toList then some (.inf neg)
      else if word = "nan".toList then some .nan
      else none

/-- The magnitude of a decimal. -/
def magnitude (digits : Nat) (exponent : Int) : ℚ := digits * 10 ^ exponent

theorem magnitude_nonneg (digits : Nat) (exponent : Int) : 0 ≤ magnitude digits exponent :=
  mul_nonneg (by positivity) (zpow_nonneg (by norm_num) exponent)

/-- The double nearest to what the text stands for. -/
def Numeral.toF64 : Numeral → binary64.Value
  | nan => .nan
  | inf neg => .inf neg
  | num neg digits exponent =>
      binary64.round neg (magnitude digits exponent) (magnitude_nonneg digits exponent)

/-! ## Rates -/

/-- The text in front of the unit, and the unit. -/
def splitUnit (cs : List Char) : List Char × Nat :=
  match cs.getLast? with
  | some 'K' | some 'k' => (cs.dropLast, 1000)
  | some 'M' | some 'm' => (cs.dropLast, 1000000)
  | some 'G' | some 'g' => (cs.dropLast, 1000000000)
  | _ => (cs, 1)

/-- `(n * mult as f64) as u64` -/
def rateOf (n : Numeral) (mult : Nat) : UInt64 :=
  UInt64.ofNat ((n.toF64.mul (binary64.ofNat mult)).toNatSat u64Max)

def parseBandwidth (s : String) : Outcome String UInt64 :=
  let s := trim s.toList
  if s = [] then err "empty bandwidth value"
  else
    let (num, mult) := splitUnit s
    match readF64 num with
    | none => err ("invalid bandwidth value: " ++ String.ofList s)
    | some n => ok (rateOf n mult)

/-- The first entry that is rejected rejects the list. -/
def parseBandwidthList (s : String) : Outcome String (List UInt64) :=
  (s.toList.splitOn ',').mapM (fun p => parseBandwidth (String.ofList (trim p)))

end Bandwidth

end ProxyPen
