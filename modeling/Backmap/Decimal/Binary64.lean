/-!
# Binary floating-point numbers of 64 bits

A finite number is `m * 2 ^ e`, with `m` of at most 53 bits and the least `e` being -1074.
-/

namespace Backmap

inductive Binary64 where
  | nan
  | infinite (negative : Bool)
  | finite (negative : Bool) (m : Nat) (e : Int)
  deriving DecidableEq, Repr

namespace Binary64

def leastExponent : Int := -1074

def greatestExponent : Int := 971

/-- `num / den` to the nearest integer, a half to the even one. -/
def roundDiv (num den : Nat) : Nat :=
  let q := num / den
  let r := num % den
  if 2 * r < den then q else if den < 2 * r then q + 1 else q + q % 2

/-- `num / den * 2 ^ -e` as a fraction. -/
def scale (num den : Nat) (e : Int) : Nat × Nat :=
  if 0 ≤ e then (num, den * Nat.pow 2 e.toNat) else (num * Nat.pow 2 (-e).toNat, den)

/-- The nearest number to the fraction `num / den`, a half going to the even significand. -/
def ofFraction (negative : Bool) (num den : Nat) : Binary64 :=
  if num = 0 then finite negative 0 leastExponent
  else
    -- an exponent under which the quotient has 53 or 54 bits
    let guess : Int := Int.ofNat num.log2 - Int.ofNat den.log2 - 53
    let fits (e : Int) : Bool :=
      let (n, d) := scale num den e
      n < d * Nat.pow 2 53
    let e := if fits guess then guess else guess + 1
    let e := if e < leastExponent then leastExponent else e
    let (n, d) := scale num den e
    let m := roundDiv n d
    let (m, e) := if m = Nat.pow 2 53 then (Nat.pow 2 52, e + 1) else (m, e)
    if greatestExponent < e then infinite negative else finite negative m e

/-- The nearest number to `digits * 10 ^ exponent`. Where the order of magnitude alone decides, no power is
computed. -/
def ofDecimal (negative : Bool) (digits : Nat) (exponent : Int) : Binary64 :=
  let order := Int.ofNat (Nat.toDigits 10 digits).length + exponent
  if digits = 0 then finite negative 0 leastExponent
  else if 310 < order then infinite negative
  else if order < -330 then finite negative 0 leastExponent
  else if 0 ≤ exponent then ofFraction negative (digits * Nat.pow 10 exponent.toNat) 1
  else ofFraction negative digits (Nat.pow 10 (-exponent).toNat)

/-- The magnitude of a finite number as a fraction. -/
def fraction (m : Nat) (e : Int) : Nat × Nat :=
  if 0 ≤ e then (m * Nat.pow 2 e.toNat, 1) else (m, Nat.pow 2 (-e).toNat)

/-- The integer part, toward zero. -/
def truncate (negative : Bool) (m : Nat) (e : Int) : Int :=
  let (n, d) := fraction m e
  if negative then -Int.ofNat (n / d) else Int.ofNat (n / d)

def isZero : Binary64 → Bool
  | finite _ m _ => m == 0
  | _ => false

/-- Whether a number is the integer `n`. -/
def isInt (x : Binary64) (n : Int) : Bool :=
  match x with
  | finite negative m e =>
    let (num, den) := fraction m e
    num % den == 0 && truncate negative m e == n
  | _ => false

end Binary64

end Backmap
