import Backmap.Decimal.Binary64
import Backmap.Numeral

/-!
# The shortest decimal that reads back
-/

namespace Backmap.Binary64

/-- A decimal `digits * 10 ^ exponent`. -/
structure Decimal where
  digits : Nat
  exponent : Int
  deriving DecidableEq, Repr

/-- `num / den` on the grid of the multiples of `10 ^ exponent`: a fraction to be cut. -/
def onGrid (num den : Nat) (exponent : Int) : Nat × Nat :=
  if 0 ≤ exponent then (num, den * Nat.pow 10 exponent.toNat) else (num * Nat.pow 10 (-exponent).toNat, den)

/-- Of the two neighbours of `m * 2 ^ e` on a grid, the nearer of those that read back as the same number;
of two equally near ones, the even one. -/
def onGrid? (m : Nat) (e : Int) (exponent : Int) : Option Decimal :=
  let (num, den) := fraction m e
  let (n, d) := onGrid num den exponent
  let low := n / d
  let readsBack (k : Nat) : Bool := ofDecimal false k exponent == finite false m e
  let nearest := roundDiv n d
  let other := if nearest = low then low + 1 else low
  if readsBack nearest then some ⟨nearest, exponent⟩
  else if readsBack other then some ⟨other, exponent⟩
  else none

/-- The position of the first significant digit of `num / den`, a positive fraction:
`10 ^ order ≤ num / den < 10 ^ (order + 1)`. -/
def order (num den : Nat) : Int :=
  let guess : Int := Int.ofNat (Nat.toDigits 10 num).length - Int.ofNat (Nat.toDigits 10 den).length
  let (n, d) := onGrid num den guess
  if n < d then guess - 1 else guess

/-- The decimal of fewest significant digits that reads back as `m * 2 ^ e`; seventeen are always enough. -/
def shortest (m : Nat) (e : Int) : Decimal :=
  let (num, den) := fraction m e
  let first := order num den
  let grids := (List.range 17).map fun k => first - Int.ofNat k
  (grids.findSome? (onGrid? m e)).getD ⟨0, 0⟩

/-- Digits without the zeros at their end, and how many there were. -/
def stripZeros (ds : List Char) : List Char × Nat :=
  let kept := (ds.reverse.dropWhile (· == '0')).reverse
  (kept, ds.length - kept.length)

/-- Writes significant digits whose first stands for `10 ^ point`: with a point for `-4 ≤ point < 16` and at
least one digit behind it, else with an exponent of at least two digits. -/
def layout (ds : List Char) (point : Int) : List Char :=
  if -4 ≤ point ∧ point < 16 then
    if 0 ≤ point then
      let whole := point.toNat + 1
      let front := ds.take whole ++ List.replicate (whole - ds.length) '0'
      let back := ds.drop whole
      front ++ '.' :: (if back = [] then ['0'] else back)
    else '0' :: '.' :: List.replicate ((-point).toNat - 1) '0' ++ ds
  else
    let front := match ds with
      | [] => []
      | [d] => [d]
      | d :: more => d :: '.' :: more
    let power := Numeral.digits point.natAbs
    let padded := if power.length < 2 then '0' :: power else power
    front ++ 'e' :: (if point < 0 then '-' else '+') :: padded

/-- The text of a finite magnitude. -/
def magnitudeText (m : Nat) (e : Int) : List Char :=
  if m = 0 then ['0', '.', '0']
  else
    let s := shortest m e
    let (ds, zeros) := stripZeros (Numeral.digits s.digits)
    layout ds (Int.ofNat (ds.length + zeros) - 1 + s.exponent)

/-- The text of a number, with the words for what is not finite. -/
def textWith (notANumber infinity : String) : Binary64 → String
  | nan => notANumber
  | infinite negative => if negative then "-" ++ infinity else infinity
  | finite negative m e =>
    String.ofList (if negative then '-' :: magnitudeText m e else magnitudeText m e)

end Backmap.Binary64
