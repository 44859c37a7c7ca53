/-!
Floating-point numbers of double precision, held exactly: a finite one is a mantissa times a power of
two. Arithmetic works on fractions and rounds once, to the nearest number, a tie to the even mantissa.
-/

namespace NamespacePlan

inductive Binary64 where
  | finite (negative : Bool) (mantissa : Nat) (exponent : Int)
  | infinite (negative : Bool)
  | nan
  deriving DecidableEq, Repr

namespace Binary64

def roundQuotient (num den : Nat) : Nat :=
  let q := num / den
  let r := num % den
  if 2 * r < den then q
  else if 2 * r > den then q + 1
  else if q % 2 = 0 then q else q + 1

/-- A fraction times a power of a base, which goes to the denominator when the exponent is negative. -/
def shifted (base : Nat) (e : Int) (f : Nat × Nat) : Nat × Nat :=
  if 0 ≤ e then (f.1 * Nat.pow base e.toNat, f.2) else (f.1, f.2 * Nat.pow base (-e).toNat)

def fullMantissa : Nat := 0x10000000000000

/-- The exponent at which a fraction has 53 bits before the point, or the least exponent. -/
def exponentOf (num den : Nat) : Int :=
  let guess : Int := (num.log2 : Int) - den.log2 - 52
  let s := shifted 2 (-guess) (num, den)
  max (-1074) (if s.1 / s.2 < fullMantissa then guess - 1 else guess)

def ofFraction (negative : Bool) (num den : Nat) : Binary64 :=
  if num = 0 then finite negative 0 0
  else
    let e := exponentOf num den
    let s := shifted 2 (-e) (num, den)
    let m := roundQuotient s.1 s.2
    let (m, e) := if m = 2 * fullMantissa then (fullMantissa, e + 1) else (m, e)
    if e > 971 then infinite negative else finite negative m e

/-- The number nearest to `digits` times ten to the `e`. Far outside the range of finite numbers the power is not
computed. -/
def ofDecimal (negative : Bool) (digits : Nat) (e : Int) : Binary64 :=
  if digits = 0 then finite negative 0 0
  else if e > 400 then infinite negative
  else if e + (digits.log2 / 3 + 1 : Nat) < -400 then finite negative 0 0
  else
    let f := shifted 10 e (digits, 1)
    ofFraction negative f.1 f.2

def fraction (mantissa : Nat) (exponent : Int) : Nat × Nat :=
  shifted 2 exponent (mantissa, 1)

def value? : Binary64 → Option (Int × Nat)
  | finite negative m e =>
    let f := fraction m e
    some (if negative then -(f.1 : Int) else f.1, f.2)
  | infinite _ => none
  | nan => none

def toInt? (x : Binary64) : Option Int :=
  match x.value? with
  | some (n, d) => if n % d = 0 then some (n / d) else none
  | none => none

def ofSigned (n : Int) (d : Nat) : Binary64 := ofFraction (n < 0) n.natAbs d

def ofInt (n : Int) : Binary64 := ofSigned n 1

def neg : Binary64 → Binary64
  | finite negative m e => finite (!negative) m e
  | infinite negative => infinite (!negative)
  | nan => nan

def add (x y : Binary64) : Binary64 :=
  match x.value?, y.value? with
  | some (n, d), some (k, c) => ofSigned (n * c + k * d) (d * c)
  | none, some _ => x
  | some _, none => y
  | none, none => if x = y then x else nan

/-- The product with a whole number, which is rounded first; it may be too large for that. -/
def scale? (x : Binary64) (k : Nat) : Option Binary64 :=
  match ofInt k with
  | finite _ n d =>
    match x with
    | finite negative m e =>
      let f := fraction m e
      let g := fraction n d
      some (ofFraction negative (f.1 * g.1) (f.2 * g.2))
    | other => some other
  | _ => none

/-- The decimal exponent of a positive fraction: the power of ten at or just below it. -/
def decimalExponent (num den : Nat) : Int :=
  if den ≤ num then ((Nat.toDigits 10 (num / den)).length : Int) - 1
  else -((Nat.toDigits 10 ((den + num - 1) / num - 1)).length : Int)

/-- The interval of fractions that round to a number: numerators of the two ends over one
denominator. -/
def roundingInterval (m : Nat) (e : Int) : Nat × Nat × Nat :=
  let low := if m = fullMantissa ∧ -1074 < e then 4 * m - 1 else 4 * m - 2
  let scale := shifted 2 (e - 2) (1, 1)
  (low * scale.1, (4 * m + 2) * scale.1, scale.2)

/-- The decimal `c` times ten to the `p` lies in the interval of fractions that round to the number. -/
def roundsTo (m : Nat) (e : Int) (c : Nat) (p : Int) : Bool :=
  let (low, high, den) := roundingInterval m e
  let (n, d) := shifted 10 p (c, 1)
  if m % 2 = 0 then low * d ≤ n * den && n * den ≤ high * d
  else low * d < n * den && n * den < high * d

/-- The better neighbour of a number on the grid of multiples of ten to the `p`, if one rounds to it. -/
def onGrid (m : Nat) (e : Int) (p : Int) : Option Nat :=
  let (n, d) := shifted 10 (-p) (fraction m e)
  let c := n / d
  match roundsTo m e c p, roundsTo m e (c + 1) p with
  | true, true => some (roundQuotient n d)
  | true, false => some c
  | false, true => some (c + 1)
  | false, false => none

/-- The fewest decimal digits that round to a positive number, with the exponent of the last one;
tried from `k` digits on, `more` times. -/
def shortest (m : Nat) (e : Int) (k more : Nat) : Nat × Int :=
  let f := fraction m e
  let p := decimalExponent f.1 f.2 - k + 1
  match more with
  | 0 => (roundQuotient f.1 f.2, 0)
  | more + 1 =>
    match onGrid m e p with
    | some c => (c, p)
    | none => shortest m e (k + 1) more

def trimZeros (c : Nat) (p : Int) (fuel : Nat) : Nat × Int :=
  match fuel with
  | 0 => (c, p)
  | fuel + 1 => if c ≠ 0 ∧ c % 10 = 0 then trimZeros (c / 10) (p + 1) fuel else (c, p)

/-- A positive number in decimal: positional from `1e-4` up to below `1e16`, with a point in any case;
else one digit before the point and an exponent of at least two digits. -/
def layout (c : Nat) (p : Int) : List Char :=
  let ds := Nat.toDigits 10 c
  let point : Int := ds.length + p
  if -4 < point ∧ point ≤ 16 then
    if point ≤ 0 then '0' :: '.' :: List.replicate (-point).toNat '0' ++ ds
    else if (ds.length : Int) ≤ point then ds ++ List.replicate (point - ds.length).toNat '0' ++ ['.', '0']
    else ds.take point.toNat ++ '.' :: ds.drop point.toNat
  else
    let x := point - 1
    let xs := Nat.toDigits 10 x.natAbs
    let fraction := match ds.drop 1 with
      | [] => []
      | r => '.' :: r
    ds.take 1 ++ fraction ++ 'e' :: (if x < 0 then '-' else '+') ::
      (if xs.length < 2 then '0' :: xs else xs)

/-- The shortest text that reads back as the number. -/
def text : Binary64 → String
  | finite negative m e =>
    let body :=
      if m = 0 then ['0', '.', '0']
      else
        let (c, p) := shortest m e 1 17
        let (c, p) := trimZeros c p 20
        layout c p
    String.ofList (if negative then '-' :: body else body)
  | infinite negative => if negative then "-inf" else "inf"
  | nan => "nan"

end Binary64

end NamespacePlan
