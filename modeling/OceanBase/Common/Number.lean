import Mathlib

/-! The comparisons of `ObNumber` (`lib/number/ob_number_v2.h`, `ob_number_v2.cpp`).

A number is a descriptor and a string of digits in base `BASE = 10^9`, the most significant
first. The descriptor's byte `se_` holds the sign in its top bit and a seven-bit exponent below
it, biased by `EXP_ZERO` and, for a negative number, complemented, so that comparing the bytes
of two numbers with different exponents or signs compares the numbers. `compare_v2` compares
the bytes and then the digits; `compare(int64_t)` and `compare(uint64_t)` take another path
through `abs_compare_sys`, which reads the integer part of the number into a `uint64_t`. -/
namespace OceanBase
namespace Common

def base : Nat := 1000000000

def base2 : Nat := 1000000000000000000

def expZero : Nat := 0x40

def negative : Fin 2 := 0

def positive : Fin 2 := 1

/-- `ObNumberDesc`: the digit count `len_` and the bit fields `exp_` and `sign_` of `se_`. -/
structure Desc where
  len : Nat
  exp : Fin 128
  sign : Fin 2
  deriving DecidableEq, Repr

def Desc.se (d : Desc) : Nat := d.sign.val * 128 + d.exp.val

/-- The exponent `exp_` encodes: `exp_ - EXP_ZERO` for a positive number, `EXP_ZERO - exp_` for a
negative one, as `compare(int64_t)` decodes it. -/
def Desc.exponent (d : Desc) : Int :=
  if d.sign = negative then (expZero : Int) - d.exp.val else (d.exp.val : Int) - expZero

/-- The `exp_` that `calc_desc_and_check` and `from_integer_` store for exponent `e`:
`0x7f & (EXP_ZERO + e)`, for a negative number complemented and incremented in the seven-bit
field. -/
def encodeExp (sign : Fin 2) (e : Int) : Fin 128 :=
  let x : Fin 128 := Fin.ofNat 128 (((expZero : Int) + e) % 128).toNat
  if sign = negative then x.rev + 1 else x

structure ObNumber where
  d : Desc
  digits : List Nat
  deriving DecidableEq, Repr

namespace ObNumber

def zero : ObNumber := ⟨⟨0,0,positive⟩,[]⟩

def isZero (n : ObNumber) : Bool := n.d.len == 0

def isNegative (n : ObNumber) : Bool := n.d.sign == negative

def uint32cmp : List Nat → List Nat → Nat → Int
  | a :: s1, b :: s2, n + 1 => if a < b then -1 else if a > b then 1 else uint32cmp s1 s2 n
  | _, _, _ => 0

def uint32cmpV2 : List Nat → List Nat → Nat → Int
  | a :: s1, b :: s2, n + 1 => if a > b then 1 else if a = b then uint32cmpV2 s1 s2 n else -1
  | _, _, _ => 0

/-- The digits part of `compare(desc, digits, desc, digits)` and `compare_v2`, with the digit scan
as a parameter: the digits over the shorter length decide, and where they agree the longer
number is the larger. -/
def compareDigits (digitCmp : List Nat → List Nat → Nat → Int) (a b : ObNumber) : Int :=
  if a.d.len = b.d.len then digitCmp a.digits b.digits a.d.len
  else if a.d.len < b.d.len then
    (let r := digitCmp a.digits b.digits a.d.len; if r = 0 then -1 else r)
  else (let r := digitCmp a.digits b.digits b.d.len; if r = 0 then 1 else r)

/-- The body `compare(desc, digits, desc, digits)` and `compare_v2` share: the `se_` bytes
decide, then the digits; a negative number turns the digits' result round. -/
def compareWith (digitCmp : List Nat → List Nat → Nat → Int) (a b : ObNumber) : Int :=
  if a.d.se = b.d.se then
    let r := compareDigits digitCmp a b
    if a.d.sign = negative then -r else r
  else if a.d.se < b.d.se then -1 else 1

/-- `compare_v1`, through the static `compare` on descriptors and `uint32cmp`. -/
def compareV1 (a b : ObNumber) : Int := compareWith uint32cmp a b

def compareV2 (a b : ObNumber) : Int := compareWith uint32cmpV2 a b

def uint32equalV2 (s1 s2 : List Nat) (n : Nat) : Bool := s1.take n == s2.take n

def isEqualV2 (a b : ObNumber) : Bool :=
  a.d.se == b.d.se && a.d.len == b.d.len && uint32equalV2 a.digits b.digits a.d.len

def unum : List Nat := [18,446744073,709551615]

/-- The first loop of `is_in_uint` on an exponent of `2`: the first of the first `n` digits that
differs from `unum`'s decides whether the integer part fits. -/
def fitsUnum : List Nat → List Nat → Nat → Bool
  | d :: ds, u :: us, n + 1 => if d ≠ u then decide (d < u) else fitsUnum ds us n
  | _, _, _ => true

/-- The second loop of `is_in_uint`: `k` digits read into `num`, zeros past the last digit. -/
def readIntPart : List Nat → Nat → Nat → Nat
  | _, 0, num => num
  | d :: ds, k + 1, num => readIntPart ds k (num * base + d)
  | [], k + 1, num => readIntPart [] k (num * base)

/-- `is_in_uint`: whether the integer part of a number of exponent `exp` fits `uint64_t`, and
that part. -/
def isInUint (n : ObNumber) (exp : Int) : Bool × Nat :=
  if exp > 2 then (false,0)
  else
    let isUint := if exp = 2 then fitsUnum n.digits unum (min n.d.len 3) else true
    if isUint then (true,readIntPart n.digits (exp + 1).toNat 0) else (false,0)

/-- `abs_compare_sys`: the magnitude of a number of exponent `exp` against `other`. A
magnitude below one is below every positive `other`; otherwise the exponents of the two
decide, and where they agree the integer part, and then whether there is a fraction. -/
def absCompareSys (n : ObNumber) (other : Nat) (exp : Int) : Int :=
  if exp < 0 then (if other = 0 then 1 else -1)
  else
    let expU : Int := if other ≥ base2 then 2 else if other ≥ base then 1 else 0
    if exp ≠ expU then (if exp > expU then 1 else -1)
    else
      let r := isInUint n exp
      if r.1 then
        let cmp : Int := if r.2 > other then 1 else if r.2 = other then 0 else -1
        if cmp = 0 then (if n.d.len > exp + 1 then 1 else 0) else cmp
      else 1

/-- `compare(const int64_t &)`. The magnitude of a negative `other` is computed as
`(uint64_t)((other + 1) * -1) + 1` so that `INT64_MIN` does not overflow. -/
def compareInt64 (n : ObNumber) (other : Int) : Int :=
  if n.isZero then (if other < 0 then 1 else if other = 0 then 0 else -1)
  else if n.isNegative then
    if other ≥ 0 then -1
    else -absCompareSys n ((-(other + 1)).toNat + 1) ((expZero : Int) - n.d.exp.val)
  else if other ≤ 0 then 1 else absCompareSys n other.toNat ((n.d.exp.val : Int) - expZero)

def compareUint64 (n : ObNumber) (other : Nat) : Int :=
  if n.isZero then (if other = 0 then 0 else -1)
  else if n.isNegative then -1
  else absCompareSys n other ((n.d.exp.val : Int) - expZero)

def maxDigits : List (Nat × Nat) := [(2,base2),(1,base),(0,1)]

/-- The loop of `from_integer_`: each power of `BASE` the remaining magnitude reaches gives a
digit, after the zero digits counted since the last one; zeros after the last are dropped. -/
def fromIntegerLoop : List (Nat × Nat) → Nat → Nat → Nat → List Nat → Nat × List Nat
  | [], _, exp, _, digits => (exp,digits)
  | (i,m) :: rest, absVal, exp, zeroCnt, digits =>
    if absVal ≥ m then
      fromIntegerLoop rest (absVal % m) (max exp i) 0
        (digits ++ List.replicate zeroCnt 0 ++ [absVal / m])
    else if exp > 0 then fromIntegerLoop rest absVal exp (zeroCnt + 1) digits
    else fromIntegerLoop rest absVal exp zeroCnt digits

/-- `from_integer_` for `int64_t` and `uint64_t` values; the magnitude of `INT64_MIN` is read as
`2^63`, as `labs` returns it on the machines OceanBase runs on. -/
def fromInteger (value : Int) : ObNumber :=
  if value = 0 then zero
  else
    let r := fromIntegerLoop maxDigits value.natAbs 0 0 []
    let sign := if value ≥ 0 then positive else negative
    ⟨⟨r.2.length,encodeExp sign r.1,sign⟩,r.2⟩

end ObNumber

end Common
end OceanBase
