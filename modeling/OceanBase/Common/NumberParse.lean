import Mathlib
import OceanBase.Define
import OceanBase.Common.NumberCompare

/-! The string parser of `ObNumber` that `from()` uses when no format model is given, `from_v3_`
(`lib/number/ob_number_v2.cpp`), in MySQL mode. `find_point_range_` finds the sign, the digits
before the point without their leading zeros, and the digits after it; `construct_digits_` cuts
them into words of `MAX_STORE_LEN = 9` digits, at most `OB_CALC_BUFFER_SIZE` of them, and counts
the words of the integer part into an exponent; `from_v3_` packs the sign and the exponent into
the descriptor, rounds to `FLOATING_SCALE` digits with `round_scale_v3_` and checks the exponent
with `exp_check_`. The exponent is packed into its seven bits before it is checked, so an integer
part of more than 64 words wraps around to an exponent the check accepts. -/
namespace OceanBase
namespace Common
namespace ObNumber

/-- The range of the seven-bit exponent field is not empty: the one instance behind the exponent
literals below. -/
instance expRange_neZero : NeZero (128 : Nat) := ⟨by decide⟩

def maxStoreLen : Nat := 9

def calcBufferSize : Nat := 10

def floatingScale : Int := 72

def maxIntegerExp : Nat := 14

def maxDecimalExp : Nat := 15

def maxValuedDigit : Nat := base - 1

/-! ## Scanning the string -/

def isSpace (c : Char) : Bool :=
  c == ' ' || c == '\t' || c == '\n' || c == '\x0b' || c == '\x0c' || c == '\r'

/-- A pointer moved on from `ptr` over the characters that satisfy `p`, up to `stop`. -/
def scanFwd (p : Char → Bool) (s : List Char) (stop : Nat) : (fuel ptr : Nat) → Nat
  | 0, ptr => ptr
  | f + 1, ptr => if ptr < stop && p (s.getD ptr ' ') then scanFwd p s stop f (ptr + 1) else ptr

/-- An end moved back from `stop` over the characters before it that satisfy `p`, down to `start`. -/
def scanBack (p : Char → Bool) (s : List Char) (start : Nat) : (fuel stop : Nat) → Nat
  | 0, stop => stop
  | f + 1, stop => if start < stop && p (s.getD (stop - 1) ' ') then scanBack p s start f (stop - 1) else stop

/-- What `find_point_range_` finds: the first digit it keeps `start_idx`, the point
`floating_point`, the end `end_idx` of the digits after it, the sign, and whether characters are
left over (`warning` set to `OB_INVALID_NUMERIC`). -/
structure PointRange where
  startIdx : Int
  floatingPoint : Int
  endIdx : Int
  negative : Bool
  invalidNumeric : Bool
  deriving DecidableEq, Repr

/-- `find_point_range_(str, length, ...)` in MySQL mode: spaces around the number are skipped, then
a sign and the leading zeros. A string of spaces leaves the indices at -1, as `from_v3_` set them;
a string of zeros puts all three on its last character. -/
def findPointRange (s : List Char) : Except ObErr PointRange :=
  if s.length = 0 then .error .invalidArgument
  else
    let ptr := scanFwd isSpace s s.length s.length 0
    let stop := scanBack isSpace s ptr s.length s.length
    if ptr = stop then .ok ⟨-1, -1, -1, false, true⟩
    else
      let c := s.getD ptr ' '
      let negative := c == '-'
      let ptr := if c == '+' || c == '-' then ptr + 1 else ptr
      let ptr := scanFwd (· == '0') s stop stop ptr
      if ptr = stop then .ok ⟨(stop - 1 : Nat), (stop - 1 : Nat), (stop - 1 : Nat), negative, false⟩
      else
        let start := ptr
        let ptr := scanFwd Char.isDigit s stop stop ptr
        if ptr < stop ∧ s.getD ptr ' ' = '.' then
          let stopDigits := scanFwd Char.isDigit s stop stop (ptr + 1)
          .ok ⟨start, ptr, stopDigits, negative, decide (stopDigits ≠ stop)⟩
        else .ok ⟨start, ptr, ptr, negative, decide (ptr ≠ stop)⟩

/-! ## The words of the number -/

/-- `ObFastAtoi<uint32_t>::atoi_positive_unchecked(ptr, end)`: the characters read as decimal
digits. -/
def atoi (cs : List Char) : Nat := cs.foldl (fun acc c => acc * 10 + (c.toNat - '0'.toNat)) 0

def slice (s : List Char) (a b : Nat) : List Char := (s.drop a).take (b - a)

/-- The integer loop of `construct_digits_`: a first word of `step` digits, then words of
`MAX_STORE_LEN`, up to `stop`, while the buffer has room for `fuel` more words. -/
def integerWords (s : List Char) (stop : Nat) : (fuel ptr step : Nat) → List Nat
  | 0, _, _ => []
  | f + 1, ptr, step =>
    if ptr < stop then atoi (slice s ptr (ptr + step)) :: integerWords s stop f (ptr + step) maxStoreLen
    else []

/-- The decimal loop of `construct_digits_`: the last word, cut short by the end, is padded on
the right with zeros (`POWS[step - (str_end - str_ptr)]`). -/
def decimalWords (s : List Char) (stop : Nat) : (fuel ptr step : Nat) → List Nat
  | 0, _, _ => []
  | f + 1, ptr, step =>
    if ptr < stop then
      (if ptr + step < stop then atoi (slice s ptr (ptr + step))
        else atoi (slice s ptr stop) * 10 ^ (step - (stop - ptr))) ::
        decimalWords s stop f (ptr + step) maxStoreLen
    else []

/-- The words up to the last nonzero one, the length `construct_digits_` returns. -/
def trimZeros (ws : List Nat) : List Nat := (ws.reverse.dropWhile (· == 0)).reverse

/-- `construct_digits_(str, start_idx, floating_point, end_idx, digits, exp, len)`: the words of the
number, at most `len` of them and without trailing zero words, and the exponent of the first: the
integer words less one, or minus the words that the zeros opening the fraction take. -/
def constructDigits (s : List Char) (start point stop : Int) (len : Nat) (exp : Int) : List Nat × Int :=
  let (ints, exp) :=
    if start < point then
      let n := (point - start).toNat
      (integerWords s point.toNat len start.toNat ((n - 1) % maxStoreLen + 1),
        (((n - 1) / maxStoreLen + 1 : Nat) : Int) - 1)
    else ([], exp)
  let (decs, exp) :=
    if ints.length < len ∧ point + 1 < stop then
      if start < point then (decimalWords s stop.toNat (len - ints.length) (point + 1).toNat maxStoreLen, exp)
      else
        -- the zeros that open the fraction set the exponent and the first word's width
        let ptr := scanFwd (· == '0') s stop.toNat stop.toNat (point + 1).toNat
        let zeros := ptr - (point + 1).toNat
        (decimalWords s stop.toNat (len - ints.length) ptr (maxStoreLen - zeros % maxStoreLen),
          -(((zeros / maxStoreLen + 1 : Nat)) : Int))
    else ([], exp)
  (trimZeros (ints ++ decs), exp)

/-! ## Rounding and the exponent check -/

def digits10 (v : Nat) : Nat := (Nat.toDigits 10 v).length

/-- `get_digit_len_v2`: the decimal digits of a word, 0 for a value out of range. -/
def getDigitLenV2 (d : Nat) : Nat := if base ≤ d then 0 else digits10 d

def roundPows : List Nat :=
  [1000000000, 100000000, 10000000, 1000000, 100000, 10000, 1000, 100, 10, 1000000000]

def setOne (n : ObNumber) : ObNumber := ⟨⟨1, 64, n.d.sign⟩, [1]⟩

/-- The carry of `round_scale_v3_` into the words before `digitId`: the words of
`MAX_VALUED_DIGIT` at the end are dropped and the word before them incremented; `none` when the
carry runs past the first word. -/
def carry (ws : List Nat) : (digitId : Nat) → Option (List Nat)
  | 0 => none
  | i + 1 => if ws.getD i 0 = maxValuedDigit then carry ws i else some ((ws.take (i + 1)).set i (ws.getD i 0 + 1))

/-- The end of `round_scale_v3_`: word `digitId` of `ws` rounded half up to a multiple of
`ROUND_POWS[powId]`, keeping `len` words. A word that reaches `BASE` carries into the words
before it, and past the first one the number becomes one word of 1 with the exponent moved by
one; a word rounded down to zero drops the trailing zero words. -/
def roundAt (n : ObNumber) (ws : List Nat) (len digitId powId : Nat) : ObNumber :=
  let v := ws.getD digitId 0
  let p := roundPows.getD powId 0
  let residue := v % p
  if p / 2 ≤ residue then
    let v := v + (p - residue)
    let ws := ws.set digitId v
    if v = base then
      match carry ws digitId with
      | some ws => ⟨{ n.d with len := ws.length }, ws⟩
      | none => ⟨{ n.d with len := 1, exp := if n.d.sign = negative then n.d.exp - 1 else n.d.exp + 1 }, [1]⟩
    else ⟨{ n.d with len := len }, ws.take len⟩
  else
    let ws := ws.set digitId (v - residue)
    if v - residue = 0 then
      let kept := trimZeros (ws.take len)
      if kept = [] then zero else ⟨{ n.d with len := kept.length }, kept⟩
    else ⟨{ n.d with len := len }, ws.take len⟩

/-- `round_scale_v3_(scale, using_floating_scale, false)` in MySQL mode: with a floating scale the
digits of the integer part count against `scale`; the number is cut to `scale` decimal places, or
rounded at a power of ten of its integer part when the scale is negative. -/
def roundScaleV3 (n : ObNumber) (scale : Int) (usingFloatingScale : Bool) : ObNumber :=
  if n.isZero then n
  else
    let len : Int := n.d.len
    let digit0Len : Int := getDigitLenV2 (n.digits.getD 0 0)
    let exprValue := n.d.exponent
    let integerLength : Int := if 0 ≤ exprValue then exprValue + 1 else 0
    let validIntegerLength := if integerLength < len then integerLength else len
    let integerCount := if 0 < validIntegerLength then digit0Len + (integerLength - 1) * maxStoreLen else 0
    let validDecimalLength := if integerLength < len then len - integerLength else 0
    let decimalLength :=
      validDecimalLength + if integerLength = 0 ∧ usingFloatingScale = false then -exprValue - 1 else 0
    let fs := if usingFloatingScale ∧ 0 < validIntegerLength then scale - integerCount else scale
    if 0 < fs then
      -- round the fraction
      let roundLength := fs / maxStoreLen
      if decimalLength ≤ roundLength then n
      else if validDecimalLength < decimalLength ∧ roundLength < decimalLength - validDecimalLength then zero
      else
        let newLen := (len - (decimalLength - (roundLength + 1))).toNat
        n.roundAt n.digits newLen (newLen - 1) (fs - roundLength * maxStoreLen).toNat
    else if fs < 0 then
      -- round the integer part
      let roundLength := -fs / maxStoreLen
      let round := -fs - roundLength * maxStoreLen
      let roundIntegerLength := roundLength + if round = 0 then 0 else 1
      if integerLength < roundIntegerLength then zero
      else if validIntegerLength < integerLength ∧ roundIntegerLength ≤ integerLength - validIntegerLength then n
      else
        let newLen := (integerLength - roundIntegerLength + 1).toNat
        n.roundAt n.digits newLen (newLen - 1) (maxStoreLen - round).toNat
    else if decimalLength = 0 then n
    else if 0 < validIntegerLength then
      n.roundAt n.digits validIntegerLength.toNat validIntegerLength.toNat 0
    else if base / 2 ≤ n.digits.getD 0 0 ∧ n.d.exponent = -1 then n.setOne
    else zero

def isLt1 (d : Desc) : Bool :=
  (d.sign = negative && expZero < d.exp.val) || (d.sign = positive && 0 < d.exp.val && d.exp.val < expZero)

def isGe1 (d : Desc) : Bool :=
  (d.sign = negative && d.exp.val ≤ expZero) || (d.sign = positive && expZero ≤ d.exp.val)

/-- `exp_check_(desc, is_oracle_mode)`: the exponent `exp_` encodes must be within the integer or
the decimal range. -/
def expCheck (d : Desc) (isOracleMode : Bool) : Except ObErr Unit :=
  let exp := ((d.exp.val : Int) - expZero).natAbs
  if isGe1 d ∧ (if isOracleMode then maxIntegerExp ≤ exp else maxIntegerExp < exp) then
    .error .integerPrecisionOverflow
  else if maxDecimalExp < exp ∧ isLt1 d then .error .decimalPrecisionOverflow
  else .ok ()

/-! ## `from_v3_` -/

/-- `from_v3_(str, length, allocator, warning, NULL, precision, scale, attr, do_rounding)` in MySQL
mode: the number, and whether `warning` was set to `OB_INVALID_NUMERIC`. A number too small for
the exponent check is zero. -/
def fromV3 (s : List Char) (doRounding : Bool) : Except ObErr (ObNumber × Bool) := do
  let r ← findPointRange s
  let (digits, exp) := constructDigits s r.startIdx r.floatingPoint r.endIdx calcBufferSize 0
  let sign := if r.negative then negative else positive
  if digits.length = 0 then pure (zero, r.invalidNumeric)
  else
    -- `d.exp_ = 0x7f & (uint8_t)(EXP_ZERO + exp)`, before any check of `exp`
    let n : ObNumber := ⟨⟨digits.length, encodeExp sign exp, sign⟩, digits⟩
    let n := if doRounding then n.roundScaleV3 floatingScale true else n
    match expCheck n.d false with
    | .ok _ => pure (n, r.invalidNumeric)
    | .error e => if e = .decimalPrecisionOverflow then pure (zero, r.invalidNumeric) else .error e

/-! ## A one followed by zeros -/

section Scans
variable {p : Char → Bool} {s : List Char}

theorem scanFwd_self {stop f ptr : Nat} (h : p (s.getD ptr ' ') = false) : scanFwd p s stop f ptr = ptr := by
  cases f with
  | zero => rfl
  | succ f => simp only [scanFwd, h, Bool.and_false, Bool.false_eq_true, if_false]

theorem scanFwd_stop {stop : Nat} (hall : ∀ i, i < stop → p (s.getD i ' ') = true) :
    ∀ {f ptr : Nat}, ptr ≤ stop → stop - ptr ≤ f → scanFwd p s stop f ptr = stop := by
  intro f
  induction f with
  | zero => intro ptr h1 h2; simp only [scanFwd]; omega
  | succ f ih =>
    intro ptr h1 h2
    by_cases hlt : ptr < stop
    · simp only [scanFwd, hlt, decide_true, hall ptr hlt, Bool.and_true, if_true]
      exact ih (by omega) (by omega)
    · simp only [scanFwd, hlt, decide_false, Bool.false_and, Bool.false_eq_true, if_false]
      omega

theorem scanBack_self {start f stop : Nat} (h : p (s.getD (stop - 1) ' ') = false) :
    scanBack p s start f stop = stop := by
  cases f with
  | zero => rfl
  | succ f => simp only [scanBack, h, Bool.and_false, Bool.false_eq_true, if_false]

end Scans

section OneZeros

theorem getD_one_zeros_succ {k i : Nat} (hi : i < k) : ('1' :: List.replicate k '0').getD (i + 1) ' ' = '0' := by
  simp [hi]

theorem findPointRange_one_zeros (k : Nat) :
    findPointRange ('1' :: List.replicate k '0') = .ok ⟨0, (k + 1 : Nat), (k + 1 : Nat), false, false⟩ := by
  have hlen : ('1' :: List.replicate k '0').length = k + 1 := by simp
  have hdigits : ∀ i, i < k + 1 → Char.isDigit (('1' :: List.replicate k '0').getD i ' ') = true := by
    intro i hi
    cases i with
    | zero => rfl
    | succ i => rw [getD_one_zeros_succ (by omega)]; rfl
  have hfront : scanFwd isSpace ('1' :: List.replicate k '0') (k + 1) (k + 1) 0 = 0 := scanFwd_self rfl
  have hback : scanBack isSpace ('1' :: List.replicate k '0') 0 (k + 1) (k + 1) = k + 1 := by
    apply scanBack_self
    cases k with
    | zero => rfl
    | succ k => rw [show k + 1 + 1 - 1 = k + 1 by omega, getD_one_zeros_succ (by omega)]; rfl
  have hzeros : scanFwd (· == '0') ('1' :: List.replicate k '0') (k + 1) (k + 1) 0 = 0 := scanFwd_self rfl
  have hrun : scanFwd Char.isDigit ('1' :: List.replicate k '0') (k + 1) (k + 1) 0 = k + 1 :=
    scanFwd_stop hdigits (by omega) (by omega)
  have hc : ('1' :: List.replicate k '0').getD 0 ' ' = '1' := rfl
  simp only [findPointRange, hlen, hfront, hback, hc]
  simp only [Nat.add_one_ne_zero, if_false, show (0 : Nat) ≠ k + 1 by omega]
  simp only [show ('1' == '+' || '1' == '-') = false by decide, Bool.false_eq_true, if_false, hzeros, hrun]
  simp

theorem integerWords_zeros (m : Nat) :
    ∀ f i, i ≤ m → integerWords ('1' :: List.replicate (9 * m) '0') (9 * m + 1) f (9 * i + 1) maxStoreLen =
      List.replicate (min f (m - i)) 0 := by
  intro f
  induction f with
  | zero => intro i _; simp [integerWords]
  | succ f ih =>
    intro i hi
    by_cases him : i < m
    · have hword : atoi (slice ('1' :: List.replicate (9 * m) '0') (9 * i + 1) (9 * i + 1 + maxStoreLen)) = 0 := by
        have hslice : slice ('1' :: List.replicate (9 * m) '0') (9 * i + 1) (9 * i + 1 + maxStoreLen) =
            List.replicate 9 '0' := by
          simp only [slice, maxStoreLen, Nat.add_sub_cancel_left, List.drop_succ_cons, List.drop_replicate,
            List.take_replicate]
          congr 1
          omega
        rw [hslice]
        rfl
      have hnext := ih (i + 1) (by omega)
      rw [show 9 * (i + 1) + 1 = 9 * i + 1 + maxStoreLen by simp [maxStoreLen]; ring] at hnext
      simp only [integerWords, show 9 * i + 1 < 9 * m + 1 by omega, if_true, hword, hnext]
      rw [show min (f + 1) (m - i) = min f (m - (i + 1)) + 1 by omega, List.replicate_succ]
    · simp only [integerWords, show ¬9 * i + 1 < 9 * m + 1 by omega, if_false]
      rw [show m - i = 0 by omega, Nat.min_zero, List.replicate_zero]

theorem trimZeros_one_zeros (k : Nat) : trimZeros (1 :: List.replicate k 0) = [1] := by
  simp [trimZeros, List.reverse_replicate, List.dropWhile_append_of_pos]

theorem constructDigits_one_zeros (m : Nat) :
    constructDigits ('1' :: List.replicate (9 * m) '0') 0 (9 * m + 1 : Nat) (9 * m + 1 : Nat) calcBufferSize 0 =
      ([1], (m : Int)) := by
  have hints : integerWords ('1' :: List.replicate (9 * m) '0') (9 * m + 1) calcBufferSize 0 1 =
      1 :: List.replicate (min 9 m) 0 := by
    have h := integerWords_zeros m 9 0 (Nat.zero_le m)
    simp only [Nat.mul_zero, Nat.zero_add, Nat.sub_zero] at h
    have hone : atoi (slice ('1' :: List.replicate (9 * m) '0') 0 (0 + 1)) = 1 := rfl
    rw [show calcBufferSize = 9 + 1 from rfl, integerWords, if_pos (by omega), hone, Nat.zero_add, h]
  have hstep : ((9 * m + 1 : Nat) - (0 : Int)).toNat = 9 * m + 1 := by omega
  simp only [constructDigits, show (0 : Int) < ((9 * m + 1 : Nat) : Int) by omega, if_true, hstep,
    Int.toNat_zero, Int.toNat_natCast, Nat.add_sub_cancel, maxStoreLen, Nat.mul_mod_right, Nat.zero_add,
    Nat.mul_div_cancel_left m (by omega : 0 < 9), hints]
  simp [trimZeros_one_zeros]

theorem encodeExp_add_128 (sign : Fin 2) (e : Int) : encodeExp sign (e + 128) = encodeExp sign e := by
  simp only [encodeExp, ← Int.add_assoc, Int.add_emod_right]

theorem fromV3_one_zeros_add (m : Nat) (doRounding : Bool) :
    fromV3 ('1' :: List.replicate (9 * (m + 128)) '0') doRounding =
      fromV3 ('1' :: List.replicate (9 * m) '0') doRounding := by
  simp only [fromV3, findPointRange_one_zeros, bind, Except.bind]
  rw [constructDigits_one_zeros, constructDigits_one_zeros]
  simp only [Nat.cast_add, Nat.cast_ofNat, encodeExp_add_128]

end OneZeros

/-- `from_v3_` reads the decimal ten to the 1152nd, a one followed by 1152 zeros, as the number one,
with no error and no warning: its exponent of 128 words is packed into `exp_` as that of one. -/
theorem fromV3_wraps_exponent :
    fromV3 ('1' :: List.replicate 1152 '0') true = .ok (⟨⟨1, 64, positive⟩, [1]⟩, false) ∧
      value ⟨⟨1, 64, positive⟩, [1]⟩ = 1 := by
  constructor
  · rw [show 1152 = 9 * (0 + 128) from rfl, fromV3_one_zeros_add]
    decide
  · have hexp : (⟨1, 64, positive⟩ : Desc).exponent = 0 := by decide
    have hsign : positive ≠ negative := by decide
    simp [value, magnitude, hexp, hsign, Lib.ofDigitsBE]

end ObNumber
end Common
end OceanBase
