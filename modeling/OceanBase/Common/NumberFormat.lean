import Mathlib
import OceanBase.Common.FastFormat
import OceanBase.Common.NumberText

/-! The integer fast path of `ObNumber::format_v2`, `format_int64` (`lib/number/ob_number_v2.cpp`),
in MySQL mode, and what `from_v3_` reads back from the texts the number format and
`ObFastFormatInt` write. A normalized number is fixed by its value, so a text that reads as the
value reads as the number itself: `from_v3_` undoes `format_int64` on every normalized number it
prints, and the text `format_signed` writes for a machine integer reads as the number
`from_integer_` builds for it. -/
namespace OceanBase
namespace Common
namespace ObNumber

open Lib ObFastFormatInt

def digitLen : Nat := 9

/-- `is_integer(expr_value)`: zero, or a number whose words all stand before the point. -/
def isInteger (n : ObNumber) (exprValue : Int) : Bool :=
  if n.isZero then true
  else if n.d.len = 0 then false
  else !(decide (exprValue < 0) || decide (exprValue + 1 < n.d.len))

/-- The characters `format_int64` writes before the zeros of the scale: the sign and the digits of
a number of at most two words, all before the point (`is_int32`, `is_int64_without_expr`,
`is_int64_with_expr`); `none` where it clears `is_finish`. A first word of more than `DIGIT_LEN`
digits is `OB_ERR_UNEXPECTED`. -/
def formatInt64Body (n : ObNumber) : Except ObErr (Option (List Char)) :=
  if n.isZero then pure (some ['0'])
  else
    let sign := if n.isNegative then ['-'] else []
    let exprValue := n.d.exponent
    if !isInteger n exprValue then pure none
    else if n.d.len = 1 ∧ exprValue = 0 then
      if digitLen < digits10 (n.digits.getD 0 0) then throw .errUnexpected
      else pure (some (sign ++ formatUnsigned (n.digits.getD 0 0) []))
    else if n.d.len = 2 ∧ exprValue = 1 then
      if digitLen < digits10 (n.digits.getD 0 0) then throw .errUnexpected
      else
        -- `ObFastFormatInt ffi(digits_[1])`, padded on the left with zeros to `DIGIT_LEN`
        let ffi := formatUnsigned (n.digits.getD 1 0) []
        if digitLen < ffi.length then throw .errUnexpected
        else pure (some (sign ++ formatUnsigned (n.digits.getD 0 0) [] ++ List.replicate (digitLen - ffi.length) '0' ++ ffi))
    else if n.d.len = 1 ∧ exprValue = 1 then
      if digitLen < digits10 (n.digits.getD 0 0) then throw .errUnexpected
      else pure (some (sign ++ formatUnsigned (n.digits.getD 0 0) [] ++ List.replicate digitLen '0'))
    else pure none

/-- The pad zero of `format_int64` in MySQL mode: a point and `scale` zeros after a positive scale,
at most `FLOATING_SCALE` of them. -/
def padScale (scale : Int) (cs : List Char) : Except ObErr (List Char) :=
  if 0 < scale then
    if floatingScale < scale then throw .errUnexpected
    else pure (cs ++ '.' :: List.replicate scale.toNat '0')
  else pure cs

/-- `format_int64(buf, pos, scale, is_finish)` in MySQL mode: the characters written, or `none`
where `format_v2` goes on to print the number its general way. -/
def formatInt64 (n : ObNumber) (scale : Int) : Except ObErr (Option (List Char)) := do
  let body ← formatInt64Body n
  body.mapM (padScale scale)

theorem formatInt64_cases {n : ObNumber} {scale : Int} {cs : List Char} (h : formatInt64 n scale = .ok (some cs)) :
    ∃ body, formatInt64Body n = .ok (some body) ∧ padScale scale body = .ok cs := by
  unfold formatInt64 at h
  rcases hb : formatInt64Body n with e | _ | body
  · simp [hb, bind, Except.bind] at h
  · simp [hb, bind, Except.bind, Option.mapM, pure, Except.pure] at h
  · rcases hp : padScale scale body with e | cs'
    · simp [hb, hp, bind, Except.bind, Option.mapM] at h
    · simp only [hb, hp, bind, Except.bind, Option.mapM, Except.map, Functor.map, Except.ok.injEq,
        Option.some.injEq] at h
      exact ⟨body, rfl, h ▸ hp⟩

theorem padScale_frac {scale : Int} {cs out : List Char} (h : padScale scale cs = .ok out) :
    ∃ fr, out = cs ++ fr ∧ (fr = [] ∨ ∃ k, fr = '.' :: List.replicate k '0') := by
  unfold padScale at h
  split_ifs at h with h0 h72
  · cases h
    exact ⟨_, rfl, .inr ⟨_, rfl⟩⟩
  · cases h
    exact ⟨[], (List.append_nil _).symm, .inl rfl⟩

/-! ## A normalized number is its value -/

theorem Normalized.len_eq {n : ObNumber} (hn : Normalized n) : n.d.len = n.digits.length := by
  cases hn with
  | zero => rfl
  | nonzero e he hexp hlen => exact hlen

theorem Normalized.eq_of_value_eq {a b : ObNumber} (ha : Normalized a) (hb : Normalized b)
    (h : a.value = b.value) : a = b := by
  have heq := (isEqualV2_iff ha hb).2 h
  have hla := ha.len_eq
  have hlb := hb.len_eq
  simp only [isEqualV2, uint32equalV2, Bool.and_eq_true, beq_iff_eq] at heq
  obtain ⟨⟨hse, hlen⟩, htake⟩ := heq
  obtain ⟨⟨la, ea, sa⟩, da⟩ := a
  obtain ⟨⟨lb, eb, sb⟩, db⟩ := b
  simp only [Desc.se] at hse hla hlb hlen htake
  have hea := ea.isLt
  have heb := eb.isLt
  have hs : sa = sb := Fin.ext (by omega)
  have he : ea = eb := Fin.ext (by omega)
  have hd : da = db := by
    have hl : da.length = db.length := by omega
    rw [hla, List.take_length, hl, List.take_length] at htake
    exact htake
  rw [hs, he, hd, hlen]

/-! ## The digits `ObFastFormatInt` writes -/

theorem toDigits_head_ne_zero {v : Nat} (hv : 0 < v) : ∃ c cs, Nat.toDigits 10 v = c :: cs ∧ c ≠ '0' := by
  obtain ⟨c, cs, hcs⟩ := List.exists_cons_of_ne_nil (Nat.toDigits_ne_nil (n := v) (b := 10))
  refine ⟨c, cs, hcs, fun hc => ?_⟩
  have hdig : ∀ x ∈ cs, x.isDigit = true := fun x hx =>
    Nat.isDigit_of_mem_toDigits (by decide) (by decide) (hcs ▸ List.mem_cons_of_mem c hx)
  have hval : atoi cs = v := by
    have h := atoi_toDigits v
    rw [hcs, atoi_cons, hc, Nat.sub_self, Nat.zero_mul, Nat.zero_add] at h
    exact h
  rcases Nat.eq_zero_or_pos cs.length with hk | hk
  · rw [List.length_eq_zero_iff.1 hk, atoi_nil] at hval
    omega
  · have hle := (Nat.length_toDigits_le_iff (by decide) hk).2 (hval ▸ atoi_lt hdig)
    rw [hcs, List.length_cons] at hle
    omega

theorem toDigits_isDigit (v : Nat) : ∀ c ∈ Nat.toDigits 10 v, c.isDigit = true :=
  fun _ hc => Nat.isDigit_of_mem_toDigits (by decide) (by decide) hc

theorem length_toDigits_le {v k : Nat} (hv : v < 10 ^ k) (hk : 0 < k) : (Nat.toDigits 10 v).length ≤ k :=
  (Nat.length_toDigits_le_iff (by decide) hk).2 hv

/-- The text `ObFastFormatInt::format_signed` writes for a machine integer reads through
`from_v3_` as the number `from_integer_` builds for it, with no warning, rounded or not: the two
ways an integer becomes a number agree. -/
theorem fromV3_formatSigned (v : Int) (hv : v.natAbs < 2 ^ 64) (doRounding : Bool) :
    fromV3 (formatSigned v) doRounding = .ok (fromInteger v, false) := by
  rw [formatSigned_eq]
  by_cases h0 : v = 0
  · subst h0
    have ht : IntegerText [] ['0'] [] [] := ⟨.inl rfl, by simp, by simp, .inl rfl⟩
    have h := ht.fromV3_zeros (by simp) doRounding
    simp only [List.append_nil, List.nil_append] at h
    simpa [fromInteger] using h
  · obtain ⟨c, cs, hds, hc⟩ := toDigits_head_ne_zero (Int.natAbs_pos.2 h0)
    have ht : IntegerText (if v < 0 then ['-'] else []) [] (Nat.toDigits 10 v.natAbs) [] :=
      ⟨by split_ifs <;> simp, by simp, toDigits_isDigit _, .inl rfl⟩
    have h72 : (Nat.toDigits 10 v.natAbs).length ≤ 72 :=
      length_toDigits_le (lt_of_lt_of_le hv (by norm_num)) (by norm_num)
    obtain ⟨m, hm, hnorm, hval⟩ := ht.fromV3_eq hds hc h72 doRounding
    simp only [List.append_nil] at hm
    rw [hm, Normalized.eq_of_value_eq hnorm (fromInteger_normalized hv)]
    rw [hval, value_fromInteger hv, atoi_toDigits, Nat.cast_natAbs]
    by_cases hneg : v < 0
    · simp [hneg, abs_of_neg (show (v : ℚ) < 0 by exact_mod_cast hneg)]
    · simp [hneg, abs_of_nonneg (show (0 : ℚ) ≤ v by exact_mod_cast not_lt.1 hneg)]

/-- `INT64_MIN` written and read back. -/
theorem fromV3_formatSigned_int64Min :
    (-2 ^ 63 : Int).natAbs < 2 ^ 64 ∧ fromV3 (formatSigned (-2 ^ 63)) true = .ok (fromInteger (-2 ^ 63), false) :=
  ⟨by norm_num, fromV3_formatSigned _ (by norm_num) true⟩

/-! ## `format_int64` read back -/

theorem magnitude_of_integral {n : ObNumber} {k : Nat} (h : n.d.exponent - n.digits.length + 1 = k) :
    n.magnitude = ((ofDigitsBE base n.digits * base ^ k : Nat) : ℚ) := by
  unfold magnitude
  rw [h, zpow_natCast]
  push_cast
  rfl

theorem word_text {d : Nat} (h0 : 0 < d) (hb : d < base) (tail : List Char)
    (htail : ∀ x ∈ tail, x.isDigit = true) (hlen : tail.length ≤ digitLen) :
    ∃ c cs, Nat.toDigits 10 d ++ tail = c :: cs ∧ c ≠ '0' ∧ (∀ x ∈ c :: cs, x.isDigit = true) ∧
      (c :: cs).length ≤ 72 := by
  obtain ⟨c, cs, hds, hc⟩ := toDigits_head_ne_zero h0
  have hd9 : (Nat.toDigits 10 d).length ≤ 9 := length_toDigits_le (by simpa [base] using hb) (by decide)
  refine ⟨c, cs ++ tail, by rw [hds, List.cons_append], hc, ?_, ?_⟩
  · rw [← List.cons_append, ← hds]
    intro x hx
    rcases List.mem_append.1 hx with hx | hx
    · exact toDigits_isDigit d x hx
    · exact htail x hx
  · rw [← List.cons_append, ← hds, List.length_append]
    simp only [digitLen] at hlen
    omega

theorem formatInt64Body_text {n : ObNumber} (hn : Normalized n) {body : List Char}
    (h : formatInt64Body n = .ok (some body)) :
    (n = zero ∧ body = ['0']) ∨
    ∃ c cs, body = (if n.isNegative then ['-'] else []) ++ c :: cs ∧ c ≠ '0' ∧
      (∀ x ∈ c :: cs, x.isDigit = true) ∧ (c :: cs).length ≤ 72 ∧ ((atoi (c :: cs) : Nat) : ℚ) = n.magnitude := by
  cases hn with
  | zero =>
    left
    simp only [formatInt64Body, zero, isZero, beq_self_eq_true, if_true, pure, Except.pure, Except.ok.injEq,
      Option.some.injEq] at h
    exact ⟨rfl, h.symm⟩
  | @nonzero d digits e he hexp hlen hd hhead hlast =>
    right
    obtain ⟨hex, -⟩ := exponent_of_encodeExp he hexp
    have hz : isZero ⟨d, digits⟩ = false := by
      simp only [isZero, beq_eq_false_iff_ne, hlen]
      intro h0
      rw [List.length_eq_zero_iff.1 h0] at hhead
      simp at hhead
    unfold formatInt64Body at h
    rw [if_neg (by simp [hz])] at h
    dsimp only at h
    generalize (if isNegative ⟨d, digits⟩ = true then ['-'] else []) = sg at h ⊢
    split_ifs at h with hint h32 hlen32 h64 hlen64 hffi h64e hlen64e
    · simp [pure, Except.pure] at h
    · obtain ⟨x, rfl⟩ := List.length_eq_one_iff.1 (hlen ▸ h32.1)
      simp only [pure, Except.pure, Except.ok.injEq, Option.some.injEq, List.getD_cons_zero,
        formatUnsigned_eq, List.append_nil] at h
      have hx : 0 < x := by simpa using hhead
      obtain ⟨c, cs, hcs, hc, hdig, h72⟩ := word_text hx (hd x (by simp)) [] (by simp) (by simp [digitLen])
      rw [List.append_nil] at hcs
      refine ⟨c, cs, by rw [← h, hcs], hc, hdig, h72, ?_⟩
      rw [magnitude_of_integral (k := 0) (by simp only [List.length_singleton]; omega), ← hcs, atoi_toDigits]
      simp [ofDigitsBE]
    · obtain ⟨x, y, rfl⟩ := List.length_eq_two.1 (hlen ▸ h64.1)
      simp only [pure, Except.pure, Except.ok.injEq, Option.some.injEq, List.getD_cons_zero, List.getD_cons_succ,
        formatUnsigned_eq, List.append_nil] at h hffi
      have hy : (Nat.toDigits 10 y).length ≤ digitLen := by simpa using hffi
      have htail : ∀ z ∈ List.replicate (digitLen - (Nat.toDigits 10 y).length) '0' ++ Nat.toDigits 10 y,
          z.isDigit = true := by
        intro z hz
        rcases List.mem_append.1 hz with hz | hz
        · rw [List.eq_of_mem_replicate hz]; rfl
        · exact toDigits_isDigit y z hz
      have hx : 0 < x := by simpa using hhead
      obtain ⟨c, cs, hcs, hc, hdig, h72⟩ := word_text hx (hd x (by simp)) _ htail (by simp; omega)
      refine ⟨c, cs, by rw [← h, ← hcs, List.append_assoc, List.append_assoc], hc, hdig, h72, ?_⟩
      rw [magnitude_of_integral (k := 0) (by simp only [List.length_cons, List.length_nil]; omega), ← hcs,
        atoi_append, atoi_toDigits, atoi_append, atoi_of_zeros (fun z hz => List.eq_of_mem_replicate hz),
        atoi_toDigits, List.length_append, List.length_replicate, Nat.sub_add_cancel hy]
      simp [ofDigitsBE_cons, base, digitLen]
    · obtain ⟨x, rfl⟩ := List.length_eq_one_iff.1 (hlen ▸ h64e.1)
      simp only [pure, Except.pure, Except.ok.injEq, Option.some.injEq, List.getD_cons_zero,
        formatUnsigned_eq, List.append_nil] at h
      have hx : 0 < x := by simpa using hhead
      obtain ⟨c, cs, hcs, hc, hdig, h72⟩ := word_text hx (hd x (by simp)) (List.replicate digitLen '0')
        (fun z hz => by rw [List.eq_of_mem_replicate hz]; rfl) (by simp)
      refine ⟨c, cs, by rw [← h, ← hcs, List.append_assoc], hc, hdig, h72, ?_⟩
      rw [magnitude_of_integral (k := 1) (by simp only [List.length_singleton]; omega), ← hcs, atoi_append, atoi_toDigits,
        atoi_of_zeros (fun z hz => List.eq_of_mem_replicate hz)]
      simp [ofDigitsBE, digitLen, base]
    · simp [pure, Except.pure] at h

/-- `from_v3_` reads back every text `format_int64` writes for a normalized number, whatever the
scale: the number printed, with no warning, rounded or not. -/
theorem formatInt64_round_trip {n : ObNumber} (hn : Normalized n) {scale : Int} {cs : List Char}
    (h : formatInt64 n scale = .ok (some cs)) (doRounding : Bool) : fromV3 cs doRounding = .ok (n, false) := by
  obtain ⟨body, hbody, hpad⟩ := formatInt64_cases h
  obtain ⟨fr, rfl, hfr⟩ := padScale_frac hpad
  rcases formatInt64Body_text hn hbody with ⟨rfl, rfl⟩ | ⟨c, ds, rfl, hc, hdig, h72, hmag⟩
  · have ht : IntegerText [] ['0'] [] fr := ⟨.inl rfl, by simp, by simp, hfr⟩
    simpa using ht.fromV3_zeros (by simp) doRounding
  · have ht : IntegerText (if n.isNegative then ['-'] else []) [] (c :: ds) fr :=
      ⟨by split_ifs <;> simp, by simp, hdig, hfr⟩
    obtain ⟨m, hm, hnorm, hval⟩ := ht.fromV3_eq rfl hc h72 doRounding
    simp only [List.append_nil] at hm
    rw [hm, Normalized.eq_of_value_eq hnorm hn]
    rw [hval]
    unfold value isNegative
    rw [← hmag]
    rcases sign_cases n.d.sign with hs | hs
    · simp [hs]
    · simp [hs, show positive ≠ negative by decide]

def minusTwoWords : ObNumber := ⟨⟨2, encodeExp negative 1, negative⟩, [1, 234567890]⟩

theorem formatInt64_round_trip_minusTwoWords :
    Normalized minusTwoWords ∧ formatInt64 minusTwoWords 2 = .ok (some "-1234567890.00".toList) ∧
      fromV3 "-1234567890.00".toList true = .ok (minusTwoWords, false) := by
  have hn : Normalized minusTwoWords := .nonzero 1 ⟨by decide, by decide⟩ rfl rfl (by decide) (by decide) (by decide)
  have hf : formatInt64 minusTwoWords 2 = .ok (some "-1234567890.00".toList) := by
    simp only [formatInt64, formatInt64Body, formatUnsigned_eq]
    decide +kernel
  exact ⟨hn, hf, formatInt64_round_trip hn hf true⟩

end ObNumber
end Common
end OceanBase
