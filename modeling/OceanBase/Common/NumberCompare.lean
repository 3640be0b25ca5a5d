import Mathlib
import OceanBase.Lib.Digits
import OceanBase.Common.Number

/-! What the comparisons of `ObNumber` compute. A normalized number has a rational value; on
normalized numbers `compare_v2`, the descriptor `compare` of `compare_v1` and `is_equal_v2`
compare the values, and `compare(int64_t)` and `compare(uint64_t)` compare the value with the
integer, as comparing with the number `from_integer_` builds for it does. -/
namespace OceanBase
namespace Common

open Lib

theorem Desc.se_eq (d : Desc) :
    (d.se : Int) = if d.sign = negative then (expZero : Int) - d.exponent
      else 128 + expZero + d.exponent := by
  obtain ⟨len,exp,sign⟩ := d
  unfold Desc.se Desc.exponent
  fin_cases sign <;> simp [negative,expZero]; omega

theorem exponent_of_encodeExp {d : Desc} {e : Int} (he : -63 ≤ e ∧ e ≤ 63)
    (hexp : d.exp = encodeExp d.sign e) : d.exponent = e ∧ 1 ≤ d.exp.val := by
  obtain ⟨len,exp,sign⟩ := d
  simp only at hexp ⊢
  subst hexp
  have hx : (((expZero : Int) + e) % 128).toNat = (64 + e).toNat := by
    rw [Int.emod_eq_of_lt (by simp [expZero]; omega) (by simp [expZero]; omega)]
    simp [expZero]
  unfold encodeExp Desc.exponent
  fin_cases sign
  · simp only [hx,negative]
    simp [Fin.val_add,Fin.val_rev,expZero]
    omega
  · simp only [hx,negative]
    simp [expZero]
    omega

namespace ObNumber

/-- The magnitude of a number: its digits in base `BASE`, the first weighing `BASE ^ e` for the
exponent `e` of its descriptor. -/
def magnitude (n : ObNumber) : ℚ :=
  (ofDigitsBE base n.digits : ℚ) * (base : ℚ) ^ (n.d.exponent - n.digits.length + 1)

def value (n : ObNumber) : ℚ := if n.d.sign = negative then -n.magnitude else n.magnitude

/-- The normalized numbers: `set_zero`'s zero, and the numbers whose `exp_` encodes an exponent
within the seven bits as `calc_desc_and_check` does, with `len_` digits below `BASE`, the first
and the last not zero. -/
inductive Normalized : ObNumber → Prop
  | zero : Normalized ObNumber.zero
  | nonzero {d : Desc} {digits : List Nat} (e : Int) (he : -63 ≤ e ∧ e ≤ 63)
      (hexp : d.exp = encodeExp d.sign e) (hlen : d.len = digits.length)
      (hdigits : ∀ x ∈ digits, x < base) (hhead : 0 < digits.headD 0)
      (hlast : 0 < digits.getLastD 0) : Normalized ⟨d,digits⟩

theorem one_lt_base : 1 < base := by decide

theorem base_pos_rat : (0 : ℚ) < base := by norm_num [base]

theorem magnitude_eq_scaled (n : ObNumber) (k : Nat) :
    n.magnitude = ((ofDigitsBE base n.digits * base ^ k : ℕ) : ℚ) *
      (base : ℚ) ^ (n.d.exponent - (n.digits.length + k : ℕ) + 1) := by
  unfold magnitude
  push_cast
  rw [mul_assoc,← zpow_natCast,← zpow_add₀ base_pos_rat.ne']
  congr 2
  ring

theorem magnitude_lt {n : ObNumber} (hd : ∀ x ∈ n.digits, x < base) :
    n.magnitude < (base : ℚ) ^ (n.d.exponent + 1) := by
  have hv : (ofDigitsBE base n.digits : ℚ) < (base : ℚ) ^ (n.digits.length : ℤ) := by
    rw [zpow_natCast]
    exact_mod_cast ofDigitsBE_lt one_lt_base hd
  calc n.magnitude < (base : ℚ) ^ (n.digits.length : ℤ) *
        (base : ℚ) ^ (n.d.exponent - n.digits.length + 1) :=
        mul_lt_mul_of_pos_right hv (zpow_pos base_pos_rat _)
    _ = (base : ℚ) ^ (n.d.exponent + 1) := by
        rw [← zpow_add₀ base_pos_rat.ne']
        congr 1
        ring

theorem pow_le_magnitude {n : ObNumber} (hhead : 0 < n.digits.headD 0) :
    (base : ℚ) ^ n.d.exponent ≤ n.magnitude := by
  obtain ⟨d,digits⟩ := n
  cases digits with
  | nil => simp at hhead
  | cons x xs =>
    simp only [List.headD_cons] at hhead
    have hv : (base : ℚ) ^ (xs.length : ℤ) ≤ (ofDigitsBE base (x :: xs) : ℚ) := by
      rw [zpow_natCast]
      exact_mod_cast pow_le_ofDigitsBE_cons base hhead xs
    calc (base : ℚ) ^ d.exponent = (base : ℚ) ^ (xs.length : ℤ) *
          (base : ℚ) ^ (d.exponent - (x :: xs).length + 1) := by
          rw [← zpow_add₀ base_pos_rat.ne']
          congr 1
          simp only [List.length_cons]
          push_cast
          ring
      _ ≤ magnitude ⟨d,x :: xs⟩ := mul_le_mul_of_nonneg_right hv (zpow_pos base_pos_rat _).le

/-! ### The digit scans -/

/-- A digit scan compares the values of the first `n` digits of two strings of digits. -/
def ScansDigits (digitCmp : List Nat → List Nat → Nat → Int) : Prop :=
  ∀ xs ys n, (∀ x ∈ xs, x < base) → (∀ y ∈ ys, y < base) → n ≤ xs.length → n ≤ ys.length →
    digitCmp xs ys n = cmp3 (ofDigitsBE base (xs.take n)) (ofDigitsBE base (ys.take n))

theorem cmp3_take_succ {x y : Nat} {xs ys : List Nat} {n : Nat} (hx : ∀ d ∈ x :: xs, d < base)
    (hy : ∀ d ∈ y :: ys, d < base) (hnx : n + 1 ≤ (x :: xs).length) (hny : n + 1 ≤ (y :: ys).length) :
    cmp3 (ofDigitsBE base ((x :: xs).take (n + 1))) (ofDigitsBE base ((y :: ys).take (n + 1))) =
      if x < y then -1 else if y < x then 1
      else cmp3 (ofDigitsBE base (xs.take n)) (ofDigitsBE base (ys.take n)) := by
  simp only [List.take_succ_cons]
  refine cmp3_ofDigitsBE_cons one_lt_base (fun d hd => hx d (List.mem_cons_of_mem _
    (List.mem_of_mem_take hd))) (fun d hd => hy d (List.mem_cons_of_mem _ (List.mem_of_mem_take hd))) ?_
  simp only [List.length_take,List.length_cons] at hnx hny ⊢
  omega

theorem scansDigits_uint32cmp : ScansDigits uint32cmp := by
  intro xs
  induction xs with
  | nil =>
    intro ys n _ _ hn _
    simp only [List.length_nil,Nat.le_zero] at hn
    subst hn
    simp [uint32cmp]
  | cons x xs ih =>
    intro ys n hx hy hnx hny
    cases n with
    | zero => cases ys <;> simp [uint32cmp]
    | succ n =>
      cases ys with
      | nil => simp at hny
      | cons y ys =>
        rw [cmp3_take_succ hx hy hnx hny,uint32cmp,ih ys n (fun d hd => hx d (List.mem_cons_of_mem _ hd))
          (fun d hd => hy d (List.mem_cons_of_mem _ hd)) (by simp at hnx; omega) (by simp at hny; omega)]

theorem scansDigits_uint32cmpV2 : ScansDigits uint32cmpV2 := by
  intro xs
  induction xs with
  | nil =>
    intro ys n _ _ hn _
    simp only [List.length_nil,Nat.le_zero] at hn
    subst hn
    simp [uint32cmpV2]
  | cons x xs ih =>
    intro ys n hx hy hnx hny
    cases n with
    | zero => cases ys <;> simp [uint32cmpV2]
    | succ n =>
      cases ys with
      | nil => simp at hny
      | cons y ys =>
        rw [cmp3_take_succ hx hy hnx hny,uint32cmpV2,ih ys n (fun d hd => hx d (List.mem_cons_of_mem _ hd))
          (fun d hd => hy d (List.mem_cons_of_mem _ hd)) (by simp at hnx; omega) (by simp at hny; omega)]
        rcases lt_trichotomy x y with h | h | h
        · simp [h,not_lt.mpr h.le,h.ne]
        · simp [h]
        · simp [h,not_lt.mpr h.le]

theorem ofDigitsBE_pos_of_getLastD {l : List Nat} (h : 0 < l.getLastD 0) : 0 < ofDigitsBE base l := by
  obtain ⟨d,rfl⟩ | ⟨xs,d,rfl⟩ := l.eq_nil_or_concat'
  · simp at h
  · simp only [List.getLastD_eq_getLast?,List.getLast?_concat,Option.getD_some] at h
    exact ofDigitsBE_pos_of_last base xs h

theorem compareDigits_eq {digitCmp : List Nat → List Nat → Nat → Int} (hscan : ScansDigits digitCmp)
    {a b : ObNumber} (hla : a.d.len = a.digits.length) (hlb : b.d.len = b.digits.length)
    (hda : ∀ x ∈ a.digits, x < base) (hdb : ∀ x ∈ b.digits, x < base)
    (hlasta : 0 < a.digits.getLastD 0) (hlastb : 0 < b.digits.getLastD 0) :
    compareDigits digitCmp a b =
      cmp3 (ofDigitsBE base a.digits * base ^ (b.digits.length - a.digits.length))
        (ofDigitsBE base b.digits * base ^ (a.digits.length - b.digits.length)) := by
  unfold compareDigits
  rw [hla,hlb]
  rcases lt_trichotomy a.digits.length b.digits.length with hlt | heq | hgt
  · rw [if_neg hlt.ne,if_pos hlt,hscan _ _ _ hda hdb le_rfl hlt.le,List.take_length,
      Nat.sub_eq_zero_of_le hlt.le,pow_zero,mul_one]
    have hdrop : 0 < ofDigitsBE base (b.digits.drop a.digits.length) := by
      refine ofDigitsBE_pos_of_getLastD ?_
      rwa [List.getLastD_eq_getLast?,List.getLast?_drop,if_neg (by omega),
        ← List.getLastD_eq_getLast?]
    have h := cmp3_ofDigitsBE_append one_lt_base a.digits (b.digits.take a.digits.length)
      (fun d hd => hdb d (List.mem_of_mem_drop hd)) hdrop
    rw [List.take_append_drop,List.length_drop] at h
    rw [h]
    rcases lt_trichotomy (ofDigitsBE base a.digits) (ofDigitsBE base (b.digits.take a.digits.length))
      with h' | h' | h'
    · simp [cmp3_of_lt h',h'.le]
    · simp [h']
    · simp [cmp3_of_gt h',not_le.mpr h']
  · rw [if_pos heq,hscan _ _ _ hda hdb le_rfl heq.le,List.take_length,heq,List.take_length]
    simp
  · rw [if_neg hgt.ne',if_neg (not_lt.mpr hgt.le),hscan _ _ _ hda hdb hgt.le le_rfl,
      List.take_length,Nat.sub_eq_zero_of_le hgt.le,pow_zero,mul_one]
    have hdrop : 0 < ofDigitsBE base (a.digits.drop b.digits.length) := by
      refine ofDigitsBE_pos_of_getLastD ?_
      rwa [List.getLastD_eq_getLast?,List.getLast?_drop,if_neg (by omega),
        ← List.getLastD_eq_getLast?]
    have h := cmp3_ofDigitsBE_append one_lt_base b.digits (a.digits.take b.digits.length)
      (fun d hd => hda d (List.mem_of_mem_drop hd)) hdrop
    rw [List.take_append_drop,List.length_drop] at h
    rw [cmp3_swap (ofDigitsBE base b.digits * base ^ (a.digits.length - b.digits.length)),h]
    rcases lt_trichotomy (ofDigitsBE base (a.digits.take b.digits.length)) (ofDigitsBE base b.digits)
      with h' | h' | h'
    · simp [cmp3_of_lt h',not_le.mpr h']
    · simp [h']
    · simp [cmp3_of_gt h',h'.le]

/-! ### Comparing two numbers -/

theorem sign_cases (s : Fin 2) : s = negative ∨ s = positive := by
  fin_cases s <;> simp [negative,positive]

theorem value_of_negative {n : ObNumber} (h : n.d.sign = negative) : n.value = -n.magnitude := by
  simp [value,h]

theorem value_of_positive {n : ObNumber} (h : n.d.sign = positive) : n.value = n.magnitude := by
  simp [value,h,negative,positive]

theorem se_of_negative {d : Desc} (h : d.sign = negative) : (d.se : Int) = 64 - d.exponent := by
  rw [Desc.se_eq,if_pos h]
  rfl

theorem se_of_positive {d : Desc} (h : d.sign = positive) : (d.se : Int) = 192 + d.exponent := by
  rw [Desc.se_eq,if_neg (by simp [h,negative,positive])]
  rfl

structure NonzeroFacts (n : ObNumber) : Prop where
  exponent_ge : -63 ≤ n.d.exponent
  exponent_le : n.d.exponent ≤ 63
  len : n.d.len = n.digits.length
  digits : ∀ x ∈ n.digits, x < base
  last : 0 < n.digits.getLastD 0
  pow_le : (base : ℚ) ^ n.d.exponent ≤ n.magnitude
  lt_pow : n.magnitude < (base : ℚ) ^ (n.d.exponent + 1)

theorem NonzeroFacts.magnitude_pos {n : ObNumber} (h : NonzeroFacts n) : 0 < n.magnitude :=
  lt_of_lt_of_le (zpow_pos base_pos_rat _) h.pow_le

theorem Normalized.zero_or_nonzero {n : ObNumber} (hn : Normalized n) :
    n = ObNumber.zero ∨ NonzeroFacts n := by
  cases hn with
  | zero => exact .inl rfl
  | @nonzero d digits e he hexp hlen hd hhead hlast =>
    obtain ⟨hex,-⟩ := exponent_of_encodeExp he hexp
    exact .inr ⟨by simp only [hex]; omega,by simp only [hex]; omega,hlen,hd,hlast,
      pow_le_magnitude hhead,magnitude_lt hd⟩

@[simp] theorem value_zero : zero.value = 0 := by
  simp [value,magnitude,zero]

@[simp] theorem se_zero : zero.d.se = 128 := rfl

theorem magnitude_lt_of_exponent_lt {a b : ObNumber} (ha : NonzeroFacts a) (hb : NonzeroFacts b)
    (h : a.d.exponent < b.d.exponent) : a.magnitude < b.magnitude :=
  calc a.magnitude < (base : ℚ) ^ (a.d.exponent + 1) := ha.lt_pow
    _ ≤ (base : ℚ) ^ b.d.exponent := zpow_le_zpow_right₀ (by norm_num [base]) (by omega)
    _ ≤ b.magnitude := hb.pow_le

theorem value_lt_of_se_lt {a b : ObNumber} (ha : Normalized a) (hb : Normalized b)
    (h : a.d.se < b.d.se) : a.value < b.value := by
  rcases ha.zero_or_nonzero with rfl | ha <;> rcases hb.zero_or_nonzero with rfl | hb
  · simp at h
  · rcases sign_cases b.d.sign with hs | hs
    · have := se_of_negative hs
      have := hb.exponent_ge
      simp only [se_zero] at h
      omega
    · rw [value_zero,value_of_positive hs]
      exact hb.magnitude_pos
  · rcases sign_cases a.d.sign with hs | hs
    · rw [value_zero,value_of_negative hs]
      exact neg_neg_of_pos ha.magnitude_pos
    · have := se_of_positive hs
      have := ha.exponent_ge
      simp only [se_zero] at h
      omega
  · rcases sign_cases a.d.sign with hsa | hsa <;> rcases sign_cases b.d.sign with hsb | hsb
    · have := se_of_negative hsa
      have := se_of_negative hsb
      rw [value_of_negative hsa,value_of_negative hsb,neg_lt_neg_iff]
      exact magnitude_lt_of_exponent_lt hb ha (by omega)
    · rw [value_of_negative hsa,value_of_positive hsb]
      exact (neg_neg_of_pos ha.magnitude_pos).trans hb.magnitude_pos
    · have := se_of_positive hsa
      have := se_of_negative hsb
      have := ha.exponent_ge
      have := hb.exponent_ge
      omega
    · have := se_of_positive hsa
      have := se_of_positive hsb
      rw [value_of_positive hsa,value_of_positive hsb]
      exact magnitude_lt_of_exponent_lt ha hb (by omega)

theorem cmp3_magnitude_of_exponent_eq {a b : ObNumber} (hex : a.d.exponent = b.d.exponent) :
    cmp3 a.magnitude b.magnitude =
      cmp3 (ofDigitsBE base a.digits * base ^ (b.digits.length - a.digits.length))
        (ofDigitsBE base b.digits * base ^ (a.digits.length - b.digits.length)) := by
  rw [magnitude_eq_scaled a (b.digits.length - a.digits.length),
    magnitude_eq_scaled b (a.digits.length - b.digits.length),hex,
    show a.digits.length + (b.digits.length - a.digits.length) =
      b.digits.length + (a.digits.length - b.digits.length) by omega]
  exact (cmp3_map (strictMono_mul_right_of_pos (zpow_pos base_pos_rat _)) _ _).trans
    (cmp3_map Nat.strictMono_cast _ _)

theorem compareWith_eq_cmp3 {digitCmp : List Nat → List Nat → Nat → Int} (hscan : ScansDigits digitCmp)
    {a b : ObNumber} (ha : Normalized a) (hb : Normalized b) :
    compareWith digitCmp a b = cmp3 a.value b.value := by
  unfold compareWith
  by_cases hse : a.d.se = b.d.se
  swap
  · rw [if_neg hse]
    rcases lt_or_gt_of_ne hse with hlt | hgt
    · rw [if_pos hlt,cmp3_of_lt (value_lt_of_se_lt ha hb hlt)]
    · rw [if_neg (not_lt.mpr hgt.le),cmp3_of_gt (value_lt_of_se_lt hb ha hgt)]
  rw [if_pos hse]
  rcases ha.zero_or_nonzero with rfl | ha' <;> rcases hb.zero_or_nonzero with rfl | hb'
  · simp [compareDigits,zero,hscan [] [] 0 (by simp) (by simp) le_rfl le_rfl]
  · rcases sign_cases b.d.sign with hs | hs
    · have := se_of_negative hs
      have := hb'.exponent_ge
      simp only [se_zero] at hse
      omega
    · have := se_of_positive hs
      have := hb'.exponent_ge
      simp only [se_zero] at hse
      omega
  · rcases sign_cases a.d.sign with hs | hs
    · have := se_of_negative hs
      have := ha'.exponent_ge
      simp only [se_zero] at hse
      omega
    · have := se_of_positive hs
      have := ha'.exponent_ge
      simp only [se_zero] at hse
      omega
  have hdig := compareDigits_eq hscan ha'.len hb'.len ha'.digits hb'.digits ha'.last hb'.last
  rcases sign_cases a.d.sign with hsa | hsa <;> rcases sign_cases b.d.sign with hsb | hsb
  · have := se_of_negative hsa
    have := se_of_negative hsb
    rw [← cmp3_magnitude_of_exponent_eq (by omega)] at hdig
    simp only [hsa,if_true,hdig,value_of_negative hsa,value_of_negative hsb,cmp3_neg]
  · have := se_of_negative hsa
    have := se_of_positive hsb
    have := ha'.exponent_ge
    have := hb'.exponent_ge
    omega
  · have := se_of_positive hsa
    have := se_of_negative hsb
    have := ha'.exponent_ge
    have := hb'.exponent_ge
    omega
  · have := se_of_positive hsa
    have := se_of_positive hsb
    rw [← cmp3_magnitude_of_exponent_eq (by omega)] at hdig
    simp only [hsa,hdig,value_of_positive hsa,value_of_positive hsb,positive,negative]
    rfl

theorem compareV2_eq_cmp3 {a b : ObNumber} (ha : Normalized a) (hb : Normalized b) :
    compareV2 a b = cmp3 a.value b.value :=
  compareWith_eq_cmp3 scansDigits_uint32cmpV2 ha hb

theorem compareV1_eq_cmp3 {a b : ObNumber} (ha : Normalized a) (hb : Normalized b) :
    compareV1 a b = cmp3 a.value b.value :=
  compareWith_eq_cmp3 scansDigits_uint32cmp ha hb

/-! ### Equality -/

theorem ofDigitsBE_mod_base_of_getLastD {l : List Nat} (hl : ∀ x ∈ l, x < base) (h : 0 < l.getLastD 0) :
    ofDigitsBE base l % base ≠ 0 := by
  obtain ⟨d,rfl⟩ | ⟨xs,d,rfl⟩ := l.eq_nil_or_concat'
  · simp at h
  · simp only [List.getLastD_eq_getLast?,List.getLast?_concat,Option.getD_some] at h
    have hd : d < base := hl d (by simp)
    rw [ofDigitsBE_append]
    simp only [ofDigitsBE,List.reverse_singleton,Nat.ofDigits_singleton,List.length_singleton,
      pow_one]
    rw [Nat.add_comm,Nat.add_mul_mod_self_right,Nat.mod_eq_of_lt hd]
    omega

theorem digits_eq_of_scaled_eq {xs ys : List Nat} (hx : ∀ x ∈ xs, x < base) (hy : ∀ y ∈ ys, y < base)
    (hlx : 0 < xs.getLastD 0) (hly : 0 < ys.getLastD 0)
    (h : ofDigitsBE base xs * base ^ (ys.length - xs.length) =
      ofDigitsBE base ys * base ^ (xs.length - ys.length)) : xs = ys := by
  rcases lt_trichotomy xs.length ys.length with hlt | heq | hgt
  · rw [Nat.sub_eq_zero_of_le hlt.le,pow_zero,mul_one] at h
    have hdvd : base ∣ ofDigitsBE base ys := by
      rw [← h]
      exact Dvd.dvd.mul_left (dvd_pow_self base (by omega)) _
    exact absurd (Nat.mod_eq_zero_of_dvd hdvd) (ofDigitsBE_mod_base_of_getLastD hy hly)
  · rw [heq,Nat.sub_self,pow_zero,mul_one,mul_one] at h
    have := Nat.ofDigits_inj_of_len_eq one_lt_base (by simpa using heq)
      (fun x hx' => hx x (List.mem_reverse.mp hx')) (fun y hy' => hy y (List.mem_reverse.mp hy')) h
    exact List.reverse_inj.mp this
  · rw [Nat.sub_eq_zero_of_le hgt.le,pow_zero,mul_one] at h
    have hdvd : base ∣ ofDigitsBE base xs := by
      rw [h]
      exact Dvd.dvd.mul_left (dvd_pow_self base (by omega)) _
    exact absurd (Nat.mod_eq_zero_of_dvd hdvd) (ofDigitsBE_mod_base_of_getLastD hx hlx)

theorem NonzeroFacts.se_ne {n : ObNumber} (h : NonzeroFacts n) : n.d.se ≠ 128 := by
  have := h.exponent_ge
  rcases sign_cases n.d.sign with hs | hs
  · have := se_of_negative hs
    omega
  · have := se_of_positive hs
    omega

theorem isEqualV2_iff {a b : ObNumber} (ha : Normalized a) (hb : Normalized b) :
    isEqualV2 a b = true ↔ a.value = b.value := by
  rw [← cmp3_eq_zero_iff (x := a.value),← compareV2_eq_cmp3 ha hb]
  unfold isEqualV2 uint32equalV2 compareV2 compareWith
  by_cases hse : a.d.se = b.d.se
  swap
  · simp only [Bool.and_eq_true,beq_iff_eq,hse,false_and,if_false,false_iff]
    split_ifs <;> simp
  simp only [hse,if_true,beq_self_eq_true,Bool.true_and,Bool.and_eq_true,beq_iff_eq]
  rcases ha.zero_or_nonzero with rfl | ha' <;> rcases hb.zero_or_nonzero with rfl | hb'
  · simp [compareDigits,zero,uint32cmpV2]
  · exact absurd hse.symm hb'.se_ne
  · exact absurd hse ha'.se_ne
  have hdig := compareDigits_eq scansDigits_uint32cmpV2 ha'.len hb'.len ha'.digits hb'.digits
    ha'.last hb'.last
  constructor
  · rintro ⟨hlen,htake⟩
    have hl : a.digits.length = b.digits.length := by rw [← ha'.len,← hb'.len,hlen]
    rw [ha'.len,List.take_length,hl,List.take_length] at htake
    rw [hdig,htake]
    split_ifs <;> simp
  · intro h0
    have hr : compareDigits uint32cmpV2 a b = 0 := by
      split_ifs at h0
      · exact neg_eq_zero.mp h0
      · exact h0
    rw [hdig,cmp3_eq_zero_iff] at hr
    have hd := digits_eq_of_scaled_eq ha'.digits hb'.digits ha'.last hb'.last hr
    exact ⟨by rw [ha'.len,hb'.len,hd],by rw [hd]⟩

/-! ### Against a machine integer -/

theorem readIntPart_eq (ds : List Nat) (hd : ∀ x ∈ ds, x < base) (k num : Nat) :
    readIntPart ds k num =
      (num * base ^ ds.length + ofDigitsBE base ds) * base ^ k / base ^ ds.length := by
  induction k generalizing ds num with
  | zero =>
    have hpos : 0 < base ^ ds.length := pow_pos (by decide) _
    simp only [readIntPart,pow_zero,mul_one]
    rw [Nat.mul_comm,Nat.mul_add_div hpos,Nat.div_eq_of_lt (ofDigitsBE_lt one_lt_base hd),add_zero]
  | succ k ih =>
    cases ds with
    | nil =>
      rw [readIntPart,ih [] (by simp)]
      simp only [List.length_nil,pow_zero,Nat.div_one,ofDigitsBE_nil,add_zero,mul_one,pow_succ]
      ring
    | cons d ds =>
      rw [readIntPart,ih ds (fun x hx => hd x (List.mem_cons_of_mem _ hx)),ofDigitsBE_cons,
        List.length_cons]
      have hnum : (num * base ^ (ds.length + 1) + (d * base ^ ds.length + ofDigitsBE base ds)) *
          base ^ (k + 1) = ((num * base + d) * base ^ ds.length + ofDigitsBE base ds) * base ^ k * base := by
        ring
      rw [hnum,pow_succ base ds.length,Nat.mul_div_mul_right _ _ (by decide : 0 < base)]

theorem scaled_mod_eq_zero_iff {ds : List Nat} (hd : ∀ x ∈ ds, x < base) (hlast : 0 < ds.getLastD 0)
    (k : Nat) : ofDigitsBE base ds * base ^ k % base ^ ds.length = 0 ↔ ds.length ≤ k := by
  constructor
  · intro h
    by_contra hlt
    have h1 : base ^ (ds.length - k) * base ^ k ∣ ofDigitsBE base ds * base ^ k := by
      rw [← pow_add,Nat.sub_add_cancel (by omega)]
      exact Nat.dvd_of_mod_eq_zero h
    have h2 := Nat.dvd_of_mul_dvd_mul_right (pow_pos (by decide : 0 < base) k) h1
    have h3 : base ∣ ofDigitsBE base ds := (dvd_pow_self base (by omega)).trans h2
    exact ofDigitsBE_mod_base_of_getLastD hd hlast (Nat.mod_eq_zero_of_dvd h3)
  · intro h
    exact Nat.mod_eq_zero_of_dvd (Dvd.dvd.mul_left (pow_dvd_pow base h) _)

theorem magnitude_eq_div (n : ObNumber) {k : Nat} (hk : n.d.exponent + 1 = k) :
    n.magnitude = ((ofDigitsBE base n.digits * base ^ k : ℕ) : ℚ) /
      ((base ^ n.digits.length : ℕ) : ℚ) := by
  unfold magnitude
  push_cast
  rw [show n.d.exponent - n.digits.length + 1 = (k : ℤ) - n.digits.length by omega,
    zpow_sub₀ base_pos_rat.ne',zpow_natCast,zpow_natCast,mul_div_assoc]

theorem cmp3_div_natCast (x y m : Nat) (hy : 0 < y) :
    cmp3 ((x : ℚ) / y) (m : ℚ) = cmp3 x (m * y) := by
  have hy' : (0 : ℚ) < y := by exact_mod_cast hy
  calc cmp3 ((x : ℚ) / y) (m : ℚ) = cmp3 ((x : ℚ) / y * y) ((m : ℚ) * y) :=
        (cmp3_map (strictMono_mul_right_of_pos hy') _ _).symm
    _ = cmp3 ((x : ℕ) : ℚ) ((m * y : ℕ) : ℚ) := by
        rw [div_mul_cancel₀ _ hy'.ne']
        push_cast
        rfl
    _ = cmp3 x (m * y) := cmp3_map Nat.strictMono_cast _ _

theorem fitsUnum_eq {ds : List Nat} (hd : ∀ x ∈ ds, x < base) (hne : ds ≠ []) :
    fitsUnum ds unum (min ds.length 3) = decide (readIntPart ds 3 0 ≤ 2 ^ 64 - 1) := by
  rcases ds with _ | ⟨a,_ | ⟨b,_ | ⟨c,rest⟩⟩⟩
  · exact absurd rfl hne
  · have ha := hd a (by simp)
    rw [show min [a].length 3 = 1 from rfl]
    simp only [fitsUnum,readIntPart,unum,base] at ha ⊢
    rcases lt_trichotomy a 18 with h | rfl | h
    · simp [h.ne,h]
      omega
    · decide
    · simp [h.ne',not_lt.mpr h.le]
      omega
  · have ha := hd a (by simp)
    have hb := hd b (by simp)
    rw [show min [a,b].length 3 = 2 from rfl]
    simp only [fitsUnum,readIntPart,unum,base] at ha hb ⊢
    rcases lt_trichotomy a 18 with h | rfl | h
    · simp [h.ne,h]
      omega
    · rcases lt_trichotomy b 446744073 with h' | rfl | h'
      · simp [h'.ne,h']
        omega
      · decide
      · simp [h'.ne',not_lt.mpr h'.le]
        omega
    · simp [h.ne',not_lt.mpr h.le]
      omega
  · have ha := hd a (by simp)
    have hb := hd b (by simp)
    have hc := hd c (by simp)
    rw [show min (a :: b :: c :: rest).length 3 = 3 by simp]
    simp only [fitsUnum,readIntPart,unum,base] at ha hb hc ⊢
    rcases lt_trichotomy a 18 with h | rfl | h
    · simp [h.ne,h]
      omega
    · rcases lt_trichotomy b 446744073 with h' | rfl | h'
      · simp [h'.ne,h']
        omega
      · rcases lt_trichotomy c 709551615 with h'' | rfl | h''
        · simp [h''.ne,h'']
          omega
        · norm_num
        · simp [h''.ne',not_lt.mpr h''.le]
          omega
      · simp [h'.ne',not_lt.mpr h'.le]
        omega
    · simp [h.ne',not_lt.mpr h.le]
      omega

theorem bounds_of_expU {m : Nat} (hm : m < 2 ^ 64) {u : Int}
    (hu : u = if m ≥ base2 then 2 else if m ≥ base then 1 else 0) :
    0 ≤ u ∧ u ≤ 2 ∧ (m : ℚ) < (base : ℚ) ^ (u + 1) ∧ (1 ≤ u → (base : ℚ) ^ u ≤ m) := by
  split_ifs at hu with h2 h1 <;> subst hu
  · refine ⟨by norm_num,by norm_num,?_,fun _ => ?_⟩
    · norm_num [base]
      exact_mod_cast (show m < 1000000000000000000000000000 by omega)
    · norm_num [base]
      exact_mod_cast (show 1000000000000000000 ≤ m by simpa [base2] using h2)
  · refine ⟨by norm_num,by norm_num,?_,fun _ => ?_⟩
    · norm_num [base]
      exact_mod_cast (show m < 1000000000000000000 by simp [base2] at h2; omega)
    · norm_num [base]
      exact_mod_cast (show 1000000000 ≤ m by simpa [base] using h1)
  · refine ⟨by norm_num,by norm_num,?_,fun h => absurd h (by norm_num)⟩
    norm_num [base]
    exact_mod_cast (show m < 1000000000 by simp [base] at h1; omega)

theorem absCompareSys_eq {n : ObNumber} (hn : NonzeroFacts n) {m : Nat} (hm : m < 2 ^ 64) :
    absCompareSys n m n.d.exponent = cmp3 n.magnitude m := by
  unfold absCompareSys
  by_cases he : n.d.exponent < 0
  · rw [if_pos he]
    have hlt1 : n.magnitude < 1 :=
      lt_of_lt_of_le hn.lt_pow (zpow_le_one_of_nonpos₀ (by norm_num [base]) (by omega))
    split_ifs with hm0
    · rw [hm0,Nat.cast_zero,cmp3_of_gt hn.magnitude_pos]
    · exact (cmp3_of_lt (lt_of_lt_of_le hlt1 (by exact_mod_cast Nat.one_le_iff_ne_zero.mpr hm0))).symm
  rw [if_neg he]
  simp only []
  generalize hu : (if m ≥ base2 then (2 : Int) else if m ≥ base then 1 else 0) = u
  obtain ⟨hu0,hu2,hup,hlow⟩ := bounds_of_expU hm hu.symm
  by_cases hne : n.d.exponent ≠ u
  · rw [if_pos hne]
    rcases lt_or_gt_of_ne hne with hlt | hgt
    · rw [if_neg (by omega),cmp3_of_lt]
      calc n.magnitude < (base : ℚ) ^ (n.d.exponent + 1) := hn.lt_pow
        _ ≤ (base : ℚ) ^ u := zpow_le_zpow_right₀ (by norm_num [base]) (by omega)
        _ ≤ m := hlow (by omega)
    · rw [if_pos hgt,cmp3_of_gt]
      calc (m : ℚ) < (base : ℚ) ^ (u + 1) := hup
        _ ≤ (base : ℚ) ^ n.d.exponent := zpow_le_zpow_right₀ (by norm_num [base]) (by omega)
        _ ≤ n.magnitude := hn.pow_le
  rw [if_neg hne]
  have hk : n.d.exponent + 1 = ((n.d.exponent + 1).toNat : ℕ) := by omega
  have hY : 0 < base ^ n.digits.length := pow_pos (by decide) _
  have hne' : n.digits ≠ [] := fun h => by simpa [h] using hn.last
  rw [magnitude_eq_div n hk,cmp3_div_natCast _ _ _ hY,cmp3_mul_of_div _ _ hY]
  have hread : ∀ k, readIntPart n.digits k 0 = ofDigitsBE base n.digits * base ^ k / base ^ n.digits.length := by
    intro k
    rw [readIntPart_eq _ hn.digits]
    simp
  have hle2 : ¬ n.d.exponent > 2 := by omega
  simp only [isInUint,hle2,if_false,hread]
  by_cases hfit : n.d.exponent = 2 → ofDigitsBE base n.digits * base ^ 3 / base ^ n.digits.length ≤ 2 ^ 64 - 1
  · have hu : (if n.d.exponent = 2 then fitsUnum n.digits unum (min n.d.len 3) else true) = true := by
      split_ifs with h2
      · rw [hn.len,fitsUnum_eq hn.digits hne',hread,decide_eq_true_iff]
        exact hfit h2
      · rfl
    rw [if_pos hu]
    have hmod := scaled_mod_eq_zero_iff hn.digits hn.last (n.d.exponent + 1).toNat
    have hlen := hn.len
    split_ifs <;> simp_all
    omega
  · have h2 : n.d.exponent = 2 := by tauto
    have hbig : 2 ^ 64 - 1 < ofDigitsBE base n.digits * base ^ 3 / base ^ n.digits.length :=
      not_le.mp fun h => hfit fun _ => h
    have hu : (if n.d.exponent = 2 then fitsUnum n.digits unum (min n.d.len 3) else true) = false := by
      rw [if_pos h2,hn.len,fitsUnum_eq hn.digits hne',hread,decide_eq_false_iff_not]
      omega
    rw [if_neg (by simp [hu]),show (n.d.exponent + 1).toNat = 3 by omega,if_pos (by omega)]

theorem NonzeroFacts.isZero_eq_false {n : ObNumber} (hn : NonzeroFacts n) : n.isZero = false := by
  have hne : n.digits ≠ [] := fun h => by simpa [h] using hn.last
  simp [isZero,hn.len,hne]

theorem exp_sub_expZero {d : Desc} (h : d.sign = positive) : (d.exp.val : Int) - expZero = d.exponent := by
  simp [Desc.exponent,h,negative,positive]

theorem expZero_sub_exp {d : Desc} (h : d.sign = negative) : (expZero : Int) - d.exp.val = d.exponent := by
  simp [Desc.exponent,h]

theorem compareUint64_eq_cmp3 {n : ObNumber} (hn : Normalized n) {m : Nat} (hm : m < 2 ^ 64) :
    compareUint64 n m = cmp3 n.value m := by
  unfold compareUint64
  rcases hn.zero_or_nonzero with rfl | hn'
  · rcases Nat.eq_zero_or_pos m with rfl | hpos
    · rw [value_zero]
      simp [isZero,zero]
    · rw [value_zero,cmp3_of_lt (by exact_mod_cast hpos)]
      simp [isZero,zero,hpos.ne']
  rw [hn'.isZero_eq_false]
  rcases sign_cases n.d.sign with hs | hs
  · rw [value_of_negative hs,cmp3_of_lt ((neg_neg_of_pos hn'.magnitude_pos).trans_le (by positivity))]
    simp [isNegative,hs]
  · rw [value_of_positive hs,← absCompareSys_eq hn' hm,exp_sub_expZero hs]
    simp [isNegative,hs,negative,positive]

theorem compareInt64_eq_cmp3 {n : ObNumber} (hn : Normalized n) {v : Int}
    (hv : -2 ^ 63 ≤ v ∧ v < 2 ^ 63) : compareInt64 n v = cmp3 n.value v := by
  unfold compareInt64
  rcases hn.zero_or_nonzero with rfl | hn'
  · rw [value_zero]
    rcases lt_trichotomy v 0 with h | rfl | h
    · rw [cmp3_of_gt (by exact_mod_cast h)]
      simp [isZero,zero,h]
    · simp [isZero,zero]
    · rw [cmp3_of_lt (by exact_mod_cast h)]
      simp [isZero,zero,not_lt.mpr h.le,h.ne']
  rw [hn'.isZero_eq_false]
  rcases sign_cases n.d.sign with hs | hs
  · simp only [isNegative,hs,beq_self_eq_true,if_true,Bool.false_eq_true,if_false]
    rw [value_of_negative hs]
    by_cases hv0 : v ≥ 0
    · rw [if_pos hv0,cmp3_of_lt ((neg_neg_of_pos hn'.magnitude_pos).trans_le (by exact_mod_cast hv0))]
    · have habs : (-(v + 1)).toNat + 1 = v.natAbs := by omega
      rw [if_neg hv0,habs,expZero_sub_exp hs,absCompareSys_eq hn' (by omega),← cmp3_neg]
      congr 1
      rw [Nat.cast_natAbs,abs_of_neg (by exact_mod_cast not_le.mp hv0)]
      push_cast
      ring
  · simp only [isNegative,hs,positive,negative,Bool.false_eq_true,if_false]
    rw [value_of_positive hs]
    have hbeq : ((1 : Fin 2) == 0) = false := rfl
    rw [hbeq,if_neg Bool.false_ne_true]
    by_cases hv0 : v ≤ 0
    · rw [if_pos hv0,cmp3_of_gt (lt_of_le_of_lt (by exact_mod_cast hv0) hn'.magnitude_pos)]
    · rw [if_neg hv0,exp_sub_expZero hs,absCompareSys_eq hn' (by omega)]
      congr 1
      exact_mod_cast Int.toNat_of_nonneg (by omega)

/-! ### The number `from_integer_` builds -/

/-- What `from_integer_` builds for a positive magnitude `a`: the exponent `e` of the leading
digit, and digits below `BASE`, led and ended by nonzero ones, that weigh `a`. -/
structure DigitsOf (a e : Nat) (ds : List Nat) : Prop where
  exp_le : e ≤ 2
  len_le : ds.length ≤ e + 1
  digits : ∀ x ∈ ds, x < base
  head : 0 < ds.headD 0
  last : 0 < ds.getLastD 0
  weigh : ofDigitsBE base ds * base ^ (e + 1 - ds.length) = a

theorem fromIntegerLoop_spec {a : Nat} (ha : 0 < a) (hlt : a < base ^ 3) :
    DigitsOf a (fromIntegerLoop maxDigits a 0 0 []).1 (fromIntegerLoop maxDigits a 0 0 []).2 := by
  simp only [fromIntegerLoop,maxDigits,base,base2] at hlt ⊢
  split_ifs <;> (try omega) <;>
    refine ⟨by simp,by simp,?_,?_,?_,?_⟩ <;> simp [ofDigitsBE_cons,base] at * <;> omega

theorem normalized_of_digitsOf {a e : Nat} {ds : List Nat} (h : DigitsOf a e ds) (sign : Fin 2) :
    Normalized ⟨⟨ds.length,encodeExp sign e,sign⟩,ds⟩ :=
  .nonzero e ⟨by omega,by have := h.exp_le; omega⟩ rfl rfl h.digits h.head h.last

theorem magnitude_of_digitsOf {a e : Nat} {ds : List Nat} (h : DigitsOf a e ds) (sign : Fin 2) :
    magnitude ⟨⟨ds.length,encodeExp sign e,sign⟩,ds⟩ = a := by
  have he := h.exp_le
  have hlen := h.len_le
  have hex := (exponent_of_encodeExp (d := ⟨ds.length,encodeExp sign e,sign⟩) ⟨by omega,by omega⟩ rfl).1
  unfold magnitude
  simp only [] at hex ⊢
  rw [hex,show (e : ℤ) - ds.length + 1 = ((e + 1 - ds.length : ℕ) : ℤ) by omega,zpow_natCast]
  exact_mod_cast h.weigh

theorem fromInteger_normalized {v : Int} (hv : v.natAbs < 2 ^ 64) : Normalized (fromInteger v) := by
  unfold fromInteger
  by_cases h0 : v = 0
  · rw [if_pos h0]
    exact .zero
  · rw [if_neg h0]
    exact normalized_of_digitsOf (fromIntegerLoop_spec (by omega) (by norm_num [base]; omega)) _

theorem value_fromInteger {v : Int} (hv : v.natAbs < 2 ^ 64) : (fromInteger v).value = v := by
  unfold fromInteger
  by_cases h0 : v = 0
  · rw [if_pos h0,value_zero,h0]
    rfl
  rw [if_neg h0]
  have hmag := magnitude_of_digitsOf (fromIntegerLoop_spec (a := v.natAbs) (by omega)
    (by norm_num [base]; omega))
  unfold value
  simp only []
  rw [hmag,Nat.cast_natAbs]
  by_cases hv0 : v ≥ 0
  · simp only [hv0,if_true,show positive ≠ negative by decide,if_false]
    rw [abs_of_nonneg (by exact_mod_cast hv0)]
  · simp only [hv0,if_false,if_true]
    rw [abs_of_neg (by exact_mod_cast not_le.mp hv0)]
    push_cast
    ring

/-! ### The comparisons together -/

/-- On normalized numbers `compare_v2` compares the values, `is_equal_v2` and `compare_v1` agree
with it, and `compare(int64_t)` and `compare(uint64_t)` agree with comparing against the number
`from_integer_` builds, at `INT64_MIN` too. -/
theorem compare_exact {a b : ObNumber} (ha : Normalized a) (hb : Normalized b) :
    compareV2 a b = cmp3 a.value b.value ∧
    (isEqualV2 a b = true ↔ a.value = b.value) ∧
    (isEqualV2 a b = true ↔ compareV2 a b = 0) ∧
    compareV1 a b = compareV2 a b ∧
    (∀ v : Int, -2 ^ 63 ≤ v → v < 2 ^ 63 → compareInt64 a v = compareV2 a (fromInteger v)) ∧
    (∀ m : Nat, m < 2 ^ 64 → compareUint64 a m = compareV2 a (fromInteger m)) := by
  have hv2 := compareV2_eq_cmp3 ha hb
  refine ⟨hv2,isEqualV2_iff ha hb,?_,?_,?_,?_⟩
  · rw [isEqualV2_iff ha hb,hv2,cmp3_eq_zero_iff]
  · rw [compareV1_eq_cmp3 ha hb,hv2]
  · intro v hlo hhi
    have hnat : v.natAbs < 2 ^ 64 := by omega
    rw [compareInt64_eq_cmp3 ha ⟨hlo,hhi⟩,compareV2_eq_cmp3 ha (fromInteger_normalized hnat),
      value_fromInteger hnat]
  · intro m hm
    have hnat : (m : Int).natAbs < 2 ^ 64 := by omega
    rw [compareUint64_eq_cmp3 ha hm,compareV2_eq_cmp3 ha (fromInteger_normalized hnat),
      value_fromInteger hnat,Int.cast_natCast]

def oneAndAHalf : ObNumber := ⟨⟨2,encodeExp positive 0,positive⟩,[1,500000000]⟩

theorem compare_exact_int64_min :
    compareV2 oneAndAHalf (fromInteger (-7)) = cmp3 oneAndAHalf.value (fromInteger (-7)).value ∧
    compareInt64 oneAndAHalf (-2 ^ 63) = compareV2 oneAndAHalf (fromInteger (-2 ^ 63)) := by
  have ha : Normalized oneAndAHalf := .nonzero 0 (by decide) rfl rfl (by decide) (by decide) (by decide)
  have hb : Normalized (fromInteger (-7)) := fromInteger_normalized (by decide)
  exact ⟨(compare_exact ha hb).1,(compare_exact ha hb).2.2.2.2.1 _ (by norm_num) (by norm_num)⟩

end ObNumber

end Common
end OceanBase
