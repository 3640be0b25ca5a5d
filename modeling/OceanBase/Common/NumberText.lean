import Mathlib
import OceanBase.Common.NumberParse

/-! `from_v3_` on the text of an integer: an optional sign, decimal digits, and maybe a point
followed by zeros, the texts the integer printers of the number format write. Every such text of
an integer below `10 ^ 72`, the digits `FLOATING_SCALE` keeps, is read exactly: as a normalized
number of the integer's value, with no warning, rounded or not. The words are cut from the digits
as `construct_digits_` does, and `round_scale_v3_` and `exp_check_` leave a number of at most
eight integer words alone. -/
namespace OceanBase
namespace Common
namespace ObNumber

open Lib

/-! ## Reading digit characters -/

theorem atoi_eq_ofDigitChars (cs : List Char) : atoi cs = Nat.ofDigitChars 10 cs 0 := by
  unfold atoi Nat.ofDigitChars
  congr 1
  funext acc c
  rw [Nat.mul_comm]

@[simp] theorem atoi_nil : atoi [] = 0 := rfl

theorem atoi_singleton (c : Char) : atoi [c] = c.toNat - '0'.toNat := by
  simp [atoi]

theorem atoi_append (xs ys : List Char) : atoi (xs ++ ys) = atoi xs * 10 ^ ys.length + atoi ys := by
  rw [atoi_eq_ofDigitChars, Nat.ofDigitChars_append, Nat.ofDigitChars_eq_ofDigitChars_zero,
    ← atoi_eq_ofDigitChars, ← atoi_eq_ofDigitChars, Nat.mul_comm]

theorem atoi_cons (c : Char) (cs : List Char) :
    atoi (c :: cs) = (c.toNat - '0'.toNat) * 10 ^ cs.length + atoi cs := by
  rw [← List.singleton_append, atoi_append, atoi_singleton]

theorem atoi_toDigits (v : Nat) : atoi (Nat.toDigits 10 v) = v := by
  rw [atoi_eq_ofDigitChars, Nat.ofDigitChars_ten_toDigits]

theorem atoi_of_zeros {cs : List Char} (h : ∀ c ∈ cs, c = '0') : atoi cs = 0 := by
  rw [List.eq_replicate_iff.2 ⟨rfl, h⟩, atoi_eq_ofDigitChars, Nat.ofDigitChars_replicate_zero,
    Nat.mul_zero]

theorem digit_le_nine {c : Char} (h : c.isDigit = true) : c.toNat - '0'.toNat ≤ 9 := by
  have := Char.isDigit_iff_toNat.1 h
  simp only [Char.reduceToNat] at this ⊢
  omega

theorem atoi_lt {cs : List Char} (h : ∀ c ∈ cs, c.isDigit = true) : atoi cs < 10 ^ cs.length := by
  induction cs with
  | nil => simp
  | cons c cs ih =>
    have hc := digit_le_nine (h c List.mem_cons_self)
    have hcs := ih fun x hx => h x (List.mem_cons_of_mem c hx)
    rw [atoi_cons, List.length_cons, Nat.pow_succ]
    nlinarith

theorem pow_le_atoi_cons {c : Char} (hc : c.isDigit = true) (h0 : c ≠ '0') (cs : List Char) :
    10 ^ cs.length ≤ atoi (c :: cs) := by
  have hpos : 0 < c.toNat - '0'.toNat := by
    have h1 := Char.isDigit_iff_toNat.1 hc
    have h2 : c.toNat ≠ '0'.toNat := fun h => h0 (Char.toNat_inj.1 h)
    omega
  have := Nat.le_mul_of_pos_left (10 ^ cs.length) hpos
  rw [atoi_cons]
  omega

/-! ## Runs of characters and the words cut from them -/

def CharRun (p : Char → Bool) (s : List Char) (a b : Nat) : Prop :=
  ∀ i, a ≤ i → i < b → p (s.getD i ' ') = true

section Runs
variable {p : Char → Bool} {s : List Char}

theorem CharRun.mono {a b a' b' : Nat} (h : CharRun p s a b) (ha : a ≤ a') (hb : b' ≤ b) :
    CharRun p s a' b' :=
  fun i h1 h2 => h i (by omega) (by omega)

theorem scanFwd_run {stop q : Nat} (hend : q < stop → p (s.getD q ' ') = false) (hq : q ≤ stop) :
    ∀ {f ptr : Nat}, CharRun p s ptr q → ptr ≤ q → q - ptr ≤ f → scanFwd p s stop f ptr = q := by
  intro f
  induction f with
  | zero => intro ptr _ h1 h2; simp only [scanFwd]; omega
  | succ f ih =>
    intro ptr hrun h1 h2
    by_cases hlt : ptr < q
    · simp only [scanFwd, show ptr < stop by omega, decide_true, hrun ptr le_rfl hlt, Bool.and_true, if_true]
      exact ih (hrun.mono (by omega) le_rfl) (by omega) (by omega)
    · obtain rfl : ptr = q := by omega
      by_cases hs : ptr < stop
      · exact scanFwd_self (hend hs)
      · simp only [scanFwd, hs, decide_false, Bool.false_and, Bool.false_eq_true, if_false]

theorem le_scanFwd {stop : Nat} : ∀ {f ptr : Nat}, ptr ≤ scanFwd p s stop f ptr := by
  intro f
  induction f with
  | zero => intro ptr; exact le_rfl
  | succ f ih =>
    intro ptr
    simp only [scanFwd]
    split_ifs
    · exact le_trans (Nat.le_succ ptr) ih
    · exact le_rfl

theorem getD_mem {l : List Char} {i : Nat} (h : i < l.length) : l.getD i ' ' ∈ l := by
  rw [List.getD_eq_getElem _ _ h]
  exact List.getElem_mem h

theorem getD_middle (pre mid post : List Char) {i : Nat} (h : i < mid.length) :
    (pre ++ mid ++ post).getD (pre.length + i) ' ' = mid.getD i ' ' := by
  rw [List.append_assoc, List.getD_append_right _ _ _ _ (by omega), List.getD_append _ _ _ _ (by simpa using h)]
  simp

theorem charRun_middle (pre mid post : List Char) (h : ∀ c ∈ mid, p c = true) :
    CharRun p (pre ++ mid ++ post) pre.length (pre.length + mid.length) := by
  intro i h1 h2
  obtain ⟨j, rfl⟩ : ∃ j, i = pre.length + j := ⟨i - pre.length, by omega⟩
  rw [getD_middle pre mid post (by omega)]
  exact h _ (getD_mem (by omega))

theorem getD_of_eq {t : List Char} (pre mid post : List Char) (ht : t = pre ++ mid ++ post) {i : Nat}
    (h : i < mid.length) : t.getD (pre.length + i) ' ' = mid.getD i ' ' := by
  rw [ht, getD_middle pre mid post h]

theorem charRun_of_eq {t : List Char} (pre mid post : List Char) (ht : t = pre ++ mid ++ post)
    (h : ∀ c ∈ mid, p c = true) : CharRun p t pre.length (pre.length + mid.length) := by
  rw [ht]
  exact charRun_middle pre mid post h

theorem mem_slice {a b : Nat} {c : Char} (h : c ∈ slice s a b) : ∃ i, a ≤ i ∧ i < b ∧ s.getD i ' ' = c := by
  obtain ⟨i, hi, rfl⟩ := List.mem_iff_getElem.1 h
  simp only [slice, List.length_take, List.length_drop] at hi
  refine ⟨a + i, by omega, by omega, ?_⟩
  rw [List.getD_eq_getElem _ _ (by omega)]
  simp [slice]

theorem length_slice {a b : Nat} (hab : a ≤ b) (hb : b ≤ s.length) : (slice s a b).length = b - a := by
  simp only [slice, List.length_take, List.length_drop]
  omega

theorem slice_append {a b c : Nat} (hab : a ≤ b) (hbc : b ≤ c) : slice s a b ++ slice s b c = slice s a c := by
  unfold slice
  rw [show c - a = (b - a) + (c - b) by omega, List.take_add, List.drop_drop, show a + (b - a) = b by omega]

theorem slice_middle (pre mid post : List Char) :
    slice (pre ++ mid ++ post) pre.length (pre.length + mid.length) = mid := by
  simp [slice]

theorem charRun_slice {a b : Nat} (h : CharRun p s a b) : ∀ c ∈ slice s a b, p c = true := by
  intro c hc
  obtain ⟨i, h1, h2, rfl⟩ := mem_slice hc
  exact h i h1 h2

theorem atoi_slice_lt {a b : Nat} (h : CharRun Char.isDigit s a b) (hab : a ≤ b) (hb : b ≤ s.length) :
    atoi (slice s a b) < 10 ^ (b - a) := by
  have := atoi_lt (charRun_slice h)
  rwa [length_slice hab hb] at this

end Runs

structure WordsOf (ws : List Nat) (j v : Nat) : Prop where
  length : ws.length = j + 1
  weigh : ofDigitsBE base ws = v
  lt : ∀ w ∈ ws, w < base

theorem integerWords_of_le {s : List Char} {stop f ptr step : Nat} (h : stop ≤ ptr) :
    integerWords s stop f ptr step = [] := by
  cases f with
  | zero => rfl
  | succ f => simp only [integerWords, show ¬ptr < stop by omega, if_false]

theorem base_eq_pow : base = 10 ^ maxStoreLen := rfl

theorem integerWords_spec {s : List Char} {stop : Nat} (hstop : stop ≤ s.length) :
    ∀ {j ptr step fuel : Nat}, CharRun Char.isDigit s ptr stop → 0 < step → step ≤ maxStoreLen →
      stop = ptr + step + maxStoreLen * j → j < fuel →
      WordsOf (integerWords s stop fuel ptr step) j (atoi (slice s ptr stop)) := by
  intro j
  induction j with
  | zero =>
    intro ptr step fuel hrun h0 h9 hst hf
    obtain ⟨f, rfl⟩ : ∃ f, fuel = f + 1 := ⟨fuel - 1, by omega⟩
    have hw : atoi (slice s ptr stop) < base := by
      calc atoi (slice s ptr stop) < 10 ^ (stop - ptr) := atoi_slice_lt hrun (by omega) hstop
        _ ≤ base := by rw [base_eq_pow]; exact Nat.pow_le_pow_right (by omega) (by omega)
    rw [integerWords, if_pos (by omega), integerWords_of_le (by omega), show ptr + step = stop by omega]
    exact ⟨rfl, by simp [ofDigitsBE], by simpa using hw⟩
  | succ j ih =>
    intro ptr step fuel hrun h0 h9 hst hf
    obtain ⟨f, rfl⟩ : ∃ f, fuel = f + 1 := ⟨fuel - 1, by omega⟩
    have hnext := ih (hrun.mono (by omega : ptr ≤ ptr + step) le_rfl) (by decide : 0 < maxStoreLen) le_rfl
      (by rw [hst]; ring) (by omega : j < f)
    have hw : atoi (slice s ptr (ptr + step)) < base := by
      calc atoi (slice s ptr (ptr + step)) < 10 ^ (ptr + step - ptr) :=
            atoi_slice_lt (hrun.mono le_rfl (by omega)) (by omega) (by omega)
        _ ≤ base := by rw [base_eq_pow]; exact Nat.pow_le_pow_right (by omega) (by omega)
    have hsplit : atoi (slice s ptr stop) =
        atoi (slice s ptr (ptr + step)) * base ^ (j + 1) + atoi (slice s (ptr + step) stop) := by
      rw [← slice_append (by omega : ptr ≤ ptr + step) (by omega : ptr + step ≤ stop), atoi_append,
        length_slice (by omega) hstop, base_eq_pow, ← Nat.pow_mul]
      congr 3
      simp only [maxStoreLen] at hst ⊢
      omega
    rw [integerWords, if_pos (by omega)]
    refine ⟨by simp [hnext.length], ?_, ?_⟩
    · rw [ofDigitsBE_cons, hnext.weigh, hnext.length, hsplit]
    · intro w hw'
      rcases List.mem_cons.1 hw' with rfl | hmem
      · exact hw
      · exact hnext.lt w hmem

theorem decimalWords_zeros {s : List Char} {stop : Nat} :
    ∀ {f ptr step : Nat}, CharRun (· == '0') s ptr stop → ∀ w ∈ decimalWords s stop f ptr step, w = 0 := by
  intro f
  induction f with
  | zero => intro ptr step _ w hw; simp [decimalWords] at hw
  | succ f ih =>
    intro ptr step hrun w hw
    have hzero : ∀ {b}, b ≤ stop → atoi (slice s ptr b) = 0 := fun hb =>
      atoi_of_zeros fun c hc => by simpa using charRun_slice (hrun.mono le_rfl hb) c hc
    simp only [decimalWords] at hw
    split_ifs at hw with hlt hin
    · rcases List.mem_cons.1 hw with rfl | hmem
      · exact hzero (by omega)
      · exact ih (hrun.mono (by omega) le_rfl) w hmem
    · rcases List.mem_cons.1 hw with rfl | hmem
      · rw [hzero le_rfl, Nat.zero_mul]
      · exact ih (hrun.mono (by omega) le_rfl) w hmem
    · simp at hw

/-! ## Trailing zero words -/

theorem trimZeros_eq_rdropWhile (ws : List Nat) : trimZeros ws = ws.rdropWhile (· == 0) := rfl

theorem trimZeros_append_replicate (ws : List Nat) : ∃ k, trimZeros ws ++ List.replicate k 0 = ws := by
  refine ⟨(ws.rtakeWhile (· == 0)).length, ?_⟩
  have hz : ws.rtakeWhile (· == 0) = List.replicate (ws.rtakeWhile (· == 0)).length 0 :=
    List.eq_replicate_iff.2 ⟨rfl, fun x hx => by simpa using List.mem_rtakeWhile_imp hx⟩
  rw [← hz, trimZeros_eq_rdropWhile, List.rdropWhile_append_rtakeWhile]

theorem trimZeros_append_of_zeros (ws : List Nat) {zs : List Nat} (h : ∀ z ∈ zs, z = 0) :
    trimZeros (ws ++ zs) = trimZeros ws := by
  rw [List.eq_replicate_iff.2 ⟨rfl, h⟩]
  induction zs.length with
  | zero => simp
  | succ k ih =>
    rw [List.replicate_succ', ← List.append_assoc, trimZeros_eq_rdropWhile,
      List.rdropWhile_concat_pos _ _ 0 rfl, ← trimZeros_eq_rdropWhile, ih]

theorem getLastD_trimZeros_pos {ws : List Nat} (h : trimZeros ws ≠ []) : 0 < (trimZeros ws).getLastD 0 := by
  have hlast := List.rdropWhile_last_not (· == 0) ws h
  rw [List.getLastD_eq_getLast?, List.getLast?_eq_some_getLast h, Option.getD_some]
  simp only [beq_iff_eq] at hlast
  exact Nat.pos_of_ne_zero hlast

theorem mem_of_mem_trimZeros {ws : List Nat} {x : Nat} (h : x ∈ trimZeros ws) : x ∈ ws := by
  obtain ⟨k, hk⟩ := trimZeros_append_replicate ws
  rw [← hk]
  exact List.mem_append_left _ h

theorem headD_trimZeros {ws : List Nat} (h : 0 < ws.headD 0) :
    trimZeros ws ≠ [] ∧ (trimZeros ws).headD 0 = ws.headD 0 := by
  obtain ⟨k, hk⟩ := trimZeros_append_replicate ws
  have hne : trimZeros ws ≠ [] := by
    intro hnil
    rw [hnil, List.nil_append] at hk
    rw [← hk] at h
    cases k <;> simp [List.replicate_succ] at h
  refine ⟨hne, ?_⟩
  obtain ⟨x, xs, hx⟩ := List.exists_cons_of_ne_nil hne
  have h1 : (trimZeros ws).headD 0 = x := by rw [hx]; rfl
  have h2 : ws.headD 0 = x := by rw [← hk, hx]; rfl
  exact h1.trans h2.symm

theorem ofDigitsBE_replicate_zero (b k : Nat) : ofDigitsBE b (List.replicate k 0) = 0 := by
  rw [ofDigitsBE, List.reverse_replicate, Nat.ofDigits_replicate_zero]

theorem headD_pos_of_pow_le {ws : List Nat} (hlt : ∀ w ∈ ws, w < base)
    (hv : base ^ (ws.length - 1) ≤ ofDigitsBE base ws) : 0 < ws.headD 0 := by
  cases ws with
  | nil => simp at hv
  | cons w ws =>
    simp only [List.headD_cons]
    by_contra h0
    obtain rfl : w = 0 := by omega
    have hrest := ofDigitsBE_lt one_lt_base fun x hx => hlt x (List.mem_cons_of_mem 0 hx)
    rw [ofDigitsBE_cons, Nat.zero_mul, Nat.zero_add] at hv
    simp only [List.length_cons, Nat.add_sub_cancel] at hv
    omega

/-! ## Rounding and the exponent check of an integer -/

theorem getDigitLenV2_le (d : Nat) : getDigitLenV2 d ≤ maxStoreLen := by
  unfold getDigitLenV2 digits10
  split_ifs with h
  · exact Nat.zero_le _
  · have hd : d < 10 ^ 9 := by simp only [base] at h; omega
    exact (Nat.length_toDigits_le_iff (by decide) (by decide)).2 hd

theorem roundScaleV3_of_integral {n : ObNumber} (hlen : 0 < n.d.len) (he : 0 ≤ n.d.exponent)
    (hint : (n.d.len : Int) ≤ n.d.exponent + 1) (h8 : n.d.exponent + 1 ≤ 8) :
    n.roundScaleV3 floatingScale true = n := by
  have hz : n.isZero = false := by simp [isZero]; omega
  have hd := getDigitLenV2_le (n.digits.getD 0 0)
  simp only [maxStoreLen] at hd
  have hnofrac : ¬(n.d.exponent + 1 < (n.d.len : Int)) := by omega
  have hpos : (0 : Int) < n.d.len := by omega
  have hne : ¬(n.d.exponent + 1 = 0) := by omega
  unfold roundScaleV3
  simp only [hz, Bool.false_eq_true, if_false, he, if_true, hnofrac, hpos, hne, false_and, and_true,
    floatingScale, maxStoreLen]
  split_ifs <;> first | rfl | omega

theorem expCheck_of_natAbs_le {d : Desc} (h : d.exponent.natAbs ≤ maxIntegerExp) : expCheck d false = .ok () := by
  have habs : ((d.exp.val : Int) - expZero).natAbs = d.exponent.natAbs := by
    rcases sign_cases d.sign with hs | hs
    · rw [← expZero_sub_exp hs]; omega
    · rw [exp_sub_expZero hs]
  unfold expCheck
  simp only [habs, Bool.false_eq_true, if_false]
  rw [if_neg (fun hc => by simp only [maxIntegerExp] at h hc; omega),
    if_neg (fun hc => by simp only [maxIntegerExp, maxDecimalExp] at h hc; omega)]

theorem constructDigits_of_zeros {s : List Char} {point stop : Int} {len : Nat} {exp : Int}
    (hrun : CharRun (· == '0') s (point + 1).toNat stop.toNat) : (constructDigits s point point stop len exp).1 = [] := by
  unfold constructDigits
  simp only [lt_irrefl, if_false]
  by_cases hC : ([] : List Nat).length < len ∧ point + 1 < stop
  · rw [if_pos hC]
    dsimp only
    rw [trimZeros_append_of_zeros [] (decimalWords_zeros (hrun.mono le_scanFwd le_rfl))]
    rfl
  · rw [if_neg hC]
    rfl

/-! ## The text of an integer -/

/-- The text of an integer as the number format writes it: a sign or none, zeros, digits, and a
point with zeros after it or nothing. -/
structure IntegerText (sg zs ds fr : List Char) : Prop where
  sign : sg = [] ∨ sg = ['+'] ∨ sg = ['-']
  zeros : ∀ c ∈ zs, c = '0'
  digits : ∀ c ∈ ds, c.isDigit = true
  frac : fr = [] ∨ ∃ k, fr = '.' :: List.replicate k '0'

theorem isSpace_of_isDigit {c : Char} (h : c.isDigit = true) : isSpace c = false := by
  by_contra hsp
  simp only [isSpace, Bool.not_eq_false, Bool.or_eq_true, beq_iff_eq] at hsp
  rcases hsp with ((((rfl | rfl) | rfl) | rfl) | rfl) | rfl <;> exact absurd h (by decide)

section IntegerText
variable {sg zs ds fr : List Char}

theorem IntegerText.not_space (ht : IntegerText sg zs ds fr) : ∀ c ∈ sg ++ zs ++ ds ++ fr, isSpace c = false := by
  intro c hc
  simp only [List.mem_append] at hc
  rcases hc with ((hc | hc) | hc) | hc
  · rcases ht.sign with rfl | rfl | rfl <;> simp at hc <;> (subst hc; decide)
  · rw [ht.zeros c hc]; decide
  · exact isSpace_of_isDigit (ht.digits c hc)
  · rcases ht.frac with rfl | ⟨k, rfl⟩
    · simp at hc
    · rcases List.mem_cons.1 hc with rfl | hc
      · decide
      · rw [List.eq_of_mem_replicate hc]; decide

theorem IntegerText.front (ht : IntegerText sg zs ds fr) (hne : zs ++ ds ≠ []) :
    (sg ++ zs ++ ds ++ fr).length ≠ 0 ∧
    scanFwd isSpace (sg ++ zs ++ ds ++ fr) (sg ++ zs ++ ds ++ fr).length (sg ++ zs ++ ds ++ fr).length 0 = 0 ∧
    scanBack isSpace (sg ++ zs ++ ds ++ fr) 0 (sg ++ zs ++ ds ++ fr).length (sg ++ zs ++ ds ++ fr).length =
      (sg ++ zs ++ ds ++ fr).length ∧
    ((sg ++ zs ++ ds ++ fr).getD 0 ' ' == '+' || (sg ++ zs ++ ds ++ fr).getD 0 ' ' == '-') = !sg.isEmpty ∧
    ((sg ++ zs ++ ds ++ fr).getD 0 ' ' == '-') = decide (sg = ['-']) := by
  have hlen : 0 < (zs ++ ds).length := List.length_pos_iff.2 hne
  have hpos : 0 < (sg ++ zs ++ ds ++ fr).length := by simp only [List.length_append] at hlen ⊢; omega
  refine ⟨by omega, scanFwd_self (ht.not_space _ (getD_mem hpos)),
    scanBack_self (ht.not_space _ (getD_mem (by omega))), ?_⟩
  rcases ht.sign with rfl | rfl | rfl
  · have hd : ((zs ++ ds) ++ fr).getD 0 ' ' ∈ zs ++ ds := by
      rw [List.getD_append _ _ _ _ hlen]
      exact getD_mem hlen
    have hdig : (((zs ++ ds) ++ fr).getD 0 ' ').isDigit = true := by
      rcases List.mem_append.1 hd with h | h
      · rw [ht.zeros _ h]; rfl
      · exact ht.digits _ h
    simp only [List.nil_append, List.isEmpty_nil, Bool.not_true]
    constructor
    · by_contra hc
      simp only [Bool.not_eq_false, Bool.or_eq_true, beq_iff_eq] at hc
      rcases hc with hc | hc <;> rw [hc] at hdig <;> exact absurd hdig (by decide)
    · simp only [List.nil_eq, reduceCtorEq, decide_false, beq_eq_false_iff_ne, ne_eq]
      intro hc
      rw [hc] at hdig
      exact absurd hdig (by decide)
  · simp
  · simp

theorem IntegerText.sign_length (ht : IntegerText sg zs ds fr) :
    (if (!sg.isEmpty) = true then 0 + 1 else 0) = sg.length := by
  rcases ht.sign with rfl | rfl | rfl <;> rfl

theorem IntegerText.findPointRange_eq (ht : IntegerText sg zs ds fr) {c : Char} {cs : List Char}
    (hds : ds = c :: cs) (hc : c ≠ '0') :
    findPointRange (sg ++ zs ++ ds ++ fr) =
      .ok ⟨(sg.length + zs.length : Nat), (sg.length + zs.length + ds.length : Nat),
        ((sg ++ zs ++ ds ++ fr).length : Nat), decide (sg = ['-']), false⟩ := by
  have hne : zs ++ ds ≠ [] := by simp [hds]
  obtain ⟨hlen0, hfront, hback, hsgn, hneg⟩ := ht.front hne
  have hlen : (sg ++ zs ++ ds ++ fr).length = sg.length + zs.length + ds.length + fr.length := by
    simp only [List.length_append]
  have hD : 0 < ds.length := by simp [hds]
  have hzeros : scanFwd (· == '0') (sg ++ zs ++ ds ++ fr) (sg ++ zs ++ ds ++ fr).length
      (sg ++ zs ++ ds ++ fr).length sg.length = sg.length + zs.length := by
    have hrun := charRun_of_eq (p := (· == '0')) sg zs (ds ++ fr)
      (show sg ++ zs ++ ds ++ fr = sg ++ zs ++ (ds ++ fr) by simp) fun c h => by simp [ht.zeros c h]
    have hfirst : (sg ++ zs ++ ds ++ fr).getD (sg.length + zs.length) ' ' = c := by
      have h := getD_of_eq (sg ++ zs) ds fr rfl (i := 0) hD
      simp only [List.length_append, Nat.add_zero] at h
      rw [h, hds]
      rfl
    refine scanFwd_run (fun _ => ?_) (by omega) hrun (by omega) (by omega)
    simp only [hfirst, beq_eq_false_iff_ne, ne_eq]
    exact hc
  have hpoint : ∀ k, fr = '.' :: List.replicate k '0' →
      (sg ++ zs ++ ds ++ fr).getD (sg.length + zs.length + ds.length) ' ' = '.' := by
    intro k hk
    have h := getD_of_eq (sg ++ zs ++ ds) fr [] (show sg ++ zs ++ ds ++ fr = sg ++ zs ++ ds ++ fr ++ [] by simp)
      (i := 0) (by simp [hk])
    simp only [List.length_append, Nat.add_zero] at h
    rw [h, hk]
    rfl
  have hdigits : scanFwd Char.isDigit (sg ++ zs ++ ds ++ fr) (sg ++ zs ++ ds ++ fr).length
      (sg ++ zs ++ ds ++ fr).length (sg.length + zs.length) = sg.length + zs.length + ds.length := by
    have hrun := charRun_of_eq (sg ++ zs) ds fr rfl ht.digits
    simp only [List.length_append] at hrun
    refine scanFwd_run (fun hlt => ?_) (by omega) hrun (by omega) (by omega)
    rcases ht.frac with hk | ⟨k, hk⟩
    · simp only [hk, List.append_nil, List.length_append] at hlt
      omega
    · rw [hpoint k hk]; rfl
  simp only [findPointRange, hlen0, if_false, hfront, hback]
  rw [hsgn, ht.sign_length]
  simp only [hneg, hzeros, hdigits, show ¬(0 = (sg ++ zs ++ ds ++ fr).length) by omega,
    show ¬(sg.length + zs.length = (sg ++ zs ++ ds ++ fr).length) by omega, if_false]
  rcases ht.frac with rfl | ⟨k, rfl⟩
  · simp only [List.append_nil, List.length_nil, Nat.add_zero] at hlen ⊢
    rw [if_neg (fun h => by omega)]
    simp [Nat.add_assoc]
  · have hrun := charRun_of_eq (p := Char.isDigit) (sg ++ zs ++ ds ++ ['.']) (List.replicate k '0') []
      (show sg ++ zs ++ ds ++ '.' :: List.replicate k '0' = sg ++ zs ++ ds ++ ['.'] ++ List.replicate k '0' ++ [] by
        simp)
      fun c h => by rw [List.eq_of_mem_replicate h]; rfl
    simp only [List.length_append, List.length_singleton, List.length_replicate] at hrun
    simp only [List.length_cons, List.length_replicate] at hlen
    have hend : scanFwd Char.isDigit (sg ++ zs ++ ds ++ '.' :: List.replicate k '0')
        (sg ++ zs ++ ds ++ '.' :: List.replicate k '0').length (sg ++ zs ++ ds ++ '.' :: List.replicate k '0').length
        (sg.length + zs.length + ds.length + 1) = (sg ++ zs ++ ds ++ '.' :: List.replicate k '0').length :=
      scanFwd_run (fun h => absurd h (lt_irrefl _)) le_rfl (hrun.mono le_rfl (by omega)) (by omega) (by omega)
    rw [if_pos ⟨by omega, hpoint k rfl⟩, hend]
    simp

theorem IntegerText.constructDigits_eq (ht : IntegerText sg zs ds fr) (hD : 0 < ds.length)
    (h72 : ds.length ≤ 72) :
    ∃ ws, constructDigits (sg ++ zs ++ ds ++ fr) (sg.length + zs.length : Nat)
        (sg.length + zs.length + ds.length : Nat) ((sg ++ zs ++ ds ++ fr).length : Nat) calcBufferSize 0 =
        (trimZeros ws, (((ds.length - 1) / maxStoreLen : Nat) : Int)) ∧
      WordsOf ws ((ds.length - 1) / maxStoreLen) (atoi ds) := by
  have hlen : (sg ++ zs ++ ds ++ fr).length = sg.length + zs.length + ds.length + fr.length := by
    simp only [List.length_append]
  have hrun := charRun_of_eq (sg ++ zs) ds fr rfl ht.digits
  have hslice := slice_middle (sg ++ zs) ds fr
  simp only [List.length_append] at hrun hslice
  have hwords : WordsOf (integerWords (sg ++ zs ++ ds ++ fr) (sg.length + zs.length + ds.length) calcBufferSize
      (sg.length + zs.length) ((ds.length - 1) % maxStoreLen + 1)) ((ds.length - 1) / maxStoreLen) (atoi ds) := by
    have h : WordsOf (integerWords (sg ++ zs ++ ds ++ fr) (sg.length + zs.length + ds.length) calcBufferSize
        (sg.length + zs.length) ((ds.length - 1) % maxStoreLen + 1)) ((ds.length - 1) / maxStoreLen)
        (atoi (slice (sg ++ zs ++ ds ++ fr) (sg.length + zs.length) (sg.length + zs.length + ds.length))) :=
      integerWords_spec (by omega) hrun (by omega) (by simp only [maxStoreLen]; omega)
        (by simp only [maxStoreLen]; omega) (by simp only [maxStoreLen, calcBufferSize]; omega)
    rwa [hslice] at h
  have hfrac : CharRun (· == '0') (sg ++ zs ++ ds ++ fr) (sg.length + zs.length + ds.length + 1)
      (sg ++ zs ++ ds ++ fr).length := by
    rcases ht.frac with rfl | ⟨k, rfl⟩
    · exact fun i h1 h2 => absurd h2 (by simp only [List.length_append, List.length_nil] at h2 ⊢; omega)
    · have h := charRun_of_eq (p := (· == '0')) (sg ++ zs ++ ds ++ ['.']) (List.replicate k '0') []
        (show sg ++ zs ++ ds ++ '.' :: List.replicate k '0' = sg ++ zs ++ ds ++ ['.'] ++ List.replicate k '0' ++ [] by
          simp)
        fun c h => by rw [List.eq_of_mem_replicate h]; rfl
      simp only [List.length_append, List.length_singleton, List.length_replicate] at h
      refine h.mono le_rfl ?_
      simp only [List.length_append, List.length_cons, List.length_replicate]
      omega
  refine ⟨_, ?_, hwords⟩
  unfold constructDigits
  rw [if_pos (by omega)]
  simp only [show (((sg.length + zs.length + ds.length : Nat) : Int) - (sg.length + zs.length : Nat)).toNat =
    ds.length by omega, Int.toNat_natCast]
  split_ifs with hC hS
  · rw [show (((sg.length + zs.length + ds.length : Nat) : Int) + 1).toNat = sg.length + zs.length + ds.length + 1 by
      omega, trimZeros_append_of_zeros _ (decimalWords_zeros hfrac)]
    simp only [Prod.mk.injEq, true_and]
    push_cast
    ring
  · omega
  · simp only [List.append_nil, Prod.mk.injEq, true_and]
    push_cast
    ring

theorem IntegerText.fromV3_eq (ht : IntegerText sg zs ds fr) {c : Char} {cs : List Char} (hds : ds = c :: cs)
    (hc : c ≠ '0') (h72 : ds.length ≤ 72) (doRounding : Bool) :
    ∃ m, fromV3 (sg ++ zs ++ ds ++ fr) doRounding = .ok (m, false) ∧ Normalized m ∧
      m.value = if sg = ['-'] then -(atoi ds : ℚ) else atoi ds := by
  have hD : 0 < ds.length := by simp [hds]
  obtain ⟨ws, hcd, hwords⟩ := ht.constructDigits_eq hD h72
  have hj7 : (ds.length - 1) / maxStoreLen ≤ 7 := by simp only [maxStoreLen]; omega
  have hhead : 0 < ws.headD 0 := by
    apply headD_pos_of_pow_le hwords.lt
    rw [hwords.length, hwords.weigh, Nat.add_sub_cancel, base_eq_pow, ← Nat.pow_mul]
    calc 10 ^ (maxStoreLen * ((ds.length - 1) / maxStoreLen)) ≤ 10 ^ cs.length :=
          Nat.pow_le_pow_right (by omega) (by simp only [hds, List.length_cons, maxStoreLen]; omega)
      _ ≤ atoi ds := hds ▸ pow_le_atoi_cons (ht.digits c (by simp [hds])) hc cs
  obtain ⟨htne, hth⟩ := headD_trimZeros hhead
  obtain ⟨k, hk⟩ := trimZeros_append_replicate ws
  have hlen : (trimZeros ws).length + k = (ds.length - 1) / maxStoreLen + 1 := by
    have h := congrArg List.length hk
    rw [List.length_append, List.length_replicate, hwords.length] at h
    exact h
  simp only [fromV3, ht.findPointRange_eq hds hc, bind, Except.bind]
  rw [hcd]
  dsimp only
  set sign : Fin 2 := if decide (sg = ['-']) = true then negative else positive with hsign
  set m : ObNumber := ⟨⟨(trimZeros ws).length, encodeExp sign (((ds.length - 1) / maxStoreLen : Nat) : Int), sign⟩,
    trimZeros ws⟩ with hm
  have hexp : m.d.exponent = (((ds.length - 1) / maxStoreLen : Nat) : Int) :=
    (exponent_of_encodeExp ⟨by omega, by omega⟩ rfl).1
  have hnorm : Normalized m :=
    .nonzero _ ⟨by omega, by omega⟩ rfl rfl (fun x hx => hwords.lt x (mem_of_mem_trimZeros hx)) (hth ▸ hhead)
      (getLastD_trimZeros_pos htne)
  have he0 : 0 ≤ m.d.exponent := by rw [hexp]; exact Int.natCast_nonneg _
  have hint : (m.d.len : Int) ≤ m.d.exponent + 1 := by
    rw [hexp, show m.d.len = (trimZeros ws).length from rfl]
    omega
  have he8 : m.d.exponent + 1 ≤ 8 := by rw [hexp]; omega
  have hround : m.roundScaleV3 floatingScale true = m :=
    roundScaleV3_of_integral (List.length_pos_iff.2 htne) he0 hint he8
  have hcheck : expCheck m.d false = .ok () := expCheck_of_natAbs_le (by simp only [maxIntegerExp]; omega)
  have hmag : m.magnitude = atoi ds := by
    have hval : ofDigitsBE base (trimZeros ws) * base ^ k = atoi ds := by
      rw [← hwords.weigh]
      conv_rhs => rw [← hk]
      rw [ofDigitsBE_append, ofDigitsBE_replicate_zero, Nat.add_zero, List.length_replicate]
    rw [magnitude_eq_scaled m k, show m.digits = trimZeros ws from rfl, hval, hexp,
      show ((((ds.length - 1) / maxStoreLen : Nat) : Int) - (((trimZeros ws).length + k : Nat) : Int) + 1) = 0 by
        omega, zpow_zero, mul_one]
  refine ⟨m, ?_, hnorm, ?_⟩
  · rw [if_neg (by simpa using htne), show (if doRounding = true then m.roundScaleV3 floatingScale true else m) = m by
      rw [hround, ite_self], hcheck]
    rfl
  · have hs : m.d.sign = sign := rfl
    unfold value
    rw [hmag, hs, hsign]
    by_cases hsg : sg = ['-']
    · simp [hsg]
    · simp [hsg, show positive ≠ negative by decide]

theorem IntegerText.findPointRange_zeros (ht : IntegerText sg zs [] fr) (hzs : zs ≠ []) :
    ∃ point stop : Int, findPointRange (sg ++ zs ++ [] ++ fr) = .ok ⟨point, point, stop, decide (sg = ['-']), false⟩ ∧
      CharRun (· == '0') (sg ++ zs ++ [] ++ fr) (point + 1).toNat stop.toNat := by
  obtain ⟨hlen0, hfront, hback, hsgn, hneg⟩ := ht.front (by simpa using hzs)
  have hlen : (sg ++ zs ++ [] ++ fr).length = sg.length + zs.length + fr.length := by
    simp only [List.length_append, List.length_nil, Nat.add_zero]
  have hz : 0 < zs.length := List.length_pos_iff.2 hzs
  have htext : sg ++ zs ++ [] ++ fr = sg ++ zs ++ fr := by simp
  have hzeros : scanFwd (· == '0') (sg ++ zs ++ [] ++ fr) (sg ++ zs ++ [] ++ fr).length
      (sg ++ zs ++ [] ++ fr).length sg.length = sg.length + zs.length := by
    have hrun := charRun_of_eq (p := (· == '0')) sg zs fr htext fun c h => by simp [ht.zeros c h]
    refine scanFwd_run (fun hlt => ?_) (by omega) hrun (by omega) (by omega)
    rcases ht.frac with hk | ⟨k, hk⟩
    · subst hk
      simp only [List.length_nil, Nat.add_zero] at hlen
      omega
    · have h := getD_of_eq (sg ++ zs) fr [] (show sg ++ zs ++ [] ++ fr = sg ++ zs ++ fr ++ [] by simp)
        (i := 0) (by simp [hk])
      simp only [List.length_append, Nat.add_zero] at h
      rw [h, hk]
      rfl
  simp only [findPointRange, hlen0, if_false, hfront, hback]
  rw [hsgn, ht.sign_length]
  simp only [hneg, hzeros, show ¬(0 = (sg ++ zs ++ [] ++ fr).length) by omega, if_false]
  rcases ht.frac with rfl | ⟨k, rfl⟩
  · simp only [List.length_nil, Nat.add_zero] at hlen
    rw [if_pos (by omega)]
    exact ⟨_, _, rfl, fun i h1 h2 => absurd h2 (by omega)⟩
  · have hpoint : (sg ++ zs ++ [] ++ '.' :: List.replicate k '0').getD (sg.length + zs.length) ' ' = '.' := by
      have h := getD_of_eq (sg ++ zs) ('.' :: List.replicate k '0') []
        (show sg ++ zs ++ [] ++ '.' :: List.replicate k '0' = sg ++ zs ++ ('.' :: List.replicate k '0') ++ [] by simp)
        (i := 0) (by simp)
      simp only [List.length_append, Nat.add_zero] at h
      rw [h]
      rfl
    have hrun := charRun_of_eq (p := Char.isDigit) (sg ++ zs ++ ['.']) (List.replicate k '0') []
      (show sg ++ zs ++ [] ++ '.' :: List.replicate k '0' = sg ++ zs ++ ['.'] ++ List.replicate k '0' ++ [] by simp)
      fun c h => by rw [List.eq_of_mem_replicate h]; rfl
    have hzrun := charRun_of_eq (p := (· == '0')) (sg ++ zs ++ ['.']) (List.replicate k '0') []
      (show sg ++ zs ++ [] ++ '.' :: List.replicate k '0' = sg ++ zs ++ ['.'] ++ List.replicate k '0' ++ [] by simp)
      fun c h => by rw [List.eq_of_mem_replicate h]; rfl
    simp only [List.length_append, List.length_singleton, List.length_replicate] at hrun hzrun
    simp only [List.length_cons, List.length_replicate] at hlen
    have hdot : scanFwd Char.isDigit (sg ++ zs ++ [] ++ '.' :: List.replicate k '0')
        (sg ++ zs ++ [] ++ '.' :: List.replicate k '0').length (sg ++ zs ++ [] ++ '.' :: List.replicate k '0').length
        (sg.length + zs.length) = sg.length + zs.length := scanFwd_self (by rw [hpoint]; rfl)
    have hend : scanFwd Char.isDigit (sg ++ zs ++ [] ++ '.' :: List.replicate k '0')
        (sg ++ zs ++ [] ++ '.' :: List.replicate k '0').length (sg ++ zs ++ [] ++ '.' :: List.replicate k '0').length
        (sg.length + zs.length + 1) = (sg ++ zs ++ [] ++ '.' :: List.replicate k '0').length :=
      scanFwd_run (fun h => absurd h (lt_irrefl _)) le_rfl (hrun.mono le_rfl (by omega)) (by omega) (by omega)
    rw [if_neg (by omega), hdot, if_pos ⟨by omega, hpoint⟩, hend]
    refine ⟨(sg.length + zs.length : Nat), ((sg ++ zs ++ [] ++ '.' :: List.replicate k '0').length : Nat), by simp, ?_⟩
    exact hzrun.mono (by omega) (by omega)

theorem IntegerText.fromV3_zeros (ht : IntegerText sg zs [] fr) (hzs : zs ≠ []) (doRounding : Bool) :
    fromV3 (sg ++ zs ++ [] ++ fr) doRounding = .ok (zero, false) := by
  obtain ⟨point, stop, hfp, hrun⟩ := ht.findPointRange_zeros hzs
  simp only [fromV3, hfp, bind, Except.bind]
  rw [constructDigits_of_zeros hrun]
  rfl

end IntegerText

/-- `from_v3_` reads the text of every integer below `10 ^ 72` exactly: an optional sign, decimal
digits with leading zeros or none, and maybe a point followed by zeros give the normalized number
of the digits' value with the text's sign, and no warning, whether it rounds or not. -/
theorem fromV3_reads_integer_text (sg ds fr : List Char) (hsg : sg = [] ∨ sg = ['+'] ∨ sg = ['-'])
    (hne : ds ≠ []) (hds : ∀ c ∈ ds, c.isDigit = true) (hlt : atoi ds < 10 ^ 72)
    (hfr : fr = [] ∨ ∃ k, fr = '.' :: List.replicate k '0') (doRounding : Bool) :
    ∃ m, fromV3 (sg ++ ds ++ fr) doRounding = .ok (m, false) ∧ Normalized m ∧
      m.value = if sg = ['-'] then -(atoi ds : ℚ) else atoi ds := by
  have hsplit := List.takeWhile_append_dropWhile (p := (· == '0')) (l := ds)
  have hzs : ∀ c ∈ ds.takeWhile (· == '0'), c = '0' := fun c h => by simpa using List.mem_takeWhile_imp h
  have hatoi : atoi ds = atoi (ds.dropWhile (· == '0')) := by
    conv_lhs => rw [← hsplit]
    rw [atoi_append, atoi_of_zeros hzs, Nat.zero_mul, Nat.zero_add]
  have ht : IntegerText sg (ds.takeWhile (· == '0')) (ds.dropWhile (· == '0')) fr :=
    ⟨hsg, hzs, fun c h => hds c (hsplit ▸ List.mem_append_right _ h), hfr⟩
  have htext : sg ++ ds ++ fr = sg ++ ds.takeWhile (· == '0') ++ ds.dropWhile (· == '0') ++ fr := by
    conv_lhs => rw [← hsplit]
    simp only [List.append_assoc]
  rw [htext, hatoi]
  rw [hatoi] at hlt
  rcases hd : ds.dropWhile (· == '0') with _ | ⟨c, cs⟩
  · rw [hd] at ht
    have hz : ds.takeWhile (· == '0') ≠ [] := by
      intro h
      rw [h, hd] at hsplit
      exact hne hsplit.symm
    refine ⟨zero, ht.fromV3_zeros hz doRounding, .zero, ?_⟩
    simp
  · rw [hd] at ht hlt
    have hc : c ≠ '0' := by
      have h := List.head_dropWhile_not (· == '0') (l := ds) (by simp [hd])
      simp only [hd, List.head_cons] at h
      exact beq_eq_false_iff_ne.1 h
    have h72 : (c :: cs).length ≤ 72 := by
      have hpow := lt_of_le_of_lt (pow_le_atoi_cons (ht.digits c List.mem_cons_self) hc cs) hlt
      have := (Nat.pow_lt_pow_iff_right (by omega)).1 hpow
      simp only [List.length_cons]
      omega
    exact ht.fromV3_eq rfl hc h72 doRounding

/-- The text "-0042.0": minus forty-two. -/
theorem fromV3_reads_integer_text_minus42 :
    (∀ c ∈ ['0', '0', '4', '2'], c.isDigit = true) ∧ atoi ['0', '0', '4', '2'] < 10 ^ 72 ∧
      ∃ m, fromV3 (['-'] ++ ['0', '0', '4', '2'] ++ ['.', '0']) true = .ok (m, false) ∧ Normalized m ∧
        m.value = if ['-'] = ['-'] then -(atoi ['0', '0', '4', '2'] : ℚ) else atoi ['0', '0', '4', '2'] :=
  ⟨by simp [Char.isDigit], by simp [atoi],
    fromV3_reads_integer_text ['-'] ['0', '0', '4', '2'] ['.', '0'] (.inr (.inr rfl)) (by simp) (by simp [Char.isDigit])
      (by simp [atoi]) (.inr ⟨1, rfl⟩) true⟩

end ObNumber
end Common
end OceanBase
