import Mathlib
import OceanBase.Lib.Compare

/-! Numbers written as big-endian digits in a base `b`, as arbitrary-precision decimal formats
store them. Scanning two digit strings of one length from the most significant digit and
stopping at the first difference compares their values; a string compares with a longer one
ending in a nonzero digit as with that one's prefix, and is the smaller where they agree. -/
namespace OceanBase
namespace Lib

def ofDigitsBE (b : Nat) (ds : List Nat) : Nat := Nat.ofDigits b ds.reverse

@[simp] theorem ofDigitsBE_nil (b : Nat) : ofDigitsBE b [] = 0 := rfl

theorem ofDigitsBE_append (b : Nat) (xs ys : List Nat) :
    ofDigitsBE b (xs ++ ys) = ofDigitsBE b xs * b ^ ys.length + ofDigitsBE b ys := by
  unfold ofDigitsBE
  rw [List.reverse_append,Nat.ofDigits_append,List.length_reverse]
  ring

theorem ofDigitsBE_cons (b d : Nat) (ds : List Nat) :
    ofDigitsBE b (d :: ds) = d * b ^ ds.length + ofDigitsBE b ds := by
  have h := ofDigitsBE_append b [d] ds
  simpa [ofDigitsBE,Nat.ofDigits_singleton] using h

theorem ofDigitsBE_lt {b : Nat} (hb : 1 < b) {ds : List Nat} (h : ∀ d ∈ ds, d < b) :
    ofDigitsBE b ds < b ^ ds.length := by
  have h' := Nat.ofDigits_lt_base_pow_length hb fun x hx => h x (List.mem_reverse.mp hx)
  rwa [List.length_reverse] at h'

theorem pow_le_ofDigitsBE_cons (b : Nat) {d : Nat} (hd : 0 < d) (ds : List Nat) :
    b ^ ds.length ≤ ofDigitsBE b (d :: ds) := by
  rw [ofDigitsBE_cons]
  have : b ^ ds.length ≤ d * b ^ ds.length := Nat.le_mul_of_pos_left _ hd
  omega

theorem ofDigitsBE_pos_of_last (b : Nat) (xs : List Nat) {d : Nat} (hd : 0 < d) :
    0 < ofDigitsBE b (xs ++ [d]) := by
  rw [ofDigitsBE_append]
  simp only [ofDigitsBE,List.reverse_singleton,Nat.ofDigits_singleton]
  omega

theorem cmp3_ofDigitsBE_cons {b : Nat} (hb : 1 < b) {x y : Nat} {xs ys : List Nat}
    (hx : ∀ d ∈ xs, d < b) (hy : ∀ d ∈ ys, d < b) (hlen : xs.length = ys.length) :
    cmp3 (ofDigitsBE b (x :: xs)) (ofDigitsBE b (y :: ys)) =
      if x < y then -1 else if y < x then 1 else cmp3 (ofDigitsBE b xs) (ofDigitsBE b ys) := by
  rw [ofDigitsBE_cons,ofDigitsBE_cons,← hlen]
  have hxs := ofDigitsBE_lt hb hx
  have hys := ofDigitsBE_lt hb hy
  rw [← hlen] at hys
  have hstep : ∀ {u v : Nat}, u < v → ∀ p q, p < b ^ xs.length →
      u * b ^ xs.length + p < v * b ^ xs.length + q := by
    intro u v huv p q hp
    have : (u + 1) * b ^ xs.length ≤ v * b ^ xs.length := Nat.mul_le_mul_right _ huv
    rw [Nat.add_mul,one_mul] at this
    omega
  split_ifs with hlt hgt
  · exact cmp3_of_lt (hstep hlt _ _ hxs)
  · exact cmp3_of_gt (hstep hgt _ _ hys)
  · have hxy : x = y := by omega
    subst hxy
    exact cmp3_map (fun _ _ h => Nat.add_lt_add_left h _) _ _

theorem cmp3_ofDigitsBE_append {b : Nat} (hb : 1 < b) (xs ys : List Nat) {zs : List Nat}
    (hz : ∀ d ∈ zs, d < b) (hzpos : 0 < ofDigitsBE b zs) :
    cmp3 (ofDigitsBE b xs * b ^ zs.length) (ofDigitsBE b (ys ++ zs)) =
      if ofDigitsBE b xs ≤ ofDigitsBE b ys then -1 else 1 := by
  rw [ofDigitsBE_append]
  have hzs := ofDigitsBE_lt hb hz
  split_ifs with hle
  · exact cmp3_of_lt (by
      have := Nat.mul_le_mul_right (b ^ zs.length) hle
      omega)
  · refine cmp3_of_gt ?_
    have : (ofDigitsBE b ys + 1) * b ^ zs.length ≤ ofDigitsBE b xs * b ^ zs.length :=
      Nat.mul_le_mul_right _ (by omega)
    rw [Nat.add_mul,one_mul] at this
    omega

theorem cmp3_mul_of_div (x m : Nat) {y : Nat} (hy : 0 < y) :
    cmp3 x (m * y) = if x / y > m then 1 else if x / y = m then (if x % y = 0 then 0 else 1) else -1 := by
  have hdiv := Nat.div_add_mod x y
  have hmod := Nat.mod_lt x hy
  split_ifs with hgt heq hr
  · refine cmp3_of_gt ?_
    have : (m + 1) * y ≤ x / y * y := Nat.mul_le_mul_right _ hgt
    rw [Nat.add_mul,one_mul] at this
    rw [Nat.mul_comm] at hdiv
    omega
  · rw [← heq,cmp3_eq_zero_iff]
    rw [Nat.mul_comm] at hdiv
    omega
  · refine cmp3_of_gt ?_
    rw [← heq]
    rw [Nat.mul_comm] at hdiv
    omega
  · refine cmp3_of_lt ?_
    have : (x / y + 1) * y ≤ m * y := Nat.mul_le_mul_right _ (by omega)
    rw [Nat.add_mul,one_mul] at this
    rw [Nat.mul_comm] at hdiv
    omega

end Lib
end OceanBase
