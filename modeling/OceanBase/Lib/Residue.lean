import Mathlib

/-! Residues modulo `n` inside a window of at most `n` consecutive numbers: the slot
arithmetic of a ring of `n` slots, where the residue of a number is its slot. -/
namespace OceanBase
namespace Lib

theorem eq_of_mod_eq_of_lt_add {n x y : Nat} (h : x % n = y % n) (hxy : x ≤ y) (hy : y < x + n) :
    x = y := by
  have hd : n ∣ y - x := Nat.dvd_of_mod_eq_zero (Nat.sub_mod_eq_zero_of_mod_eq h.symm)
  have h0 : y - x = 0 := Nat.eq_zero_of_dvd_of_lt hd (by omega)
  omega

theorem eq_of_mod_eq_of_window {n a x y : Nat} (h : x % n = y % n) (hx : a ≤ x) (hx' : x < a + n)
    (hy : a ≤ y) (hy' : y < a + n) : x = y := by
  rcases Nat.le_total x y with hxy | hyx
  · exact eq_of_mod_eq_of_lt_add h hxy (by omega)
  · exact (eq_of_mod_eq_of_lt_add h.symm hyx (by omega)).symm

theorem mod_ne_of_ne {n x y : Nat} (hne : x ≠ y) (hxy : x < y + n) (hyx : y < x + n) :
    x % n ≠ y % n := by
  intro h
  rcases Nat.le_total x y with hle | hle
  · exact hne (eq_of_mod_eq_of_lt_add h hle hyx)
  · exact hne (eq_of_mod_eq_of_lt_add h.symm hle hxy).symm

theorem eq_or_eq_add_of_mod_eq {n x y : Nat} (h : x % n = y % n) (hxy : x ≤ y) (hy : y ≤ x + n) :
    y = x ∨ y = x + n := by
  rcases Nat.lt_or_ge y (x + n) with hlt | hge
  · exact .inl (eq_of_mod_eq_of_lt_add h hxy hlt).symm
  · exact .inr (by omega)

end Lib
end OceanBase
