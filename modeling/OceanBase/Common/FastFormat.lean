import Mathlib

/-! `ObFastFormatInt` (`lib/utility/ob_fast_convert.cpp`), the integer printer that the number
format calls on its words: `format_unsigned` writes the decimal digits of a value from the last,
two at a time through the table `DIGITS` while the value is at least 100, and `format_signed`
writes a minus sign before the digits of a negative value's magnitude. What they write is
`Nat.toDigits 10`, the digits with no leading zero, `ob_fast_digits10` of them. -/
namespace OceanBase
namespace Common
namespace ObFastFormatInt

def digits : List Char :=
  [
    '0','0','0','1','0','2','0','3','0','4','0','5','0','6','0','7','0','8','0','9',
    '1','0','1','1','1','2','1','3','1','4','1','5','1','6','1','7','1','8','1','9',
    '2','0','2','1','2','2','2','3','2','4','2','5','2','6','2','7','2','8','2','9',
    '3','0','3','1','3','2','3','3','3','4','3','5','3','6','3','7','3','8','3','9',
    '4','0','4','1','4','2','4','3','4','4','4','5','4','6','4','7','4','8','4','9',
    '5','0','5','1','5','2','5','3','5','4','5','5','5','6','5','7','5','8','5','9',
    '6','0','6','1','6','2','6','3','6','4','6','5','6','6','6','7','6','8','6','9',
    '7','0','7','1','7','2','7','3','7','4','7','5','7','6','7','7','7','8','7','9',
    '8','0','8','1','8','2','8','3','8','4','8','5','8','6','8','7','8','8','8','9',
    '9','0','9','1','9','2','9','3','9','4','9','5','9','6','9','7','9','8','9','9']

/-- `format_unsigned(value, buf)`: the characters it writes from the end of the buffer back, in
front of those written already, `out`. -/
def formatUnsigned (value : Nat) (out : List Char) : List Char :=
  if h : 100 ≤ value then
    let index := value % 100 * 2
    formatUnsigned (value / 100) (digits.getD index ' ' :: digits.getD (index + 1) ' ' :: out)
  else if value < 10 then Char.ofNat ('0'.toNat + value) :: out
  else
    let index := value * 2
    digits.getD index ' ' :: digits.getD (index + 1) ' ' :: out
termination_by value
decreasing_by omega

/-- `format_signed(value, buf)` on an `int64_t`: a minus sign and the digits of `~value + 1` for a
negative value, the digits of the value otherwise. -/
def formatSigned (value : Int) : List Char :=
  if value < 0 then '-' :: formatUnsigned value.natAbs [] else formatUnsigned value.natAbs []

theorem digits_getD : ∀ i : Fin 100, digits.getD (i.val * 2) ' ' = Nat.digitChar (i.val / 10) ∧
    digits.getD (i.val * 2 + 1) ' ' = Nat.digitChar (i.val % 10) := by
  decide +kernel

theorem ofNat_zero_add {v : Nat} (hv : v < 10) : Char.ofNat ('0'.toNat + v) = Nat.digitChar v := by
  rw [← Char.ofNat_toNat (Nat.digitChar v), Nat.toNat_digitChar_of_lt_ten hv]
  rfl

theorem toDigits_of_hundred_le {v : Nat} (h : 100 ≤ v) :
    Nat.toDigits 10 v = Nat.toDigits 10 (v / 100) ++ [Nat.digitChar (v % 100 / 10), Nat.digitChar (v % 10)] := by
  rw [Nat.toDigits_of_base_le (by decide) (by omega : 10 ≤ v),
    Nat.toDigits_of_base_le (by decide) (by omega : 10 ≤ v / 10)]
  rw [show v / 10 / 10 = v / 100 by omega, show v / 10 % 10 = v % 100 / 10 by omega]
  simp

theorem toDigits_of_ten_le {v : Nat} (h10 : 10 ≤ v) (h : v < 100) :
    Nat.toDigits 10 v = [Nat.digitChar (v / 10), Nat.digitChar (v % 10)] := by
  rw [Nat.toDigits_of_base_le (by decide) h10, Nat.toDigits_of_lt_base (by omega : v / 10 < 10)]
  rfl

theorem formatUnsigned_eq (value : Nat) (out : List Char) :
    formatUnsigned value out = Nat.toDigits 10 value ++ out := by
  fun_induction formatUnsigned value out with
  | case1 value out h index ih =>
    obtain ⟨hi, hj⟩ := digits_getD ⟨value % 100, by omega⟩
    have hlast : value % 100 % 10 = value % 10 := by omega
    rw [ih, toDigits_of_hundred_le h]
    simp only [index, hi, hj, hlast, List.append_assoc, List.cons_append, List.nil_append]
  | case2 value out h hv => rw [Nat.toDigits_of_lt_base hv, ofNat_zero_add hv]; rfl
  | case3 value out h hv index =>
    obtain ⟨hi, hj⟩ := digits_getD ⟨value, by omega⟩
    rw [toDigits_of_ten_le (by omega) (by omega)]
    simp only [index, hi, hj, List.cons_append, List.nil_append]

theorem formatSigned_eq (value : Int) :
    formatSigned value = (if value < 0 then ['-'] else []) ++ Nat.toDigits 10 value.natAbs := by
  unfold formatSigned
  split_ifs <;> simp [formatUnsigned_eq]

end ObFastFormatInt
end Common
end OceanBase
