import Mathlib

/-! Big-endian integers in memory: the value of `n` bytes read most significant first, and the
write that stores the low `n` bytes of a value so. A fixed-width codec of a serialization
library is these two at one width, and a record's decoder is a sequence of them; the lemmas
here say that a read sees only its window, that a write leaves every byte outside its window,
and that a read after a write gives the value back. -/
namespace OceanBase
namespace Lib

def beRead (mem : Nat → UInt8) (p : Nat) : Nat → Nat
  | 0 => 0
  | n + 1 => beRead mem p n * 256 + (mem (p + n)).toNat

def beWrite (mem : Nat → UInt8) (p : Nat) : Nat → Nat → Nat → UInt8
  | 0, _ => mem
  | n + 1, v => Function.update (beWrite mem p n (v / 256)) (p + n) (UInt8.ofNat v)

/-- The bytes of a machine integer as a little-endian machine lays them out in memory, the
buffer a C function sees when it is passed the integer's address. -/
def leImage (v : Nat) : Nat → UInt8 := fun i => UInt8.ofNat (v / 256 ^ i)

theorem beRead_congr {m₁ m₂ : Nat → UInt8} {p q n : Nat} (h : ∀ i < n, m₁ (p + i) = m₂ (q + i)) :
    beRead m₁ p n = beRead m₂ q n := by
  induction n with
  | zero => rfl
  | succ n ih =>
    simp only [beRead]
    rw [ih fun i hi => h i (by omega),h n (by omega)]

theorem beWrite_apply_of_lt (mem : Nat → UInt8) {p q : Nat} (hq : q < p) (n v : Nat) :
    beWrite mem p n v q = mem q := by
  induction n generalizing v with
  | zero => rfl
  | succ n ih =>
    simp only [beWrite]
    rw [Function.update_of_ne (by omega),ih]

theorem beWrite_apply_of_le (mem : Nat → UInt8) {p q n : Nat} (hq : p + n ≤ q) (v : Nat) :
    beWrite mem p n v q = mem q := by
  induction n generalizing v with
  | zero => rfl
  | succ n ih =>
    simp only [beWrite]
    rw [Function.update_of_ne (by omega),ih (by omega)]

theorem beRead_beWrite (mem : Nat → UInt8) (p n v : Nat) :
    beRead (beWrite mem p n v) p n = v % 256 ^ n := by
  induction n generalizing v with
  | zero => simp [beRead,Nat.mod_one]
  | succ n ih =>
    have hlow : beRead (beWrite mem p (n + 1) v) p n = beRead (beWrite mem p n (v / 256)) p n :=
      beRead_congr fun i hi => Function.update_of_ne (by omega) _ _
    simp only [beRead] at hlow ⊢
    rw [hlow,ih]
    have hbyte : (UInt8.ofNat v).toNat = v % 256 := by simp
    simp only [beWrite,Function.update_self]
    rw [hbyte,Nat.pow_succ',Nat.mod_mul]
    omega

theorem beRead_beWrite_of_le (mem : Nat → UInt8) {p n p' : Nat} (h : p + n ≤ p') (k v : Nat) :
    beRead (beWrite mem p' k v) p n = beRead mem p n :=
  beRead_congr fun _ _ => beWrite_apply_of_lt mem (by omega) k v

/-! ## One bit flipped

The damage a checksum is meant to catch: one bit of one byte of a window changed. -/

def flipBit (mem : Nat → UInt8) (q b : Nat) : Nat → UInt8 :=
  Function.update mem q (mem q ^^^ UInt8.ofNat (2 ^ b))

theorem beRead_flipBit_of_lt (mem : Nat → UInt8) {p q n : Nat} (hq : q < p) (b : Nat) :
    beRead (flipBit mem q b) p n = beRead mem p n :=
  beRead_congr fun _ _ => Function.update_of_ne (by omega) _ _

theorem beRead_flipBit_of_le (mem : Nat → UInt8) {p q n : Nat} (hq : p + n ≤ q) (b : Nat) :
    beRead (flipBit mem q b) p n = beRead mem p n :=
  beRead_congr fun _ _ => Function.update_of_ne (by omega) _ _

theorem mul_add_xor_mul_add {a c d e : Nat} (hc : c < 256) (he : e < 256) :
    (a * 256 + c) ^^^ (d * 256 + e) = (a ^^^ d) * 256 + (c ^^^ e) := by
  have hce : c ^^^ e < 2 ^ 8 := Nat.xor_lt_two_pow (n := 8) hc he
  apply Nat.eq_of_testBit_eq
  intro i
  have hsplit : ∀ x y, y < 2 ^ 8 → (x * 256 + y).testBit i =
      if i < 8 then y.testBit i else x.testBit (i - 8) := fun x y hy => by
    rw [Nat.mul_comm,show (256 : Nat) = 2 ^ 8 from rfl]
    exact Nat.testBit_two_pow_mul_add x hy i
  rw [Nat.testBit_xor,hsplit a c hc,hsplit d e he,hsplit _ _ hce]
  split_ifs <;> simp [Nat.testBit_xor]

theorem beRead_flipBit (mem : Nat → UInt8) {p q n b : Nat} (hp : p ≤ q) (hq : q < p + n)
    (hb : b < 8) : beRead (flipBit mem q b) p n = beRead mem p n ^^^ 2 ^ (8 * (p + n - 1 - q) + b) := by
  have hbit : 2 ^ b < 256 := by
    calc 2 ^ b < 2 ^ 8 := Nat.pow_lt_pow_right (by norm_num) hb
      _ = 256 := rfl
  induction n with
  | zero => omega
  | succ n ih =>
    simp only [beRead]
    rcases Nat.lt_or_ge q (p + n) with hlt | hge
    · have hexp : 8 * (p + (n + 1) - 1 - q) + b = (8 * (p + n - 1 - q) + b) + 8 := by omega
      rw [ih hlt,flipBit,Function.update_of_ne (by omega),hexp,Nat.pow_add 2 _ 8,
        show (2 : Nat) ^ 8 = 256 from rfl]
      have h := mul_add_xor_mul_add (a := beRead mem p n) (d := 2 ^ (8 * (p + n - 1 - q) + b))
        (mem (p + n)).toNat_lt (show 0 < 256 by norm_num)
      rw [Nat.xor_zero,Nat.add_zero] at h
      exact h.symm
    · have hq' : q = p + n := by omega
      subst hq'
      have hexp : 8 * (p + (n + 1) - 1 - (p + n)) + b = b := by omega
      rw [beRead_flipBit_of_le mem (le_refl _),flipBit,Function.update_self,UInt8.toNat_xor,hexp,
        UInt8.toNat_ofNat_of_lt' hbit]
      have h := mul_add_xor_mul_add (a := beRead mem p n) (d := 0) (mem (p + n)).toNat_lt hbit
      rw [Nat.zero_mul,Nat.zero_add,Nat.xor_zero] at h
      exact h.symm

theorem ofNat_beRead_flipBit (mem : Nat → UInt8) {p q n b : Nat} (w : Nat) (hp : p ≤ q)
    (hq : q < p + n) (hb : b < 8) :
    BitVec.ofNat w (beRead (flipBit mem q b) p n) =
      BitVec.ofNat w (beRead mem p n) ^^^ BitVec.twoPow w (8 * (p + n - 1 - q) + b) := by
  rw [beRead_flipBit mem hp hq hb,BitVec.ofNat_xor]
  congr 1
  apply BitVec.eq_of_toNat_eq
  rw [BitVec.toNat_twoPow,BitVec.toNat_ofNat]

/-! ## Bytes of seven-bit groups

A variable-length integer stores seven bits of its value in each byte, the byte's top bit saying
whether another byte follows. -/

theorem uint8_ofNat_mod (n : Nat) : UInt8.ofNat (n % 256) = UInt8.ofNat n := by
  apply UInt8.toNat_inj.mp
  simp

theorem ofNat_or_0x80 (v : Nat) :
    UInt8.ofNat (v ||| 0x80) &&& 0x80 ≠ 0 ∧ (UInt8.ofNat (v ||| 0x80) &&& 0x7f).toNat = v % 128 := by
  have hmod : (v ||| 0x80) % 256 = v % 256 ||| 128 := by
    rw [show (256 : Nat) = 2 ^ 8 from rfl,Nat.or_mod_two_pow]
  have hbyte : ∀ x < 256, UInt8.ofNat (x ||| 128) &&& 0x80 ≠ 0 ∧
      (UInt8.ofNat (x ||| 128) &&& 0x7f).toNat = x % 128 := by decide +kernel
  rw [← uint8_ofNat_mod,hmod,← Nat.mod_mul_left_mod v 2 128]
  exact hbyte _ (Nat.mod_lt _ (by omega))

theorem ofNat_and_0x7f (v : Nat) :
    UInt8.ofNat (v &&& 0x7f) &&& 0x80 = 0 ∧ (UInt8.ofNat (v &&& 0x7f) &&& 0x7f).toNat = v % 128 := by
  have hand : v &&& 0x7f = v % 128 := by
    simpa using Nat.and_two_pow_sub_one_eq_mod v 7
  have hbyte : ∀ x < 128, UInt8.ofNat x &&& 0x80 = 0 ∧ (UInt8.ofNat x &&& 0x7f).toNat = x := by
    decide +kernel
  rw [hand]
  exact hbyte _ (Nat.mod_lt _ (by omega))

end Lib
end OceanBase
