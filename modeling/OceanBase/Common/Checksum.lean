import Mathlib

/-! The checksums of `lib/checksum`: the parity check that log headers protect themselves with,
and the signature of `ob_crc64`. The model leaves the CRC itself as a parameter, so what is
proved with it holds for any checksum function in its place. -/
namespace OceanBase
namespace Common

/-- `ob_crc64(crc, buf, len)`: the checksum, continued from `crc`, of the `len` bytes at `buf`. -/
abbrev ObCrc64 := BitVec 64 → (Nat → UInt8) → Nat → BitVec 64

def p2 (n : Bool) : List Bool := [n, !n, !n, n]

def p4 (n : Bool) : List Bool := p2 n ++ p2 (!n) ++ p2 (!n) ++ p2 n

def p6 (n : Bool) : List Bool := p4 n ++ p4 (!n) ++ p4 (!n) ++ p4 n

def parityTable : List Bool := p6 false ++ p6 true ++ p6 true ++ p6 false

/-- The `parity_check` overloads differ only in the shifts that fold the value onto its low byte
(`val ^= val >> s`), which is then looked up in `ParityTable`. -/
def parityCheckFold {w : Nat} (value : BitVec w) (shifts : List Nat) : Bool :=
  parityTable.getD ((shifts.foldl (fun val s => val ^^^ val >>> s) value).toNat % 256) false

def parityCheck16 (value : BitVec 16) : Bool := parityCheckFold value [8]

def parityCheck32 (value : BitVec 32) : Bool := parityCheckFold value [16,8]

def parityCheck64 (value : BitVec 64) : Bool := parityCheckFold value [32,16,8]

/-! ## A flipped bit flips the parity

The fold of `parity_check` is linear in exclusive or, so the parity of `x` with one bit flipped
is the parity of `x` and of that one bit; the fold of a single bit is a single bit of the low
byte, and `ParityTable` changes with any one bit of its index. -/

theorem foldl_xor_shift_xor {w : Nat} (shifts : List Nat) (x y : BitVec w) :
    shifts.foldl (fun val s => val ^^^ val >>> s) (x ^^^ y) =
      shifts.foldl (fun val s => val ^^^ val >>> s) x ^^^
        shifts.foldl (fun val s => val ^^^ val >>> s) y := by
  induction shifts generalizing x y with
  | nil => rfl
  | cons s shifts ih =>
    simp only [List.foldl_cons]
    rw [← ih,BitVec.ushiftRight_xor_distrib]
    congr 1
    ac_rfl

theorem parityTable_xor_two_pow : ∀ a < 256, ∀ k < 8,
    parityTable.getD (a ^^^ 2 ^ k) false = !parityTable.getD a false := by
  decide +kernel

theorem parityCheckFold_xor {w : Nat} (x t : BitVec w) (shifts : List Nat) {k : Nat} (hk : k < 8)
    (ht : (shifts.foldl (fun val s => val ^^^ val >>> s) t).toNat % 256 = 2 ^ k) :
    parityCheckFold (x ^^^ t) shifts = !parityCheckFold x shifts := by
  unfold parityCheckFold
  rw [foldl_xor_shift_xor,BitVec.toNat_xor,show (256 : Nat) = 2 ^ 8 from rfl,Nat.xor_mod_two_pow]
  rw [show (2 : Nat) ^ 8 = 256 from rfl,ht]
  exact parityTable_xor_two_pow _ (Nat.mod_lt _ (by norm_num)) k hk

theorem parityCheck16_xor_twoPow (x : BitVec 16) {j : Nat} (hj : j < 16) :
    parityCheck16 (x ^^^ BitVec.twoPow 16 j) = !parityCheck16 x := by
  have hfold : ∀ j < 16, ([8].foldl (fun val s => val ^^^ val >>> s) (BitVec.twoPow 16 j)).toNat % 256 =
      2 ^ (j % 8) := by decide +kernel
  exact parityCheckFold_xor x _ _ (Nat.mod_lt _ (by norm_num)) (hfold j hj)

theorem parityCheck32_xor_twoPow (x : BitVec 32) {j : Nat} (hj : j < 32) :
    parityCheck32 (x ^^^ BitVec.twoPow 32 j) = !parityCheck32 x := by
  have hfold : ∀ j < 32, ([16,8].foldl (fun val s => val ^^^ val >>> s) (BitVec.twoPow 32 j)).toNat % 256 =
      2 ^ (j % 8) := by decide +kernel
  exact parityCheckFold_xor x _ _ (Nat.mod_lt _ (by norm_num)) (hfold j hj)

theorem parityCheck64_xor_twoPow (x : BitVec 64) {j : Nat} (hj : j < 64) :
    parityCheck64 (x ^^^ BitVec.twoPow 64 j) = !parityCheck64 x := by
  have hfold : ∀ j < 64, ([32,16,8].foldl (fun val s => val ^^^ val >>> s) (BitVec.twoPow 64 j)).toNat % 256 =
      2 ^ (j % 8) := by decide +kernel
  exact parityCheckFold_xor x _ _ (Nat.mod_lt _ (by norm_num)) (hfold j hj)

end Common
end OceanBase
