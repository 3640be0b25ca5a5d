import OceanBase.Lib.Mem

/-! Little-endian words and bit fields in a byte memory. Bits are numbered from the least
significant bit of byte 0, so that the bits of an `n`-byte word loaded at `p` are the bits
`8 * p` to `8 * (p + n) - 1` of memory, lowest first. A bit-packed array is a sequence of fields
in this numbering; the lemmas say what a load, an OR of a word into memory and a store of a
word's low bytes do to the bits, so that a packed field can be followed from its writer to its
reader bit by bit. -/
namespace OceanBase
namespace Lib

def bitAt (mem : Nat → UInt8) (i : Nat) : Bool := (mem (i / 8)).toNat.testBit (i % 8)

def bitsAt (mem : Nat → UInt8) (p : Nat) : Nat → Nat
  | 0 => 0
  | n + 1 => (bitAt mem p).toNat + 2 * bitsAt mem (p + 1) n

/-- The `n` bytes of memory from `p`, least significant first: a load of an `n`-byte word on a
little-endian machine, or a `MEMCPY` of `n` bytes into a zeroed word. -/
def leRead (mem : Nat → UInt8) (p : Nat) : Nat → Nat
  | 0 => 0
  | n + 1 => (mem p).toNat + 256 * leRead mem (p + 1) n

/-- `*reinterpret_cast<uintN_t *>(p) |= v` on a little-endian machine: each of the `n` bytes
from `p` ORed with its byte of `v`. -/
def leOr (mem : Nat → UInt8) (p n v : Nat) : Nat → UInt8 :=
  fun q => if p ≤ q ∧ q < p + n then mem q ||| UInt8.ofNat (v >>> (8 * (q - p))) else mem q

def leWrite (mem : Nat → UInt8) (p n v : Nat) : Nat → UInt8 :=
  fun q => if p ≤ q ∧ q < p + n then UInt8.ofNat (v >>> (8 * (q - p))) else mem q

/-! ## Bit fields -/

theorem testBit_bitsAt (mem : Nat → UInt8) (p n j : Nat) :
    (bitsAt mem p n).testBit j = (decide (j < n) && bitAt mem (p + j)) := by
  induction n generalizing p j with
  | zero => simp [bitsAt]
  | succ n ih =>
    have hb : (bitAt mem p).toNat < 2 ^ 1 := by cases bitAt mem p <;> decide
    rw [bitsAt, Nat.add_comm, show 2 * bitsAt mem (p + 1) n = 2 ^ 1 * bitsAt mem (p + 1) n by rfl,
      Nat.testBit_two_pow_mul_add _ hb]
    split_ifs with hj
    · obtain rfl : j = 0 := by omega
      cases bitAt mem p <;> simp
    · rw [ih, show p + 1 + (j - 1) = p + j by omega]
      simp only [show j - 1 < n ↔ j < n + 1 by omega]

theorem bitsAt_lt (mem : Nat → UInt8) (p n : Nat) : bitsAt mem p n < 2 ^ n :=
  Nat.lt_pow_two_of_testBit _ fun j hj => by simp [testBit_bitsAt, show ¬j < n by omega]

theorem bitsAt_eq {mem : Nat → UInt8} {p n x : Nat} (hx : x < 2 ^ n)
    (h : ∀ j < n, bitAt mem (p + j) = x.testBit j) : bitsAt mem p n = x := by
  apply Nat.eq_of_testBit_eq
  intro j
  rw [testBit_bitsAt]
  by_cases hj : j < n
  · simp [hj, h j hj]
  · have hxj : x < 2 ^ j := lt_of_lt_of_le hx (Nat.pow_le_pow_right (by decide) (by omega))
    simp [hj, Nat.testBit_lt_two_pow hxj]

theorem bitsAt_congr {mem mem' : Nat → UInt8} {p n : Nat}
    (h : ∀ j < n, bitAt mem (p + j) = bitAt mem' (p + j)) : bitsAt mem p n = bitsAt mem' p n :=
  bitsAt_eq (bitsAt_lt mem' p n) fun j hj => by rw [h j hj, testBit_bitsAt]; simp [hj]

theorem bitsAt_add (mem : Nat → UInt8) (p a b : Nat) :
    bitsAt mem p (a + b) = bitsAt mem p a + 2 ^ a * bitsAt mem (p + a) b := by
  apply Nat.eq_of_testBit_eq
  intro j
  rw [Nat.add_comm (bitsAt mem p a), Nat.testBit_two_pow_mul_add _ (bitsAt_lt mem p a), testBit_bitsAt]
  split_ifs with hj
  · simp [testBit_bitsAt, hj, show j < a + b by omega]
  · rw [testBit_bitsAt, show p + a + (j - a) = p + j by omega]
    simp only [show j - a < b ↔ j < a + b by omega]

theorem testBit_eq_false_of_lt_two_pow {v n k : Nat} (hv : v < 2 ^ n) (hk : n ≤ k) : v.testBit k = false :=
  Nat.testBit_lt_two_pow (lt_of_lt_of_le hv (Nat.pow_le_pow_right (by decide) hk))

def packFields (w : Nat) : List Nat → Nat
  | [] => 0
  | v :: vs => v + 2 ^ w * packFields w vs

theorem testBit_packFields {w : Nat} {vs : List Nat} (hvs : ∀ v ∈ vs, v < 2 ^ w) (i : Nat) :
    (packFields w vs).testBit i = (decide (i < w * vs.length) && (vs.getD (i / w) 0).testBit (i % w)) := by
  induction vs generalizing i with
  | nil => simp [packFields]
  | cons v vs ih =>
    have hv := hvs v (by simp)
    rw [packFields, Nat.add_comm, Nat.testBit_two_pow_mul_add _ hv]
    split_ifs with hi
    · have hdiv : i / w = 0 := Nat.div_eq_of_lt hi
      simp [hdiv, Nat.mod_eq_of_lt hi, show i < w * (vs.length + 1) by
        rw [Nat.mul_succ]; omega]
    · rw [ih (fun u hu => hvs u (by simp [hu]))]
      rcases Nat.eq_zero_or_pos w with rfl | hw
      · simp
      · obtain ⟨k, rfl⟩ : ∃ k, i = k + w := ⟨i - w, by omega⟩
        rw [Nat.add_sub_cancel, Nat.add_div_right k hw, Nat.add_mod_right]
        simp only [List.length_cons, List.getD_cons_succ, Nat.mul_succ]
        congr 1
        simp only [decide_eq_decide]
        omega

theorem bitAt_memset_zero (mem : Nat → UInt8) {p n i : Nat} (hi : 8 * p ≤ i ∧ i < 8 * (p + n)) :
    bitAt (memset mem p 0 n) i = false := by
  simp [bitAt, memset, show p ≤ i / 8 ∧ i / 8 < p + n by omega]

theorem bitAt_memset_of_lt (mem : Nat → UInt8) {p n i : Nat} (hi : i < 8 * p) :
    bitAt (memset mem p 0 n) i = bitAt mem i := by
  simp only [bitAt, memset]
  rw [if_neg (by omega)]

/-! ## Words -/

theorem testBit_leRead (mem : Nat → UInt8) (p n j : Nat) :
    (leRead mem p n).testBit j = (decide (j < 8 * n) && bitAt mem (8 * p + j)) := by
  induction n generalizing p j with
  | zero => simp [leRead]
  | succ n ih =>
    have hb : (mem p).toNat < 2 ^ 8 := (mem p).toNat_lt
    rw [leRead, Nat.add_comm, show 256 * leRead mem (p + 1) n = 2 ^ 8 * leRead mem (p + 1) n by rfl,
      Nat.testBit_two_pow_mul_add _ hb]
    split_ifs with hj
    · have hdiv : (8 * p + j) / 8 = p := by omega
      have hmod : (8 * p + j) % 8 = j := by omega
      simp [bitAt, hdiv, hmod, show j < 8 * (n + 1) by omega]
    · rw [ih, show 8 * (p + 1) + (j - 8) = 8 * p + j by omega]
      simp only [show j - 8 < 8 * n ↔ j < 8 * (n + 1) by omega]

theorem leRead_eq_bitsAt (mem : Nat → UInt8) (p n : Nat) : leRead mem p n = bitsAt mem (8 * p) (8 * n) :=
  Nat.eq_of_testBit_eq fun j => by rw [testBit_leRead, testBit_bitsAt]

theorem leRead_shiftRight_mod (mem : Nat → UInt8) {p n b c : Nat} (h : b + c ≤ 8 * n) :
    (leRead mem p n >>> b) % 2 ^ c = bitsAt mem (8 * p + b) c := by
  apply Nat.eq_of_testBit_eq
  intro j
  rw [Nat.testBit_mod_two_pow, Nat.testBit_shiftRight, testBit_leRead, testBit_bitsAt]
  by_cases hj : j < c
  · simp [hj, show b + j < 8 * n by omega, Nat.add_assoc]
  · simp [hj]

theorem leRead_congr {mem mem' : Nat → UInt8} {p n : Nat} (h : ∀ k < n, mem (p + k) = mem' (p + k)) :
    leRead mem p n = leRead mem' p n := by
  induction n generalizing p with
  | zero => rfl
  | succ n ih =>
    simp only [leRead]
    rw [show mem p = mem' p by simpa using h 0 (by omega),
      ih fun k hk => by simpa [Nat.add_assoc, Nat.add_comm 1 k] using h (k + 1) (by omega)]

/-! ## Writes -/

theorem bitAt_leOr (mem : Nat → UInt8) (p n v i : Nat) :
    bitAt (leOr mem p n v) i =
      (bitAt mem i || (decide (8 * p ≤ i ∧ i < 8 * (p + n)) && v.testBit (i - 8 * p))) := by
  simp only [bitAt, leOr]
  split_ifs with hq
  · have hidx : 8 * (i / 8 - p) + i % 8 = i - 8 * p := by omega
    rw [UInt8.toNat_or, Nat.testBit_or, UInt8.toNat_ofNat', Nat.testBit_mod_two_pow,
      Nat.testBit_shiftRight, hidx]
    simp [show i % 8 < 8 by omega, show 8 * p ≤ i ∧ i < 8 * (p + n) by omega]
  · simp [show ¬(8 * p ≤ i ∧ i < 8 * (p + n)) by omega]

theorem bitAt_leWrite (mem : Nat → UInt8) (p n v i : Nat) :
    bitAt (leWrite mem p n v) i = if 8 * p ≤ i ∧ i < 8 * (p + n) then v.testBit (i - 8 * p) else bitAt mem i := by
  simp only [bitAt, leWrite]
  split_ifs with hq hi hi
  · have hidx : 8 * (i / 8 - p) + i % 8 = i - 8 * p := by omega
    rw [UInt8.toNat_ofNat', Nat.testBit_mod_two_pow, Nat.testBit_shiftRight, hidx]
    simp [show i % 8 < 8 by omega]
  · omega
  · omega
  · rfl

theorem leOr_apply_of_not {mem : Nat → UInt8} {p n q : Nat} (hq : ¬(p ≤ q ∧ q < p + n)) (v : Nat) :
    leOr mem p n v q = mem q := if_neg hq

theorem leWrite_apply_of_not {mem : Nat → UInt8} {p n q : Nat} (hq : ¬(p ≤ q ∧ q < p + n)) (v : Nat) :
    leWrite mem p n v q = mem q := if_neg hq

theorem leRead_leWrite (mem : Nat → UInt8) (p n v : Nat) : leRead (leWrite mem p n v) p n = v % 2 ^ (8 * n) := by
  apply Nat.eq_of_testBit_eq
  intro j
  rw [testBit_leRead, bitAt_leWrite, Nat.testBit_mod_two_pow]
  by_cases hj : j < 8 * n
  · simp [hj, show 8 * p ≤ 8 * p + j ∧ 8 * p + j < 8 * (p + n) by omega]
  · simp [hj]

/-! ## Rows of fields -/

section Rows
variable {α : Type}

/-- A loop over rows that writes each row's field at `pos` with `set`, then moves `pos` on by
`step`: the shape of the loops that store a column. -/
def storeRows (set : (Nat → UInt8) → Nat → α → Nat → UInt8) (step : Nat) :
    List α → Nat → (Nat → UInt8) → Nat → UInt8
  | [], _, mem => mem
  | d :: ds, pos, mem => storeRows set step ds (pos + step) (set mem pos d)

/-- `set` puts `f d` into the `unit * step` bits from bit `base + unit * pos` when these are
clear, and changes no other bit: an OR of the field, or a store into a cleared field. Positions
count in units of `unit` bits. -/
def WritesField (set : (Nat → UInt8) → Nat → α → Nat → UInt8) (f : α → Nat) (base unit step : Nat)
    (d : α) : Prop :=
  ∀ mem pos, (∀ i, base + unit * pos ≤ i → i < base + unit * (pos + step) → bitAt mem i = false) →
    ∀ i, bitAt (set mem pos d) i =
      (bitAt mem i || (decide (base + unit * pos ≤ i) && (f d).testBit (i - (base + unit * pos))))

variable {set : (Nat → UInt8) → Nat → α → Nat → UInt8} {f : α → Nat} {base unit step : Nat}

theorem bitAt_storeRows {ds : List α} (hw : ∀ d ∈ ds, WritesField set f base unit step d)
    (hf : ∀ d ∈ ds, f d < 2 ^ (unit * step)) {pos : Nat} {mem : Nat → UInt8}
    (hz : ∀ i, base + unit * pos ≤ i → i < base + unit * (pos + step * ds.length) → bitAt mem i = false)
    (i : Nat) :
    bitAt (storeRows set step ds pos mem) i = (bitAt mem i || (decide (base + unit * pos ≤ i) &&
      (packFields (unit * step) (ds.map f)).testBit (i - (base + unit * pos)))) := by
  induction ds generalizing pos mem with
  | nil => simp [storeRows, packFields]
  | cons d ds ih =>
    have hd := hf d (by simp)
    have hnext : unit * (pos + step) = unit * pos + unit * step := Nat.mul_add ..
    have hend : unit * (pos + step * (ds.length + 1)) = unit * (pos + step + step * ds.length) := by ring
    have hend' : unit * (pos + step + step * ds.length) = unit * pos + unit * step + unit * (step * ds.length) := by ring
    have h1 := hw d (by simp) mem pos fun j hj hj' => hz j hj (by simp only [List.length_cons]; omega)
    have hz1 : ∀ j, base + unit * (pos + step) ≤ j → j < base + unit * (pos + step + step * ds.length) →
        bitAt (set mem pos d) j = false := by
      intro j hj hj'
      rw [h1, hz j (by omega) (by simp only [List.length_cons]; omega),
        testBit_eq_false_of_lt_two_pow hd (by omega)]
      simp
    rw [storeRows, ih (fun e he => hw e (by simp [he])) (fun e he => hf e (by simp [he])) hz1, h1,
      List.map_cons, packFields, Nat.add_comm (f d), Nat.testBit_two_pow_mul_add _ hd]
    by_cases hlo : base + unit * pos ≤ i
    · by_cases hk : i - (base + unit * pos) < unit * step
      · simp [hlo, hk, show ¬base + unit * (pos + step) ≤ i by omega]
      · have hsub : i - (base + unit * (pos + step)) = i - (base + unit * pos) - unit * step := by omega
        simp [hlo, hk, hsub, show base + unit * (pos + step) ≤ i by omega,
          testBit_eq_false_of_lt_two_pow hd (Nat.le_of_not_lt hk)]
    · simp [hlo, show ¬base + unit * (pos + step) ≤ i by omega]

theorem bitsAt_storeRows {ds : List α} (hw : ∀ d ∈ ds, WritesField set f base unit step d)
    (hf : ∀ d ∈ ds, f d < 2 ^ (unit * step)) {pos : Nat} {mem : Nat → UInt8}
    (hz : ∀ i, base + unit * pos ≤ i → i < base + unit * (pos + step * ds.length) → bitAt mem i = false)
    {r : Nat} (hr : r < ds.length) :
    bitsAt (storeRows set step ds pos mem) (base + unit * (pos + step * r)) (unit * step) = (ds.map f).getD r 0 := by
  have hfr : (ds.map f).getD r 0 < 2 ^ (unit * step) := by
    rw [List.getD_eq_getElem _ _ (by simpa using hr), List.getElem_map]
    exact hf _ (List.getElem_mem _)
  have hoff : unit * (pos + step * r) = unit * pos + unit * step * r := by ring
  have hlen : unit * step * r + unit * step ≤ unit * step * ds.length := by
    rw [← Nat.mul_succ]; exact Nat.mul_le_mul_left _ hr
  refine bitsAt_eq hfr fun j hj => ?_
  have hend : unit * (pos + step * ds.length) = unit * pos + unit * step * ds.length := by ring
  rw [bitAt_storeRows hw hf hz, hz _ (by omega) (by omega), Bool.false_or,
    testBit_packFields (by simpa using hf)]
  have hsub : base + unit * (pos + step * r) + j - (base + unit * pos) = unit * step * r + j := by omega
  have hdiv : (unit * step * r + j) / (unit * step) = r := by
    rw [Nat.add_comm, Nat.add_mul_div_left _ _ (by omega), Nat.div_eq_of_lt hj, Nat.zero_add]
  have hmod : (unit * step * r + j) % (unit * step) = j := by
    rw [Nat.add_comm, Nat.add_mul_mod_self_left, Nat.mod_eq_of_lt hj]
  rw [hsub, hdiv, hmod]
  simp [show base + unit * pos ≤ base + unit * (pos + step * r) + j by omega,
    show unit * step * r + j < unit * step * ds.length by omega]

theorem bitAt_storeRows_of_not {ds : List α} (hw : ∀ d ∈ ds, WritesField set f base unit step d)
    (hf : ∀ d ∈ ds, f d < 2 ^ (unit * step)) {pos : Nat} {mem : Nat → UInt8}
    (hz : ∀ i, base + unit * pos ≤ i → i < base + unit * (pos + step * ds.length) → bitAt mem i = false)
    {i : Nat} (hi : ¬(base + unit * pos ≤ i ∧ i < base + unit * (pos + step * ds.length))) :
    bitAt (storeRows set step ds pos mem) i = bitAt mem i := by
  have hend : unit * (pos + step * ds.length) = unit * pos + unit * step * ds.length := by ring
  rw [bitAt_storeRows hw hf hz, testBit_packFields (by simpa using hf)]
  by_cases hlo : base + unit * pos ≤ i
  · simp [hlo, List.length_map, show ¬i - (base + unit * pos) < unit * step * ds.length by omega]
  · simp [hlo]

end Rows

end Lib
end OceanBase
