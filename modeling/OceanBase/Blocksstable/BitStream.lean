import OceanBase.Lib.LittleEndian

/-! `ObBitStream` (`ob_bit_stream.h`), the bit-packed arrays of the micro-block encodings. The
encoders write a field with `memory_safe_set`, which ORs a whole 64-bit word into the buffer, so
that the caller keeps 8 spare bytes after the array. The decoders read a field with `get`, a loop
over the bytes the field covers, or with one of its variants for short fields, which load one
2- or 4-byte word when the field is far enough from the end of the array. Each read returns its
value and the addresses of the bytes it loads. -/
namespace OceanBase
namespace Blocksstable
namespace ObBitStream
open Lib

def bitMaskTable (i : Nat) : Nat := [0x0,0x1,0x3,0x7,0xf,0x1f,0x3f,0x7f,0xff].getD i 0

theorem bitMaskTable_eq {i : Nat} (hi : i ≤ 8) : bitMaskTable i = 2 ^ i - 1 := by
  interval_cases i <;> rfl

/-- `memory_safe_set(buf, word_off, overflow, v)`: `v << word_off` ORed into the 8 bytes at
`buf`, and the bits of `v` shifted past them into the byte after when `overflow`. -/
def memorySafeSetWord (mem : Nat → UInt8) (buf wordOff : Nat) (overflow : Bool) (v : Nat) : Nat → UInt8 :=
  let mem := leOr mem buf 8 ((v <<< wordOff) % 2 ^ 64)
  if overflow then leOr mem (buf + 8) 1 (bitMaskTable wordOff &&& (v >>> (64 - wordOff))) else mem

/-- `memory_safe_set(buf, pos, len, v)`: the `len`-bit field `v` at bit `pos`. -/
def memorySafeSet (mem : Nat → UInt8) (buf pos len v : Nat) : Nat → UInt8 :=
  memorySafeSetWord mem (buf + pos / 8) (pos % 8) (decide (pos % 8 + len > 64)) v

/-- `memory_safe_set(buf, pos, v)`, for a field the caller knows to end within the word. -/
def memorySafeSetShort (mem : Nat → UInt8) (buf pos v : Nat) : Nat → UInt8 :=
  memorySafeSetWord mem (buf + pos / 8) (pos % 8) false v

/-- The loop of `get(buf, offset, cnt, value)` from bit `index` of `buf`, with `done` bits read
into `v`: each round reads what is left of one byte. -/
def getLoop (mem : Nat → UInt8) (buf cnt : Nat) : Nat → Nat → Nat → Nat → Nat × List Nat
  | 0, _, _, v => (v, [])
  | fuel + 1, index, done, v =>
    if done < cnt then
      let wordOff := index % 8
      let bit := min (cnt - done) (8 - wordOff)
      let wv := bitMaskTable bit &&& ((mem (buf + index / 8)).toNat >>> wordOff)
      let rest := getLoop mem buf cnt fuel (index + bit) (done + bit) (v ||| wv <<< done)
      (rest.1, (buf + index / 8) :: rest.2)
    else (v, [])

/-- `get(buf, offset, cnt, value)`: the `cnt`-bit field at bit `offset` of `buf`. Every round
reads at least one bit, so `cnt` rounds finish the loop. -/
def get (mem : Nat → UInt8) (buf offset cnt : Nat) : Nat × List Nat :=
  getLoop mem buf cnt cnt offset 0 0

inductive UnpackType
  | packedLenLessThan10 | packedLenLessThan26 | default
  deriving DecidableEq, Repr

/-- `get<PACKED_LEN_LESS_THAN_10>(buf, offset, cnt, bs_len, value)`: a field within one byte in
the last 8 bits of the array is read from that byte; any other field from the 2-byte word at its
first byte. -/
def getPackedLenLessThan10 (mem : Nat → UInt8) (buf offset cnt bsLen : Nat) : Nat × List Nat :=
  let byteOffset := offset >>> 3
  let bitOffset := offset &&& 7
  -- `offset >= bs_len - 8`, compared in `int64_t`
  if bsLen ≤ offset + 8 ∧ bitOffset + cnt ≤ 8 then
    let mask := ((1 <<< cnt) - 1) % 2 ^ 8
    (((mem (buf + byteOffset)).toNat >>> bitOffset) &&& mask, [buf + byteOffset])
  else
    let mask := ((1 <<< cnt) - 1) % 2 ^ 16
    ((leRead mem (buf + byteOffset) 2 >>> bitOffset) &&& mask, List.range' (buf + byteOffset) 2)

/-- `get<PACKED_LEN_LESS_THAN_26>(buf, offset, cnt, bs_len, value)`: a field in the last 24 bits
of the array is read by the loop, any other from the 4-byte word at its first byte. -/
def getPackedLenLessThan26 (mem : Nat → UInt8) (buf offset cnt bsLen : Nat) : Nat × List Nat :=
  if bsLen ≤ offset + 24 then get mem buf offset cnt
  else
    let byteOffset := offset >>> 3
    let bitOffset := offset &&& 7
    let mask := ((1 <<< cnt) - 1) % 2 ^ 32
    ((leRead mem (buf + byteOffset) 4 >>> bitOffset) &&& mask, List.range' (buf + byteOffset) 4)

def getUnpack : UnpackType → (Nat → UInt8) → Nat → Nat → Nat → Nat → Nat × List Nat
  | .packedLenLessThan10 => getPackedLenLessThan10
  | .packedLenLessThan26 => getPackedLenLessThan26
  | .default => fun mem buf offset cnt _ => get mem buf offset cnt

/-! ## Writes -/

theorem bitAt_memorySafeSetWord (mem : Nat → UInt8) {buf wordOff v : Nat} {overflow : Bool}
    (hwo : wordOff < 8) (hv : v < 2 ^ 64) (hfit : overflow = true ∨ v < 2 ^ (64 - wordOff)) (i : Nat) :
    bitAt (memorySafeSetWord mem buf wordOff overflow v) i =
      (bitAt mem i || (decide (8 * buf + wordOff ≤ i) && v.testBit (i - (8 * buf + wordOff)))) := by
  have hword : ∀ i, bitAt (leOr mem buf 8 ((v <<< wordOff) % 2 ^ 64)) i =
      (bitAt mem i || (decide (8 * buf + wordOff ≤ i ∧ i < 8 * buf + 64) && v.testBit (i - (8 * buf + wordOff)))) := by
    intro i
    rw [bitAt_leOr, Nat.testBit_mod_two_pow, Nat.testBit_shiftLeft, Nat.sub_sub]
    congr 1
    cases v.testBit (i - (8 * buf + wordOff))
    · simp
    · simp only [Bool.and_true, ← Bool.decide_and, decide_eq_decide]
      omega
  have hhigh : ∀ i, 8 * buf + 64 ≤ i → overflow = false → v.testBit (i - (8 * buf + wordOff)) = false := by
    intro i hi hov
    simp only [hov, Bool.false_eq_true, false_or] at hfit
    exact Lib.testBit_eq_false_of_lt_two_pow hfit (by omega)
  simp only [memorySafeSetWord]
  cases overflow with
  | false =>
    simp only [Bool.false_eq_true, if_false, hword]
    by_cases hi : i < 8 * buf + 64
    · by_cases hlo : 8 * buf + wordOff ≤ i <;> simp [hi, hlo]
    · simp [hi, hhigh i (by omega) rfl]
  | true =>
    simp only [if_true, bitAt_leOr, hword]
    rw [ObBitStream.bitMaskTable_eq (by omega), Nat.and_comm, Nat.and_two_pow_sub_one_eq_mod,
      Nat.testBit_mod_two_pow, Nat.testBit_shiftRight]
    by_cases hi : i < 8 * buf + 64
    · by_cases hlo : 8 * buf + wordOff ≤ i
      · simp [hi, hlo, show ¬8 * (buf + 8) ≤ i by omega]
      · simp [hi, hlo, show ¬8 * (buf + 8) ≤ i by omega]
    · by_cases hov : i < 8 * (buf + 8 + 1)
      · by_cases hwd : i - 8 * (buf + 8) < wordOff
        · simp [hi, hov, hwd, show 8 * (buf + 8) ≤ i by omega, show 8 * buf + wordOff ≤ i by omega,
            show 64 - wordOff + (i - 8 * (buf + 8)) = i - (8 * buf + wordOff) by omega]
        · simp [hi, hov, hwd, show 8 * buf + wordOff ≤ i by omega,
            Lib.testBit_eq_false_of_lt_two_pow hv (show 64 ≤ i - (8 * buf + wordOff) by omega)]
      · simp [hi, hov, show 8 * buf + wordOff ≤ i by omega,
          Lib.testBit_eq_false_of_lt_two_pow hv (show 64 ≤ i - (8 * buf + wordOff) by omega)]

theorem bitAt_memorySafeSet (mem : Nat → UInt8) {buf pos len v : Nat} (hv : v < 2 ^ len) (hlen : len ≤ 64)
    (i : Nat) :
    bitAt (memorySafeSet mem buf pos len v) i =
      (bitAt mem i || (decide (8 * buf + pos ≤ i) && v.testBit (i - (8 * buf + pos)))) := by
  have hpos : 8 * (buf + pos / 8) + pos % 8 = 8 * buf + pos := by omega
  rw [memorySafeSet, bitAt_memorySafeSetWord mem (Nat.mod_lt _ (by decide))
    (lt_of_lt_of_le hv (Nat.pow_le_pow_right (by decide) hlen)), hpos]
  by_cases hov : pos % 8 + len > 64
  · exact Or.inl (by simp [hov])
  · exact Or.inr (lt_of_lt_of_le hv (Nat.pow_le_pow_right (by decide) (by omega)))

theorem bitAt_memorySafeSetShort (mem : Nat → UInt8) {buf pos v : Nat} (hv : v < 2 ^ 57) (i : Nat) :
    bitAt (memorySafeSetShort mem buf pos v) i =
      (bitAt mem i || (decide (8 * buf + pos ≤ i) && v.testBit (i - (8 * buf + pos)))) := by
  have hpos : 8 * (buf + pos / 8) + pos % 8 = 8 * buf + pos := by omega
  rw [memorySafeSetShort, bitAt_memorySafeSetWord mem (Nat.mod_lt _ (by decide))
    (lt_of_lt_of_le hv (by decide)), hpos]
  exact Or.inr (lt_of_lt_of_le hv (Nat.pow_le_pow_right (by decide) (by omega)))

theorem memorySafeSet_apply_of_lt {mem : Nat → UInt8} {buf pos len v q : Nat} (hq : q < buf + pos / 8) :
    memorySafeSet mem buf pos len v q = mem q := by
  simp only [memorySafeSet, memorySafeSetWord]
  split <;> simp only [leOr_apply_of_not (show ¬(buf + pos / 8 ≤ q ∧ q < buf + pos / 8 + 8) by omega),
    leOr_apply_of_not (show ¬(buf + pos / 8 + 8 ≤ q ∧ q < buf + pos / 8 + 8 + 1) by omega)]

theorem memorySafeSet_apply_of_le {mem : Nat → UInt8} {buf pos len v q : Nat} (hq : buf + pos / 8 + 9 ≤ q) :
    memorySafeSet mem buf pos len v q = mem q := by
  simp only [memorySafeSet, memorySafeSetWord]
  split <;> simp only [leOr_apply_of_not (show ¬(buf + pos / 8 ≤ q ∧ q < buf + pos / 8 + 8) by omega),
    leOr_apply_of_not (show ¬(buf + pos / 8 + 8 ≤ q ∧ q < buf + pos / 8 + 8 + 1) by omega)]

/-! ## Reads -/

theorem getLoop_spec (mem : Nat → UInt8) (buf cnt s : Nat) :
    ∀ fuel done, done ≤ cnt → cnt - done ≤ fuel →
      (getLoop mem buf cnt fuel (s + done) done (bitsAt mem (8 * buf + s) done)).1 = bitsAt mem (8 * buf + s) cnt ∧
      ∀ a ∈ (getLoop mem buf cnt fuel (s + done) done (bitsAt mem (8 * buf + s) done)).2,
        buf + (s + done) / 8 ≤ a ∧ 8 * (a - buf) < s + cnt := by
  intro fuel
  induction fuel with
  | zero =>
    intro done hd hf
    obtain rfl : done = cnt := by omega
    simp [getLoop]
  | succ fuel ih =>
    intro done hd hf
    by_cases hlt : done < cnt
    · have hbit : min (cnt - done) (8 - (s + done) % 8) + (s + done) % 8 ≤ 8 := by omega
      have hbyte : bitMaskTable (min (cnt - done) (8 - (s + done) % 8)) &&&
          ((mem (buf + (s + done) / 8)).toNat >>> ((s + done) % 8)) =
          bitsAt mem (8 * buf + s + done) (min (cnt - done) (8 - (s + done) % 8)) := by
        have h1 := leRead_shiftRight_mod mem (p := buf + (s + done) / 8) (n := 1) (by omega : (s + done) % 8 +
          min (cnt - done) (8 - (s + done) % 8) ≤ 8 * 1)
        simp only [leRead, mul_zero, add_zero] at h1
        rw [bitMaskTable_eq (by omega), Nat.and_comm, Nat.and_two_pow_sub_one_eq_mod, h1]
        congr 1
        omega
      have hacc : bitsAt mem (8 * buf + s) done |||
          bitsAt mem (8 * buf + s + done) (min (cnt - done) (8 - (s + done) % 8)) <<< done =
          bitsAt mem (8 * buf + s) (done + min (cnt - done) (8 - (s + done) % 8)) := by
        rw [Nat.or_comm, ← Nat.shiftLeft_add_eq_or_of_lt (bitsAt_lt mem _ done), bitsAt_add, Nat.shiftLeft_eq]
        ring
      obtain ⟨ih₁, ih₂⟩ := ih (done + min (cnt - done) (8 - (s + done) % 8)) (by omega) (by omega)
      rw [← Nat.add_assoc] at ih₁ ih₂
      simp only [getLoop, if_pos hlt, hbyte, hacc]
      refine ⟨ih₁, ?_⟩
      intro a ha
      rcases List.mem_cons.mp ha with rfl | ha
      · omega
      · have := ih₂ a ha
        omega
    · obtain rfl : done = cnt := by omega
      simp [getLoop]

theorem get_fst (mem : Nat → UInt8) (buf offset cnt : Nat) :
    (get mem buf offset cnt).1 = bitsAt mem (8 * buf + offset) cnt := by
  have h := (getLoop_spec mem buf cnt offset cnt 0 (by omega) (by omega)).1
  simpa [get, bitsAt] using h

theorem get_reads (mem : Nat → UInt8) (buf offset cnt : Nat) :
    ∀ a ∈ (get mem buf offset cnt).2, buf + offset / 8 ≤ a ∧ 8 * (a - buf) < offset + cnt := by
  have h := (getLoop_spec mem buf cnt offset cnt 0 (by omega) (by omega)).2
  simpa [get, bitsAt] using h

theorem mask_eq {cnt w : Nat} (h : cnt ≤ w) : ((1 <<< cnt) - 1) % 2 ^ w = 2 ^ cnt - 1 := by
  rw [Nat.shiftLeft_eq, Nat.one_mul, Nat.mod_eq_of_lt]
  have := Nat.pow_le_pow_right (show 0 < 2 by decide) h
  have := Nat.one_le_two_pow (n := cnt)
  omega

theorem getUnpack_fst (ty : UnpackType) (mem : Nat → UInt8) {buf offset cnt bsLen : Nat}
    (hcnt : (ty = .packedLenLessThan10 → cnt < 10) ∧ (ty = .packedLenLessThan26 → cnt < 26)) :
    (getUnpack ty mem buf offset cnt bsLen).1 = bitsAt mem (8 * buf + offset) cnt := by
  have hoff : offset >>> 3 = offset / 8 := by rw [Nat.shiftRight_eq_div_pow]
  have hbit : offset &&& 7 = offset % 8 := Nat.and_two_pow_sub_one_eq_mod offset 3
  have hpos : 8 * (buf + offset / 8) + offset % 8 = 8 * buf + offset := by omega
  cases ty with
  | packedLenLessThan10 =>
    have hc := hcnt.1 rfl
    simp only [getUnpack, getPackedLenLessThan10, hoff, hbit]
    split_ifs with h
    · have h1 := leRead_shiftRight_mod mem (p := buf + offset / 8) (n := 1) (by omega : offset % 8 + cnt ≤ 8 * 1)
      simp only [leRead, mul_zero, add_zero] at h1
      rw [mask_eq (by omega), Nat.and_two_pow_sub_one_eq_mod, h1, hpos]
    · rw [mask_eq (by omega), Nat.and_two_pow_sub_one_eq_mod, leRead_shiftRight_mod mem (by omega), hpos]
  | packedLenLessThan26 =>
    have hc := hcnt.2 rfl
    simp only [getUnpack, getPackedLenLessThan26, hoff, hbit]
    split_ifs with h
    · exact get_fst mem buf offset cnt
    · rw [mask_eq (by omega), Nat.and_two_pow_sub_one_eq_mod, leRead_shiftRight_mod mem (by omega), hpos]
  | default => exact get_fst mem buf offset cnt

theorem getUnpack_reads (ty : UnpackType) (mem : Nat → UInt8) {buf offset cnt bsLen total : Nat}
    (hcnt : 0 < cnt) (hend : offset + cnt ≤ total) (hbs : bsLen ≤ total) :
    ∀ a ∈ (getUnpack ty mem buf offset cnt bsLen).2, buf ≤ a ∧ 8 * (a - buf) < total := by
  have hoff : offset >>> 3 = offset / 8 := by rw [Nat.shiftRight_eq_div_pow]
  have hbit : offset &&& 7 = offset % 8 := Nat.and_two_pow_sub_one_eq_mod offset 3
  have hloop : ∀ a ∈ (get mem buf offset cnt).2, buf ≤ a ∧ 8 * (a - buf) < total := fun a ha => by
    have := get_reads mem buf offset cnt a ha
    omega
  cases ty with
  | packedLenLessThan10 =>
    simp only [getUnpack, getPackedLenLessThan10, hoff, hbit]
    split_ifs with h
    · simp only [List.mem_singleton]
      rintro a rfl
      omega
    · intro a ha
      rw [List.mem_range'_1] at ha
      omega
  | packedLenLessThan26 =>
    simp only [getUnpack, getPackedLenLessThan26, hoff, hbit]
    split_ifs with h
    · exact hloop
    · intro a ha
      rw [List.mem_range'_1] at ha
      omega
  | default => exact hloop

end ObBitStream
end Blocksstable
end OceanBase
