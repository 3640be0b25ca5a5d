import OceanBase.Define
import OceanBase.Lib.Bytes
import OceanBase.Lib.Mem

/-! The fixed-width codecs of `serialization.h` (`encode_i8` … `encode_i64`, `decode_i8` …
`decode_i64`) and the fixed codec of `share::SCN` built on them. A buffer is a memory
`Nat → UInt8`; a codec returns the memory it wrote and the new `pos`, or its error code. The
members of each family differ only in their width, so each is the family's definition at that
width, and the lemmas are stated once for the family. -/
namespace OceanBase
namespace Common
namespace Serialization

/-- The `encode_iN` functions at `n` bytes: store `v` at `pos`, most significant byte first, when
`buf_len - pos ≥ n`, and fail with `OB_SIZE_OVERFLOW` otherwise. A null `buf` is not modelled. -/
def encodeFixedWidth (n : Nat) (buf : Nat → UInt8) (bufLen pos v : Nat) :
    Except ObErr ((Nat → UInt8) × Nat) :=
  if n ≤ bufLen - pos then .ok (Lib.beWrite buf pos n v,pos + n) else .error .sizeOverflow

/-- The `decode_iN` functions at `n` bytes: read the value at `pos`, most significant byte
first, when `data_len - pos ≥ n`, and fail with `OB_DESERIALIZE_ERROR` otherwise. -/
def decodeFixedWidth (n : Nat) (buf : Nat → UInt8) (dataLen pos : Nat) : Except ObErr (Nat × Nat) :=
  if n ≤ dataLen - pos then .ok (Lib.beRead buf pos n,pos + n) else .error .deserializeError

def encodeI8 (buf : Nat → UInt8) (bufLen pos : Nat) (val : BitVec 8) :
    Except ObErr ((Nat → UInt8) × Nat) :=
  encodeFixedWidth 1 buf bufLen pos val.toNat

def encodeI16 (buf : Nat → UInt8) (bufLen pos : Nat) (val : BitVec 16) :
    Except ObErr ((Nat → UInt8) × Nat) :=
  encodeFixedWidth 2 buf bufLen pos val.toNat

def encodeI32 (buf : Nat → UInt8) (bufLen pos : Nat) (val : BitVec 32) :
    Except ObErr ((Nat → UInt8) × Nat) :=
  encodeFixedWidth 4 buf bufLen pos val.toNat

def encodeI64 (buf : Nat → UInt8) (bufLen pos : Nat) (val : BitVec 64) :
    Except ObErr ((Nat → UInt8) × Nat) :=
  encodeFixedWidth 8 buf bufLen pos val.toNat

def decodeI8 (buf : Nat → UInt8) (dataLen pos : Nat) : Except ObErr (BitVec 8 × Nat) :=
  (decodeFixedWidth 1 buf dataLen pos).map fun r => (BitVec.ofNat 8 r.1,r.2)

def decodeI16 (buf : Nat → UInt8) (dataLen pos : Nat) : Except ObErr (BitVec 16 × Nat) :=
  (decodeFixedWidth 2 buf dataLen pos).map fun r => (BitVec.ofNat 16 r.1,r.2)

def decodeI32 (buf : Nat → UInt8) (dataLen pos : Nat) : Except ObErr (BitVec 32 × Nat) :=
  (decodeFixedWidth 4 buf dataLen pos).map fun r => (BitVec.ofNat 32 r.1,r.2)

def decodeI64 (buf : Nat → UInt8) (dataLen pos : Nat) : Except ObErr (BitVec 64 × Nat) :=
  (decodeFixedWidth 8 buf dataLen pos).map fun r => (BitVec.ofNat 64 r.1,r.2)

def encodedLengthI16 (_val : BitVec 16) : Nat := 2

def encodedLengthI32 (_val : BitVec 32) : Nat := 4

def encodedLengthI64 (_val : BitVec 64) : Nat := 8

section FixedWidth

variable {n : Nat} {buf : Nat → UInt8}

theorem decodeFixedWidth_of_le {dataLen pos : Nat} (h : pos + n ≤ dataLen) :
    decodeFixedWidth n buf dataLen pos = .ok (Lib.beRead buf pos n,pos + n) := by
  simp only [decodeFixedWidth]
  rw [if_pos (by omega)]

theorem encodeFixedWidth_of_le {bufLen pos : Nat} (h : pos + n ≤ bufLen) (v : Nat) :
    encodeFixedWidth n buf bufLen pos v = .ok (Lib.beWrite buf pos n v,pos + n) := by
  simp only [encodeFixedWidth]
  rw [if_pos (by omega)]

end FixedWidth

/-! ## Variable-length integers

`encode_vi64` and `encode_vi32` write a value seven bits at a time, low bits first, each byte but
the last with the continuation bit `0x80`; `decode_vi64` and `decode_vi32` read such bytes back.
`encode_fixed_bytes_i64` writes the same format with exactly five bytes. -/

def obMaxVB (k : Nat) : Nat := 2 ^ (7 * k) - 1

def obSerializeSizeNeedBytes : Nat := 5

/-- The `encoded_length_viN` if-chains: from `k` bytes on, the first count whose `OB_MAX_VkB` holds
the value, or one more than the last of `n` thresholds. -/
def encodedLengthVarint (k : Nat) : Nat → Nat → Nat
  | 0, _ => k
  | n + 1, v => if v ≤ obMaxVB k then k else encodedLengthVarint (k + 1) n v

def encodedLengthVi64 (val : BitVec 64) : Nat := encodedLengthVarint 1 9 val.toNat

def encodedLengthVi32 (val : BitVec 32) : Nat := encodedLengthVarint 1 4 val.toNat

/-- The loop of `encode_vi64` and `encode_vi32`: while the value exceeds `OB_MAX_V1B`, the byte
`v | 0x80` and then `v >>= 7`; last the byte `v & 0x7f`. -/
def varintBytes (v : Nat) : List UInt8 :=
  if v > obMaxVB 1 then UInt8.ofNat (v ||| 0x80) :: varintBytes (v >>> 7)
  else [UInt8.ofNat (v &&& 0x7f)]
termination_by v
decreasing_by
  simp only [obMaxVB] at *
  rw [Nat.shiftRight_eq_div_pow]
  omega

/-- The loop of `encode_fixed_bytes_i64` with `n` bytes: `n - 1` bytes with the continuation bit,
then the last without. -/
def fixedVarintBytes : Nat → Nat → List UInt8
  | 0, _ => []
  | 1, v => [UInt8.ofNat (v &&& 0x7f)]
  | n + 2, v => UInt8.ofNat (v ||| 0x80) :: fixedVarintBytes (n + 1) (v >>> 7)

/-- `encode_vi64` and `encode_vi32`: room for `encoded_length` bytes, then the loop's bytes. -/
def encodeVarint (encodedLength : Nat) (buf : Nat → UInt8) (bufLen pos v : Nat) :
    Except ObErr ((Nat → UInt8) × Nat) :=
  if encodedLength ≤ bufLen - pos then .ok (Lib.writeBytes buf pos (varintBytes v),pos + (varintBytes v).length)
  else .error .sizeOverflow

def encodeVi64 (buf : Nat → UInt8) (bufLen pos : Nat) (val : BitVec 64) :
    Except ObErr ((Nat → UInt8) × Nat) :=
  encodeVarint (encodedLengthVi64 val) buf bufLen pos val.toNat

def encodeVi32 (buf : Nat → UInt8) (bufLen pos : Nat) (val : BitVec 32) :
    Except ObErr ((Nat → UInt8) × Nat) :=
  encodeVarint (encodedLengthVi32 val) buf bufLen pos val.toNat

/-- `encode_fixed_bytes_i64`: the value in exactly `OB_SERIALIZE_SIZE_NEED_BYTES` bytes. -/
def encodeFixedBytesI64 (buf : Nat → UInt8) (bufLen pos : Nat) (val : BitVec 64) :
    Except ObErr ((Nat → UInt8) × Nat) :=
  if obSerializeSizeNeedBytes ≤ bufLen - pos then
    .ok (Lib.writeBytes buf pos (fixedVarintBytes obSerializeSizeNeedBytes val.toNat),
      pos + obSerializeSizeNeedBytes)
  else .error .sizeOverflow

/-- The loop of `decode_vi64` and `decode_vi32` from `tmp_pos`: the byte there is read, and while
it has the continuation bit it must lie before `data_len`, its low seven bits are or-ed in at
`shift` and the loop goes on; the first byte without the bit, again before `data_len`, ends
the value. The value is accumulated without a width and cut to the width by the caller, which
is what the source's shifts compute below the width; a shift past the width is undefined in
the source. Every round that goes on moves `tmp_pos` towards `data_len`, so
`data_len - pos + 1` rounds of fuel are enough. -/
def decodeVarintLoop (buf : Nat → UInt8) (dataLen : Nat) : Nat → Nat → Nat → Nat → Except ObErr (Nat × Nat)
  | 0, _, _, _ => .error .deserializeError
  | fuel + 1, tmpPos, v, shift =>
    if buf tmpPos &&& 0x80 ≠ 0 then
      if dataLen - tmpPos < 1 then .error .deserializeError
      else
        decodeVarintLoop buf dataLen fuel (tmpPos + 1) (v ||| (buf tmpPos &&& 0x7f).toNat <<< shift)
          (shift + 7)
    else if dataLen - tmpPos < 1 then .error .deserializeError
    else .ok (v ||| (buf tmpPos &&& 0x7f).toNat <<< shift,tmpPos + 1)

def decodeVi64 (buf : Nat → UInt8) (dataLen pos : Nat) : Except ObErr (BitVec 64 × Nat) :=
  (decodeVarintLoop buf dataLen (dataLen - pos + 1) pos 0 0).map fun r => (BitVec.ofNat 64 r.1,r.2)

def decodeVi32 (buf : Nat → UInt8) (dataLen pos : Nat) : Except ObErr (BitVec 32 × Nat) :=
  (decodeVarintLoop buf dataLen (dataLen - pos + 1) pos 0 0).map fun r => (BitVec.ofNat 32 r.1,r.2)

def encodeBool (buf : Nat → UInt8) (bufLen pos : Nat) (val : Bool) :
    Except ObErr ((Nat → UInt8) × Nat) :=
  encodeFixedWidth 1 buf bufLen pos (if val then 1 else 0)

def decodeBool (buf : Nat → UInt8) (dataLen pos : Nat) : Except ObErr (Bool × Nat) :=
  (decodeI8 buf dataLen pos).map fun r => (r.1 != 0,r.2)

/-! ## Byte strings

`encode_vstr` writes a string as its length, an `encode_vi64`, then its bytes and a terminating
`0`; `decode_vstr` reads it back without copying, or copying into a caller's buffer. `ObString`
serializes through them. -/

def encodedLengthVstr (len : Nat) : Nat := encodedLengthVi64 (BitVec.ofNat 64 len) + len + 1

/-- `encode_vstr(buf, buf_len, pos, vbuf, len)` for the `len` bytes `vbuf`: a non-negative
`int64_t` length and room for `encoded_length_vstr(len)` bytes, compared after a cast to
`int32_t`; then `len` as an `encode_vi64`, the bytes and a terminating `0`. The source writes
the `0` also when `encode_vi64` fails, in a call that then fails; that write is not kept. -/
def encodeVstr (buf : Nat → UInt8) (bufLen pos : Nat) (vbuf : List UInt8) :
    Except ObErr ((Nat → UInt8) × Nat) :=
  let len := vbuf.length
  if len < 2 ^ 63 ∧ (BitVec.ofNat 32 (encodedLengthVstr len)).toInt ≤ (bufLen : Int) - pos then
    match encodeVi64 buf bufLen pos (BitVec.ofNat 64 len) with
    | .error e => .error e
    | .ok (buf,p) => .ok (Lib.writeBytes (Lib.writeBytes buf p vbuf) (p + len) [0],p + len + 1)
  else .error .sizeOverflow

/-- `decode_vstr(buf, data_len, pos, lenp)`: the length as a `decode_vi64`; when it is not
negative and that many bytes follow, the string's address `tmp_pos`, its length, and `pos`
moved past the string and one byte more, its terminating `0`. `none` is the null pointer it
returns otherwise; what it leaves in `*lenp` then is not modelled. -/
def decodeVstr (buf : Nat → UInt8) (dataLen pos : Nat) : Option (Nat × Nat × Nat) :=
  match decodeVi64 buf dataLen pos with
  | .error _ => none
  | .ok (tmpLen,tmpPos) =>
    if 0 ≤ tmpLen.toInt ∧ tmpLen.toInt ≤ (dataLen : Int) - tmpPos then
      some (tmpPos,tmpLen.toNat,tmpPos + tmpLen.toNat + 1)
    else none

/-- `decode_vstr(buf, data_len, pos, dest, buf_len, lenp)`: as `decode_vstr`, refusing a length
above `buf_len`, and copying the string into `dest`; returns the bytes copied and the new
`pos`. -/
def decodeVstrTo (buf : Nat → UInt8) (dataLen pos bufLen : Nat) : Option (List UInt8 × Nat) :=
  match decodeVi64 buf dataLen pos with
  | .error _ => none
  | .ok (tmpLen,tmpPos) =>
    if (bufLen : Int) < tmpLen.toInt then none
    else if 0 ≤ tmpLen.toInt ∧ tmpLen.toInt ≤ (dataLen : Int) - tmpPos then
      some (Lib.readBytes buf tmpPos tmpLen.toNat,tmpPos + tmpLen.toNat + 1)
    else none

/-- `decode(buf, data_len, pos, char (&val)[CNT])`: the size `rsize` as an `int64_t`, then a
`MEMCPY` of `rsize` bytes when `CNT >= rsize` and `data_len - pos >= rsize`, both compared
signed. Returns the length passed to `MEMCPY` and the new `pos`, as the signed values the
source computes. -/
def decodeCharArray (cnt : Nat) (buf : Nat → UInt8) (dataLen pos : Nat) : Except ObErr (Int × Int) :=
  match decodeVi64 buf dataLen pos with
  | .error e => .error e
  | .ok (rsize,p) =>
    if rsize.toInt ≤ cnt ∧ rsize.toInt ≤ (dataLen : Int) - p then .ok (rsize.toInt,p + rsize.toInt)
    else .error .deserializeError

/-- `encode(buf, buf_len, pos, const char (&val)[CNT])` for the characters `str` before the
first `0` of `val`: `strlen(val) + 1` as an `encode_vi64`, then those bytes with the `0` when
`buf_len - pos` has room for them, `OB_BUF_NOT_ENOUGH` otherwise. The length written before
that error is not kept. -/
def encodeCharArray (str : List UInt8) (buf : Nat → UInt8) (bufLen pos : Nat) :
    Except ObErr ((Nat → UInt8) × Nat) :=
  match encodeVi64 buf bufLen pos (BitVec.ofNat 64 (str.length + 1)) with
  | .error e => .error e
  | .ok (buf,p) =>
    if str.length + 1 ≤ (bufLen : Int) - p then .ok (Lib.writeBytes buf p (str ++ [0]),p + str.length + 1)
    else .error .bufNotEnough

end Serialization

namespace ObString

open Serialization

def getSerializeSize (str : List UInt8) : Nat := encodedLengthVstr str.length

def serialize (str : List UInt8) (buf : Nat → UInt8) (bufLen pos : Nat) :
    Except ObErr ((Nat → UInt8) × Nat) :=
  if (bufLen : Int) - pos < getSerializeSize str then .error .sizeOverflow
  else encodeVstr buf bufLen pos str

/-- `ObString::deserialize` into a string without a buffer of its own (`buffer_size_ = 0`): at
least two bytes, then `decode_vstr`; the string points into `buf`, and its value is the
`data_length_` bytes there, `data_length_` being the decoded length cast to `int32_t`. -/
def deserialize (buf : Nat → UInt8) (dataLen pos : Nat) : Except ObErr (List UInt8 × Nat) :=
  if (dataLen : Int) - pos < 2 then .error .invalidArgument
  else
    match decodeVstr buf dataLen pos with
    | none => .error .error
    | some (str,len,pos) => .ok (Lib.readBytes buf str (BitVec.ofNat 32 len).toInt.toNat,pos)

end ObString

namespace Serialization

/-! ## The encoders write lists of bytes -/

theorem varintBytes_of_gt {v : Nat} (h : obMaxVB 1 < v) :
    varintBytes v = UInt8.ofNat (v ||| 0x80) :: varintBytes (v / 128) := by
  rw [varintBytes,if_pos h,Nat.shiftRight_eq_div_pow]

theorem varintBytes_of_le {v : Nat} (h : v ≤ obMaxVB 1) : varintBytes v = [UInt8.ofNat (v &&& 0x7f)] := by
  rw [varintBytes,if_neg (by omega)]

theorem varintBytes_length_pos (v : Nat) : 0 < (varintBytes v).length := by
  rw [varintBytes]
  split <;> simp

theorem varintBytes_length_le_iff {k : Nat} (hk : 1 ≤ k) (v : Nat) :
    (varintBytes v).length ≤ k ↔ v ≤ obMaxVB k := by
  induction v using Nat.strong_induction_on generalizing k with
  | _ v ih =>
    by_cases hv : v ≤ obMaxVB 1
    · have hmono : obMaxVB 1 ≤ obMaxVB k := by
        simp only [obMaxVB]
        have := Nat.pow_le_pow_right (show 0 < 2 by omega) (show 7 * 1 ≤ 7 * k by omega)
        omega
      rw [varintBytes_of_le hv]
      simp only [List.length_singleton]
      omega
    · have h128 : 0 < v / 128 + 1 := by omega
      rw [varintBytes_of_gt (by omega),List.length_cons]
      obtain ⟨k,rfl⟩ : ∃ j, k = j + 1 := ⟨k - 1,by omega⟩
      rcases Nat.eq_zero_or_pos k with rfl | hk'
      · have := varintBytes_length_pos (v / 128)
        simp only [obMaxVB] at hv ⊢
        omega
      · rw [Nat.add_le_add_iff_right,ih (v / 128) (by simp only [obMaxVB] at hv; omega) hk']
        simp only [obMaxVB]
        rw [show 7 * (k + 1) = 7 * k + 7 by ring,Nat.pow_add]
        have := Nat.one_le_two_pow (n := 7 * k)
        omega

theorem encodedLengthVarint_eq {k : Nat} (hk : 1 ≤ k) (n v : Nat) (h₁ : k ≤ (varintBytes v).length)
    (h₂ : (varintBytes v).length ≤ k + n) : encodedLengthVarint k n v = (varintBytes v).length := by
  induction n generalizing k with
  | zero => simp only [encodedLengthVarint]; omega
  | succ n ih =>
    simp only [encodedLengthVarint]
    split
    · have := (varintBytes_length_le_iff hk v).mpr ‹_›
      omega
    · have := (varintBytes_length_le_iff hk v).not.mpr ‹_›
      exact ih (by omega) (by omega) (by omega)

theorem encodedLengthVi64_eq (val : BitVec 64) :
    encodedLengthVi64 val = (varintBytes val.toNat).length := by
  have hfit := (varintBytes_length_le_iff (k := 10) (by omega) val.toNat).mpr
    (by have := val.isLt; simp only [obMaxVB]; omega)
  exact encodedLengthVarint_eq (le_refl 1) 9 _ (varintBytes_length_pos _) (by omega)

theorem encodedLengthVi32_eq (val : BitVec 32) :
    encodedLengthVi32 val = (varintBytes val.toNat).length := by
  have hfit := (varintBytes_length_le_iff (k := 5) (by omega) val.toNat).mpr
    (by have := val.isLt; simp only [obMaxVB]; omega)
  exact encodedLengthVarint_eq (le_refl 1) 4 _ (varintBytes_length_pos _) (by omega)

theorem fixedVarintBytes_length (n v : Nat) : (fixedVarintBytes n v).length = n := by
  induction n generalizing v with
  | zero => rfl
  | succ n ih =>
    cases n with
    | zero => rfl
    | succ n => simp only [fixedVarintBytes,List.length_cons,ih]

section Encoders

variable {buf : Nat → UInt8} {bufLen pos : Nat}

theorem encodeVarint_of_le {encodedLength : Nat} (h : pos + encodedLength ≤ bufLen) (v : Nat) :
    encodeVarint encodedLength buf bufLen pos v =
      .ok (Lib.writeBytes buf pos (varintBytes v),pos + (varintBytes v).length) := by
  simp only [encodeVarint]
  rw [if_pos (by omega)]

theorem encodeVi64_of_le {val : BitVec 64} (h : pos + (varintBytes val.toNat).length ≤ bufLen) :
    encodeVi64 buf bufLen pos val =
      .ok (Lib.writeBytes buf pos (varintBytes val.toNat),pos + (varintBytes val.toNat).length) :=
  encodeVarint_of_le (by rw [encodedLengthVi64_eq]; exact h) _

theorem encodeVi32_of_le {val : BitVec 32} (h : pos + (varintBytes val.toNat).length ≤ bufLen) :
    encodeVi32 buf bufLen pos val =
      .ok (Lib.writeBytes buf pos (varintBytes val.toNat),pos + (varintBytes val.toNat).length) :=
  encodeVarint_of_le (by rw [encodedLengthVi32_eq]; exact h) _

theorem encodeFixedBytesI64_of_le (h : pos + obSerializeSizeNeedBytes ≤ bufLen) (val : BitVec 64) :
    encodeFixedBytesI64 buf bufLen pos val =
      .ok (Lib.writeBytes buf pos (fixedVarintBytes obSerializeSizeNeedBytes val.toNat),
        pos + obSerializeSizeNeedBytes) := by
  simp only [encodeFixedBytesI64]
  rw [if_pos (by omega)]

theorem beWrite_one (mem : Nat → UInt8) (p v : Nat) :
    Lib.beWrite mem p 1 v = Lib.writeBytes mem p [UInt8.ofNat v] := by
  funext q
  by_cases hq : q = p
  · subst hq
    simpa [Lib.beWrite] using (Lib.writeBytes_apply_add mem q [UInt8.ofNat v] (i := 0) (by simp)).symm
  · rw [Lib.beWrite,Lib.beWrite,Function.update_of_ne (by omega)]
    rcases Nat.lt_or_ge q p with hlt | hge
    · rw [Lib.writeBytes_apply_of_lt _ hlt]
    · rw [Lib.writeBytes_apply_of_le (by simp; omega)]

theorem encodeI8_of_le (h : pos + 1 ≤ bufLen) (val : BitVec 8) :
    encodeI8 buf bufLen pos val = .ok (Lib.writeBytes buf pos [UInt8.ofNat val.toNat],pos + 1) := by
  rw [encodeI8,encodeFixedWidth_of_le h,beWrite_one]

theorem encodeBool_of_le (h : pos + 1 ≤ bufLen) (val : Bool) :
    encodeBool buf bufLen pos val =
      .ok (Lib.writeBytes buf pos [UInt8.ofNat (if val then 1 else 0)],pos + 1) := by
  rw [encodeBool,encodeFixedWidth_of_le h,beWrite_one]

end Encoders

/-! ## The decoders read the bytes back -/

theorem or_shiftLeft_eq_add {acc shift : Nat} (hacc : acc < 2 ^ shift) (g : Nat) :
    acc ||| g <<< shift = acc + g * 2 ^ shift := by
  rw [Nat.or_comm,← Nat.shiftLeft_add_eq_or_of_lt hacc,Nat.shiftLeft_eq]
  omega

theorem add_mod_128_lt {acc shift : Nat} (hacc : acc < 2 ^ shift) (v : Nat) :
    acc + v % 128 * 2 ^ shift < 2 ^ (shift + 7) := by
  rw [Nat.pow_add]
  have := Nat.mod_lt v (show 0 < 128 by omega)
  nlinarith

theorem decodeVarintLoop_varintBytes {buf : Nat → UInt8} {dataLen : Nat} (v : Nat) :
    ∀ fuel tmpPos acc shift, acc < 2 ^ shift → Lib.HoldsAt buf tmpPos (varintBytes v) →
      tmpPos + (varintBytes v).length ≤ dataLen → (varintBytes v).length ≤ fuel →
      decodeVarintLoop buf dataLen fuel tmpPos acc shift =
        .ok (acc + v * 2 ^ shift,tmpPos + (varintBytes v).length) := by
  induction v using Nat.strong_induction_on with
  | _ v ih =>
    intro fuel tmpPos acc shift hacc hbytes hlen hfuel
    obtain ⟨fuel,rfl⟩ : ∃ f, fuel = f + 1 := ⟨fuel - 1,by have := varintBytes_length_pos v; omega⟩
    by_cases hv : v ≤ obMaxVB 1
    · rw [varintBytes_of_le hv] at hbytes hlen ⊢
      have hb := hbytes 0 (by simp)
      simp only [Nat.add_zero,List.getElem_cons_zero] at hb
      obtain ⟨hcont,hlow⟩ := Lib.ofNat_and_0x7f v
      simp only [List.length_singleton] at hlen ⊢
      simp only [decodeVarintLoop,hb,hcont,ne_eq,not_true_eq_false,if_false]
      rw [if_neg (by omega),hlow,Nat.mod_eq_of_lt (by simp only [obMaxVB] at hv; omega),
        or_shiftLeft_eq_add hacc]
    · rw [varintBytes_of_gt (by omega)] at hbytes hlen hfuel ⊢
      have hb := hbytes 0 (by simp)
      simp only [Nat.add_zero,List.getElem_cons_zero] at hb
      obtain ⟨hcont,hlow⟩ := Lib.ofNat_or_0x80 v
      simp only [List.length_cons] at hlen hfuel ⊢
      simp only [decodeVarintLoop,hb,hcont,ne_eq,not_false_eq_true,if_true]
      rw [if_neg (by omega),hlow,or_shiftLeft_eq_add hacc]
      have hrest : Lib.HoldsAt buf (tmpPos + 1) (varintBytes (v / 128)) := fun i hi => by
        simpa [Nat.add_assoc,Nat.add_comm 1 i] using hbytes (i + 1) (by simp; omega)
      rw [ih (v / 128) (by simp only [obMaxVB] at hv; omega) fuel (tmpPos + 1) _ (shift + 7)
        (add_mod_128_lt hacc v) hrest (by omega) (by omega)]
      have harith : acc + v % 128 * 2 ^ shift + v / 128 * 2 ^ (shift + 7) = acc + v * 2 ^ shift :=
        calc acc + v % 128 * 2 ^ shift + v / 128 * 2 ^ (shift + 7)
            = acc + (v % 128 + 128 * (v / 128)) * 2 ^ shift := by rw [Nat.pow_add]; ring
          _ = acc + v * 2 ^ shift := by rw [Nat.mod_add_div]
      rw [harith]
      simp only [Except.ok.injEq,Prod.mk.injEq,true_and]
      omega

theorem decodeVarintLoop_fixedVarintBytes {buf : Nat → UInt8} {dataLen : Nat} (n : Nat) :
    ∀ v fuel tmpPos acc shift, 0 < n → acc < 2 ^ shift →
      Lib.HoldsAt buf tmpPos (fixedVarintBytes n v) → tmpPos + n ≤ dataLen → n ≤ fuel →
      decodeVarintLoop buf dataLen fuel tmpPos acc shift =
        .ok (acc + v % 2 ^ (7 * n) * 2 ^ shift,tmpPos + n) := by
  induction n with
  | zero => intro _ _ _ _ _ h; omega
  | succ n ih =>
    intro v fuel tmpPos acc shift _ hacc hbytes hlen hfuel
    obtain ⟨fuel,rfl⟩ : ∃ f, fuel = f + 1 := ⟨fuel - 1,by omega⟩
    cases n with
    | zero =>
      have hb := hbytes 0 (by simp [fixedVarintBytes])
      simp only [fixedVarintBytes,Nat.add_zero,List.getElem_cons_zero] at hb
      obtain ⟨hcont,hlow⟩ := Lib.ofNat_and_0x7f v
      simp only [decodeVarintLoop,hb,hcont,ne_eq,not_true_eq_false,if_false]
      rw [if_neg (by omega),hlow,or_shiftLeft_eq_add hacc]
      rfl
    | succ n =>
      have hb := hbytes 0 (by simp [fixedVarintBytes])
      simp only [fixedVarintBytes,Nat.add_zero,List.getElem_cons_zero] at hb
      obtain ⟨hcont,hlow⟩ := Lib.ofNat_or_0x80 v
      simp only [decodeVarintLoop,hb,hcont,ne_eq,not_false_eq_true,if_true]
      rw [if_neg (by omega),hlow,or_shiftLeft_eq_add hacc]
      have hrest : Lib.HoldsAt buf (tmpPos + 1) (fixedVarintBytes (n + 1) (v / 128)) := fun i hi => by
        have := hbytes (i + 1) (by simp only [fixedVarintBytes_length] at hi ⊢; omega)
        simpa [fixedVarintBytes,Nat.shiftRight_eq_div_pow,Nat.add_assoc,Nat.add_comm 1 i] using this
      rw [ih (v / 128) fuel (tmpPos + 1) _ (shift + 7) (by omega) (add_mod_128_lt hacc v) hrest
        (by omega) (by omega)]
      have harith : acc + v % 128 * 2 ^ shift + v / 128 % 2 ^ (7 * (n + 1)) * 2 ^ (shift + 7) =
          acc + v % 2 ^ (7 * (n + 1 + 1)) * 2 ^ shift :=
        calc acc + v % 128 * 2 ^ shift + v / 128 % 2 ^ (7 * (n + 1)) * 2 ^ (shift + 7)
            = acc + (v % 128 + 128 * (v / 128 % 2 ^ (7 * (n + 1)))) * 2 ^ shift := by
              rw [Nat.pow_add]; ring
          _ = acc + v % 2 ^ (7 * (n + 1 + 1)) * 2 ^ shift := by
              rw [show 7 * (n + 1 + 1) = 7 + 7 * (n + 1) by ring,Nat.pow_add,Nat.mod_mul]
      rw [harith]
      simp only [Except.ok.injEq,Prod.mk.injEq,true_and]
      omega

section Decoders

variable {buf : Nat → UInt8} {dataLen pos : Nat}

theorem decodeVarintLoop_of_holdsAt {v : Nat} (h : Lib.HoldsAt buf pos (varintBytes v))
    (hlen : pos + (varintBytes v).length ≤ dataLen) :
    decodeVarintLoop buf dataLen (dataLen - pos + 1) pos 0 0 = .ok (v,pos + (varintBytes v).length) := by
  rw [decodeVarintLoop_varintBytes v _ _ 0 0 (by simp) h hlen (by omega)]
  simp

theorem decodeVi64_of_holdsAt {val : BitVec 64} (h : Lib.HoldsAt buf pos (varintBytes val.toNat))
    (hlen : pos + (varintBytes val.toNat).length ≤ dataLen) :
    decodeVi64 buf dataLen pos = .ok (val,pos + (varintBytes val.toNat).length) := by
  simp [decodeVi64,decodeVarintLoop_of_holdsAt h hlen,Except.map]

theorem decodeVi64_ofNat_of_holdsAt {v : Nat} (hv : v < 2 ^ 64) (h : Lib.HoldsAt buf pos (varintBytes v))
    (hlen : pos + (varintBytes v).length ≤ dataLen) :
    decodeVi64 buf dataLen pos = .ok (BitVec.ofNat 64 v,pos + (varintBytes v).length) := by
  have hval : (BitVec.ofNat 64 v).toNat = v := by rw [BitVec.toNat_ofNat,Nat.mod_eq_of_lt hv]
  rw [← hval] at h hlen
  rw [decodeVi64_of_holdsAt h hlen,hval]

theorem decodeVi32_of_holdsAt {val : BitVec 32} (h : Lib.HoldsAt buf pos (varintBytes val.toNat))
    (hlen : pos + (varintBytes val.toNat).length ≤ dataLen) :
    decodeVi32 buf dataLen pos = .ok (val,pos + (varintBytes val.toNat).length) := by
  simp [decodeVi32,decodeVarintLoop_of_holdsAt h hlen,Except.map]

theorem decodeVi64_of_fixed {v : Nat}
    (h : Lib.HoldsAt buf pos (fixedVarintBytes obSerializeSizeNeedBytes v))
    (hlen : pos + obSerializeSizeNeedBytes ≤ dataLen) :
    decodeVi64 buf dataLen pos = .ok (BitVec.ofNat 64 (v % 2 ^ 35),pos + obSerializeSizeNeedBytes) := by
  simp only [obSerializeSizeNeedBytes] at h hlen ⊢
  simp only [decodeVi64]
  rw [decodeVarintLoop_fixedVarintBytes 5 v _ _ 0 0 (by omega) (by simp) h hlen (by omega)]
  simp [Except.map]

theorem decodeI8_of_holdsAt {b : UInt8} (h : Lib.HoldsAt buf pos [b]) (hlen : pos + 1 ≤ dataLen) :
    decodeI8 buf dataLen pos = .ok (BitVec.ofNat 8 b.toNat,pos + 1) := by
  have hb := h 0 (by simp)
  simp only [Nat.add_zero,List.getElem_cons_zero] at hb
  simp [decodeI8,decodeFixedWidth_of_le hlen,Lib.beRead,hb,Except.map]

theorem decodeBool_of_holdsAt {val : Bool} (h : Lib.HoldsAt buf pos [UInt8.ofNat (if val then 1 else 0)])
    (hlen : pos + 1 ≤ dataLen) : decodeBool buf dataLen pos = .ok (val,pos + 1) := by
  rw [decodeBool,decodeI8_of_holdsAt h hlen]
  cases val <;> rfl

end Decoders

/-! ## Round trips of byte strings -/

theorem toInt_ofNat_of_lt {n : Nat} (h : n < 2 ^ 63) : (BitVec.ofNat 64 n).toInt = n := by
  rw [BitVec.toInt_eq_toNat_of_lt] <;> simp [BitVec.toNat_ofNat] <;> omega

theorem toInt_ofNat_32_of_lt {n : Nat} (h : n < 2 ^ 31) : (BitVec.ofNat 32 n).toInt = n := by
  rw [BitVec.toInt_eq_toNat_of_lt] <;> simp [BitVec.toNat_ofNat] <;> omega

theorem toInt_ofNat_le (w n : Nat) : (BitVec.ofNat w n).toInt ≤ n := by
  rw [BitVec.toInt_eq_toNat_cond]
  have h : (BitVec.ofNat w n).toNat ≤ n := by simp [BitVec.toNat_ofNat]; exact Nat.mod_le _ _
  split <;> omega

/-- The bytes `encode_vstr` writes: the length, the string, the terminating `0`. -/
def vstrBytes (str : List UInt8) : List UInt8 := varintBytes str.length ++ str ++ [0]

theorem vstrBytes_length (str : List UInt8) :
    (vstrBytes str).length = (varintBytes str.length).length + str.length + 1 := by
  simp only [vstrBytes,List.length_append,List.length_singleton]

theorem encodedLengthVstr_eq {len : Nat} (h : len < 2 ^ 63) :
    encodedLengthVstr len = (varintBytes len).length + len + 1 := by
  rw [encodedLengthVstr,encodedLengthVi64_eq,BitVec.toNat_ofNat,Nat.mod_eq_of_lt (by omega)]

section Vstr

variable {buf : Nat → UInt8} {str : List UInt8}

theorem encodeVstr_of_le {bufLen pos : Nat} (hstr : str.length < 2 ^ 63)
    (h : pos + (vstrBytes str).length ≤ bufLen) :
    encodeVstr buf bufLen pos str =
      .ok (Lib.writeBytes buf pos (vstrBytes str),pos + (vstrBytes str).length) := by
  have hlen := vstrBytes_length str
  have hroom : (BitVec.ofNat 32 (encodedLengthVstr str.length)).toInt ≤ (bufLen : Int) - pos := by
    have := toInt_ofNat_le 32 (encodedLengthVstr str.length)
    have := encodedLengthVstr_eq hstr
    omega
  have hval : (BitVec.ofNat 64 str.length).toNat = str.length := by
    rw [BitVec.toNat_ofNat,Nat.mod_eq_of_lt (by omega)]
  simp only [encodeVstr]
  rw [if_pos ⟨hstr,hroom⟩,encodeVi64_of_le (by rw [hval]; omega),hval]
  simp only [Except.ok.injEq,Prod.mk.injEq]
  refine ⟨?_,by omega⟩
  rw [Lib.writeBytes_append,Lib.writeBytes_append,vstrBytes,List.append_assoc]

theorem decodeVstr_of_holdsAt {dataLen pos : Nat} (hstr : str.length < 2 ^ 63)
    (h : Lib.HoldsAt buf pos (vstrBytes str)) (hlen : pos + (vstrBytes str).length ≤ dataLen) :
    decodeVstr buf dataLen pos =
      some (pos + (varintBytes str.length).length,str.length,pos + (vstrBytes str).length) := by
  have hl := vstrBytes_length str
  have hval : (BitVec.ofNat 64 str.length).toNat = str.length := by
    rw [BitVec.toNat_ofNat,Nat.mod_eq_of_lt (by omega)]
  have hvar : Lib.HoldsAt buf pos (varintBytes str.length) :=
    (Lib.holdsAt_append.mp (Lib.holdsAt_append.mp h).1).1
  simp only [decodeVstr]
  rw [decodeVi64_ofNat_of_holdsAt (by omega) hvar (by omega)]
  simp only [hval,toInt_ofNat_of_lt hstr]
  rw [if_pos ⟨by omega,by omega⟩]
  simp only [Option.some.injEq,Prod.mk.injEq,true_and]
  omega

/-- `decode_vstr` succeeds on an empty string whose terminating byte would lie at `data_len`,
and moves `pos` past `data_len`: it checks for the `len` bytes of the string but consumes
`len + 1`. -/
theorem decodeVstr_past_end (buf : Nat → UInt8) (pos : Nat) (h : buf pos = 0) :
    decodeVstr buf (pos + 1) pos = some (pos + 1,0,pos + 2) := by
  have hzero : varintBytes 0 = [0] := by
    rw [varintBytes_of_le (by simp [obMaxVB])]
    rfl
  have hbyte : Lib.HoldsAt buf pos (varintBytes 0) := by
    rw [hzero]
    intro i hi
    obtain rfl : i = 0 := by simpa using hi
    simpa using h
  simp only [decodeVstr]
  rw [decodeVi64_ofNat_of_holdsAt (by omega) hbyte (by rw [hzero]; simp),hzero]
  simp

theorem decodeVstr_past_end_zero : decodeVstr (fun _ => 0) 1 0 = some (1,0,2) :=
  decodeVstr_past_end (fun _ => 0) 0 rfl

theorem decodeVstr_of_gt {len dataLen pos : Nat} (hl : len < 2 ^ 63) (h : Lib.HoldsAt buf pos (varintBytes len))
    (hroom : pos + (varintBytes len).length ≤ dataLen) (hgt : dataLen < pos + (varintBytes len).length + len) :
    decodeVstr buf dataLen pos = none := by
  simp only [decodeVstr]
  rw [decodeVi64_ofNat_of_holdsAt (by omega) h hroom]
  simp only [toInt_ofNat_of_lt hl]
  rw [if_neg (by omega)]

end Vstr

end Serialization

namespace ObString

open Serialization

theorem serialize_of_le {str : List UInt8} {buf : Nat → UInt8} {bufLen pos : Nat}
    (hstr : str.length < 2 ^ 63) (h : pos + (vstrBytes str).length ≤ bufLen) :
    serialize str buf bufLen pos =
      .ok (Lib.writeBytes buf pos (vstrBytes str),pos + (vstrBytes str).length) := by
  have hsize : getSerializeSize str = (vstrBytes str).length := by
    rw [getSerializeSize,encodedLengthVstr_eq hstr,vstrBytes_length]
  simp only [serialize]
  rw [if_neg (by omega),encodeVstr_of_le hstr h]

theorem deserialize_of_holdsAt {str : List UInt8} {buf : Nat → UInt8} {dataLen pos : Nat}
    (hstr : str.length < 2 ^ 31) (h : Lib.HoldsAt buf pos (vstrBytes str))
    (hlen : pos + (vstrBytes str).length ≤ dataLen) :
    deserialize buf dataLen pos = .ok (str,pos + (vstrBytes str).length) := by
  have hl := vstrBytes_length str
  have hvar := varintBytes_length_pos str.length
  have hcast : (BitVec.ofNat 32 str.length).toInt.toNat = str.length := by
    rw [BitVec.toInt_eq_toNat_of_lt] <;> simp [BitVec.toNat_ofNat] <;> omega
  have hdata : Lib.HoldsAt buf (pos + (varintBytes str.length).length) str :=
    (Lib.holdsAt_append.mp (Lib.holdsAt_append.mp h).1).2
  simp only [deserialize]
  rw [if_neg (by omega),decodeVstr_of_holdsAt (by omega) h hlen]
  simp only [hcast,Lib.readBytes_of_holdsAt hdata]

theorem deserialize_of_gt {len : Nat} {buf : Nat → UInt8} {dataLen pos : Nat} (hl : len < 2 ^ 63)
    (h : Lib.HoldsAt buf pos (varintBytes len)) (hroom : pos + (varintBytes len).length + 1 ≤ dataLen)
    (hgt : dataLen < pos + (varintBytes len).length + len) :
    deserialize buf dataLen pos = .error .error := by
  have hvar := varintBytes_length_pos len
  simp only [deserialize]
  rw [if_neg (by omega),decodeVstr_of_gt hl h (by omega) hgt]

end ObString
end Common

namespace Share
namespace SCN

open Common.Serialization

def int64Max : BitVec 64 := BitVec.ofNat 64 (2 ^ 63 - 1)

/-- `SCN::transform_max_`: the value `INT64_MAX` is read as `OB_MAX_SCN_TS_NS`. -/
def transformMax_ (val : BitVec 64) : BitVec 64 :=
  if val = int64Max then BitVec.ofNat 64 obMaxScnTsNs else val

def fixedSerialize (val : BitVec 64) (buf : Nat → UInt8) (bufLen pos : Nat) :
    Except ObErr ((Nat → UInt8) × Nat) :=
  encodeI64 buf bufLen pos val

def fixedDeserialize (buf : Nat → UInt8) (dataLen pos : Nat) : Except ObErr (BitVec 64 × Nat) :=
  (decodeI64 buf dataLen pos).map fun r => (transformMax_ r.1,r.2)

def getFixedSerializeSize (val : BitVec 64) : Nat := encodedLengthI64 val

theorem transformMax_of_valid {val : BitVec 64} (h : scnIsValid val.toNat = true) :
    transformMax_ val = val := by
  have hne : val ≠ int64Max := by
    rintro rfl
    revert h
    decide
  simp [transformMax_,hne]

theorem transformMax_xor_twoPow {val : BitVec 64} (h : scnIsValid val.toNat = true) {e : Nat}
    (he : e < 64) :
    transformMax_ (val ^^^ BitVec.twoPow 64 e) =
      if val.toNat = obMaxScnTsNs ∧ e = 62 then val else val ^^^ BitVec.twoPow 64 e := by
  have hvalid : ∀ e < 64, scnIsValid (int64Max ^^^ BitVec.twoPow 64 e).toNat = true →
      e = 62 ∧ (int64Max ^^^ BitVec.twoPow 64 e).toNat = obMaxScnTsNs := by decide +kernel
  have hmax : int64Max ^^^ BitVec.twoPow 64 62 = BitVec.ofNat 64 obMaxScnTsNs := by decide
  by_cases hx : val ^^^ BitVec.twoPow 64 e = int64Max
  · have hval : val = int64Max ^^^ BitVec.twoPow 64 e := by
      rw [← hx,BitVec.xor_assoc,BitVec.xor_self,BitVec.xor_zero]
    obtain ⟨rfl,hmaxval⟩ := hvalid e he (hval ▸ h)
    rw [transformMax_,if_pos hx,if_pos ⟨by rw [hval]; exact hmaxval,rfl⟩,hval,hmax]
  · rw [transformMax_,if_neg hx,if_neg]
    rintro ⟨hv,rfl⟩
    apply hx
    have hval : val = BitVec.ofNat 64 obMaxScnTsNs := by
      apply BitVec.eq_of_toNat_eq
      rw [hv]
      decide
    rw [hval,← hmax,BitVec.xor_assoc,BitVec.xor_self,BitVec.xor_zero]

end SCN
end Share
end OceanBase
