import Mathlib
import OceanBase.Common.UnifySerialize

/-! Where the encoders of `serialization.h` and `ob_unify_serialize.h` write. Each encoder checks
the room left before it writes, and most stay inside `[pos, buf_len)`. Two do not:
`encode_vstr` compares the room with `encoded_length_vstr(len)` cast to `int32_t`, and
`OB_UNIS_SERIALIZE` moves `pos` over the five length bytes before any check and fills them after
its members, which for a struct without members check nothing. -/
namespace OceanBase
namespace Common

open Lib

namespace Serialization

variable {buf : Nat → UInt8} {bufLen pos : Nat}

theorem staysWithin_encodeFixedWidth {n : Nat} (hn : 0 < n) (v : Nat) :
    StaysWithin buf bufLen pos (encodeFixedWidth n buf bufLen pos v) := by
  unfold encodeFixedWidth
  split_ifs with h
  · refine ⟨by omega,by omega,?_⟩
    rintro i (hi | hi)
    · exact beWrite_apply_of_lt buf hi n v
    · exact beWrite_apply_of_le buf (by omega) v
  · trivial

theorem staysWithin_encodeVarint {encodedLength v : Nat}
    (hlen : (varintBytes v).length = encodedLength) :
    StaysWithin buf bufLen pos (encodeVarint encodedLength buf bufLen pos v) := by
  unfold encodeVarint
  split_ifs with h
  · have hpos := varintBytes_length_pos v
    exact staysWithin_writeBytes buf (by omega)
  · trivial

theorem staysWithin_encodeVi64 (val : BitVec 64) :
    StaysWithin buf bufLen pos (encodeVi64 buf bufLen pos val) :=
  staysWithin_encodeVarint (encodedLengthVi64_eq val).symm

theorem staysWithin_encodeVi32 (val : BitVec 32) :
    StaysWithin buf bufLen pos (encodeVi32 buf bufLen pos val) :=
  staysWithin_encodeVarint (encodedLengthVi32_eq val).symm

theorem staysWithin_encodeFixedBytesI64 (val : BitVec 64) :
    StaysWithin buf bufLen pos (encodeFixedBytesI64 buf bufLen pos val) := by
  unfold encodeFixedBytesI64
  split_ifs with h
  · have hw := staysWithin_writeBytes (ε := ObErr) buf
      (show pos + (fixedVarintBytes obSerializeSizeNeedBytes val.toNat).length ≤ bufLen by
        rw [fixedVarintBytes_length]
        simp only [obSerializeSizeNeedBytes] at h ⊢
        omega)
    rwa [fixedVarintBytes_length] at hw
  · trivial

theorem staysWithin_encodeCharArray (str : List UInt8) :
    StaysWithin buf bufLen pos (encodeCharArray str buf bufLen pos) := by
  have hv : StaysWithin buf bufLen pos (encodeVi64 buf bufLen pos (BitVec.ofNat 64 (str.length + 1))) :=
    staysWithin_encodeVi64 _
  unfold encodeCharArray
  cases h : encodeVi64 buf bufLen pos (BitVec.ofNat 64 (str.length + 1)) with
  | error e => trivial
  | ok r =>
    obtain ⟨buf₁,p⟩ := r
    rw [h] at hv
    simp only
    split_ifs with hroom
    · have hw := staysWithin_writeBytes (ε := ObErr) buf₁
        (show p + (str ++ [0]).length ≤ bufLen by simp; omega)
      rw [List.length_append,List.length_singleton,← Nat.add_assoc] at hw
      exact hv.trans hw
    · trivial

theorem encodeVstr_of_fits {str : List UInt8} (hfit : encodedLengthVstr str.length < 2 ^ 31) :
    ((∃ r, encodeVstr buf bufLen pos str = .ok r) ↔ pos + encodedLengthVstr str.length ≤ bufLen) ∧
      StaysWithin buf bufLen pos (encodeVstr buf bufLen pos str) := by
  have hstr : str.length < 2 ^ 63 := by
    have : str.length ≤ encodedLengthVstr str.length := by simp only [encodedLengthVstr]; omega
    omega
  have hlen := encodedLengthVstr_eq hstr
  rw [← vstrBytes_length] at hlen
  by_cases hroom : pos + (vstrBytes str).length ≤ bufLen
  · rw [encodeVstr_of_le hstr hroom,hlen]
    exact ⟨⟨fun _ => hroom,fun _ => ⟨_,rfl⟩⟩,staysWithin_writeBytes buf hroom⟩
  · have herr : encodeVstr buf bufLen pos str = .error .sizeOverflow := by
      simp only [encodeVstr]
      rw [if_neg]
      rw [toInt_ofNat_32_of_lt hfit,hlen]
      omega
    rw [herr,hlen]
    refine ⟨⟨?_,fun h => absurd h hroom⟩,trivial⟩
    rintro ⟨_,h⟩
    cases h

end Serialization

namespace ObString

open Serialization

theorem staysWithin_serialize (str : List UInt8) (buf : Nat → UInt8) (bufLen pos : Nat) :
    StaysWithin buf bufLen pos (serialize str buf bufLen pos) := by
  unfold serialize
  split_ifs with hroom
  · trivial
  · by_cases hstr : str.length < 2 ^ 63
    · have hlen : getSerializeSize str = (vstrBytes str).length := by
        rw [getSerializeSize,encodedLengthVstr_eq hstr,vstrBytes_length]
      have hfit : pos + (vstrBytes str).length ≤ bufLen := by omega
      rw [encodeVstr_of_le hstr hfit]
      exact staysWithin_writeBytes buf hfit
    · have herr : encodeVstr buf bufLen pos str = .error .sizeOverflow := by
        simp only [encodeVstr]
        rw [if_neg (fun h => hstr h.1)]
      rw [herr]
      trivial

end ObString

namespace Unis

open Serialization

mutual

def hasMembers : UnisValue → Bool
  | .unis _ members => !members.isEmpty && membersHaveMembers members
  | _ => true

def membersHaveMembers : List UnisValue → Bool
  | [] => true
  | m :: ms => hasMembers m && membersHaveMembers ms

end

theorem staysWithin_envelope {buf buf₁ buf₂ : Nat → UInt8} {bufLen pos p p₂ : Nat} {n : Nat}
    (hv : StaysWithin buf bufLen pos (.ok (buf₁,p) : Except ObErr ((Nat → UInt8) × Nat)))
    (hm : StaysWithin buf₁ bufLen (p + obSerializeSizeNeedBytes)
      (.ok (buf₂,p₂) : Except ObErr ((Nat → UInt8) × Nat))) :
    StaysWithin buf bufLen pos
      (.ok (Lib.writeBytes buf₂ p (fixedVarintBytes obSerializeSizeNeedBytes n),p₂) :
        Except ObErr ((Nat → UInt8) × Nat)) := by
  obtain ⟨hp,hb,hf⟩ := hv
  obtain ⟨hp₂,hb₂,hf₂⟩ := hm
  refine ⟨by omega,hb₂,fun i hi => ?_⟩
  have hlen := fixedVarintBytes_length obSerializeSizeNeedBytes n
  rcases hi with hi | hi
  · rw [writeBytes_apply_of_lt _ (by omega),hf₂ i (.inl (by omega)),hf i (.inl hi)]
  · rw [writeBytes_apply_of_le (by omega),hf₂ i (.inr hi),hf i (.inr hi)]

mutual

theorem staysWithin_encode : ∀ (x : UnisValue) (buf : Nat → UInt8) (bufLen pos : Nat),
    hasMembers x = true → StaysWithin buf bufLen pos (encode x buf bufLen pos)
  | .i64 val, _, _, _, _ => staysWithin_encodeVi64 val
  | .i32 val, _, _, _, _ => staysWithin_encodeVi32 val
  | .i16 val, _, _, _, _ => staysWithin_encodeVi32 _
  | .u16 val, _, _, _, _ => staysWithin_encodeVi32 _
  | .i8 val, _, _, _, _ => staysWithin_encodeFixedWidth (by omega) _
  | .bool val, _, _, _, _ => staysWithin_encodeFixedWidth (by omega) _
  | .str val, buf, bufLen, pos, _ => ObString.staysWithin_serialize val buf bufLen pos
  | .unis version members, buf, bufLen, pos, h => by
    simp only [hasMembers,Bool.and_eq_true,Bool.not_eq_true',List.isEmpty_eq_false_iff] at h
    have hv : StaysWithin buf bufLen pos (encodeVi64 buf bufLen pos version) :=
      staysWithin_encodeVi64 version
    simp only [encode]
    cases hver : encodeVi64 buf bufLen pos version with
    | error e => trivial
    | ok r =>
      obtain ⟨buf₁,p⟩ := r
      rw [hver] at hv
      simp only
      have hm := staysWithin_serialize_ members buf₁ bufLen (p + obSerializeSizeNeedBytes) h.2
        (.inl h.1)
      cases hmem : serialize_ members buf₁ bufLen (p + obSerializeSizeNeedBytes) with
      | error e => trivial
      | ok r =>
        obtain ⟨buf₂,p₂⟩ := r
        rw [hmem] at hm
        simp only
        rw [encodeFixedBytesI64_of_le (by omega)]
        exact staysWithin_envelope hv hm

theorem staysWithin_serialize_ : ∀ (ms : List UnisValue) (buf : Nat → UInt8) (bufLen pos : Nat),
    membersHaveMembers ms = true → (ms ≠ [] ∨ pos ≤ bufLen) →
    StaysWithin buf bufLen pos (serialize_ ms buf bufLen pos)
  | [], buf, bufLen, pos, _, hne => by
    rcases hne with hne | hle
    · exact absurd rfl hne
    · exact ⟨le_rfl,hle,fun _ _ => rfl⟩
  | m :: ms, buf, bufLen, pos, h, _ => by
    simp only [membersHaveMembers,Bool.and_eq_true] at h
    have hm := staysWithin_encode m buf bufLen pos h.1
    simp only [serialize_]
    cases henc : encode m buf bufLen pos with
    | error e => trivial
    | ok r =>
      obtain ⟨buf₁,p⟩ := r
      rw [henc] at hm
      simp only
      exact hm.trans (staysWithin_serialize_ ms buf₁ bufLen p h.2 (.inr hm.2.1))

end

end Unis

open Serialization in
/-- Two encoders write past `buf_len` and succeed. `encode_vstr` passes its check whenever
`encoded_length_vstr(len)` cast to `int32_t` fits the room, and then writes the length, the
`len` bytes and the `0`. `OB_UNIS_SERIALIZE` of a struct without members, given room for its
version only, moves `pos` over the five length bytes and writes them past `buf_len`. -/
theorem encoders_write_past_end :
    (∀ (buf : Nat → UInt8) (bufLen pos : Nat) (str : List UInt8), str.length < 2 ^ 63 →
      (BitVec.ofNat 32 (encodedLengthVstr str.length)).toInt ≤ (bufLen : Int) - pos →
      pos + (varintBytes str.length).length ≤ bufLen → bufLen < pos + (vstrBytes str).length →
      encodeVstr buf bufLen pos str =
          .ok (Lib.writeBytes buf pos (vstrBytes str),pos + (vstrBytes str).length) ∧
        ¬ StaysWithin buf bufLen pos (encodeVstr buf bufLen pos str)) ∧
    (∀ (version : BitVec 64) (buf : Nat → UInt8) (bufLen pos : Nat),
      pos + (varintBytes version.toNat).length ≤ bufLen →
      bufLen < pos + (varintBytes version.toNat).length + obSerializeSizeNeedBytes →
      Unis.serialize version [] buf bufLen pos =
          .ok (Lib.writeBytes buf pos
              (varintBytes version.toNat ++ fixedVarintBytes obSerializeSizeNeedBytes 0),
            pos + (varintBytes version.toNat).length + obSerializeSizeNeedBytes) ∧
        ¬ StaysWithin buf bufLen pos (Unis.serialize version [] buf bufLen pos)) := by
  constructor
  · intro buf bufLen pos str hstr hcast hvi hshort
    have hval : (BitVec.ofNat 64 str.length).toNat = str.length := by
      rw [BitVec.toNat_ofNat,Nat.mod_eq_of_lt (by omega)]
    have henc : encodeVstr buf bufLen pos str =
        .ok (Lib.writeBytes buf pos (vstrBytes str),pos + (vstrBytes str).length) := by
      simp only [encodeVstr]
      rw [if_pos ⟨hstr,hcast⟩,encodeVi64_of_le (by rw [hval]; omega),hval]
      simp only [vstrBytes,Lib.writeBytes_append,List.length_append,List.length_singleton]
      have hpos : pos + (varintBytes str.length).length + str.length =
          pos + (varintBytes str.length ++ str).length := by
        rw [List.length_append,Nat.add_assoc]
      rw [hpos,Lib.writeBytes_append,List.length_append,Nat.add_assoc,Nat.add_assoc]
    exact ⟨henc,by rw [henc]; exact not_staysWithin_of_lt hshort⟩
  · intro version buf bufLen pos hroom hshort
    have henc : Unis.serialize version [] buf bufLen pos =
        .ok (Lib.writeBytes buf pos
            (varintBytes version.toNat ++ fixedVarintBytes obSerializeSizeNeedBytes 0),
          pos + (varintBytes version.toNat).length + obSerializeSizeNeedBytes) := by
      simp only [Unis.serialize,Unis.encode,encodeVi64_of_le hroom,Unis.serialize_,
        encodeFixedBytesI64_of_le (le_refl _),Nat.sub_self,
        BitVec.toNat_ofNat,Nat.zero_mod,Lib.writeBytes_append]
    exact ⟨henc,by rw [henc]; exact not_staysWithin_of_lt hshort⟩

/-- A four-gibibyte string: `encoded_length_vstr` is `2^32 + 6`, which `int32_t` reads as 6. -/
def fourGiBStr : List UInt8 := List.replicate (2 ^ 32) 1

theorem fourGiBStr_length : fourGiBStr.length = 2 ^ 32 := List.length_replicate

open Serialization in
theorem encoders_write_past_end_fourGiB :
    encodeVstr (fun _ => 0) 6 0 fourGiBStr =
        .ok (Lib.writeBytes (fun _ => 0) 0 (vstrBytes fourGiBStr),0 + (vstrBytes fourGiBStr).length) ∧
      ¬ StaysWithin (fun _ => 0) 6 0 (encodeVstr (fun _ => 0) 6 0 fourGiBStr) ∧
      Unis.serialize 1 [] (fun _ => 0) 1 0 =
        .ok (Lib.writeBytes (fun _ => 0) 0
            (varintBytes (1 : BitVec 64).toNat ++ fixedVarintBytes obSerializeSizeNeedBytes 0),
          0 + (varintBytes (1 : BitVec 64).toNat).length + obSerializeSizeNeedBytes) ∧
      ¬ StaysWithin (fun _ => 0) 1 0 (Unis.serialize 1 [] (fun _ => 0) 1 0) := by
  have hvi : (varintBytes fourGiBStr.length).length = 5 := by
    have h := encodedLengthVi64_eq (BitVec.ofNat 64 (2 ^ 32))
    rw [fourGiBStr_length,← show (BitVec.ofNat 64 (2 ^ 32)).toNat = 2 ^ 32 by decide,← h]
    decide
  have hcast : (BitVec.ofNat 32 (encodedLengthVstr fourGiBStr.length)).toInt ≤ ((6 : Nat) : Int) - (0 : Nat) := by
    rw [fourGiBStr_length]
    decide
  have hone : (varintBytes (1 : BitVec 64).toNat).length = 1 := by
    rw [← encodedLengthVi64_eq]
    decide
  have hlen : (vstrBytes fourGiBStr).length = 2 ^ 32 + 6 := by
    rw [vstrBytes_length,hvi,fourGiBStr_length]
    omega
  obtain ⟨h₁,h₂⟩ := encoders_write_past_end.1 (fun _ => 0) 6 0 fourGiBStr
    (by rw [fourGiBStr_length]; omega) hcast (by omega) (by omega)
  obtain ⟨h₃,h₄⟩ := encoders_write_past_end.2 1 (fun _ => 0) 1 0 (by omega)
    (by simp only [obSerializeSizeNeedBytes]; omega)
  exact ⟨h₁,h₂,h₃,h₄⟩

open Serialization in
/-- What does hold. The integer encoders, `encode_fixed_bytes_i64`, the char-array `encode` and
`ObString::serialize` fail or stay inside `[pos, buf_len)`, and so does `NS_::encode` of every
value whose structs all have members. `encode_vstr` does too, and succeeds exactly when the
room holds `encoded_length_vstr(len)`, as long as that length is below `2^31`. -/
theorem encoders_stay_within (buf : Nat → UInt8) (bufLen pos : Nat) :
    (∀ val, StaysWithin buf bufLen pos (encodeVi64 buf bufLen pos val)) ∧
    (∀ val, StaysWithin buf bufLen pos (encodeVi32 buf bufLen pos val)) ∧
    (∀ val, StaysWithin buf bufLen pos (encodeFixedBytesI64 buf bufLen pos val)) ∧
    (∀ str, StaysWithin buf bufLen pos (encodeCharArray str buf bufLen pos)) ∧
    (∀ str, StaysWithin buf bufLen pos (ObString.serialize str buf bufLen pos)) ∧
    (∀ x, Unis.hasMembers x = true → StaysWithin buf bufLen pos (Unis.encode x buf bufLen pos)) ∧
    ∀ str : List UInt8, encodedLengthVstr str.length < 2 ^ 31 →
      ((∃ r, encodeVstr buf bufLen pos str = .ok r) ↔ pos + encodedLengthVstr str.length ≤ bufLen) ∧
        StaysWithin buf bufLen pos (encodeVstr buf bufLen pos str) :=
  ⟨staysWithin_encodeVi64,staysWithin_encodeVi32,staysWithin_encodeFixedBytesI64,
    staysWithin_encodeCharArray,fun str => ObString.staysWithin_serialize str buf bufLen pos,
    fun x hx => Unis.staysWithin_encode x buf bufLen pos hx,fun _ hfit => encodeVstr_of_fits hfit⟩

open Serialization in
/-- At offset 2 of an 8-byte buffer `encode_vi64(300)` takes two bytes and `encode_vstr` of a
two-byte string four; `NS_::encode` of the sample struct stays inside a 64-byte buffer. -/
theorem encoders_stay_within_offset :
    StaysWithin (fun _ => 0) 8 2 (encodeVi64 (fun _ => 0) 8 2 300) ∧
      (encodeVi64 (fun _ => 0) 8 2 300).map Prod.snd = .ok 4 ∧
      StaysWithin (fun _ => 0) 64 2 (Unis.encode Unis.sampleStruct (fun _ => 0) 64 2) ∧
      (Unis.encode Unis.sampleStruct (fun _ => 0) 64 2).map Prod.snd =
        .ok (2 + Unis.encodedLength Unis.sampleStruct) ∧
      ((∃ r, encodeVstr (fun _ => 0) 8 2 [104, 105] = .ok r) ↔ 2 + encodedLengthVstr 2 ≤ 8) ∧
      (encodeVstr (fun _ => 0) 8 2 [104, 105]).map Prod.snd = .ok 6 := by
  obtain ⟨h64, -, -, -, -, -, hvstr⟩ := encoders_stay_within (fun _ => 0) 8 2
  obtain ⟨-, -, -, -, -, hunis, -⟩ := encoders_stay_within (fun _ => 0) 64 2
  exact ⟨h64 300, by decide +kernel, hunis _ (by decide), by decide +kernel,
    (hvstr [104, 105] (by decide)).1, by decide +kernel⟩

end Common
end OceanBase
