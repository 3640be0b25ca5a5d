import OceanBase.Common.Serialization

/-! The unified serialization of `ob_unify_serialize.h`. A struct declared with `OB_UNIS_VERSION`
and `OB_SERIALIZE_MEMBER` is written by `OB_UNIS_SERIALIZE` as its version, a length in exactly
five bytes, and its members one after another, each by the `serialization::encode` overload of
its type. `OB_UNIS_DESERIALIZE` reads the version and the length back and decodes the members
inside that many bytes, each only while bytes remain; the caller's `pos` then moves past the
whole length, read or not. The length envelope is what lets a struct read an encoding of a
longer or a shorter version of itself.

A value is also the static type its decoder reads: decoding goes into an existing value, and
members the data does not reach keep what they held. -/
namespace OceanBase
namespace Common
namespace Unis

open Serialization

/-- The values an `OB_UNIS` struct member holds: the integer types, `bool`, `ObString`, and
nested structs with their `UNIS_VERSION`. `i64` stands for `int64_t` and `uint64_t`, `i32` for
`int32_t` and `uint32_t`, `i8` for `int8_t`, `uint8_t` and `char`. -/
inductive UnisValue
  | i64 (val : BitVec 64)
  | i32 (val : BitVec 32)
  | i16 (val : BitVec 16)
  | u16 (val : BitVec 16)
  | i8 (val : BitVec 8)
  | bool (val : Bool)
  | str (val : List UInt8)
  | unis (version : BitVec 64) (members : List UnisValue)
  deriving Repr

mutual

/-- `NS_::encode(buf, buf_len, pos, obj)` by the type of `obj`. A struct's `serialize` is
`OB_UNIS_SERIALIZE`: the version as an `encode_vi64`; `pos` moved over `size_nbytes` bytes
without a check; the members; then the payload's length into those bytes with
`encode_fixed_bytes_i64(buf + pos_bak - size_nbytes, size_nbytes, tmp_pos, serial_size)`. -/
def encode : UnisValue → (Nat → UInt8) → Nat → Nat → Except ObErr ((Nat → UInt8) × Nat)
  | .i64 val, buf, bufLen, pos => encodeVi64 buf bufLen pos val
  | .i32 val, buf, bufLen, pos => encodeVi32 buf bufLen pos val
  | .i16 val, buf, bufLen, pos => encodeVi32 buf bufLen pos (val.signExtend 32)
  | .u16 val, buf, bufLen, pos => encodeVi32 buf bufLen pos (val.zeroExtend 32)
  | .i8 val, buf, bufLen, pos => encodeI8 buf bufLen pos val
  | .bool val, buf, bufLen, pos => encodeBool buf bufLen pos val
  | .str val, buf, bufLen, pos => ObString.serialize val buf bufLen pos
  | .unis version members, buf, bufLen, pos =>
    match encodeVi64 buf bufLen pos version with
    | .error e => .error e
    | .ok (buf,p) =>
      let posBak := p + obSerializeSizeNeedBytes
      match serialize_ members buf bufLen posBak with
      | .error e => .error e
      | .ok (buf,pos) =>
        match encodeFixedBytesI64 buf (p + obSerializeSizeNeedBytes) p (BitVec.ofNat 64 (pos - posBak)) with
        | .error e => .error e
        | .ok (buf,_) => .ok (buf,pos)

/-- `serialize_` of `OB_SERIALIZE_MEMBER`: the `OB_UNIS_ENCODE` of each member in turn, up to the
first failure. -/
def serialize_ : List UnisValue → (Nat → UInt8) → Nat → Nat → Except ObErr ((Nat → UInt8) × Nat)
  | [], buf, _, pos => .ok (buf,pos)
  | m :: ms, buf, bufLen, pos =>
    match encode m buf bufLen pos with
    | .error e => .error e
    | .ok (buf,pos) => serialize_ ms buf bufLen pos

end

mutual

def encodedLength : UnisValue → Nat
  | .i64 val => encodedLengthVi64 val
  | .i32 val => encodedLengthVi32 val
  | .i16 val => encodedLengthVi32 (val.signExtend 32)
  | .u16 val => encodedLengthVi32 (val.zeroExtend 32)
  | .i8 _ => 1
  | .bool _ => 1
  | .str val => ObString.getSerializeSize val
  | .unis version members => getSerializeSize_ members + encodedLengthVi64 version + obSerializeSizeNeedBytes

/-- `get_serialize_size_` of `OB_SERIALIZE_MEMBER`: the members' `OB_UNIS_ADD_LEN`. -/
def getSerializeSize_ : List UnisValue → Nat
  | [] => 0
  | m :: ms => encodedLength m + getSerializeSize_ ms

end

mutual

/-- `NS_::decode(buf, data_len, pos, obj)` into `obj`, by its type. `int16_t` and `uint16_t` are
read as a `decode_vi32` and cast down. A struct's `deserialize` is `OB_UNIS_DESERIALIZE`: the
version and the length as `decode_vi64`s, `CHECK_VERSION_LENGTH` (its `data_len < LEN + pos`
computed in `int64_t`), then the members inside the `len` bytes at `pos`, and `pos` moved past
them. A failed member leaves the struct partly decoded; the model returns only the error. -/
def decode : UnisValue → (Nat → UInt8) → Nat → Nat → Except ObErr (UnisValue × Nat)
  | .i64 _, buf, dataLen, pos => (decodeVi64 buf dataLen pos).map fun r => (.i64 r.1,r.2)
  | .i32 _, buf, dataLen, pos => (decodeVi32 buf dataLen pos).map fun r => (.i32 r.1,r.2)
  | .i16 _, buf, dataLen, pos => (decodeVi32 buf dataLen pos).map fun r => (.i16 (r.1.setWidth 16),r.2)
  | .u16 _, buf, dataLen, pos => (decodeVi32 buf dataLen pos).map fun r => (.u16 (r.1.setWidth 16),r.2)
  | .i8 _, buf, dataLen, pos => (decodeI8 buf dataLen pos).map fun r => (.i8 r.1,r.2)
  | .bool _, buf, dataLen, pos => (decodeBool buf dataLen pos).map fun r => (.bool r.1,r.2)
  | .str _, buf, dataLen, pos => (ObString.deserialize buf dataLen pos).map fun r => (.str r.1,r.2)
  | .unis version members, buf, dataLen, pos =>
    match decodeVi64 buf dataLen pos with
    | .error e => .error e
    | .ok (ver,p) =>
      match decodeVi64 buf dataLen p with
      | .error e => .error e
      | .ok (len,p) =>
        if ver ≠ version then .error .notSupported
        else if len.toInt < 0 then .error .errUnexpected
        else if (BitVec.ofNat 64 dataLen).slt (len + BitVec.ofNat 64 p) then .error .deserializeError
        else
          match deserialize_ members (fun i => buf (p + i)) len.toNat 0 with
          | .error e => .error e
          | .ok (members,_) => .ok (.unis version members,p + len.toNat)

/-- `deserialize_` of `OB_SERIALIZE_MEMBER`: `OB_UNIS_DECODE` of each member in turn, which
decodes it only while `pos < data_len` and otherwise leaves it as it is. -/
def deserialize_ : List UnisValue → (Nat → UInt8) → Nat → Nat → Except ObErr (List UnisValue × Nat)
  | [], _, _, pos => .ok ([],pos)
  | m :: ms, buf, dataLen, pos =>
    if pos < dataLen then
      match decode m buf dataLen pos with
      | .error e => .error e
      | .ok (m,pos) => (deserialize_ ms buf dataLen pos).map fun r => (m :: r.1,r.2)
    else (deserialize_ ms buf dataLen pos).map fun r => (m :: r.1,r.2)

end

/-- `OB_UNIS_SERIALIZE` of a struct with `UNIS_VERSION = version` and these members. -/
def serialize (version : BitVec 64) (members : List UnisValue) (buf : Nat → UInt8) (bufLen pos : Nat) :
    Except ObErr ((Nat → UInt8) × Nat) :=
  encode (.unis version members) buf bufLen pos

/-- `OB_UNIS_DESERIALIZE` into a struct with `UNIS_VERSION = version` and these members. -/
def deserialize (version : BitVec 64) (members : List UnisValue) (buf : Nat → UInt8) (dataLen pos : Nat) :
    Except ObErr (UnisValue × Nat) :=
  decode (.unis version members) buf dataLen pos

def getSerializeSize (version : BitVec 64) (members : List UnisValue) : Nat :=
  encodedLength (.unis version members)

/-! ## The bytes of a value -/

mutual

/-- The bytes `encode` writes for a value: the bytes of its codec, and for a struct the version,
the five-byte payload length and the members' bytes. -/
def bytesOf : UnisValue → List UInt8
  | .i64 val => varintBytes val.toNat
  | .i32 val => varintBytes val.toNat
  | .i16 val => varintBytes (val.signExtend 32).toNat
  | .u16 val => varintBytes (val.zeroExtend 32).toNat
  | .i8 val => [UInt8.ofNat val.toNat]
  | .bool val => [UInt8.ofNat (if val then 1 else 0)]
  | .str val => vstrBytes val
  | .unis version members =>
    varintBytes version.toNat ++
      fixedVarintBytes obSerializeSizeNeedBytes (BitVec.ofNat 64 (membersBytes members).length).toNat ++
      membersBytes members

def membersBytes : List UnisValue → List UInt8
  | [] => []
  | m :: ms => bytesOf m ++ membersBytes ms

end

mutual

/-- Every string is one an `ObString` holds: its `data_length_` is an `int32_t`. -/
def strsFit : UnisValue → Bool
  | .str val => decide (val.length < 2 ^ 31)
  | .unis _ members => membersStrsFit members
  | _ => true

def membersStrsFit : List UnisValue → Bool
  | [] => true
  | m :: ms => strsFit m && membersStrsFit ms

end

mutual

def payloadsFit : UnisValue → Bool
  | .unis _ members => decide ((membersBytes members).length < 2 ^ 35) && membersPayloadsFit members
  | _ => true

def membersPayloadsFit : List UnisValue → Bool
  | [] => true
  | m :: ms => payloadsFit m && membersPayloadsFit ms

end

mutual

/-- Two values of the same static type: the same kind, and structs of the same version with
members of the same types. -/
def sameShape : UnisValue → UnisValue → Bool
  | .i64 _, .i64 _ | .i32 _, .i32 _ | .i16 _, .i16 _ | .u16 _, .u16 _ => true
  | .i8 _, .i8 _ | .bool _, .bool _ | .str _, .str _ => true
  | .unis v ms, .unis v' ms' => v == v' && sameShapes ms ms'
  | _, _ => false

def sameShapes : List UnisValue → List UnisValue → Bool
  | [], [] => true
  | m :: ms, m' :: ms' => sameShape m m' && sameShapes ms ms'
  | _, _ => false

end

/-! ## Encoding writes the bytes of a value -/

theorem setWidth_signExtend (val : BitVec 16) : (val.signExtend 32).setWidth 16 = val := by
  apply BitVec.eq_of_getLsbD_eq
  intro i hi
  simp [BitVec.getLsbD_signExtend,hi]
  omega

mutual

theorem encodedLength_eq : ∀ x : UnisValue, strsFit x = true → encodedLength x = (bytesOf x).length
  | .i64 val, _ => encodedLengthVi64_eq val
  | .i32 val, _ => encodedLengthVi32_eq val
  | .i16 val, _ => encodedLengthVi32_eq _
  | .u16 val, _ => encodedLengthVi32_eq _
  | .i8 _, _ => rfl
  | .bool _, _ => rfl
  | .str val, h => by
    simp only [strsFit,decide_eq_true_eq] at h
    rw [encodedLength,ObString.getSerializeSize,encodedLengthVstr_eq (by omega),bytesOf,vstrBytes_length]
  | .unis version members, h => by
    simp only [strsFit] at h
    rw [encodedLength,getSerializeSize_members_eq members h,encodedLengthVi64_eq,bytesOf]
    simp only [List.length_append,fixedVarintBytes_length]
    omega

theorem getSerializeSize_members_eq : ∀ ms : List UnisValue, membersStrsFit ms = true →
    getSerializeSize_ ms = (membersBytes ms).length
  | [], _ => rfl
  | m :: ms, h => by
    simp only [membersStrsFit,Bool.and_eq_true] at h
    rw [getSerializeSize_,encodedLength_eq m h.1,getSerializeSize_members_eq ms h.2,membersBytes,
      List.length_append]

end

theorem writeBytes_envelope (buf : Nat → UInt8) (pos : Nat) (v f m : List UInt8) (hf : f.length = 5) :
    Lib.writeBytes (Lib.writeBytes (Lib.writeBytes buf pos v) (pos + v.length + 5) m) (pos + v.length) f =
      Lib.writeBytes buf pos (v ++ f ++ m) := by
  rw [Lib.writeBytes_comm _ (by omega),Lib.writeBytes_append,
    show pos + v.length + 5 = pos + (v ++ f).length by simp [hf]; omega,Lib.writeBytes_append]

mutual

theorem encode_eq : ∀ (x : UnisValue) (buf : Nat → UInt8) (bufLen pos : Nat), strsFit x = true →
    pos + (bytesOf x).length ≤ bufLen →
    encode x buf bufLen pos = .ok (Lib.writeBytes buf pos (bytesOf x),pos + (bytesOf x).length)
  | .i64 val, _, _, _, _, h => encodeVi64_of_le h
  | .i32 val, _, _, _, _, h => encodeVi32_of_le h
  | .i16 val, _, _, _, _, h => encodeVi32_of_le h
  | .u16 val, _, _, _, _, h => encodeVi32_of_le h
  | .i8 val, _, _, _, _, h => encodeI8_of_le h val
  | .bool val, _, _, _, _, h => encodeBool_of_le h val
  | .str val, _, _, _, hf, h => by
    simp only [strsFit,decide_eq_true_eq] at hf
    exact ObString.serialize_of_le (by omega) h
  | .unis version members, buf, bufLen, pos, hf, h => by
    simp only [strsFit] at hf
    have hlen : (bytesOf (.unis version members)).length =
        (varintBytes version.toNat).length + 5 + (membersBytes members).length := by
      simp only [bytesOf,List.length_append,fixedVarintBytes_length,obSerializeSizeNeedBytes]
    rw [hlen] at h ⊢
    have hm := serialize_members_eq members (Lib.writeBytes buf pos (varintBytes version.toNat)) bufLen
      (pos + (varintBytes version.toNat).length + obSerializeSizeNeedBytes) hf
      (by simp only [obSerializeSizeNeedBytes]; omega)
    simp only [encode,encodeVi64_of_le (show pos + (varintBytes version.toNat).length ≤ bufLen by omega),
      hm,encodeFixedBytesI64_of_le (le_refl _)]
    simp only [obSerializeSizeNeedBytes,Except.ok.injEq,Prod.mk.injEq]
    refine ⟨?_,by omega⟩
    rw [writeBytes_envelope _ _ _ _ _ (fixedVarintBytes_length 5 _)]
    congr 2
    simp [obSerializeSizeNeedBytes]

theorem serialize_members_eq : ∀ (ms : List UnisValue) (buf : Nat → UInt8) (bufLen pos : Nat),
    membersStrsFit ms = true → pos + (membersBytes ms).length ≤ bufLen →
    serialize_ ms buf bufLen pos = .ok (Lib.writeBytes buf pos (membersBytes ms),pos + (membersBytes ms).length)
  | [], buf, _, pos, _, _ => by
    rw [serialize_,membersBytes,Lib.writeBytes_nil]
    rfl
  | m :: ms, buf, bufLen, pos, hf, h => by
    simp only [membersStrsFit,Bool.and_eq_true] at hf
    simp only [membersBytes,List.length_append] at h ⊢
    rw [serialize_,encode_eq m buf bufLen pos hf.1 (by omega)]
    simp only
    rw [serialize_members_eq ms _ bufLen _ hf.2 (by omega),Lib.writeBytes_append,Nat.add_assoc]

end

/-! ## Decoding reads the bytes of a value back -/

theorem bytesOf_length_pos : ∀ x : UnisValue, 0 < (bytesOf x).length
  | .i64 _ | .i32 _ | .i16 _ | .u16 _ => varintBytes_length_pos _
  | .i8 _ | .bool _ => by simp [bytesOf]
  | .str val => by simp [bytesOf,vstrBytes_length]
  | .unis _ _ => by simp [bytesOf,fixedVarintBytes_length,obSerializeSizeNeedBytes]

theorem slt_ofNat_add {a b c : Nat} (ha : a < 2 ^ 63) (hbc : b + c < 2 ^ 63) :
    (BitVec.ofNat 64 a).slt (BitVec.ofNat 64 b + BitVec.ofNat 64 c) = decide (a < b + c) := by
  rw [BitVec.ofNat_add_ofNat,BitVec.slt_eq_decide,toInt_ofNat_of_lt ha,toInt_ofNat_of_lt hbc]
  norm_cast

theorem deserialize_members_of_le (buf : Nat → UInt8) {dataLen pos : Nat} (h : dataLen ≤ pos) :
    ∀ ms : List UnisValue, deserialize_ ms buf dataLen pos = .ok (ms,pos)
  | [] => rfl
  | m :: ms => by
    rw [deserialize_,if_neg (by omega),deserialize_members_of_le buf h ms]
    rfl

theorem deserialize_members_append_of_ok (buf : Nat → UInt8) (dataLen : Nat) :
    ∀ (ms ns rs : List UnisValue) (pos p : Nat), deserialize_ ms buf dataLen pos = .ok (rs,p) →
      deserialize_ (ms ++ ns) buf dataLen pos = (deserialize_ ns buf dataLen p).map fun r => (rs ++ r.1,r.2)
  | [], ns, rs, pos, p, h => by
    simp only [deserialize_,Except.ok.injEq,Prod.mk.injEq] at h
    obtain ⟨rfl,rfl⟩ := h
    rw [List.nil_append]
    cases deserialize_ ns buf dataLen pos <;> rfl
  | m :: ms, ns, rs, pos, p, h => by
    simp only [List.cons_append,deserialize_] at h ⊢
    by_cases hlt : pos < dataLen
    · rw [if_pos hlt] at h ⊢
      cases hm : decode m buf dataLen pos with
      | error e => rw [hm] at h; exact absurd h nofun
      | ok r =>
        rw [hm] at h
        simp only at h ⊢
        cases hms : deserialize_ ms buf dataLen r.2 with
        | error e => rw [hms] at h; exact absurd h nofun
        | ok r' =>
          rw [hms] at h
          obtain ⟨rfl,rfl⟩ := Prod.mk.inj (Except.ok.inj h)
          rw [deserialize_members_append_of_ok buf dataLen ms ns r'.1 r.2 r'.2 hms]
          cases deserialize_ ns buf dataLen r'.2 <;> rfl
    · rw [if_neg hlt] at h ⊢
      cases hms : deserialize_ ms buf dataLen pos with
      | error e => rw [hms] at h; exact absurd h nofun
      | ok r' =>
        rw [hms] at h
        obtain ⟨rfl,rfl⟩ := Prod.mk.inj (Except.ok.inj h)
        rw [deserialize_members_append_of_ok buf dataLen ms ns r'.1 pos r'.2 hms]
        cases deserialize_ ns buf dataLen r'.2 <;> rfl

theorem decode_unis_of_envelope {version : BitVec 64} {members : List UnisValue} {buf : Nat → UInt8}
    {dataLen pos len : Nat} (hv : Lib.HoldsAt buf pos (varintBytes version.toNat))
    (hf : Lib.HoldsAt buf (pos + (varintBytes version.toNat).length) (fixedVarintBytes obSerializeSizeNeedBytes len))
    (hroom : pos + (varintBytes version.toNat).length + 5 + len % 2 ^ 35 ≤ dataLen) (hd : dataLen < 2 ^ 63) :
    decode (.unis version members) buf dataLen pos =
      (deserialize_ members (fun i => buf (pos + (varintBytes version.toNat).length + 5 + i)) (len % 2 ^ 35) 0).map
        fun r => (.unis version r.1,pos + (varintBytes version.toNat).length + 5 + len % 2 ^ 35) := by
  have hV : decodeVi64 buf dataLen pos = .ok (version,pos + (varintBytes version.toNat).length) :=
    decodeVi64_of_holdsAt hv (by omega)
  have hF : decodeVi64 buf dataLen (pos + (varintBytes version.toNat).length) =
      .ok (BitVec.ofNat 64 (len % 2 ^ 35),pos + (varintBytes version.toNat).length + 5) :=
    decodeVi64_of_fixed hf (by simp only [obSerializeSizeNeedBytes]; omega)
  have hlen : (BitVec.ofNat 64 (len % 2 ^ 35)).toNat = len % 2 ^ 35 := by
    rw [BitVec.toNat_ofNat,Nat.mod_eq_of_lt (by omega)]
  have hcheck : (BitVec.ofNat 64 dataLen).slt (BitVec.ofNat 64 (len % 2 ^ 35) +
      BitVec.ofNat 64 (pos + (varintBytes version.toNat).length + 5)) = false := by
    rw [slt_ofNat_add hd (by omega)]
    simp only [decide_eq_false_iff_not]
    omega
  simp only [decode,hV,hF,ne_eq,not_true_eq_false,if_false,toInt_ofNat_of_lt (show len % 2 ^ 35 < 2 ^ 63 by omega),
    hcheck,hlen]
  rw [if_neg (by omega)]
  cases deserialize_ members (fun i => buf (pos + (varintBytes version.toNat).length + 5 + i)) (len % 2 ^ 35) 0 <;> rfl

theorem decode_unis_of_holdsAt {version : BitVec 64} {members targets : List UnisValue}
    {buf : Nat → UInt8} {dataLen pos : Nat} (hp : (membersBytes members).length < 2 ^ 35)
    (h : Lib.HoldsAt buf pos (bytesOf (.unis version members)))
    (hlen : pos + (bytesOf (.unis version members)).length ≤ dataLen) (hd : dataLen < 2 ^ 63) :
    Lib.HoldsAt (fun i => buf (pos + (varintBytes version.toNat).length + 5 + i)) 0 (membersBytes members) ∧
    decode (.unis version targets) buf dataLen pos =
      (deserialize_ targets (fun i => buf (pos + (varintBytes version.toNat).length + 5 + i))
        (membersBytes members).length 0).map
        fun r => (.unis version r.1,pos + (bytesOf (.unis version members)).length) := by
  have hbytes : (bytesOf (.unis version members)).length =
      (varintBytes version.toNat).length + 5 + (membersBytes members).length := by
    simp [bytesOf,fixedVarintBytes_length,obSerializeSizeNeedBytes]
    omega
  simp only [bytesOf,Lib.holdsAt_append] at h
  obtain ⟨⟨hv,hfix⟩,hm⟩ := h
  simp only [List.length_append,fixedVarintBytes_length,obSerializeSizeNeedBytes] at hm
  have hmod : (BitVec.ofNat 64 (membersBytes members).length).toNat % 2 ^ 35 = (membersBytes members).length := by
    rw [BitVec.toNat_ofNat,Nat.mod_eq_of_lt (show (membersBytes members).length < 2 ^ 64 by omega),
      Nat.mod_eq_of_lt hp]
  rw [hbytes] at hlen ⊢
  refine ⟨Lib.holdsAt_shift.mpr (by simpa [Nat.add_assoc] using hm),?_⟩
  rw [decode_unis_of_envelope hv hfix (by rw [hmod]; omega) hd,hmod]
  simp only [Nat.add_assoc]

mutual

theorem decode_of_holdsAt : ∀ (x y : UnisValue) (buf : Nat → UInt8) (dataLen pos : Nat),
    strsFit x = true → payloadsFit x = true → sameShape y x = true →
    Lib.HoldsAt buf pos (bytesOf x) → pos + (bytesOf x).length ≤ dataLen → dataLen < 2 ^ 63 →
    decode y buf dataLen pos = .ok (x,pos + (bytesOf x).length)
  | .i64 val, y, buf, dataLen, pos, _, _, hs, h, hlen, _ => by
    cases y <;> simp only [sameShape,Bool.false_eq_true] at hs
    simp [decode,decodeVi64_of_holdsAt h hlen,Except.map,bytesOf]
  | .i32 val, y, buf, dataLen, pos, _, _, hs, h, hlen, _ => by
    cases y <;> simp only [sameShape,Bool.false_eq_true] at hs
    simp [decode,decodeVi32_of_holdsAt h hlen,Except.map,bytesOf]
  | .i16 val, y, buf, dataLen, pos, _, _, hs, h, hlen, _ => by
    cases y <;> simp only [sameShape,Bool.false_eq_true] at hs
    simp [decode,decodeVi32_of_holdsAt h hlen,Except.map,setWidth_signExtend,bytesOf]
  | .u16 val, y, buf, dataLen, pos, _, _, hs, h, hlen, _ => by
    cases y <;> simp only [sameShape,Bool.false_eq_true] at hs
    simp [decode,decodeVi32_of_holdsAt h hlen,Except.map,bytesOf]
  | .i8 val, y, buf, dataLen, pos, _, _, hs, h, hlen, _ => by
    cases y <;> simp only [sameShape,Bool.false_eq_true] at hs
    simp [decode,decodeI8_of_holdsAt h hlen,Except.map,bytesOf]
  | .bool val, y, buf, dataLen, pos, _, _, hs, h, hlen, _ => by
    cases y <;> simp only [sameShape,Bool.false_eq_true] at hs
    simp [decode,decodeBool_of_holdsAt h hlen,Except.map,bytesOf]
  | .str val, y, buf, dataLen, pos, hf, _, hs, h, hlen, _ => by
    cases y <;> simp only [sameShape,Bool.false_eq_true] at hs
    simp only [strsFit,decide_eq_true_eq] at hf
    simp [decode,ObString.deserialize_of_holdsAt hf h hlen,Except.map,bytesOf]
  | .unis version members, y, buf, dataLen, pos, hf, hp, hs, h, hlen, hd => by
    cases y <;> simp only [sameShape,Bool.false_eq_true] at hs
    next version' members' =>
    simp only [Bool.and_eq_true,beq_iff_eq] at hs
    obtain ⟨rfl,hs⟩ := hs
    simp only [strsFit] at hf
    simp only [payloadsFit,Bool.and_eq_true,decide_eq_true_eq] at hp
    obtain ⟨hwin,hdec⟩ := decode_unis_of_holdsAt hp.1 h hlen hd
    rw [hdec,deserialize_members_of_holdsAt members members' _ _ 0 hf hp.2 hs hwin (by omega) (by omega)]
    rfl

theorem deserialize_members_of_holdsAt : ∀ (xs ys : List UnisValue) (buf : Nat → UInt8) (dataLen pos : Nat),
    membersStrsFit xs = true → membersPayloadsFit xs = true → sameShapes ys xs = true →
    Lib.HoldsAt buf pos (membersBytes xs) → pos + (membersBytes xs).length ≤ dataLen → dataLen < 2 ^ 63 →
    deserialize_ ys buf dataLen pos = .ok (xs,pos + (membersBytes xs).length)
  | [], ys, _, _, _, _, _, hs, _, _, _ => by
    cases ys <;> simp only [sameShapes,Bool.false_eq_true] at hs
    rfl
  | x :: xs, ys, buf, dataLen, pos, hf, hp, hs, h, hlen, hd => by
    cases ys <;> simp only [sameShapes,Bool.false_eq_true] at hs
    next y ys =>
    simp only [Bool.and_eq_true] at hs
    simp only [membersStrsFit,Bool.and_eq_true] at hf
    simp only [membersPayloadsFit,Bool.and_eq_true] at hp
    simp only [membersBytes,Lib.holdsAt_append,List.length_append] at h hlen ⊢
    have hpos := bytesOf_length_pos x
    rw [deserialize_,if_pos (by omega),decode_of_holdsAt x y buf dataLen pos hf.1 hp.1 hs.1 h.1 (by omega) hd]
    simp only
    rw [deserialize_members_of_holdsAt xs ys buf dataLen _ hf.2 hp.2 hs.2 h.2 (by omega) hd]
    simp only [Except.map,Nat.add_assoc]

end

theorem membersBytes_append : ∀ xs es : List UnisValue,
    membersBytes (xs ++ es) = membersBytes xs ++ membersBytes es
  | [], _ => rfl
  | x :: xs, es => by rw [List.cons_append,membersBytes,membersBytes,membersBytes_append xs es,List.append_assoc]

theorem membersStrsFit_append : ∀ xs es : List UnisValue,
    membersStrsFit (xs ++ es) = (membersStrsFit xs && membersStrsFit es)
  | [], _ => rfl
  | x :: xs, es => by rw [List.cons_append,membersStrsFit,membersStrsFit,membersStrsFit_append xs es,Bool.and_assoc]

theorem membersPayloadsFit_append : ∀ xs es : List UnisValue,
    membersPayloadsFit (xs ++ es) = (membersPayloadsFit xs && membersPayloadsFit es)
  | [], _ => rfl
  | x :: xs, es => by
    rw [List.cons_append,membersPayloadsFit,membersPayloadsFit,membersPayloadsFit_append xs es,Bool.and_assoc]

/-! ## Round trip and compatibility -/

/-- The unified serialization round trip for values whose structs' payloads fit their five-byte
lengths: with room for `encoded_length` bytes, `encode` succeeds and moves `pos` by exactly that
many, and decoding at the old `pos` into any value of the same type reads the value back and moves
`pos` as far. -/
theorem decode_encode_of_payloadsFit (x y : UnisValue) (buf : Nat → UInt8) (bufLen pos : Nat)
    (hstr : strsFit x = true) (hpay : payloadsFit x = true) (hshape : sameShape y x = true)
    (hroom : pos + encodedLength x ≤ bufLen) :
    ∃ buf', encode x buf bufLen pos = .ok (buf',pos + encodedLength x) ∧
      ∀ dataLen, pos + encodedLength x ≤ dataLen → dataLen < 2 ^ 63 →
        decode y buf' dataLen pos = .ok (x,pos + encodedLength x) := by
  rw [encodedLength_eq x hstr] at hroom ⊢
  refine ⟨_,encode_eq x buf bufLen pos hstr hroom,fun dataLen hlen hd => ?_⟩
  exact decode_of_holdsAt x y _ dataLen pos hstr hpay hshape (Lib.holdsAt_writeBytes _ _ _) hlen hd

/-- A struct of every member kind, with a nested struct, and a value of its type to decode into. -/
def sampleStruct : UnisValue :=
  .unis 1 [.i64 (-1),.i16 (-2),.u16 65535,.str [104,105],.bool true,.unis 2 [.i32 300,.i8 7]]

def sampleTarget : UnisValue :=
  .unis 1 [.i64 0,.i16 0,.u16 0,.str [],.bool false,.unis 2 [.i32 0,.i8 0]]

theorem decode_encode_sampleStruct :
    ∃ buf', encode sampleStruct (fun _ => 0) 64 0 = .ok (buf',0 + encodedLength sampleStruct) ∧
      ∀ dataLen, 0 + encodedLength sampleStruct ≤ dataLen → dataLen < 2 ^ 63 →
        decode sampleTarget buf' dataLen 0 = .ok (sampleStruct,0 + encodedLength sampleStruct) :=
  decode_encode_of_payloadsFit sampleStruct sampleTarget (fun _ => 0) 64 0 (by decide +kernel)
    (by decide +kernel) (by decide +kernel) (by decide +kernel)

/-- Forward and backward compatibility of two `OB_UNIS` structs of one version, `S` with members
of the types of `ys` and `S'` with the members of `S` followed by members of the types of `zs`,
for values whose structs' payloads fit their lengths. `S` reads an encoding of `S'`: it sets
its members to the first members of the value and moves past the whole encoding. `S'` reads an
encoding of `S`: it sets the members of `S` to the value's, leaves its trailing members `zs` as
they were, and moves past the encoding of `S`. -/
theorem deserialize_extended_members (version : BitVec 64) (ys zs : List UnisValue) (buf : Nat → UInt8)
    (bufLen pos : Nat) :
    (∀ xs es : List UnisValue, sameShapes ys xs = true → sameShapes zs es = true →
      strsFit (.unis version (xs ++ es)) = true → payloadsFit (.unis version (xs ++ es)) = true →
      pos + getSerializeSize version (xs ++ es) ≤ bufLen →
      ∃ buf', serialize version (xs ++ es) buf bufLen pos = .ok (buf',pos + getSerializeSize version (xs ++ es)) ∧
        ∀ dataLen, pos + getSerializeSize version (xs ++ es) ≤ dataLen → dataLen < 2 ^ 63 →
          deserialize version ys buf' dataLen pos =
            .ok (.unis version xs,pos + getSerializeSize version (xs ++ es))) ∧
    (∀ xs : List UnisValue, sameShapes ys xs = true →
      strsFit (.unis version xs) = true → payloadsFit (.unis version xs) = true →
      pos + getSerializeSize version xs ≤ bufLen →
      ∃ buf', serialize version xs buf bufLen pos = .ok (buf',pos + getSerializeSize version xs) ∧
        ∀ dataLen, pos + getSerializeSize version xs ≤ dataLen → dataLen < 2 ^ 63 →
          deserialize version (ys ++ zs) buf' dataLen pos =
            .ok (.unis version (xs ++ zs),pos + getSerializeSize version xs)) := by
  refine ⟨fun xs es hys _ hstr hpay hroom => ?_,fun xs hys hstr hpay hroom => ?_⟩
  · simp only [getSerializeSize,serialize,deserialize] at hroom ⊢
    rw [encodedLength_eq _ hstr] at hroom ⊢
    refine ⟨_,encode_eq _ buf bufLen pos hstr hroom,fun dataLen hlen hd => ?_⟩
    have hp := hpay
    simp only [payloadsFit,Bool.and_eq_true,decide_eq_true_eq,membersPayloadsFit_append] at hp
    simp only [strsFit,membersStrsFit_append,Bool.and_eq_true] at hstr
    obtain ⟨hwin,hdec⟩ := decode_unis_of_holdsAt hp.1 (Lib.holdsAt_writeBytes buf pos _) hlen hd
    rw [membersBytes_append,Lib.holdsAt_append] at hwin
    have hxs := deserialize_members_of_holdsAt xs ys _ (membersBytes (xs ++ es)).length 0 hstr.1 hp.2.1 hys
      hwin.1 (by rw [membersBytes_append,List.length_append]; omega) (by omega)
    rw [hdec,hxs]
    rfl
  · simp only [getSerializeSize,serialize,deserialize] at hroom ⊢
    rw [encodedLength_eq _ hstr] at hroom ⊢
    refine ⟨_,encode_eq _ buf bufLen pos hstr hroom,fun dataLen hlen hd => ?_⟩
    have hp := hpay
    simp only [payloadsFit,Bool.and_eq_true,decide_eq_true_eq] at hp
    simp only [strsFit] at hstr
    obtain ⟨hwin,hdec⟩ := decode_unis_of_holdsAt hp.1 (Lib.holdsAt_writeBytes buf pos _) hlen hd
    have hxs := deserialize_members_of_holdsAt xs ys _ (membersBytes xs).length 0 hstr hp.2 hys
      hwin (by omega) (by omega)
    rw [hdec,deserialize_members_append_of_ok _ _ ys zs xs 0 _ hxs,
      deserialize_members_of_le _ (by omega) zs]
    rfl

/-- The members of an older struct `S`, an `int64_t` and an `ObString`, as a value and as the
target an `S` decodes into. -/
def olderMembers : List UnisValue := [.i64 5,.str [104,105]]

def olderTargets : List UnisValue := [.i64 0,.str []]

/-- The members a newer `S'` appends to `S`: a `bool` and a nested struct, as a value and as the
target an `S'` decodes into. -/
def newerMembers : List UnisValue := [.bool true,.unis 2 [.i32 300]]

def newerTargets : List UnisValue := [.bool false,.unis 2 [.i32 0]]

/-- `S` reads an encoding of `S'`, and `S'` reads an encoding of `S`. -/
theorem deserialize_extended_members_both_ways :
    (∃ buf', serialize 1 (olderMembers ++ newerMembers) (fun _ => 0) 32 0 =
        .ok (buf',0 + getSerializeSize 1 (olderMembers ++ newerMembers)) ∧
      deserialize 1 olderTargets buf' 32 0 =
        .ok (.unis 1 olderMembers,0 + getSerializeSize 1 (olderMembers ++ newerMembers))) ∧
    ∃ buf', serialize 1 olderMembers (fun _ => 0) 32 0 =
        .ok (buf',0 + getSerializeSize 1 olderMembers) ∧
      deserialize 1 (olderTargets ++ newerTargets) buf' 32 0 =
        .ok (.unis 1 (olderMembers ++ newerTargets),0 + getSerializeSize 1 olderMembers) := by
  obtain ⟨hnew,hold⟩ := deserialize_extended_members 1 olderTargets newerTargets (fun _ => 0) 32 0
  obtain ⟨buf₁,henc₁,hdec₁⟩ := hnew olderMembers newerMembers (by decide) (by decide) (by decide +kernel)
    (by decide +kernel) (by decide +kernel)
  obtain ⟨buf₂,henc₂,hdec₂⟩ := hold olderMembers (by decide) (by decide +kernel) (by decide +kernel)
    (by decide +kernel)
  exact ⟨⟨buf₁,henc₁,hdec₁ 32 (by decide +kernel) (by decide)⟩,
    buf₂,henc₂,hdec₂ 32 (by decide +kernel) (by decide)⟩

/-! ## Payloads past the five-byte length -/

theorem holdsAt_members_of_unis {version : BitVec 64} {members : List UnisValue} {buf : Nat → UInt8}
    {pos : Nat} (h : Lib.HoldsAt buf pos (bytesOf (.unis version members))) :
    Lib.HoldsAt (fun i => buf (pos + (varintBytes version.toNat).length + 5 + i)) 0 (membersBytes members) := by
  simp only [bytesOf,Lib.holdsAt_append,List.length_append,fixedVarintBytes_length,obSerializeSizeNeedBytes] at h
  exact Lib.holdsAt_shift.mpr (by simpa [Nat.add_assoc] using h.2)

theorem decode_unis_of_holdsAt_mod {version : BitVec 64} {members targets : List UnisValue}
    {buf : Nat → UInt8} {dataLen pos : Nat} (h : Lib.HoldsAt buf pos (bytesOf (.unis version members)))
    (hlen : pos + (bytesOf (.unis version members)).length ≤ dataLen) (hd : dataLen < 2 ^ 63) :
    decode (.unis version targets) buf dataLen pos =
      (deserialize_ targets (fun i => buf (pos + (varintBytes version.toNat).length + 5 + i))
        ((membersBytes members).length % 2 ^ 35) 0).map
        fun r => (.unis version r.1,
          pos + (varintBytes version.toNat).length + 5 + (membersBytes members).length % 2 ^ 35) := by
  have hbytes : (bytesOf (.unis version members)).length =
      (varintBytes version.toNat).length + 5 + (membersBytes members).length := by
    simp [bytesOf,fixedVarintBytes_length,obSerializeSizeNeedBytes]
    omega
  have hmod : (BitVec.ofNat 64 (membersBytes members).length).toNat % 2 ^ 35 =
      (membersBytes members).length % 2 ^ 35 := by
    rw [BitVec.toNat_ofNat,Nat.mod_mod_of_dvd _ (Nat.pow_dvd_pow 2 (by omega))]
  have hL := Nat.mod_le (membersBytes members).length (2 ^ 35)
  simp only [bytesOf,Lib.holdsAt_append] at h
  rw [decode_unis_of_envelope h.1.1 h.1.2 (by rw [hmod]; omega) hd,hmod]

def longStr : List UInt8 := List.replicate (2 ^ 31 - 1) 0

/-- A struct of seventeen longest strings. Its payload of `17 * (2 ^ 31 + 5)` bytes is past the
`2 ^ 35` that a five-byte length carries. -/
def longPayload : UnisValue := .unis 1 (List.replicate 17 (.str longStr))

theorem membersBytes_replicate_length (x : UnisValue) :
    ∀ k, (membersBytes (List.replicate k x)).length = k * (bytesOf x).length
  | 0 => by simp [membersBytes]
  | k + 1 => by
    rw [List.replicate_succ,membersBytes,List.length_append,membersBytes_replicate_length x k,Nat.succ_mul]
    omega

theorem membersStrsFit_replicate {x : UnisValue} (hx : strsFit x = true) :
    ∀ k, membersStrsFit (List.replicate k x) = true
  | 0 => rfl
  | k + 1 => by rw [List.replicate_succ,membersStrsFit,hx,membersStrsFit_replicate hx k]; rfl

theorem varintBytes_longStr_length : (varintBytes longStr.length).length = 5 := by
  have hlen : longStr.length = 2 ^ 31 - 1 := List.length_replicate
  have h5 := (varintBytes_length_le_iff (k := 5) (by omega) longStr.length).mpr
    (by rw [hlen]; simp only [obMaxVB]; norm_num)
  have h4 := (varintBytes_length_le_iff (k := 4) (by omega) longStr.length).not.mpr
    (by rw [hlen]; simp only [obMaxVB]; norm_num)
  omega

theorem bytesOf_longStr_length : (bytesOf (.str longStr)).length = 2 ^ 31 + 5 := by
  rw [bytesOf,vstrBytes_length,varintBytes_longStr_length,longStr,List.length_replicate]
  norm_num

theorem membersBytes_longPayload_length :
    (membersBytes (List.replicate 17 (.str longStr))).length = 36507222101 := by
  rw [membersBytes_replicate_length,bytesOf_longStr_length]
  norm_num

theorem varintBytes_one_length : (varintBytes (BitVec.toNat (1 : BitVec 64))).length = 1 := by
  rw [varintBytes_of_le (by simp [obMaxVB])]
  rfl

theorem bytesOf_longPayload_length : (bytesOf longPayload).length = 36507222107 := by
  rw [longPayload,bytesOf,List.length_append,List.length_append,varintBytes_one_length,
    fixedVarintBytes_length,membersBytes_longPayload_length]
  rfl

theorem strsFit_longStr : strsFit (.str longStr) = true := by
  rw [strsFit,decide_eq_true_eq,longStr,List.length_replicate]
  norm_num

theorem strsFit_longPayload : strsFit longPayload = true := by
  rw [longPayload,strsFit]
  exact membersStrsFit_replicate strsFit_longStr 17

theorem encode_longPayload :
    encode longPayload (fun _ => 0) 36507222107 0 =
      .ok (Lib.writeBytes (fun _ => 0) 0 (bytesOf longPayload),36507222107) := by
  rw [encode_eq longPayload _ _ 0 strsFit_longPayload (by rw [bytesOf_longPayload_length]),
    bytesOf_longPayload_length]

theorem decode_longPayload_window (targets : List UnisValue) :
    decode (.unis 1 targets) (Lib.writeBytes (fun _ => 0) 0 (bytesOf longPayload)) 36507222107 0 =
      (deserialize_ targets (fun i => Lib.writeBytes (fun _ => 0) 0 (bytesOf longPayload) (0 + 1 + 5 + i))
        2147483733 0).map fun r => (.unis 1 r.1,2147483739) := by
  have h : decode (.unis 1 targets) (Lib.writeBytes (fun _ => 0) 0 (bytesOf longPayload)) 36507222107 0 = _ :=
    decode_unis_of_holdsAt_mod (Lib.holdsAt_writeBytes (fun _ => 0) 0 (bytesOf longPayload))
    (by rw [Nat.zero_add]; exact bytesOf_longPayload_length.le) (by norm_num)
  rw [varintBytes_one_length,membersBytes_longPayload_length] at h
  exact h

theorem holdsAt_longPayload_window :
    Lib.HoldsAt (fun i => Lib.writeBytes (fun _ => 0) 0 (bytesOf longPayload) (0 + 1 + 5 + i)) 0
      (bytesOf (.str longStr) ++ (bytesOf (.str longStr) ++ membersBytes (List.replicate 15 (.str longStr)))) := by
  have h := holdsAt_members_of_unis (Lib.holdsAt_writeBytes (fun _ => 0) 0 (bytesOf longPayload))
  rw [varintBytes_one_length] at h
  exact h

theorem decode_longPayload_first (val : List UInt8) :
    decode (.str val) (fun i => Lib.writeBytes (fun _ => 0) 0 (bytesOf longPayload) (0 + 1 + 5 + i))
      2147483733 0 = .ok (.str longStr,2147483653) := by
  have hwin := holdsAt_longPayload_window
  rw [Lib.holdsAt_append] at hwin
  have h := decode_of_holdsAt (.str longStr) (.str val) _ 2147483733 0 strsFit_longStr rfl rfl
    hwin.1 (by rw [bytesOf_longStr_length]; norm_num) (by norm_num)
  rwa [bytesOf_longStr_length] at h

theorem decode_longPayload_second (val : List UInt8) :
    decode (.str val) (fun i => Lib.writeBytes (fun _ => 0) 0 (bytesOf longPayload) (0 + 1 + 5 + i))
      2147483733 2147483653 = .error .error := by
  have hwin := holdsAt_longPayload_window
  rw [Lib.holdsAt_append,Lib.holdsAt_append,bytesOf_longStr_length,
    show 0 + (2 ^ 31 + 5) = 2147483653 by norm_num] at hwin
  have hsecond := hwin.2.1
  rw [show bytesOf (.str longStr) = vstrBytes longStr from rfl,vstrBytes,Lib.holdsAt_append,
    Lib.holdsAt_append] at hsecond
  have hd : ObString.deserialize _ 2147483733 2147483653 = .error .error :=
    ObString.deserialize_of_gt (by rw [longStr,List.length_replicate]; norm_num) hsecond.1.1
      (by rw [varintBytes_longStr_length]; norm_num)
      (by rw [varintBytes_longStr_length,longStr,List.length_replicate]; norm_num)
  simp only [decode]
  rw [hd]
  rfl

/-- A struct whose payload is past `2 ^ 35` bytes does not round-trip: `encode` writes it whole,
and decoding it back stops its members at the length read modulo `2 ^ 35`, inside the second
string, which that length cuts short; it fails with `OB_ERROR`. -/
theorem decode_encode_longPayload :
    strsFit longPayload = true ∧ encodedLength longPayload = 36507222107 ∧
      ∃ buf', encode longPayload (fun _ => 0) 36507222107 0 = .ok (buf',36507222107) ∧
        decode longPayload buf' 36507222107 0 = .error .error := by
  refine ⟨strsFit_longPayload,?_,_,encode_longPayload,?_⟩
  · rw [encodedLength_eq _ strsFit_longPayload,bytesOf_longPayload_length]
  show decode (.unis 1 (List.replicate 17 (.str longStr))) _ _ _ = _
  rw [decode_longPayload_window,List.replicate_succ,List.replicate_succ,deserialize_,
    if_pos (by norm_num),decode_longPayload_first]
  dsimp only
  rw [deserialize_,if_pos (by norm_num),decode_longPayload_second]
  rfl

/-- A reader of one string member, of the same version, on the encoding of `longPayload`: it
reads the first string and moves `pos` to `2147483739`, short of the encoding's end. -/
theorem deserialize_longPayload_prefix :
    getSerializeSize 1 (List.replicate 17 (.str longStr)) = 36507222107 ∧
      ∃ buf', serialize 1 (List.replicate 17 (.str longStr)) (fun _ => 0) 36507222107 0 = .ok (buf',36507222107) ∧
        deserialize 1 [.str []] buf' 36507222107 0 = .ok (.unis 1 [.str longStr],2147483739) := by
  refine ⟨?_,_,encode_longPayload,?_⟩
  · rw [getSerializeSize,← longPayload,encodedLength_eq _ strsFit_longPayload,bytesOf_longPayload_length]
  rw [deserialize,decode_longPayload_window,deserialize_,if_pos (by norm_num),decode_longPayload_first]
  rfl

end Unis
end Common
end OceanBase
