import OceanBase.Palf.LogGroupTruncate

/-! The two PALF headers as they are stored: `serialize` and `deserialize` of `LogEntryHeader`
and of `LogGroupEntryHeader`, and the calls that set a group header's fields after `generate`.

A header that passes `check_header_integrity` is read back from its serialization. The parity
bit in `flag_` catches the flip of any one bit of the serialized header but one: the SCN is
stored as a plain `int64_t`, and `transform_max_` reads `INT64_MAX` as `OB_MAX_SCN_TS_NS`, so a
largest SCN with bit 62 flipped reads back as itself. -/
namespace OceanBase
namespace Palf

open Common Serialization

/-! ## The stored parity bit -/

theorem parityBit_beq_eq_false {p p' : Bool} {f f' : BitVec 64}
    (hc : ((if p then (1 : BitVec 64) else 0) == f &&& 1) = true)
    (hne : (p' = !p ∧ f' &&& 1 = f &&& 1) ∨ (p' = p ∧ f' &&& 1 = (f &&& 1) ^^^ 1)) :
    ((if p' then (1 : BitVec 64) else 0) == f' &&& 1) = false := by
  rw [beq_iff_eq] at hc
  rcases hne with ⟨hp,hf⟩ | ⟨hp,hf⟩ <;> rw [hp,hf,← hc] <;> cases p <;> decide

theorem and_xor_distrib_right {w : Nat} (a b c : BitVec w) :
    (a ^^^ b) &&& c = (a &&& c) ^^^ (b &&& c) := by
  apply BitVec.eq_of_getElem_eq
  intro i hi
  simp only [BitVec.getElem_and,BitVec.getElem_xor,Bool.and_xor_distrib_right]

theorem flag_xor_twoPow_zero (f : BitVec 64) :
    (f ^^^ BitVec.twoPow 64 0) &&& ~~~1 = f &&& ~~~1 ∧
      (f ^^^ BitVec.twoPow 64 0) &&& 1 = (f &&& 1) ^^^ 1 := by
  rw [and_xor_distrib_right,and_xor_distrib_right]
  rw [show BitVec.twoPow 64 0 &&& ~~~1 = 0 by decide,show BitVec.twoPow 64 0 &&& 1 = 1 by decide]
  simp

theorem flag_xor_twoPow_of_pos (f : BitVec 64) {e : Nat} (he : e < 64) (hpos : 0 < e) :
    (f ^^^ BitVec.twoPow 64 e) &&& ~~~1 = (f &&& ~~~1) ^^^ BitVec.twoPow 64 e ∧
      (f ^^^ BitVec.twoPow 64 e) &&& 1 = f &&& 1 := by
  have hbits : ∀ e < 64, 0 < e →
      BitVec.twoPow 64 e &&& ~~~1 = BitVec.twoPow 64 e ∧ BitVec.twoPow 64 e &&& 1 = 0 := by
    decide +kernel
  obtain ⟨h1,h2⟩ := hbits e he hpos
  rw [and_xor_distrib_right,and_xor_distrib_right,h1,h2]
  simp

/-- What a header codec promises of a header `h` serialized as `size` bytes at `pos` of `buf`:
`deserialize` reads it back whole, and with bit `b` of the byte at `q` flipped it fails with
`OB_INVALID_DATA`, reading back `h` itself where `undetected q b` and never another header. -/
def ReadsBack {α : Type} (deserialize : (Nat → UInt8) → Nat → Nat → Except ObErr (α × Nat))
    (buf : Nat → UInt8) (pos size : Nat) (h : α) (undetected : Nat → Nat → Prop)
    [∀ q b, Decidable (undetected q b)] : Prop :=
  (∀ dataLen, pos + size ≤ dataLen → deserialize buf dataLen pos = .ok (h,pos + size)) ∧
    ∀ q b dataLen, pos ≤ q → q < pos + size → b < 8 → pos + size ≤ dataLen →
      deserialize (Lib.flipBit buf q b) dataLen pos =
        if undetected q b then .ok (h,pos + size) else .error .invalidData

namespace LogEntryHeader

/-! ## `LogEntryHeader` -/

/-- The 32 bytes of `buf` at `pos` hold the fields of `h` as `serialize` writes them. -/
structure Serialized (buf : Nat → UInt8) (pos : Nat) (h : LogEntryHeader) : Prop where
  magic : Lib.beRead buf pos 2 = h.magic.toNat
  version : Lib.beRead buf (pos + 2) 2 = h.version.toNat
  logSize : Lib.beRead buf (pos + 4) 4 = h.logSize.toNat
  scn : Lib.beRead buf (pos + 8) 8 = h.scn.toNat
  dataChecksum : Lib.beRead buf (pos + 16) 8 = h.dataChecksum.toNat
  flag : Lib.beRead buf (pos + 24) 8 = h.flag.toNat

inductive FieldFlip (h : LogEntryHeader) : LogEntryHeader → Prop
  | magic {e : Nat} : e < 16 → FieldFlip h { h with magic := h.magic ^^^ BitVec.twoPow 16 e }
  | version {e : Nat} : e < 16 → FieldFlip h { h with version := h.version ^^^ BitVec.twoPow 16 e }
  | logSize {e : Nat} : e < 32 → FieldFlip h { h with logSize := h.logSize ^^^ BitVec.twoPow 32 e }
  | scn {e : Nat} : e < 64 → FieldFlip h { h with scn := h.scn ^^^ BitVec.twoPow 64 e }
  | dataChecksum {e : Nat} : e < 64 →
      FieldFlip h { h with dataChecksum := h.dataChecksum ^^^ BitVec.twoPow 64 e }
  | flag {e : Nat} : e < 64 → FieldFlip h { h with flag := h.flag ^^^ BitVec.twoPow 64 e }

theorem isValid_updateHeaderChecksum_ (h : LogEntryHeader) :
    h.updateHeaderChecksum_.isValid = h.isValid := by
  unfold updateHeaderChecksum_
  split <;> rfl

theorem checkHeaderChecksum_updateHeaderChecksum_ {h : LogEntryHeader} (h0 : h.flag &&& 1 = 0) :
    h.updateHeaderChecksum_.checkHeaderChecksum_ = true := by
  unfold updateHeaderChecksum_
  split
  · next hp =>
    have hmask : (h.flag ||| 1) &&& ~~~1 = h.flag &&& ~~~1 := by
      rw [BitVec.and_or_distrib_right,show (1 : BitVec 64) &&& ~~~1 = 0 by decide]
      simp
    have hbit : (h.flag ||| 1) &&& 1 = 1 := by
      rw [BitVec.and_or_distrib_right,h0]
      decide
    have hpar : ({ h with flag := h.flag ||| 1 } : LogEntryHeader).getHeaderParityCheckRes_ = true := by
      simp only [getHeaderParityCheckRes_,hmask] at hp ⊢
      exact hp
    simp only [checkHeaderChecksum_,hpar,hbit,if_true]
    rfl
  · next hp =>
    simp only [checkHeaderChecksum_,hp,h0,if_false,Bool.false_eq_true]
    rfl

theorem checkHeaderIntegrity_generateHeader {crc : ObCrc64} {h₀ h : LogEntryHeader}
    {logData : Nat → UInt8} {dataLen : Nat} {scn : BitVec 64}
    (hgen : generateHeader crc h₀ logData dataLen scn = .ok h) (h0 : h₀.flag &&& 1 = 0)
    (hlen : dataLen < 2 ^ 31) : h.checkHeaderIntegrity = true := by
  simp only [generateHeader] at hgen
  split_ifs at hgen with hargs
  obtain rfl := Except.ok.inj hgen
  simp only [not_or,Bool.not_eq_false] at hargs
  have hvalid : isValid { h₀ with
      magic := headerMagic, version := logEntryHeaderVersion, logSize := BitVec.ofNat 32 dataLen,
      scn := scn, dataChecksum := crc 0 logData dataLen } = true := by
    simp only [isValid,toInt_ofNat_32_of_lt hlen,hargs.2,beq_self_eq_true,Bool.true_and,Bool.and_true,
      decide_eq_true_eq]
    omega
  simp only [checkHeaderIntegrity,isValid_updateHeaderChecksum_,hvalid,Bool.true_and]
  exact checkHeaderChecksum_updateHeaderChecksum_ h0

theorem checkHeaderIntegrity_generatePaddingHeader_ {crc : ObCrc64} {h₀ h : LogEntryHeader}
    {logData : Nat → UInt8} {baseHeaderLen paddingDataLen : Nat} {scn : BitVec 64}
    (hgen : generatePaddingHeader_ crc h₀ logData baseHeaderLen paddingDataLen scn = .ok h)
    (h0 : h₀.flag &&& 1 = 0) (hlen : paddingDataLen < 2 ^ 31) : h.checkHeaderIntegrity = true := by
  simp only [generatePaddingHeader_] at hgen
  split_ifs at hgen with hargs
  obtain rfl := Except.ok.inj hgen
  simp only [not_or,Bool.not_eq_false] at hargs
  have hvalid : isValid { h₀ with
      magic := headerMagic, version := logEntryHeaderVersion,
      logSize := BitVec.ofNat 32 paddingDataLen, scn := scn,
      dataChecksum := crc 0 logData baseHeaderLen, flag := h₀.flag ||| paddingTypeMask } = true := by
    simp only [isValid,toInt_ofNat_32_of_lt hlen,hargs.2.2,beq_self_eq_true,Bool.true_and,Bool.and_true,
      decide_eq_true_eq]
    omega
  have hbit : (h₀.flag ||| paddingTypeMask) &&& 1 = 0 := by
    rw [BitVec.and_or_distrib_right,h0]
    decide
  simp only [checkHeaderIntegrity,isValid_updateHeaderChecksum_,hvalid,Bool.true_and]
  exact checkHeaderChecksum_updateHeaderChecksum_ hbit

theorem getSerializeSize_eq (h : LogEntryHeader) : h.getSerializeSize = LogEntryHeader.headerSerSize :=
  rfl

theorem serialize_of_le (h : LogEntryHeader) (buf : Nat → UInt8) {bufLen pos : Nat}
    (hroom : pos + LogEntryHeader.headerSerSize ≤ bufLen) :
    ∃ buf', h.serialize buf bufLen pos = .ok (buf',pos + LogEntryHeader.headerSerSize) ∧
      Serialized buf' pos h := by
  simp only [LogEntryHeader.headerSerSize] at hroom ⊢
  have hne : bufLen ≠ 0 := by omega
  simp (disch := omega) only [serialize,if_neg hne,encodeI16,encodeI32,encodeI64,
    Share.SCN.fixedSerialize,encodeFixedWidth_of_le,bind,Except.bind,Nat.add_assoc]
  refine ⟨_,rfl,?_⟩
  constructor <;>
    simp (disch := omega) only [Lib.beRead_beWrite_of_le,Lib.beRead_beWrite] <;>
    exact Nat.mod_eq_of_lt (BitVec.isLt _)

theorem decode_of_serialized {buf : Nat → UInt8} {pos : Nat} {h : LogEntryHeader}
    (hs : Serialized buf pos h) (hv : scnIsValid h.scn.toNat = true) : decode buf pos = h := by
  simp only [decode,hs.magic,hs.version,hs.logSize,hs.scn,hs.dataChecksum,hs.flag,
    BitVec.ofNat_toNat,BitVec.setWidth_eq,Share.SCN.transformMax_of_valid hv]

theorem FieldFlip.checkHeaderChecksum_eq_false {h h' : LogEntryHeader} (hf : h.FieldFlip h')
    (hc : h.checkHeaderChecksum_ = true) : h'.checkHeaderChecksum_ = false := by
  unfold checkHeaderChecksum_ at hc ⊢
  apply parityBit_beq_eq_false hc
  cases hf with
  | magic he => exact .inl ⟨by simp [getHeaderParityCheckRes_,parityCheck16_xor_twoPow _ he],rfl⟩
  | version he => exact .inl ⟨by simp [getHeaderParityCheckRes_,parityCheck16_xor_twoPow _ he],rfl⟩
  | logSize he => exact .inl ⟨by simp [getHeaderParityCheckRes_,parityCheck32_xor_twoPow _ he],rfl⟩
  | scn he => exact .inl ⟨by simp [getHeaderParityCheckRes_,parityCheck64_xor_twoPow _ he],rfl⟩
  | dataChecksum he =>
    exact .inl ⟨by simp [getHeaderParityCheckRes_,parityCheck64_xor_twoPow _ he],rfl⟩
  | @flag e he =>
    rcases Nat.eq_zero_or_pos e with rfl | hpos
    · obtain ⟨hmask,hbit⟩ := flag_xor_twoPow_zero h.flag
      exact .inr ⟨by simp only [getHeaderParityCheckRes_,hmask],hbit⟩
    · obtain ⟨hmask,hbit⟩ := flag_xor_twoPow_of_pos h.flag he hpos
      exact .inl ⟨by simp only [getHeaderParityCheckRes_,hmask,parityCheck64_xor_twoPow _ he,
        Bool.xor_not],hbit⟩

theorem decode_flipBit {buf : Nat → UInt8} {pos q b : Nat} {h : LogEntryHeader}
    (hs : Serialized buf pos h) (hv : scnIsValid h.scn.toNat = true) (hp : pos ≤ q)
    (hq : q < pos + LogEntryHeader.headerSerSize) (hb : b < 8) :
    if h.scn.toNat = obMaxScnTsNs ∧ q = pos + 8 ∧ b = 6 then decode (Lib.flipBit buf q b) pos = h
    else h.FieldFlip (decode (Lib.flipBit buf q b) pos) := by
  simp only [LogEntryHeader.headerSerSize] at hq
  rcases (by omega : q < pos + 2 ∨ (pos + 2 ≤ q ∧ q < pos + 4) ∨ (pos + 4 ≤ q ∧ q < pos + 8) ∨
      (pos + 8 ≤ q ∧ q < pos + 16) ∨ (pos + 16 ≤ q ∧ q < pos + 24) ∨ pos + 24 ≤ q)
    with hw | hw | hw | hw | hw | hw
  · rw [if_neg (by omega)]
    have hd : decode (Lib.flipBit buf q b) pos =
        { h with magic := h.magic ^^^ BitVec.twoPow 16 (8 * (pos + 2 - 1 - q) + b) } := by
      simp (disch := omega) only [decode,Lib.beRead_flipBit_of_lt,Lib.ofNat_beRead_flipBit]
      simp [hs.magic,hs.version,hs.logSize,hs.scn,hs.dataChecksum,hs.flag,
        Share.SCN.transformMax_of_valid hv]
    rw [hd]
    exact .magic (by omega)
  · rw [if_neg (by omega)]
    have hd : decode (Lib.flipBit buf q b) pos =
        { h with version := h.version ^^^ BitVec.twoPow 16 (8 * (pos + 2 + 2 - 1 - q) + b) } := by
      simp (disch := omega) only [decode,Lib.beRead_flipBit_of_lt,Lib.beRead_flipBit_of_le,
        Lib.ofNat_beRead_flipBit]
      simp [hs.magic,hs.version,hs.logSize,hs.scn,hs.dataChecksum,hs.flag,
        Share.SCN.transformMax_of_valid hv]
    rw [hd]
    exact .version (by omega)
  · rw [if_neg (by omega)]
    have hd : decode (Lib.flipBit buf q b) pos =
        { h with logSize := h.logSize ^^^ BitVec.twoPow 32 (8 * (pos + 4 + 4 - 1 - q) + b) } := by
      simp (disch := omega) only [decode,Lib.beRead_flipBit_of_lt,Lib.beRead_flipBit_of_le,
        Lib.ofNat_beRead_flipBit]
      simp [hs.magic,hs.version,hs.logSize,hs.scn,hs.dataChecksum,hs.flag,
        Share.SCN.transformMax_of_valid hv]
    rw [hd]
    exact .logSize (by omega)
  · have hd : decode (Lib.flipBit buf q b) pos =
        { h with scn := Share.SCN.transformMax_ (h.scn ^^^ BitVec.twoPow 64 (8 * (pos + 8 + 8 - 1 - q) + b)) } := by
      simp (disch := omega) only [decode,Lib.beRead_flipBit_of_lt,Lib.beRead_flipBit_of_le,
        Lib.ofNat_beRead_flipBit]
      simp [hs.magic,hs.version,hs.logSize,hs.scn,hs.dataChecksum,hs.flag]
    rw [hd,Share.SCN.transformMax_xor_twoPow hv (by omega)]
    by_cases hx : h.scn.toNat = obMaxScnTsNs ∧ q = pos + 8 ∧ b = 6
    · rw [if_pos hx,if_pos ⟨hx.1,by omega⟩]
    · rw [if_neg hx,if_neg (by omega)]
      exact .scn (by omega)
  · rw [if_neg (by omega)]
    have hd : decode (Lib.flipBit buf q b) pos =
        { h with dataChecksum := h.dataChecksum ^^^ BitVec.twoPow 64 (8 * (pos + 16 + 8 - 1 - q) + b) } := by
      simp (disch := omega) only [decode,Lib.beRead_flipBit_of_lt,Lib.beRead_flipBit_of_le,
        Lib.ofNat_beRead_flipBit]
      simp [hs.magic,hs.version,hs.logSize,hs.scn,hs.dataChecksum,hs.flag,
        Share.SCN.transformMax_of_valid hv]
    rw [hd]
    exact .dataChecksum (by omega)
  · rw [if_neg (by omega)]
    have hd : decode (Lib.flipBit buf q b) pos =
        { h with flag := h.flag ^^^ BitVec.twoPow 64 (8 * (pos + 24 + 8 - 1 - q) + b) } := by
      simp (disch := omega) only [decode,Lib.beRead_flipBit_of_le,Lib.ofNat_beRead_flipBit]
      simp [hs.magic,hs.version,hs.logSize,hs.scn,hs.dataChecksum,hs.flag,
        Share.SCN.transformMax_of_valid hv]
    rw [hd]
    exact .flag (by omega)

theorem deserialize_of_serialized {buf : Nat → UInt8} {dataLen pos : Nat} {h : LogEntryHeader}
    (hs : Serialized buf pos h) (hi : h.checkHeaderIntegrity = true)
    (hlen : pos + LogEntryHeader.headerSerSize ≤ dataLen) :
    deserialize buf dataLen pos = .ok (h,pos + LogEntryHeader.headerSerSize) := by
  rw [deserialize_of_le hlen,decode_of_serialized hs (LogGroupEntryHeader.scnIsValid_of_checkHeaderIntegrity hi),if_pos hi]
  rfl

theorem deserialize_flipBit {buf : Nat → UInt8} {dataLen pos q b : Nat} {h : LogEntryHeader}
    (hs : Serialized buf pos h) (hi : h.checkHeaderIntegrity = true) (hp : pos ≤ q)
    (hq : q < pos + LogEntryHeader.headerSerSize) (hb : b < 8)
    (hlen : pos + LogEntryHeader.headerSerSize ≤ dataLen) :
    deserialize (Lib.flipBit buf q b) dataLen pos =
      if h.scn.toNat = obMaxScnTsNs ∧ q = pos + 8 ∧ b = 6 then .ok (h,pos + LogEntryHeader.headerSerSize)
      else .error .invalidData := by
  have hd := decode_flipBit hs (LogGroupEntryHeader.scnIsValid_of_checkHeaderIntegrity hi) hp hq hb
  rw [deserialize_of_le hlen]
  by_cases hx : h.scn.toNat = obMaxScnTsNs ∧ q = pos + 8 ∧ b = 6
  · rw [if_pos hx] at hd
    rw [if_pos hx,hd,if_pos hi]
    rfl
  · rw [if_neg hx] at hd
    have hchk := hd.checkHeaderChecksum_eq_false (Bool.and_eq_true_iff.mp hi).2
    have hint : (decode (Lib.flipBit buf q b) pos).checkHeaderIntegrity = false := by
      simp only [checkHeaderIntegrity,hchk,Bool.and_false]
    rw [if_neg hx,hint]
    rfl

theorem serialize_readsBack (h : LogEntryHeader) (hi : h.checkHeaderIntegrity = true)
    (buf : Nat → UInt8) {bufLen pos : Nat} (hroom : pos + LogEntryHeader.headerSerSize ≤ bufLen) :
    ∃ buf', h.serialize buf bufLen pos = .ok (buf',pos + h.getSerializeSize) ∧
      ReadsBack deserialize buf' pos h.getSerializeSize h
        (fun q b => h.scn.toNat = obMaxScnTsNs ∧ q = pos + 8 ∧ b = 6) := by
  obtain ⟨buf',hser,hs⟩ := serialize_of_le h buf hroom
  rw [getSerializeSize_eq]
  exact ⟨buf',hser,fun _ hlen => deserialize_of_serialized hs hi hlen,
    fun _ _ _ hp hq hb hlen => deserialize_flipBit hs hi hp hq hb hlen⟩

end LogEntryHeader

namespace LSN

/-- `LSN::serialize`: `val_` as an `encode_i64`. A null `buf` is not modelled. -/
def serialize (val : BitVec 64) (buf : Nat → UInt8) (bufLen pos : Nat) :
    Except ObErr ((Nat → UInt8) × Nat) :=
  match encodeI64 buf bufLen pos val with
  | .error _ => .error .bufNotEnough
  | .ok r => .ok r

def deserialize (buf : Nat → UInt8) (dataLen pos : Nat) : Except ObErr (BitVec 64 × Nat) :=
  match decodeI64 buf dataLen pos with
  | .error _ => .error .bufNotEnough
  | .ok r => .ok r

def getSerializeSize (val : BitVec 64) : Nat := encodedLengthI64 val

end LSN

namespace LogGroupEntryHeader

/-! ## `LogGroupEntryHeader` -/

/-- `LogGroupEntryHeader::serialize`: the nine fields at `pos`, each most significant byte
first; any encoder's failure is `OB_BUF_NOT_ENOUGH`. -/
def serialize (g : LogGroupEntryHeader) (buf : Nat → UInt8) (bufLen pos : Nat) :
    Except ObErr ((Nat → UInt8) × Nat) :=
  if bufLen = 0 then .error .invalidArgument
  else
    let fields : Except ObErr ((Nat → UInt8) × Nat) := do
      let (buf,p) ← encodeI16 buf bufLen pos g.magic
      let (buf,p) ← encodeI16 buf bufLen p g.version
      let (buf,p) ← encodeI32 buf bufLen p g.groupSize
      let (buf,p) ← encodeI64 buf bufLen p g.proposalId
      let (buf,p) ← LSN.serialize g.committedEndLsn buf bufLen p
      let (buf,p) ← Share.SCN.fixedSerialize g.maxScn buf bufLen p
      let (buf,p) ← encodeI64 buf bufLen p g.accumulatedChecksum
      let (buf,p) ← encodeI64 buf bufLen p g.logId
      encodeI64 buf bufLen p g.flag
    match fields with
    | .error _ => .error .bufNotEnough
    | .ok r => .ok r

/-- `LogGroupEntryHeader::deserialize`: the nine fields, then `check_header_integrity`; `pos`
moves only on success. -/
def deserialize (buf : Nat → UInt8) (dataLen pos : Nat) : Except ObErr (LogGroupEntryHeader × Nat) :=
  if dataLen = 0 then .error .invalidArgument
  else
    let fields : Except ObErr (LogGroupEntryHeader × Nat) := do
      let (magic,p) ← decodeI16 buf dataLen pos
      let (version,p) ← decodeI16 buf dataLen p
      let (groupSize,p) ← decodeI32 buf dataLen p
      let (proposalId,p) ← decodeI64 buf dataLen p
      let (committedEndLsn,p) ← LSN.deserialize buf dataLen p
      let (maxScn,p) ← Share.SCN.fixedDeserialize buf dataLen p
      let (accumulatedChecksum,p) ← decodeI64 buf dataLen p
      let (logId,p) ← decodeI64 buf dataLen p
      let (flag,p) ← decodeI64 buf dataLen p
      pure (⟨magic,version,groupSize,proposalId,committedEndLsn,maxScn,accumulatedChecksum,logId,flag⟩,p)
    match fields with
    | .error _ => .error .bufNotEnough
    | .ok (g,p) => if g.checkHeaderIntegrity then .ok (g,p) else .error .invalidData

def getSerializeSize (g : LogGroupEntryHeader) : Nat :=
  encodedLengthI16 g.magic + encodedLengthI16 g.version + encodedLengthI32 g.groupSize +
    encodedLengthI64 g.proposalId + LSN.getSerializeSize g.committedEndLsn +
    Share.SCN.getFixedSerializeSize g.maxScn + encodedLengthI64 g.accumulatedChecksum +
    encodedLengthI64 g.logId + encodedLengthI64 g.flag

def updateLogProposalId (g : LogGroupEntryHeader) (logProposalId : BitVec 64) :
    Except ObErr LogGroupEntryHeader :=
  if logProposalId.toNat = invalidProposalId then .error .invalidArgument
  else .ok { g with proposalId := logProposalId }.updateHeaderChecksum_

def updateCommittedEndLsn (g : LogGroupEntryHeader) (lsn : BitVec 64) :
    Except ObErr LogGroupEntryHeader :=
  if lsnIsValid lsn.toNat = false then .error .invalidArgument
  else .ok { g with committedEndLsn := lsn }.updateHeaderChecksum_

def updateWriteMode (g : LogGroupEntryHeader) (isRawWrite : Bool) : LogGroupEntryHeader :=
  if isRawWrite then { g with flag := g.flag ||| rawWriteMask } else g

def updateAccumulatedChecksum (g : LogGroupEntryHeader) (accumulatedChecksum : BitVec 64) :
    LogGroupEntryHeader :=
  { g with accumulatedChecksum := accumulatedChecksum }

inductive HeaderCall
  | updateLogProposalId (logProposalId : BitVec 64)
  | updateCommittedEndLsn (lsn : BitVec 64)
  | updateWriteMode (isRawWrite : Bool)
  | updateAccumulatedChecksum (accumulatedChecksum : BitVec 64)
  | updateHeaderChecksum
  deriving DecidableEq, Repr

namespace HeaderCall

def apply : HeaderCall → LogGroupEntryHeader → Except ObErr LogGroupEntryHeader
  | updateLogProposalId v, g => g.updateLogProposalId v
  | updateCommittedEndLsn lsn, g => g.updateCommittedEndLsn lsn
  | updateWriteMode isRawWrite, g => .ok (g.updateWriteMode isRawWrite)
  | updateAccumulatedChecksum c, g => .ok (g.updateAccumulatedChecksum c)
  | updateHeaderChecksum, g => .ok g.updateHeaderChecksum

def recomputesParity : HeaderCall → Bool
  | updateLogProposalId _ | updateCommittedEndLsn _ | updateHeaderChecksum => true
  | updateWriteMode _ | updateAccumulatedChecksum _ => false

end HeaderCall

/-- The calls one after another; the first that fails stops the writer with its error. -/
def applyCalls (g : LogGroupEntryHeader) : List HeaderCall → Except ObErr LogGroupEntryHeader
  | [] => .ok g
  | c :: cs =>
    match c.apply g with
    | .error e => .error e
    | .ok g' => applyCalls g' cs

/-- The 56 bytes of `buf` at `pos` hold the fields of `g` as `serialize` writes them. -/
structure Serialized (buf : Nat → UInt8) (pos : Nat) (g : LogGroupEntryHeader) : Prop where
  magic : Lib.beRead buf pos 2 = g.magic.toNat
  version : Lib.beRead buf (pos + 2) 2 = g.version.toNat
  groupSize : Lib.beRead buf (pos + 4) 4 = g.groupSize.toNat
  proposalId : Lib.beRead buf (pos + 8) 8 = g.proposalId.toNat
  committedEndLsn : Lib.beRead buf (pos + 16) 8 = g.committedEndLsn.toNat
  maxScn : Lib.beRead buf (pos + 24) 8 = g.maxScn.toNat
  accumulatedChecksum : Lib.beRead buf (pos + 32) 8 = g.accumulatedChecksum.toNat
  logId : Lib.beRead buf (pos + 40) 8 = g.logId.toNat
  flag : Lib.beRead buf (pos + 48) 8 = g.flag.toNat

/-- The header whose fields the 56 bytes of `buf` at `pos` hold, read as `deserialize` reads
them. -/
def decode (buf : Nat → UInt8) (pos : Nat) : LogGroupEntryHeader where
  magic := BitVec.ofNat 16 (Lib.beRead buf pos 2)
  version := BitVec.ofNat 16 (Lib.beRead buf (pos + 2) 2)
  groupSize := BitVec.ofNat 32 (Lib.beRead buf (pos + 4) 4)
  proposalId := BitVec.ofNat 64 (Lib.beRead buf (pos + 8) 8)
  committedEndLsn := BitVec.ofNat 64 (Lib.beRead buf (pos + 16) 8)
  maxScn := Share.SCN.transformMax_ (BitVec.ofNat 64 (Lib.beRead buf (pos + 24) 8))
  accumulatedChecksum := BitVec.ofNat 64 (Lib.beRead buf (pos + 32) 8)
  logId := BitVec.ofNat 64 (Lib.beRead buf (pos + 40) 8)
  flag := BitVec.ofNat 64 (Lib.beRead buf (pos + 48) 8)

inductive FieldFlip (g : LogGroupEntryHeader) : LogGroupEntryHeader → Prop
  | magic {e : Nat} : e < 16 → FieldFlip g { g with magic := g.magic ^^^ BitVec.twoPow 16 e }
  | version {e : Nat} : e < 16 → FieldFlip g { g with version := g.version ^^^ BitVec.twoPow 16 e }
  | groupSize {e : Nat} : e < 32 →
      FieldFlip g { g with groupSize := g.groupSize ^^^ BitVec.twoPow 32 e }
  | proposalId {e : Nat} : e < 64 →
      FieldFlip g { g with proposalId := g.proposalId ^^^ BitVec.twoPow 64 e }
  | committedEndLsn {e : Nat} : e < 64 →
      FieldFlip g { g with committedEndLsn := g.committedEndLsn ^^^ BitVec.twoPow 64 e }
  | maxScn {e : Nat} : e < 64 → FieldFlip g { g with maxScn := g.maxScn ^^^ BitVec.twoPow 64 e }
  | accumulatedChecksum {e : Nat} : e < 64 →
      FieldFlip g { g with accumulatedChecksum := g.accumulatedChecksum ^^^ BitVec.twoPow 64 e }
  | logId {e : Nat} : e < 64 → FieldFlip g { g with logId := g.logId ^^^ BitVec.twoPow 64 e }
  | flag {e : Nat} : e < 64 → FieldFlip g { g with flag := g.flag ^^^ BitVec.twoPow 64 e }

theorem getSerializeSize_eq (g : LogGroupEntryHeader) :
    g.getSerializeSize = LogGroupEntryHeader.headerSerSize :=
  rfl

theorem serialize_of_le (g : LogGroupEntryHeader) (buf : Nat → UInt8) {bufLen pos : Nat}
    (hroom : pos + LogGroupEntryHeader.headerSerSize ≤ bufLen) :
    ∃ buf', g.serialize buf bufLen pos = .ok (buf',pos + LogGroupEntryHeader.headerSerSize) ∧
      Serialized buf' pos g := by
  simp only [LogGroupEntryHeader.headerSerSize] at hroom ⊢
  have hne : bufLen ≠ 0 := by omega
  simp (disch := omega) only [serialize,if_neg hne,encodeI16,encodeI32,encodeI64,LSN.serialize,
    Share.SCN.fixedSerialize,encodeFixedWidth_of_le,bind,Except.bind,Nat.add_assoc]
  refine ⟨_,rfl,?_⟩
  constructor <;>
    simp (disch := omega) only [Lib.beRead_beWrite_of_le,Lib.beRead_beWrite] <;>
    exact Nat.mod_eq_of_lt (BitVec.isLt _)

theorem deserialize_of_le {buf : Nat → UInt8} {dataLen pos : Nat}
    (h : pos + LogGroupEntryHeader.headerSerSize ≤ dataLen) :
    deserialize buf dataLen pos =
      if (decode buf pos).checkHeaderIntegrity then .ok (decode buf pos,pos + 56)
      else .error .invalidData := by
  simp only [LogGroupEntryHeader.headerSerSize] at h
  have hne : dataLen ≠ 0 := by omega
  simp (disch := omega) only [deserialize,if_neg hne,decodeI16,decodeI32,decodeI64,LSN.deserialize,
    Share.SCN.fixedDeserialize,decodeFixedWidth_of_le,Except.map,bind,Except.bind,pure,Except.pure]
  simp only [Nat.add_assoc]
  rfl

theorem decode_of_serialized {buf : Nat → UInt8} {pos : Nat} {g : LogGroupEntryHeader}
    (hs : Serialized buf pos g) (hv : scnIsValid g.maxScn.toNat = true) : decode buf pos = g := by
  simp only [decode,hs.magic,hs.version,hs.groupSize,hs.proposalId,hs.committedEndLsn,hs.maxScn,
    hs.accumulatedChecksum,hs.logId,hs.flag,BitVec.ofNat_toNat,BitVec.setWidth_eq,
    Share.SCN.transformMax_of_valid hv]

theorem FieldFlip.checkHeaderChecksum_eq_false {g g' : LogGroupEntryHeader} (hf : g.FieldFlip g')
    (hc : g.checkHeaderChecksum_ = true) : g'.checkHeaderChecksum_ = false := by
  unfold checkHeaderChecksum_ at hc ⊢
  apply parityBit_beq_eq_false hc
  cases hf with
  | magic he => exact .inl ⟨by simp [getHeaderParityCheckRes_,parityCheck16_xor_twoPow _ he],rfl⟩
  | version he => exact .inl ⟨by simp [getHeaderParityCheckRes_,parityCheck16_xor_twoPow _ he],rfl⟩
  | groupSize he =>
    exact .inl ⟨by simp [getHeaderParityCheckRes_,parityCheck32_xor_twoPow _ he],rfl⟩
  | proposalId he =>
    exact .inl ⟨by simp [getHeaderParityCheckRes_,parityCheck64_xor_twoPow _ he],rfl⟩
  | committedEndLsn he =>
    exact .inl ⟨by simp [getHeaderParityCheckRes_,parityCheck64_xor_twoPow _ he],rfl⟩
  | maxScn he => exact .inl ⟨by simp [getHeaderParityCheckRes_,parityCheck64_xor_twoPow _ he],rfl⟩
  | accumulatedChecksum he =>
    exact .inl ⟨by simp [getHeaderParityCheckRes_,parityCheck64_xor_twoPow _ he],rfl⟩
  | logId he => exact .inl ⟨by simp [getHeaderParityCheckRes_,parityCheck64_xor_twoPow _ he],rfl⟩
  | @flag e he =>
    rcases Nat.eq_zero_or_pos e with rfl | hpos
    · obtain ⟨hmask,hbit⟩ := flag_xor_twoPow_zero g.flag
      exact .inr ⟨by simp only [getHeaderParityCheckRes_,hmask],hbit⟩
    · obtain ⟨hmask,hbit⟩ := flag_xor_twoPow_of_pos g.flag he hpos
      exact .inl ⟨by simp only [getHeaderParityCheckRes_,hmask,parityCheck64_xor_twoPow _ he,
        Bool.xor_not],hbit⟩

theorem decode_flipBit {buf : Nat → UInt8} {pos q b : Nat} {g : LogGroupEntryHeader}
    (hs : Serialized buf pos g) (hv : scnIsValid g.maxScn.toNat = true) (hp : pos ≤ q)
    (hq : q < pos + LogGroupEntryHeader.headerSerSize) (hb : b < 8) :
    if g.maxScn.toNat = obMaxScnTsNs ∧ q = pos + 24 ∧ b = 6 then decode (Lib.flipBit buf q b) pos = g
    else g.FieldFlip (decode (Lib.flipBit buf q b) pos) := by
  simp only [LogGroupEntryHeader.headerSerSize] at hq
  rcases (by omega : q < pos + 2 ∨ (pos + 2 ≤ q ∧ q < pos + 4) ∨ (pos + 4 ≤ q ∧ q < pos + 8) ∨
      (pos + 8 ≤ q ∧ q < pos + 16) ∨ (pos + 16 ≤ q ∧ q < pos + 24) ∨ (pos + 24 ≤ q ∧ q < pos + 32) ∨
      (pos + 32 ≤ q ∧ q < pos + 40) ∨ (pos + 40 ≤ q ∧ q < pos + 48) ∨ pos + 48 ≤ q)
    with hw | hw | hw | hw | hw | hw | hw | hw | hw
  · rw [if_neg (by omega)]
    have hd : decode (Lib.flipBit buf q b) pos =
        { g with magic := g.magic ^^^ BitVec.twoPow 16 (8 * (pos + 2 - 1 - q) + b) } := by
      simp (disch := omega) only [decode,Lib.beRead_flipBit_of_lt,Lib.ofNat_beRead_flipBit]
      simp [hs.magic,hs.version,hs.groupSize,hs.proposalId,hs.committedEndLsn,hs.maxScn,
        hs.accumulatedChecksum,hs.logId,hs.flag,Share.SCN.transformMax_of_valid hv]
    rw [hd]
    exact .magic (by omega)
  · rw [if_neg (by omega)]
    have hd : decode (Lib.flipBit buf q b) pos =
        { g with version := g.version ^^^ BitVec.twoPow 16 (8 * (pos + 2 + 2 - 1 - q) + b) } := by
      simp (disch := omega) only [decode,Lib.beRead_flipBit_of_lt,Lib.beRead_flipBit_of_le,
        Lib.ofNat_beRead_flipBit]
      simp [hs.magic,hs.version,hs.groupSize,hs.proposalId,hs.committedEndLsn,hs.maxScn,
        hs.accumulatedChecksum,hs.logId,hs.flag,Share.SCN.transformMax_of_valid hv]
    rw [hd]
    exact .version (by omega)
  · rw [if_neg (by omega)]
    have hd : decode (Lib.flipBit buf q b) pos =
        { g with groupSize := g.groupSize ^^^ BitVec.twoPow 32 (8 * (pos + 4 + 4 - 1 - q) + b) } := by
      simp (disch := omega) only [decode,Lib.beRead_flipBit_of_lt,Lib.beRead_flipBit_of_le,
        Lib.ofNat_beRead_flipBit]
      simp [hs.magic,hs.version,hs.groupSize,hs.proposalId,hs.committedEndLsn,hs.maxScn,
        hs.accumulatedChecksum,hs.logId,hs.flag,Share.SCN.transformMax_of_valid hv]
    rw [hd]
    exact .groupSize (by omega)
  · rw [if_neg (by omega)]
    have hd : decode (Lib.flipBit buf q b) pos =
        { g with proposalId := g.proposalId ^^^ BitVec.twoPow 64 (8 * (pos + 8 + 8 - 1 - q) + b) } := by
      simp (disch := omega) only [decode,Lib.beRead_flipBit_of_lt,Lib.beRead_flipBit_of_le,
        Lib.ofNat_beRead_flipBit]
      simp [hs.magic,hs.version,hs.groupSize,hs.proposalId,hs.committedEndLsn,hs.maxScn,
        hs.accumulatedChecksum,hs.logId,hs.flag,Share.SCN.transformMax_of_valid hv]
    rw [hd]
    exact .proposalId (by omega)
  · rw [if_neg (by omega)]
    have hd : decode (Lib.flipBit buf q b) pos =
        { g with committedEndLsn := g.committedEndLsn ^^^ BitVec.twoPow 64 (8 * (pos + 16 + 8 - 1 - q) + b) } := by
      simp (disch := omega) only [decode,Lib.beRead_flipBit_of_lt,Lib.beRead_flipBit_of_le,
        Lib.ofNat_beRead_flipBit]
      simp [hs.magic,hs.version,hs.groupSize,hs.proposalId,hs.committedEndLsn,hs.maxScn,
        hs.accumulatedChecksum,hs.logId,hs.flag,Share.SCN.transformMax_of_valid hv]
    rw [hd]
    exact .committedEndLsn (by omega)
  · have hd : decode (Lib.flipBit buf q b) pos =
        { g with maxScn := Share.SCN.transformMax_ (g.maxScn ^^^ BitVec.twoPow 64 (8 * (pos + 24 + 8 - 1 - q) + b)) } := by
      simp (disch := omega) only [decode,Lib.beRead_flipBit_of_lt,Lib.beRead_flipBit_of_le,
        Lib.ofNat_beRead_flipBit]
      simp [hs.magic,hs.version,hs.groupSize,hs.proposalId,hs.committedEndLsn,hs.maxScn,
        hs.accumulatedChecksum,hs.logId,hs.flag]
    rw [hd,Share.SCN.transformMax_xor_twoPow hv (by omega)]
    by_cases hx : g.maxScn.toNat = obMaxScnTsNs ∧ q = pos + 24 ∧ b = 6
    · rw [if_pos hx,if_pos ⟨hx.1,by omega⟩]
    · rw [if_neg hx,if_neg (by omega)]
      exact .maxScn (by omega)
  · rw [if_neg (by omega)]
    have hd : decode (Lib.flipBit buf q b) pos =
        { g with accumulatedChecksum := g.accumulatedChecksum ^^^ BitVec.twoPow 64 (8 * (pos + 32 + 8 - 1 - q) + b) } := by
      simp (disch := omega) only [decode,Lib.beRead_flipBit_of_lt,Lib.beRead_flipBit_of_le,
        Lib.ofNat_beRead_flipBit]
      simp [hs.magic,hs.version,hs.groupSize,hs.proposalId,hs.committedEndLsn,hs.maxScn,
        hs.accumulatedChecksum,hs.logId,hs.flag,Share.SCN.transformMax_of_valid hv]
    rw [hd]
    exact .accumulatedChecksum (by omega)
  · rw [if_neg (by omega)]
    have hd : decode (Lib.flipBit buf q b) pos =
        { g with logId := g.logId ^^^ BitVec.twoPow 64 (8 * (pos + 40 + 8 - 1 - q) + b) } := by
      simp (disch := omega) only [decode,Lib.beRead_flipBit_of_lt,Lib.beRead_flipBit_of_le,
        Lib.ofNat_beRead_flipBit]
      simp [hs.magic,hs.version,hs.groupSize,hs.proposalId,hs.committedEndLsn,hs.maxScn,
        hs.accumulatedChecksum,hs.logId,hs.flag,Share.SCN.transformMax_of_valid hv]
    rw [hd]
    exact .logId (by omega)
  · rw [if_neg (by omega)]
    have hd : decode (Lib.flipBit buf q b) pos =
        { g with flag := g.flag ^^^ BitVec.twoPow 64 (8 * (pos + 48 + 8 - 1 - q) + b) } := by
      simp (disch := omega) only [decode,Lib.beRead_flipBit_of_le,Lib.ofNat_beRead_flipBit]
      simp [hs.magic,hs.version,hs.groupSize,hs.proposalId,hs.committedEndLsn,hs.maxScn,
        hs.accumulatedChecksum,hs.logId,hs.flag,Share.SCN.transformMax_of_valid hv]
    rw [hd]
    exact .flag (by omega)

theorem deserialize_of_serialized {buf : Nat → UInt8} {dataLen pos : Nat} {g : LogGroupEntryHeader}
    (hs : Serialized buf pos g) (hi : g.checkHeaderIntegrity = true)
    (hlen : pos + LogGroupEntryHeader.headerSerSize ≤ dataLen) :
    deserialize buf dataLen pos = .ok (g,pos + LogGroupEntryHeader.headerSerSize) := by
  have hv : scnIsValid g.maxScn.toNat = true := by
    simp only [checkHeaderIntegrity,isValid,Bool.and_eq_true] at hi
    exact hi.1.1.2
  rw [deserialize_of_le hlen,decode_of_serialized hs hv,if_pos hi]
  rfl

theorem deserialize_flipBit {buf : Nat → UInt8} {dataLen pos q b : Nat} {g : LogGroupEntryHeader}
    (hs : Serialized buf pos g) (hi : g.checkHeaderIntegrity = true) (hp : pos ≤ q)
    (hq : q < pos + LogGroupEntryHeader.headerSerSize) (hb : b < 8)
    (hlen : pos + LogGroupEntryHeader.headerSerSize ≤ dataLen) :
    deserialize (Lib.flipBit buf q b) dataLen pos =
      if g.maxScn.toNat = obMaxScnTsNs ∧ q = pos + 24 ∧ b = 6 then
        .ok (g,pos + LogGroupEntryHeader.headerSerSize)
      else .error .invalidData := by
  have hv : scnIsValid g.maxScn.toNat = true := by
    simp only [checkHeaderIntegrity,isValid,Bool.and_eq_true] at hi
    exact hi.1.1.2
  have hd := decode_flipBit hs hv hp hq hb
  rw [deserialize_of_le hlen]
  by_cases hx : g.maxScn.toNat = obMaxScnTsNs ∧ q = pos + 24 ∧ b = 6
  · rw [if_pos hx] at hd
    rw [if_pos hx,hd,if_pos hi]
    rfl
  · rw [if_neg hx] at hd
    have hchk := hd.checkHeaderChecksum_eq_false (Bool.and_eq_true_iff.mp hi).2
    have hint : (decode (Lib.flipBit buf q b) pos).checkHeaderIntegrity = false := by
      simp only [checkHeaderIntegrity,hchk,Bool.and_false]
    rw [if_neg hx,hint]
    rfl

theorem serialize_readsBack (g : LogGroupEntryHeader) (hi : g.checkHeaderIntegrity = true)
    (buf : Nat → UInt8) {bufLen pos : Nat} (hroom : pos + LogGroupEntryHeader.headerSerSize ≤ bufLen) :
    ∃ buf', g.serialize buf bufLen pos = .ok (buf',pos + g.getSerializeSize) ∧
      ReadsBack deserialize buf' pos g.getSerializeSize g
        (fun q b => g.maxScn.toNat = obMaxScnTsNs ∧ q = pos + 24 ∧ b = 6) := by
  obtain ⟨buf',hser,hs⟩ := serialize_of_le g buf hroom
  rw [getSerializeSize_eq]
  exact ⟨buf',hser,fun _ hlen => deserialize_of_serialized hs hi hlen,
    fun _ _ _ hp hq hb hlen => deserialize_flipBit hs hi hp hq hb hlen⟩

/-! ## From `generate` to `serialize` -/

theorem isValid_iff (g : LogGroupEntryHeader) :
    g.isValid = true ↔ g.magic = groupMagic ∧ g.version = logGroupEntryHeaderVersion ∧
      g.proposalId.toNat ≠ invalidProposalId ∧ lsnIsValid g.committedEndLsn.toNat = true ∧
      scnIsValid g.maxScn.toNat = true ∧ isValidLogId g.logId.toInt = true := by
  simp only [isValid,Bool.and_eq_true,beq_iff_eq,bne_iff_ne,ne_eq,and_assoc]

theorem HeaderCall.isValid_apply {c : HeaderCall} {g g' : LogGroupEntryHeader}
    (h : c.apply g = .ok g') (hv : g.isValid = true) : g'.isValid = true := by
  rw [isValid_iff] at hv
  cases c with
  | updateLogProposalId v =>
    simp only [HeaderCall.apply,LogGroupEntryHeader.updateLogProposalId] at h
    split_ifs at h with hpid
    obtain rfl := Except.ok.inj h
    rw [isValid_updateHeaderChecksum_,isValid_iff]
    exact ⟨hv.1,hv.2.1,hpid,hv.2.2.2⟩
  | updateCommittedEndLsn lsn =>
    simp only [HeaderCall.apply,LogGroupEntryHeader.updateCommittedEndLsn] at h
    split_ifs at h with hlsn
    obtain rfl := Except.ok.inj h
    rw [isValid_updateHeaderChecksum_,isValid_iff]
    exact ⟨hv.1,hv.2.1,hv.2.2.1,by simpa using hlsn,hv.2.2.2.2⟩
  | updateWriteMode isRawWrite =>
    obtain rfl := Except.ok.inj h
    rw [isValid_iff]
    unfold LogGroupEntryHeader.updateWriteMode
    split <;> exact hv
  | updateAccumulatedChecksum c =>
    obtain rfl := Except.ok.inj h
    rw [isValid_iff]
    exact hv
  | updateHeaderChecksum =>
    obtain rfl := Except.ok.inj h
    rw [LogGroupEntryHeader.updateHeaderChecksum,isValid_updateHeaderChecksum_,isValid_iff]
    exact hv

theorem HeaderCall.checkHeaderChecksum_apply {c : HeaderCall} {g g' : LogGroupEntryHeader}
    (h : c.apply g = .ok g') (hc : c.recomputesParity = true) : g'.checkHeaderChecksum_ = true := by
  cases c with
  | updateLogProposalId v =>
    simp only [HeaderCall.apply,LogGroupEntryHeader.updateLogProposalId] at h
    split_ifs at h
    obtain rfl := Except.ok.inj h
    exact checkHeaderChecksum_updateHeaderChecksum_ _
  | updateCommittedEndLsn lsn =>
    simp only [HeaderCall.apply,LogGroupEntryHeader.updateCommittedEndLsn] at h
    split_ifs at h
    obtain rfl := Except.ok.inj h
    exact checkHeaderChecksum_updateHeaderChecksum_ _
  | updateWriteMode _ => simp [HeaderCall.recomputesParity] at hc
  | updateAccumulatedChecksum _ => simp [HeaderCall.recomputesParity] at hc
  | updateHeaderChecksum =>
    obtain rfl := Except.ok.inj h
    exact checkHeaderChecksum_updateHeaderChecksum_ _

theorem isValid_applyCalls {g g' : LogGroupEntryHeader} {cs : List HeaderCall}
    (h : applyCalls g cs = .ok g') (hv : g.isValid = true) : g'.isValid = true := by
  induction cs generalizing g with
  | nil =>
    obtain rfl := Except.ok.inj h
    exact hv
  | cons c cs ih =>
    cases hc : c.apply g with
    | error e => simp [applyCalls,hc] at h
    | ok g₁ =>
      simp only [applyCalls,hc] at h
      exact ih h (HeaderCall.isValid_apply hc hv)

theorem checkHeaderChecksum_applyCalls {g g' : LogGroupEntryHeader} {cs : List HeaderCall}
    {c : HeaderCall} (h : applyCalls g cs = .ok g') (hlast : cs.getLast? = some c)
    (hc : c.recomputesParity = true) : g'.checkHeaderChecksum_ = true := by
  induction cs generalizing g with
  | nil => simp at hlast
  | cons c' cs ih =>
    cases hc' : c'.apply g with
    | error e => simp [applyCalls,hc'] at h
    | ok g₁ =>
      simp only [applyCalls,hc'] at h
      cases cs with
      | nil =>
        obtain rfl : c' = c := by simpa using hlast
        obtain rfl : g₁ = g' := Except.ok.inj h
        exact HeaderCall.checkHeaderChecksum_apply hc' hc
      | cons c'' cs => exact ih h (by simpa using hlast)

theorem isValid_generate {g₀ g : LogGroupEntryHeader} {crc : ObCrc64} {isRawWrite isPaddingLog : Bool}
    {w : LogWriteBuf} {mem : Nat → UInt8} {dataLen : Nat}
    {maxScn logId committedEndLsn logProposalId : BitVec 64} {r : Except ObErr (BitVec 64)}
    (hscn : scnIsValid maxScn.toNat = true) (hid : isValidLogId logId.toInt = true)
    (hlsn : lsnIsValid committedEndLsn.toNat = true) (hpid : logProposalId.toNat ≠ invalidProposalId)
    (hgen : g₀.generate crc isRawWrite isPaddingLog w mem dataLen maxScn logId committedEndLsn
      logProposalId = some (g,r)) : g.isValid = true := by
  rw [generate_of_valid g₀ crc isRawWrite isPaddingLog w mem dataLen hscn hid hlsn hpid] at hgen
  obtain ⟨r',-,hr⟩ := Option.map_eq_some_iff.mp hgen
  obtain rfl := (Prod.mk.inj hr).1
  rw [isValid_iff]
  exact ⟨rfl,rfl,hpid,hlsn,hscn,hid⟩

theorem checkHeaderIntegrity_generate_applyCalls {g₀ g₁ g : LogGroupEntryHeader} {crc : ObCrc64}
    {isRawWrite isPaddingLog : Bool} {w : LogWriteBuf} {mem : Nat → UInt8} {dataLen : Nat}
    {maxScn logId committedEndLsn logProposalId : BitVec 64} {r : Except ObErr (BitVec 64)}
    {cs : List HeaderCall} {c : HeaderCall}
    (hscn : scnIsValid maxScn.toNat = true) (hid : isValidLogId logId.toInt = true)
    (hlsn : lsnIsValid committedEndLsn.toNat = true) (hpid : logProposalId.toNat ≠ invalidProposalId)
    (hgen : g₀.generate crc isRawWrite isPaddingLog w mem dataLen maxScn logId committedEndLsn
      logProposalId = some (g₁,r))
    (hcalls : applyCalls g₁ cs = .ok g) (hlast : cs.getLast? = some c) (hc : c.recomputesParity = true) :
    g.checkHeaderIntegrity = true := by
  simp only [checkHeaderIntegrity,isValid_applyCalls hcalls (isValid_generate hscn hid hlsn hpid hgen),
    checkHeaderChecksum_applyCalls hcalls hlast hc,Bool.and_self]

end LogGroupEntryHeader

/-! ## The codecs -/

/-- The PALF header codecs. A group header made by `generate` with valid arguments and then by
calls of which the last recomputes the parity bit, and an entry header made by `generate_header`
or `generate_padding_header_` on a header whose parity bit is clear with a length that the
`int32_t` `log_size_` holds, serialize into `get_serialize_size() = HEADER_SER_SIZE` bytes that
`deserialize` reads back. With any one of those bits flipped `deserialize` fails with
`OB_INVALID_DATA`, except for bit 62 of a largest SCN, where it reads back the same header. -/
theorem header_codecs_read_back :
    (∀ (g₀ g₁ g : LogGroupEntryHeader) (crc : ObCrc64) (isRawWrite isPaddingLog : Bool)
      (w : LogWriteBuf) (mem : Nat → UInt8) (dataLen : Nat)
      (maxScn logId committedEndLsn logProposalId : BitVec 64) (r : Except ObErr (BitVec 64))
      (cs : List LogGroupEntryHeader.HeaderCall) (c : LogGroupEntryHeader.HeaderCall)
      (buf : Nat → UInt8) (bufLen pos : Nat),
      scnIsValid maxScn.toNat = true → isValidLogId logId.toInt = true →
      lsnIsValid committedEndLsn.toNat = true → logProposalId.toNat ≠ invalidProposalId →
      g₀.generate crc isRawWrite isPaddingLog w mem dataLen maxScn logId committedEndLsn
        logProposalId = some (g₁,r) →
      LogGroupEntryHeader.applyCalls g₁ cs = .ok g → cs.getLast? = some c → c.recomputesParity = true →
      pos + LogGroupEntryHeader.headerSerSize ≤ bufLen →
      g.getSerializeSize = LogGroupEntryHeader.headerSerSize ∧
        ∃ buf', g.serialize buf bufLen pos = .ok (buf',pos + g.getSerializeSize) ∧
          ReadsBack LogGroupEntryHeader.deserialize buf' pos g.getSerializeSize g
            (fun q b => g.maxScn.toNat = obMaxScnTsNs ∧ q = pos + 24 ∧ b = 6)) ∧
    (∀ (h₀ h : LogEntryHeader) (crc : ObCrc64) (logData : Nat → UInt8) (dataLen : Nat)
      (scn : BitVec 64) (buf : Nat → UInt8) (bufLen pos : Nat),
      h₀.flag &&& 1 = 0 → dataLen < 2 ^ 31 → LogEntryHeader.generateHeader crc h₀ logData dataLen scn = .ok h →
      pos + LogEntryHeader.headerSerSize ≤ bufLen →
      h.getSerializeSize = LogEntryHeader.headerSerSize ∧
        ∃ buf', h.serialize buf bufLen pos = .ok (buf',pos + h.getSerializeSize) ∧
          ReadsBack LogEntryHeader.deserialize buf' pos h.getSerializeSize h
            (fun q b => h.scn.toNat = obMaxScnTsNs ∧ q = pos + 8 ∧ b = 6)) ∧
    (∀ (h₀ h : LogEntryHeader) (crc : ObCrc64) (logData : Nat → UInt8)
      (baseHeaderLen paddingDataLen : Nat) (scn : BitVec 64) (buf : Nat → UInt8) (bufLen pos : Nat),
      h₀.flag &&& 1 = 0 → paddingDataLen < 2 ^ 31 →
      LogEntryHeader.generatePaddingHeader_ crc h₀ logData baseHeaderLen paddingDataLen scn = .ok h →
      pos + LogEntryHeader.headerSerSize ≤ bufLen →
      h.getSerializeSize = LogEntryHeader.headerSerSize ∧
        ∃ buf', h.serialize buf bufLen pos = .ok (buf',pos + h.getSerializeSize) ∧
          ReadsBack LogEntryHeader.deserialize buf' pos h.getSerializeSize h
            (fun q b => h.scn.toNat = obMaxScnTsNs ∧ q = pos + 8 ∧ b = 6)) := by
  refine ⟨?_,?_,?_⟩
  · intro g₀ g₁ g crc isRawWrite isPaddingLog w mem dataLen maxScn logId committedEndLsn logProposalId
      r cs c buf bufLen pos hscn hid hlsn hpid hgen hcalls hlast hc hroom
    have hi := LogGroupEntryHeader.checkHeaderIntegrity_generate_applyCalls hscn hid hlsn hpid hgen
      hcalls hlast hc
    exact ⟨LogGroupEntryHeader.getSerializeSize_eq g,
      LogGroupEntryHeader.serialize_readsBack g hi buf hroom⟩
  · intro h₀ h crc logData dataLen scn buf bufLen pos h0 hlen hgen hroom
    have hi := LogEntryHeader.checkHeaderIntegrity_generateHeader hgen h0 hlen
    exact ⟨LogEntryHeader.getSerializeSize_eq h,LogEntryHeader.serialize_readsBack h hi buf hroom⟩
  · intro h₀ h crc logData baseHeaderLen paddingDataLen scn buf bufLen pos h0 hlen hgen hroom
    have hi := LogEntryHeader.checkHeaderIntegrity_generatePaddingHeader_ hgen h0 hlen
    exact ⟨LogEntryHeader.getSerializeSize_eq h,LogEntryHeader.serialize_readsBack h hi buf hroom⟩

/-- A padding group of 100 bytes at SCN 5, as `generate` leaves a reset header. -/
def paddingGroupHeader : LogGroupEntryHeader := ⟨0x4752,1,100,1,0,5,0,1,2⟩

/-- The header of a one-byte entry at SCN 5, and of a 50-byte padding entry at SCN 5. -/
def oneByteEntryHeader : LogEntryHeader := ⟨0x4C48,1,1,5,0,1⟩
def paddingEntryHeader : LogEntryHeader := ⟨0x4C48,1,50,5,0,2⟩

theorem header_codecs_read_back_fresh :
    (paddingGroupHeader.getSerializeSize = LogGroupEntryHeader.headerSerSize ∧
      ∃ buf', paddingGroupHeader.serialize (fun _ => 0) 56 0 =
          .ok (buf',0 + paddingGroupHeader.getSerializeSize) ∧
        ReadsBack LogGroupEntryHeader.deserialize buf' 0 paddingGroupHeader.getSerializeSize
          paddingGroupHeader (fun q b => paddingGroupHeader.maxScn.toNat = obMaxScnTsNs ∧ q = 0 + 24 ∧ b = 6)) ∧
    (oneByteEntryHeader.getSerializeSize = LogEntryHeader.headerSerSize ∧
      ∃ buf', oneByteEntryHeader.serialize (fun _ => 0) 32 0 =
          .ok (buf',0 + oneByteEntryHeader.getSerializeSize) ∧
        ReadsBack LogEntryHeader.deserialize buf' 0 oneByteEntryHeader.getSerializeSize
          oneByteEntryHeader (fun q b => oneByteEntryHeader.scn.toNat = obMaxScnTsNs ∧ q = 0 + 8 ∧ b = 6)) ∧
    (paddingEntryHeader.getSerializeSize = LogEntryHeader.headerSerSize ∧
      ∃ buf', paddingEntryHeader.serialize (fun _ => 0) 32 0 =
          .ok (buf',0 + paddingEntryHeader.getSerializeSize) ∧
        ReadsBack LogEntryHeader.deserialize buf' 0 paddingEntryHeader.getSerializeSize
          paddingEntryHeader (fun q b => paddingEntryHeader.scn.toNat = obMaxScnTsNs ∧ q = 0 + 8 ∧ b = 6)) :=
  ⟨header_codecs_read_back.1 LogGroupEntryHeader.reset paddingGroupHeader paddingGroupHeader
      LogGroupEntryHeader.zeroCrc false true ⟨[⟨0,156⟩]⟩ (fun _ => 0) 100 5 1 0 1 (.ok 0)
      [.updateHeaderChecksum] .updateHeaderChecksum (fun _ => 0) 56 0
      (by decide) (by decide) (by decide) (by decide) rfl rfl rfl rfl (by decide),
    header_codecs_read_back.2.1 ⟨0,0,0,0,0,0⟩ oneByteEntryHeader LogGroupEntryHeader.zeroCrc
      (fun _ => 0) 1 5 (fun _ => 0) 32 0 (by decide) (by decide) rfl (by decide),
    header_codecs_read_back.2.2 ⟨0,0,0,0,0,0⟩ paddingEntryHeader LogGroupEntryHeader.zeroCrc
      (fun _ => 0) 16 50 5 (fun _ => 0) 32 0 (by decide) (by decide) rfl (by decide)⟩

def maxScnGroupHeader : LogGroupEntryHeader := ⟨0x4752,1,100,1,0,0x3FFFFFFFFFFFFFFF,0,1,2⟩

/-- Three headers the codecs do not read back as stated before the conditions above were
added. Bit 62 of a largest `max_scn_` flipped: `deserialize` reads back the header rather than
fail. `generate_header` with `data_len = 2^31`: the `int32_t` `log_size_` is negative and the
header fails its own `is_valid`. `generate_header` on a header whose parity bit is already set
and whose parity is even: `update_header_checksum_` leaves the bit and the check fails. -/
theorem header_codecs_flip_max_scn :
    (LogGroupEntryHeader.reset.generate LogGroupEntryHeader.zeroCrc false true ⟨[⟨0,156⟩]⟩
        (fun _ => 0) 100 (BitVec.ofNat 64 obMaxScnTsNs) 1 0 1 = some (maxScnGroupHeader,.ok 0) ∧
      LogGroupEntryHeader.applyCalls maxScnGroupHeader [.updateHeaderChecksum] = .ok maxScnGroupHeader ∧
      ∃ buf', maxScnGroupHeader.serialize (fun _ => 0) 56 0 = .ok (buf',56) ∧
        LogGroupEntryHeader.deserialize (Lib.flipBit buf' 24 6) 56 0 = .ok (maxScnGroupHeader,56)) ∧
    (LogEntryHeader.generateHeader LogGroupEntryHeader.zeroCrc ⟨0,0,0,0,0,0⟩ (fun _ => 0) (2 ^ 31) 5 =
        .ok ⟨0x4C48,1,0x80000000,5,0,1⟩ ∧
      ∃ buf', LogEntryHeader.serialize ⟨0x4C48,1,0x80000000,5,0,1⟩ (fun _ => 0) 32 0 = .ok (buf',32) ∧
        LogEntryHeader.deserialize buf' 32 0 = .error .invalidData) ∧
    (LogEntryHeader.generateHeader LogGroupEntryHeader.zeroCrc ⟨0,0,0,0,0,1⟩ (fun _ => 0) 1 1 =
        .ok ⟨0x4C48,1,1,1,0,1⟩ ∧
      ∃ buf', LogEntryHeader.serialize ⟨0x4C48,1,1,1,0,1⟩ (fun _ => 0) 32 0 = .ok (buf',32) ∧
        LogEntryHeader.deserialize buf' 32 0 = .error .invalidData) := by
  refine ⟨⟨rfl,rfl,?_⟩,⟨rfl,?_⟩,⟨rfl,?_⟩⟩
  · obtain ⟨buf',hser,hs⟩ := LogGroupEntryHeader.serialize_of_le maxScnGroupHeader (fun _ => 0)
      (show 0 + LogGroupEntryHeader.headerSerSize ≤ 56 by decide)
    refine ⟨buf',hser,?_⟩
    rw [LogGroupEntryHeader.deserialize_flipBit hs (by decide) (by decide) (by decide) (by decide)
      (by decide),if_pos (by decide)]
    rfl
  · obtain ⟨buf',hser,hs⟩ := LogEntryHeader.serialize_of_le ⟨0x4C48,1,0x80000000,5,0,1⟩ (fun _ => 0)
      (show 0 + LogEntryHeader.headerSerSize ≤ 32 by decide)
    refine ⟨buf',hser,?_⟩
    rw [LogEntryHeader.deserialize_of_le (by decide),LogEntryHeader.decode_of_serialized hs (by decide),
      if_neg (by decide)]
  · obtain ⟨buf',hser,hs⟩ := LogEntryHeader.serialize_of_le ⟨0x4C48,1,1,1,0,1⟩ (fun _ => 0)
      (show 0 + LogEntryHeader.headerSerSize ≤ 32 by decide)
    refine ⟨buf',hser,?_⟩
    rw [LogEntryHeader.deserialize_of_le (by decide),LogEntryHeader.decode_of_serialized hs (by decide),
      if_neg (by decide)]

end Palf
end OceanBase
