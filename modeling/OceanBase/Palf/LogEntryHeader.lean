import OceanBase.Common.Serialization
import OceanBase.Common.Checksum

/-! `LogEntryHeader` and `LogEntry` (`log_entry_header.cpp`, `log_entry.cpp`): the 32-byte header
of one log entry, with the parity bit that protects it and the data checksum that protects the
entry's data, and the entry as its header followed by `log_size_` bytes of data. Fields are the
source's fixed-width integers as bit vectors; `ob_crc64` is a parameter. -/
namespace OceanBase
namespace Palf

open Common Serialization

structure LogEntryHeader where
  magic : BitVec 16
  version : BitVec 16
  logSize : BitVec 32
  scn : BitVec 64
  dataChecksum : BitVec 64
  flag : BitVec 64
  deriving DecidableEq, Repr

namespace LogEntryHeader

def headerMagic : BitVec 16 := 0x4C48

def logEntryHeaderVersion : BitVec 16 := 1

def paddingTypeMask : BitVec 64 := 2

/-- `LogEntryHeader::is_valid`: the magic, a positive `log_size_` and a valid SCN. -/
def isValid (h : LogEntryHeader) : Bool :=
  h.magic == headerMagic && decide (0 < h.logSize.toInt) && scnIsValid h.scn.toNat

/-- `get_data_len`, `log_size_`. Every use in the source follows an `is_valid` that made it
positive, and a non-positive `data_len` is refused wherever it is checked, as `0` is here. -/
def getDataLen (h : LogEntryHeader) : Nat := h.logSize.toInt.toNat

/-- `get_header_parity_check_res_`: the parity of every field, with bit 0 of `flag_` masked. -/
def getHeaderParityCheckRes_ (h : LogEntryHeader) : Bool :=
  parityCheck16 h.magic ^^ parityCheck16 h.version ^^ parityCheck32 h.logSize ^^
    parityCheck64 h.scn ^^ parityCheck64 h.dataChecksum ^^ parityCheck64 (h.flag &&& ~~~1)

/-- `update_header_checksum_`: it sets bit 0 of `flag_` when the parity is odd, and never
clears it. -/
def updateHeaderChecksum_ (h : LogEntryHeader) : LogEntryHeader :=
  if h.getHeaderParityCheckRes_ then { h with flag := h.flag ||| 1 } else h

def checkHeaderChecksum_ (h : LogEntryHeader) : Bool :=
  (if h.getHeaderParityCheckRes_ then (1 : BitVec 64) else 0) == (h.flag &&& 1)

def checkHeaderIntegrity (h : LogEntryHeader) : Bool := h.isValid && h.checkHeaderChecksum_

def isPaddingLog_ (h : LogEntryHeader) : Bool := h.flag &&& paddingTypeMask != 0

/-- `generate_header`, on the header it is called on: `flag_` keeps its bits. A null
`log_data` is not modelled. -/
def generateHeader (crc : ObCrc64) (h : LogEntryHeader) (logData : Nat → UInt8) (dataLen : Nat)
    (scn : BitVec 64) : Except ObErr LogEntryHeader :=
  if dataLen = 0 ∨ scnIsValid scn.toNat = false then .error .invalidArgument
  else .ok (updateHeaderChecksum_ { h with
    magic := headerMagic, version := logEntryHeaderVersion, logSize := BitVec.ofNat 32 dataLen,
    scn := scn, dataChecksum := crc 0 logData dataLen })

/-- `generate_padding_header_`: the header of a padding entry, on the header it is called on. Its
data checksum covers only the `base_header_len` bytes of the `ObLogBaseHeader` at `log_data`. -/
def generatePaddingHeader_ (crc : ObCrc64) (h : LogEntryHeader) (logData : Nat → UInt8)
    (baseHeaderLen paddingDataLen : Nat) (scn : BitVec 64) : Except ObErr LogEntryHeader :=
  if baseHeaderLen = 0 ∨ paddingDataLen = 0 ∨ scnIsValid scn.toNat = false then .error .invalidArgument
  else .ok (updateHeaderChecksum_ { h with
    magic := headerMagic, version := logEntryHeaderVersion, logSize := BitVec.ofNat 32 paddingDataLen,
    scn := scn, dataChecksum := crc 0 logData baseHeaderLen, flag := h.flag ||| paddingTypeMask })

def getSerializeSize (h : LogEntryHeader) : Nat :=
  encodedLengthI16 h.magic + encodedLengthI16 h.version + encodedLengthI32 h.logSize +
    Share.SCN.getFixedSerializeSize h.scn + encodedLengthI64 h.dataChecksum + encodedLengthI64 h.flag

/-- `check_integrity(buf, data_len)`: the magic, the header parity, and the checksum of the data;
for a padding entry only its `ObLogBaseHeader` is checksummed. -/
def checkIntegrity (crc : ObCrc64) (h : LogEntryHeader) (buf : Nat → UInt8) (dataLen : Nat) :
    Bool :=
  let validDataLen := if h.isPaddingLog_ then obLogBaseHeaderSize else dataLen
  if dataLen = 0 then false
  else if h.magic ≠ headerMagic then false
  else if !h.checkHeaderChecksum_ then false
  else h.dataChecksum == crc 0 buf validDataLen

/-- `LogEntryHeader::serialize`: the six fields at `pos`, each most significant byte first;
any encoder's failure is `OB_BUF_NOT_ENOUGH`. -/
def serialize (h : LogEntryHeader) (buf : Nat → UInt8) (bufLen pos : Nat) :
    Except ObErr ((Nat → UInt8) × Nat) :=
  if bufLen = 0 then .error .invalidArgument
  else
    let fields : Except ObErr ((Nat → UInt8) × Nat) := do
      let (buf,p) ← encodeI16 buf bufLen pos h.magic
      let (buf,p) ← encodeI16 buf bufLen p h.version
      let (buf,p) ← encodeI32 buf bufLen p h.logSize
      let (buf,p) ← Share.SCN.fixedSerialize h.scn buf bufLen p
      let (buf,p) ← encodeI64 buf bufLen p h.dataChecksum
      encodeI64 buf bufLen p h.flag
    match fields with
    | .error _ => .error .bufNotEnough
    | .ok r => .ok r

/-- `LogEntryHeader::deserialize`: the six fields, then `check_header_integrity`; `pos` moves
only on success. -/
def deserialize (buf : Nat → UInt8) (dataLen pos : Nat) : Except ObErr (LogEntryHeader × Nat) :=
  if dataLen = 0 then .error .invalidArgument
  else
    let fields : Except ObErr (LogEntryHeader × Nat) := do
      let (magic,p) ← decodeI16 buf dataLen pos
      let (version,p) ← decodeI16 buf dataLen p
      let (logSize,p) ← decodeI32 buf dataLen p
      let (scn,p) ← Share.SCN.fixedDeserialize buf dataLen p
      let (dataChecksum,p) ← decodeI64 buf dataLen p
      let (flag,p) ← decodeI64 buf dataLen p
      pure (⟨magic,version,logSize,scn,dataChecksum,flag⟩,p)
    match fields with
    | .error _ => .error .bufNotEnough
    | .ok (h,p) => if h.checkHeaderIntegrity then .ok (h,p) else .error .invalidData

/-- The header whose fields the 32 bytes of `buf` at `pos` hold, read as `deserialize` reads
them. -/
def decode (buf : Nat → UInt8) (pos : Nat) : LogEntryHeader where
  magic := BitVec.ofNat 16 (Lib.beRead buf pos 2)
  version := BitVec.ofNat 16 (Lib.beRead buf (pos + 2) 2)
  logSize := BitVec.ofNat 32 (Lib.beRead buf (pos + 4) 4)
  scn := Share.SCN.transformMax_ (BitVec.ofNat 64 (Lib.beRead buf (pos + 8) 8))
  dataChecksum := BitVec.ofNat 64 (Lib.beRead buf (pos + 16) 8)
  flag := BitVec.ofNat 64 (Lib.beRead buf (pos + 24) 8)

theorem decode_congr {m₁ m₂ : Nat → UInt8} {p q : Nat}
    (h : ∀ i < LogEntryHeader.headerSerSize, m₁ (p + i) = m₂ (q + i)) : decode m₁ p = decode m₂ q := by
  have hw : ∀ k n, k + n ≤ 32 → Lib.beRead m₁ (p + k) n = Lib.beRead m₂ (q + k) n := by
    intro k n hk
    apply Lib.beRead_congr
    intro i hi
    rw [Nat.add_assoc,Nat.add_assoc]
    exact h (k + i) (by simp only [LogEntryHeader.headerSerSize]; omega)
  have h₀ := hw 0 2 (by omega)
  simp only [Nat.add_zero] at h₀
  simp only [decode,h₀,hw 2 2 (by omega),hw 4 4 (by omega),hw 8 8 (by omega),hw 16 8 (by omega),
    hw 24 8 (by omega)]

theorem deserialize_of_le {buf : Nat → UInt8} {dataLen pos : Nat}
    (h : pos + LogEntryHeader.headerSerSize ≤ dataLen) :
    deserialize buf dataLen pos =
      if (decode buf pos).checkHeaderIntegrity then .ok (decode buf pos,pos + 32)
      else .error .invalidData := by
  simp only [LogEntryHeader.headerSerSize] at h
  have hne : dataLen ≠ 0 := by omega
  simp (disch := omega) only [deserialize,if_neg hne,decodeI16,decodeI32,decodeI64,
    Share.SCN.fixedDeserialize,decodeFixedWidth_of_le,Except.map,bind,Except.bind,pure,Except.pure]
  simp only [Nat.add_assoc]
  rfl

theorem getDataLen_pos {h : LogEntryHeader} (hi : h.checkHeaderIntegrity = true) :
    0 < h.getDataLen := by
  simp only [checkHeaderIntegrity,isValid,Bool.and_eq_true,decide_eq_true_eq] at hi
  simp only [getDataLen]
  omega

end LogEntryHeader

/-- `LogEntry`: a header and `buf_`, the address of its data in the buffer it was read from. -/
structure LogEntry where
  header : LogEntryHeader
  buf : Nat
  deriving DecidableEq, Repr

namespace LogEntry

def deserialize (buf : Nat → UInt8) (dataLen pos : Nat) : Except ObErr (LogEntry × Nat) :=
  if dataLen = 0 then .error .invalidArgument
  else
    match LogEntryHeader.deserialize buf dataLen pos with
    | .error e => .error e
    | .ok (header,newPos) =>
      if dataLen - newPos < header.getDataLen then .error .bufNotEnough
      else .ok (⟨header,newPos⟩,newPos + header.getDataLen)

def checkIntegrity (crc : ObCrc64) (buf : Nat → UInt8) (e : LogEntry) : Bool :=
  e.header.checkIntegrity crc (fun i => buf (e.buf + i)) e.header.getDataLen

theorem deserialize_of_header {buf : Nat → UInt8} {dataLen pos : Nat} {h : LogEntryHeader}
    (hdec : LogEntryHeader.decode buf pos = h) (hi : h.checkHeaderIntegrity = true)
    (hlen : pos + LogEntryHeader.headerSerSize + h.getDataLen ≤ dataLen) :
    deserialize buf dataLen pos =
      .ok (⟨h,pos + LogEntryHeader.headerSerSize⟩,pos + LogEntryHeader.headerSerSize + h.getDataLen) := by
  have hne : dataLen ≠ 0 := by simp only [LogEntryHeader.headerSerSize] at hlen; omega
  simp only [deserialize,if_neg hne]
  rw [LogEntryHeader.deserialize_of_le (by omega),hdec,if_pos hi]
  simp only [LogEntryHeader.headerSerSize] at hlen ⊢
  rw [if_neg (by omega)]

end LogEntry

end Palf
end OceanBase
