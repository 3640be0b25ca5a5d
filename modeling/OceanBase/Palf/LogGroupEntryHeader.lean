import OceanBase.Palf.LogEntryHeader
import OceanBase.Palf.LogWriteBuf

/-! `LogGroupEntryHeader` (`log_group_entry_header.cpp`): the 56-byte header of a group log and
the two walks over the entries of its body that compute the group's data checksum.

The writer's `calculate_log_checksum_` walks the group as `LogGroupBuffer::get_log_buf` hands it
over, a `LogWriteBuf` of one or two segments of the ring buffer, and rejoins in `tmp_buf` an entry
header that the ring's end cut in two. The reader's `check_log_checksum_` walks the contiguous
body. The walks are related by a simulation: a state of the segmented loop stands at a byte of
the group entry (`CalcState.At`), and each round moves it over one entry, as one round of the
contiguous loop does. -/
namespace OceanBase
namespace Palf

open Common

/-- `LogGroupEntryHeader`; `committedEndLsn` is `committed_end_lsn_.val_` and `maxScn` is
`max_scn_.val_`. -/
structure LogGroupEntryHeader where
  magic : BitVec 16
  version : BitVec 16
  groupSize : BitVec 32
  proposalId : BitVec 64
  committedEndLsn : BitVec 64
  maxScn : BitVec 64
  accumulatedChecksum : BitVec 64
  logId : BitVec 64
  flag : BitVec 64
  deriving DecidableEq, Repr

/-- The step both walks fold: `ob_crc64(checksum, &data_checksum, sizeof(data_checksum))`, the
checksum continued over the in-memory bytes of an entry's `data_checksum_`. -/
def accumDataChecksum (crc : ObCrc64) (acc dataChecksum : BitVec 64) : BitVec 64 :=
  crc acc (Lib.leImage dataChecksum.toNat) 8

/-- `Entries crc buf dataLen off hs`: from `off` to `dataLen`, `buf` holds serialized log entries
with headers `hs`, one after another, each a header that passes `check_header_integrity`
followed by its `log_size_` bytes of data, which pass the header's `check_integrity`. -/
inductive Entries (crc : ObCrc64) (buf : Nat → UInt8) (dataLen : Nat) :
    Nat → List LogEntryHeader → Prop
  | nil : Entries crc buf dataLen dataLen []
  | cons {off : Nat} {h : LogEntryHeader} {hs : List LogEntryHeader} :
      LogEntryHeader.decode buf off = h → h.checkHeaderIntegrity = true →
      h.checkIntegrity crc (fun i => buf (off + LogEntryHeader.headerSerSize + i)) h.getDataLen = true →
      Entries crc buf dataLen (off + LogEntryHeader.headerSerSize + h.getDataLen) hs →
      Entries crc buf dataLen off (h :: hs)

theorem Entries.add_le {crc : ObCrc64} {buf : Nat → UInt8} {dataLen off : Nat}
    {hs : List LogEntryHeader} (he : Entries crc buf dataLen off hs) :
    off + 33 * hs.length ≤ dataLen := by
  induction he with
  | nil => simp
  | cons _ hi _ _ ih =>
    have hpos := LogEntryHeader.getDataLen_pos hi
    simp only [LogEntryHeader.headerSerSize,List.length_cons] at ih ⊢
    omega

namespace LogGroupEntryHeader

def groupMagic : BitVec 16 := 0x4752

def logGroupEntryHeaderVersion : BitVec 16 := 1

def paddingTypeMask : BitVec 64 := 2

def rawWriteMask : BitVec 64 := 4

def paddingLogDataChecksum : BitVec 64 := 0

def reset : LogGroupEntryHeader where
  magic := 0
  version := 0
  groupSize := 0
  proposalId := BitVec.ofNat 64 invalidProposalId
  committedEndLsn := BitVec.ofNat 64 logInvalidLsnVal
  maxScn := BitVec.ofNat 64 obInvalidScnVal
  accumulatedChecksum := 0
  logId := 0
  flag := 0

/-- `get_header_parity_check_res_`: the parity of every field, with bit 0 of `flag_` masked. -/
def getHeaderParityCheckRes_ (g : LogGroupEntryHeader) : Bool :=
  parityCheck16 g.magic ^^ parityCheck16 g.version ^^ parityCheck32 g.groupSize ^^
    parityCheck64 g.proposalId ^^ parityCheck64 g.committedEndLsn ^^ parityCheck64 g.maxScn ^^
    parityCheck64 g.accumulatedChecksum ^^ parityCheck64 g.logId ^^ parityCheck64 (g.flag &&& ~~~1)

/-- `update_header_checksum_`: bit 0 of `flag_` becomes the parity, set or cleared. -/
def updateHeaderChecksum_ (g : LogGroupEntryHeader) : LogGroupEntryHeader :=
  if g.getHeaderParityCheckRes_ then { g with flag := g.flag ||| 1 }
  else { g with flag := g.flag &&& ~~~1 }

def updateHeaderChecksum (g : LogGroupEntryHeader) : LogGroupEntryHeader := g.updateHeaderChecksum_

def checkHeaderChecksum_ (g : LogGroupEntryHeader) : Bool :=
  (if g.getHeaderParityCheckRes_ then (1 : BitVec 64) else 0) == (g.flag &&& 1)

def isPaddingLog (g : LogGroupEntryHeader) : Bool := g.flag &&& paddingTypeMask != 0

/-! ## The reader's walk -/

/-- The loop of `check_log_checksum_` from `pos`, with the fold `acc` so far: deserialize an
entry, check its integrity, fold its data checksum, until `pos` reaches `data_len`. `none` is
the walk's `false`. A round that goes on moves `pos` past a header, so `data_len + 1` rounds of
fuel are enough. -/
def checkLogChecksumLoop (crc : ObCrc64) (buf : Nat → UInt8) (dataLen : Nat) :
    Nat → Nat → BitVec 64 → Option (BitVec 64)
  | 0, _, _ => none
  | fuel + 1, pos, acc =>
    if pos < dataLen then
      match LogEntry.deserialize buf dataLen pos with
      | .error _ => none
      | .ok (e,pos') =>
        if e.checkIntegrity crc buf then
          checkLogChecksumLoop crc buf dataLen fuel pos' (accumDataChecksum crc acc e.header.dataChecksum)
        else none
    else some acc

/-- `check_log_checksum_(buf, data_len, group_data_checksum)`: `some c` is `true` with
`group_data_checksum = c`, `none` is `false`. A padding group is not walked. A null `buf` and a
negative `data_len` are not modelled. -/
def checkLogChecksum_ (crc : ObCrc64) (g : LogGroupEntryHeader) (buf : Nat → UInt8) (dataLen : Nat) :
    Option (BitVec 64) :=
  if g.isPaddingLog then some paddingLogDataChecksum
  else checkLogChecksumLoop crc buf dataLen (dataLen + 1) 0 0

/-- `check_integrity(buf, buf_len, group_log_checksum)`: the magic, the header parity and the
walk; `some c` is `true` with the checksum `c`. -/
def checkIntegrity (crc : ObCrc64) (g : LogGroupEntryHeader) (buf : Nat → UInt8) (bufLen : Nat) :
    Option (BitVec 64) :=
  if g.magic ≠ groupMagic then none
  else if !g.checkHeaderChecksum_ then none
  else g.checkLogChecksum_ crc buf bufLen

/-! ## The writer's walk -/

/-- The locals the loop of `calculate_log_checksum_` carries from round to round: the segment it
is in (`buf_idx`, `curr_log_buf`, `curr_buf_len`), `pos` in that segment and the fold so far. -/
structure CalcState where
  bufIdx : Nat
  currLogBuf : Nat
  currBufLen : Nat
  pos : Nat
  tmpLogChecksum : BitVec 64
  deriving DecidableEq, Repr

/-- The end of a round: the header just read passes `check_header_integrity`, its data
checksum is folded in, and `pos`, at the header's end, moves past the data. -/
def foldHeader (crc : ObCrc64) (s : CalcState) (h : LogEntryHeader) :
    Except ObErr (BitVec 64) ⊕ CalcState :=
  if h.checkHeaderIntegrity then
    .inr { s with
      pos := s.pos + h.getDataLen
      tmpLogChecksum := accumDataChecksum crc s.tmpLogChecksum h.dataChecksum }
  else .inl (.error .errUnexpected)

/-- A round's read of a header that lies in the current segment,
`log_entry_header.deserialize(curr_log_buf, curr_buf_len, pos)`, and the end of the round. -/
def readInPlace (crc : ObCrc64) (mem : Nat → UInt8) (s : CalcState) :
    Except ObErr (BitVec 64) ⊕ CalcState :=
  match LogEntryHeader.deserialize (fun i => mem (s.currLogBuf + i)) s.currBufLen s.pos with
  | .error e => .inl (.error e)
  | .ok (h,pos) => foldHeader crc { s with pos := pos } h

/-- One round of the loop of `calculate_log_checksum_`: `none` is a failed `ob_assert`,
`some (.inl r)` leaves the loop with `ret = r`, and `some (.inr s)` goes round again. -/
def calcRound (crc : ObCrc64) (w : LogWriteBuf) (mem : Nat → UInt8) (s : CalcState) :
    Option (Except ObErr (BitVec 64) ⊕ CalcState) :=
  let logHeaderSize := LogEntryHeader.headerSerSize
  if s.currBufLen ≤ s.pos then
    if w.getBufCount ≤ s.bufIdx + 1 then some (.inl (.ok s.tmpLogChecksum))
    else
      -- switch to the next segment; a header that starts exactly there is read in place
      let pos := s.pos - s.currBufLen
      let bufIdx := s.bufIdx + 1
      match w.getWriteBuf bufIdx with
      | .error e =>
        -- `curr_buf_len` keeps the old length: the loop breaks, or ends on `ret` after the
        -- `ob_assert(pos < curr_buf_len)`
        if pos ≤ s.currBufLen then some (.inl (.error e)) else none
      | .ok (buf,len) =>
        if pos = len then some (.inl (.ok s.tmpLogChecksum))
        else if pos < len then some (readInPlace crc mem ⟨bufIdx,buf,len,pos,s.tmpLogChecksum⟩)
        else none
  else if s.currBufLen - s.pos < logHeaderSize then
    -- the header is cut by the segment's end: its first `curr_copy_size` bytes end this
    -- segment and the rest begin the next; `tmp_buf` joins them
    let currCopySize := s.currBufLen - s.pos
    let bufIdx := s.bufIdx + 1
    if w.getBufCount ≤ bufIdx then none
    else
      match w.getWriteBuf bufIdx with
      | .error e => some (.inl (.error e))
      | .ok (buf,len) =>
        let tmpBuf : Nat → UInt8 := fun i =>
          if i < currCopySize then mem (s.currLogBuf + s.pos + i) else mem (buf + (i - currCopySize))
        match LogEntryHeader.deserialize tmpBuf logHeaderSize 0 with
        | .error e => some (.inl (.error e))
        | .ok (h,_) =>
          some (foldHeader crc ⟨bufIdx,buf,len,logHeaderSize - currCopySize,s.tmpLogChecksum⟩ h)
  else some (readInPlace crc mem s)

/-- The loop of `calculate_log_checksum_`, by rounds; fuel runs out as `none`. -/
def calcLoop (crc : ObCrc64) (w : LogWriteBuf) (mem : Nat → UInt8) :
    Nat → CalcState → Option (Except ObErr (BitVec 64))
  | 0, _ => none
  | fuel + 1, s =>
    match calcRound crc w mem s with
    | none => none
    | some (.inl r) => some r
    | some (.inr s') => calcLoop crc w mem fuel s'

/-- `calculate_log_checksum_(is_padding_log, log_write_buf, data_len, data_checksum)`: the
segments' bytes are read from `mem`; `none` is a failed `ob_assert`, `some (.ok c)` sets
`data_checksum = c`. Every round that goes on passes a header or a segment, so the total size
and the count of segments bound the rounds. -/
def calculateLogChecksum_ (crc : ObCrc64) (isPaddingLog : Bool) (w : LogWriteBuf)
    (mem : Nat → UInt8) (dataLen : Nat) : Option (Except ObErr (BitVec 64)) :=
  if !w.isValid then some (.error .invalidArgument)
  else if isPaddingLog then some (.ok paddingLogDataChecksum)
  else if dataLen + LogGroupEntryHeader.headerSerSize ≠ w.getTotalSize then none
  else
    match w.getWriteBuf 0 with
    | .error e => some (.error e)
    | .ok (buf,len) =>
      calcLoop crc w mem (w.getTotalSize + w.getBufCount + 1)
        ⟨0,buf,len,LogGroupEntryHeader.headerSerSize,0⟩

/-- `generate`: the header it is called on, with the fields set and the flags `or`-ed in, and
the result of `calculate_log_checksum_`. A failed argument check leaves the header. -/
def generate (g : LogGroupEntryHeader) (crc : ObCrc64) (isRawWrite isPaddingLog : Bool)
    (w : LogWriteBuf) (mem : Nat → UInt8) (dataLen : Nat)
    (maxScn logId committedEndLsn logProposalId : BitVec 64) :
    Option (LogGroupEntryHeader × Except ObErr (BitVec 64)) :=
  if !scnIsValid maxScn.toNat || !isValidLogId logId.toInt || !lsnIsValid committedEndLsn.toNat ||
      logProposalId.toNat == invalidProposalId then
    some (g,.error .invalidArgument)
  else
    let g' : LogGroupEntryHeader := { g with
      magic := groupMagic
      version := logGroupEntryHeaderVersion
      groupSize := BitVec.ofNat 32 dataLen
      maxScn := maxScn
      logId := logId
      committedEndLsn := committedEndLsn
      proposalId := logProposalId
      flag := g.flag ||| (if isPaddingLog then paddingTypeMask else 0) |||
        (if isRawWrite then rawWriteMask else 0) }
    (calculateLogChecksum_ crc isPaddingLog w mem dataLen).map fun r => (g',r)


def checksumOf (crc : ObCrc64) (hs : List LogEntryHeader) : BitVec 64 :=
  hs.foldl (fun acc h => accumDataChecksum crc acc h.dataChecksum) 0

theorem checkLogChecksumLoop_of_entries {crc : ObCrc64} {buf : Nat → UInt8} {dataLen off : Nat}
    {hs : List LogEntryHeader} (he : Entries crc buf dataLen off hs) :
    ∀ fuel acc, hs.length < fuel →
      checkLogChecksumLoop crc buf dataLen fuel off acc =
        some (hs.foldl (fun acc h => accumDataChecksum crc acc h.dataChecksum) acc) := by
  induction he with
  | nil =>
    intro fuel acc hfuel
    obtain ⟨fuel,rfl⟩ : ∃ f, fuel = f + 1 := ⟨fuel - 1,by simp at hfuel; omega⟩
    simp [checkLogChecksumLoop]
  | @cons off h hs hdec hi hdata hrest ih =>
    intro fuel acc hfuel
    obtain ⟨fuel,rfl⟩ : ∃ f, fuel = f + 1 := ⟨fuel - 1,by simp at hfuel; omega⟩
    have hle := hrest.add_le
    have hpos := LogEntryHeader.getDataLen_pos hi
    simp only [LogEntryHeader.headerSerSize] at hle
    simp only [checkLogChecksumLoop]
    rw [if_pos (by omega),LogEntry.deserialize_of_header hdec hi (by simp only [LogEntryHeader.headerSerSize]; omega)]
    simp only [LogEntry.checkIntegrity,hdata,if_true,List.foldl_cons]
    exact ih fuel _ (by simp at hfuel; omega)

theorem checkLogChecksum_of_entries {crc : ObCrc64} {g : LogGroupEntryHeader} {buf : Nat → UInt8}
    {dataLen : Nat} {hs : List LogEntryHeader} (hpad : g.isPaddingLog = false)
    (he : Entries crc buf dataLen 0 hs) : g.checkLogChecksum_ crc buf dataLen = some (checksumOf crc hs) := by
  have hle := he.add_le
  simp only [checkLogChecksum_,hpad]
  exact checkLogChecksumLoop_of_entries he _ _ (by omega)

theorem getHeaderParityCheckRes_with_flag (g : LogGroupEntryHeader) {f : BitVec 64}
    (hf : f &&& ~~~1 = g.flag &&& ~~~1) :
    ({ g with flag := f } : LogGroupEntryHeader).getHeaderParityCheckRes_ = g.getHeaderParityCheckRes_ := by
  simp only [getHeaderParityCheckRes_,hf]

theorem checkHeaderChecksum_updateHeaderChecksum_ (g : LogGroupEntryHeader) :
    g.updateHeaderChecksum_.checkHeaderChecksum_ = true := by
  by_cases hp : g.getHeaderParityCheckRes_ = true
  · have hmask : (g.flag ||| 1) &&& ~~~1 = g.flag &&& ~~~1 := by
      rw [BitVec.and_or_distrib_right,show (1 : BitVec 64) &&& ~~~1 = 0 by decide]
      simp
    have hbit : (g.flag ||| 1) &&& 1 = 1 := by grind
    simp only [updateHeaderChecksum_,if_pos hp,checkHeaderChecksum_,
      getHeaderParityCheckRes_with_flag g hmask,hbit]
    simp
  · have hmask : (g.flag &&& ~~~1) &&& ~~~1 = g.flag &&& ~~~1 := by
      rw [BitVec.and_assoc,BitVec.and_self]
    have hbit : (g.flag &&& ~~~1) &&& 1 = 0 := by
      rw [BitVec.and_assoc,show (~~~1 : BitVec 64) &&& 1 = 0 by decide]
      simp
    simp only [updateHeaderChecksum_,if_neg hp,checkHeaderChecksum_,
      getHeaderParityCheckRes_with_flag g hmask,hbit]
    simp

/-! ## The writer's walk simulates the reader's -/

/-- `w` holds, gathered from `mem` into `dst`, a group entry whose body is the `dataLen` bytes of
`body`, in one or two segments of which `a` is the first. -/
structure GroupLayout (w : LogWriteBuf) (mem dst body : Nat → UInt8) (dataLen : Nat)
    (a : InnerStruct) (rest : List InnerStruct) : Prop where
  write_buf : w.writeBuf = a :: rest
  rest_le : rest.length ≤ 1
  total : w.getTotalSize = LogGroupEntryHeader.headerSerSize + dataLen
  body_eq : ∀ j < dataLen, w.memcpyToContinousMemory mem dst (LogGroupEntryHeader.headerSerSize + j) = body j

/-- Where the loop of `calculate_log_checksum_` stands when it has come `g` bytes into the group
entry: in the first segment `a` at `pos = g`, or in the second at `pos = g - len(a)`. -/
def CalcState.At (a : InnerStruct) (rest : List InnerStruct) (s : CalcState) (g : Nat) : Prop :=
  (s.bufIdx = 0 ∧ s.currLogBuf = a.buf ∧ s.currBufLen = a.bufLen ∧ s.pos = g) ∨
    ∃ b, rest = [b] ∧ s.bufIdx = 1 ∧ s.currLogBuf = b.buf ∧ s.currBufLen = b.bufLen ∧
      a.bufLen ≤ g ∧ s.pos = g - a.bufLen

namespace GroupLayout

variable {w : LogWriteBuf} {mem dst body : Nat → UInt8} {dataLen : Nat} {a : InnerStruct}
  {rest : List InnerStruct}

theorem getTotalSize_eq (L : GroupLayout w mem dst body dataLen a rest) :
    a.bufLen + (rest.map InnerStruct.bufLen).sum = LogGroupEntryHeader.headerSerSize + dataLen := by
  rw [← L.total]
  simp [LogWriteBuf.getTotalSize,L.write_buf]

theorem getBufCount_eq (L : GroupLayout w mem dst body dataLen a rest) :
    w.getBufCount = rest.length + 1 := by
  simp [LogWriteBuf.getBufCount,L.write_buf]

theorem first (L : GroupLayout w mem dst body dataLen a rest) {j : Nat} (hj : j < dataLen)
    (hp : LogGroupEntryHeader.headerSerSize + j < a.bufLen) :
    mem (a.buf + (LogGroupEntryHeader.headerSerSize + j)) = body j := by
  rw [← L.body_eq j hj,LogWriteBuf.memcpyToContinousMemory_of_lt_first L.write_buf _ _ hp]

theorem second (L : GroupLayout w mem dst body dataLen a rest) {b : InnerStruct}
    (hb : rest = [b]) {j : Nat} (hj : j < dataLen)
    (hp : a.bufLen ≤ LogGroupEntryHeader.headerSerSize + j) :
    mem (b.buf + (LogGroupEntryHeader.headerSerSize + j - a.bufLen)) = body j := by
  have htot := L.getTotalSize_eq
  simp only [hb,List.map_cons,List.map_nil,List.sum_cons,List.sum_nil] at htot
  rw [← L.body_eq j hj,LogWriteBuf.memcpyToContinousMemory_of_second (hb ▸ L.write_buf) _ _ hp
    (by omega)]

theorem exists_second (L : GroupLayout w mem dst body dataLen a rest)
    (h : a.bufLen < LogGroupEntryHeader.headerSerSize + dataLen) : ∃ b, rest = [b] := by
  have htot := L.getTotalSize_eq
  have hle := L.rest_le
  match rest,htot,hle with
  | [],htot,_ => simp at htot; omega
  | [b],_,_ => exact ⟨b,rfl⟩

theorem getWriteBuf_first (L : GroupLayout w mem dst body dataLen a rest) :
    w.getWriteBuf 0 = .ok (a.buf,a.bufLen) := by
  simp [LogWriteBuf.getWriteBuf,L.write_buf]

theorem getWriteBuf_second (L : GroupLayout w mem dst body dataLen a rest) {b : InnerStruct}
    (hb : rest = [b]) : w.getWriteBuf 1 = .ok (b.buf,b.bufLen) := by
  simp [LogWriteBuf.getWriteBuf,L.write_buf,hb]

theorem decode_first (L : GroupLayout w mem dst body dataLen a rest) {off : Nat}
    (hoff : off + LogEntryHeader.headerSerSize ≤ dataLen)
    (hp : LogGroupEntryHeader.headerSerSize + off + LogEntryHeader.headerSerSize ≤ a.bufLen) :
    LogEntryHeader.decode (fun i => mem (a.buf + i)) (LogGroupEntryHeader.headerSerSize + off) =
      LogEntryHeader.decode body off := by
  apply LogEntryHeader.decode_congr
  intro i hi
  rw [Nat.add_assoc]
  exact L.first (by omega) (by omega)

theorem decode_second (L : GroupLayout w mem dst body dataLen a rest) {b : InnerStruct}
    (hb : rest = [b]) {off : Nat} (hoff : off + LogEntryHeader.headerSerSize ≤ dataLen)
    (hp : a.bufLen ≤ LogGroupEntryHeader.headerSerSize + off) :
    LogEntryHeader.decode (fun i => mem (b.buf + i)) (LogGroupEntryHeader.headerSerSize + off - a.bufLen) =
      LogEntryHeader.decode body off := by
  apply LogEntryHeader.decode_congr
  intro i hi
  rw [← L.second hb (j := off + i) (by omega) (by omega)]
  congr 1
  omega

theorem decode_split (L : GroupLayout w mem dst body dataLen a rest) {b : InnerStruct}
    (hb : rest = [b]) {off : Nat} (hoff : off + LogEntryHeader.headerSerSize ≤ dataLen)
    (hp : LogGroupEntryHeader.headerSerSize + off < a.bufLen) :
    LogEntryHeader.decode (fun i =>
        if i < a.bufLen - (LogGroupEntryHeader.headerSerSize + off) then
          mem (a.buf + (LogGroupEntryHeader.headerSerSize + off) + i)
        else mem (b.buf + (i - (a.bufLen - (LogGroupEntryHeader.headerSerSize + off))))) 0 =
      LogEntryHeader.decode body off := by
  apply LogEntryHeader.decode_congr
  intro i hi
  simp only [Nat.zero_add]
  split
  · rw [Nat.add_assoc,Nat.add_assoc]
    exact L.first (j := off + i) (by omega) (by omega)
  · rw [← L.second hb (j := off + i) (by omega) (by omega)]
    congr 1
    omega

end GroupLayout

theorem readInPlace_of_header (crc : ObCrc64) (mem : Nat → UInt8) {s : CalcState}
    {h : LogEntryHeader} (hfit : s.pos + LogEntryHeader.headerSerSize ≤ s.currBufLen)
    (hdec : LogEntryHeader.decode (fun i => mem (s.currLogBuf + i)) s.pos = h)
    (hi : h.checkHeaderIntegrity = true) :
    readInPlace crc mem s = .inr { s with
      pos := s.pos + LogEntryHeader.headerSerSize + h.getDataLen
      tmpLogChecksum := accumDataChecksum crc s.tmpLogChecksum h.dataChecksum } := by
  simp only [readInPlace]
  rw [LogEntryHeader.deserialize_of_le hfit,hdec,if_pos hi]
  simp only [foldHeader,if_pos hi]
  rfl

theorem and_paddingTypeMask_of_or {x c : BitVec 64} (hc : c &&& paddingTypeMask = 0) :
    (x ||| c) &&& paddingTypeMask = x &&& paddingTypeMask := by
  rw [BitVec.and_or_distrib_right,hc]
  simp

theorem isPaddingLog_updateHeaderChecksum_ (g : LogGroupEntryHeader) :
    g.updateHeaderChecksum_.isPaddingLog = g.isPaddingLog := by
  unfold updateHeaderChecksum_
  split
  · simp only [isPaddingLog]
    rw [and_paddingTypeMask_of_or (by decide)]
  · simp only [isPaddingLog]
    rw [BitVec.and_assoc,show (~~~1 : BitVec 64) &&& paddingTypeMask = paddingTypeMask by decide]

theorem magic_updateHeaderChecksum_ (g : LogGroupEntryHeader) :
    g.updateHeaderChecksum_.magic = g.magic := by
  unfold updateHeaderChecksum_
  split <;> rfl

theorem checkIntegrity_updateHeaderChecksum (crc : ObCrc64) {g : LogGroupEntryHeader}
    (hmagic : g.magic = groupMagic) (buf : Nat → UInt8) (bufLen : Nat) :
    g.updateHeaderChecksum.checkIntegrity crc buf bufLen = g.checkLogChecksum_ crc buf bufLen := by
  simp only [updateHeaderChecksum,checkIntegrity,magic_updateHeaderChecksum_,hmagic,
    checkHeaderChecksum_updateHeaderChecksum_,ne_eq,not_true_eq_false,if_false,Bool.not_true,
    Bool.false_eq_true,checkLogChecksum_,isPaddingLog_updateHeaderChecksum_]

theorem generate_of_valid (g : LogGroupEntryHeader) (crc : ObCrc64) (isRawWrite isPaddingLog : Bool)
    (w : LogWriteBuf) (mem : Nat → UInt8) (dataLen : Nat) {maxScn logId committedEndLsn logProposalId : BitVec 64}
    (hscn : scnIsValid maxScn.toNat = true) (hid : isValidLogId logId.toInt = true)
    (hlsn : lsnIsValid committedEndLsn.toNat = true) (hpid : logProposalId.toNat ≠ invalidProposalId) :
    g.generate crc isRawWrite isPaddingLog w mem dataLen maxScn logId committedEndLsn logProposalId =
      (calculateLogChecksum_ crc isPaddingLog w mem dataLen).map fun r => ({ g with
        magic := groupMagic
        version := logGroupEntryHeaderVersion
        groupSize := BitVec.ofNat 32 dataLen
        maxScn := maxScn
        logId := logId
        committedEndLsn := committedEndLsn
        proposalId := logProposalId
        flag := g.flag ||| (if isPaddingLog then paddingTypeMask else 0) |||
          (if isRawWrite then rawWriteMask else 0) },r) := by
  simp [generate,hscn,hid,hlsn,hpid]

section Walk

variable {crc : ObCrc64} {w : LogWriteBuf} {mem dst body : Nat → UInt8} {dataLen : Nat}
  {a : InnerStruct} {rest : List InnerStruct}

theorem readInPlace_second (L : GroupLayout w mem dst body dataLen a rest) {b : InnerStruct}
    (hb : rest = [b]) {off : Nat} (acc : BitVec 64) {h : LogEntryHeader}
    (hge : a.bufLen ≤ LogGroupEntryHeader.headerSerSize + off)
    (hdec : LogEntryHeader.decode body off = h) (hi : h.checkHeaderIntegrity = true)
    (hfit : off + LogEntryHeader.headerSerSize + h.getDataLen ≤ dataLen) :
    ∃ s', readInPlace crc mem ⟨1,b.buf,b.bufLen,LogGroupEntryHeader.headerSerSize + off - a.bufLen,acc⟩ =
        .inr s' ∧
      s'.At a rest (LogGroupEntryHeader.headerSerSize + (off + LogEntryHeader.headerSerSize + h.getDataLen)) ∧
      s'.tmpLogChecksum = accumDataChecksum crc acc h.dataChecksum := by
  have htot := L.getTotalSize_eq
  simp only [hb,List.map_cons,List.map_nil,List.sum_cons,List.sum_nil] at htot
  have h32 : LogEntryHeader.headerSerSize = 32 := rfl
  have h56 : LogGroupEntryHeader.headerSerSize = 56 := rfl
  rw [readInPlace_of_header crc mem
    (s := ⟨1,b.buf,b.bufLen,LogGroupEntryHeader.headerSerSize + off - a.bufLen,acc⟩) (by simp only; omega)
    ((L.decode_second hb (by omega) hge).trans hdec) hi]
  exact ⟨_,rfl,.inr ⟨b,hb,rfl,rfl,rfl,by omega,by simp only; omega⟩,rfl⟩

theorem calcRound_entry (crc : ObCrc64) (L : GroupLayout w mem dst body dataLen a rest) {s : CalcState}
    {off : Nat} {h : LogEntryHeader} (hat : s.At a rest (LogGroupEntryHeader.headerSerSize + off))
    (hdec : LogEntryHeader.decode body off = h) (hi : h.checkHeaderIntegrity = true)
    (hfit : off + LogEntryHeader.headerSerSize + h.getDataLen ≤ dataLen) :
    ∃ s', calcRound crc w mem s = some (.inr s') ∧
      s'.At a rest (LogGroupEntryHeader.headerSerSize + (off + LogEntryHeader.headerSerSize + h.getDataLen)) ∧
      s'.tmpLogChecksum = accumDataChecksum crc s.tmpLogChecksum h.dataChecksum := by
  have hpos := LogEntryHeader.getDataLen_pos hi
  have hcnt := L.getBufCount_eq
  have h32 : LogEntryHeader.headerSerSize = 32 := rfl
  have h56 : LogGroupEntryHeader.headerSerSize = 56 := rfl
  obtain ⟨bufIdx,currLogBuf,currBufLen,pos,acc⟩ := s
  rcases hat with ⟨rfl,rfl,rfl,rfl⟩ | ⟨b,hb,rfl,rfl,rfl,hge,rfl⟩
  · by_cases hin : LogGroupEntryHeader.headerSerSize + off + LogEntryHeader.headerSerSize ≤ a.bufLen
    · have hround : calcRound crc w mem ⟨0,a.buf,a.bufLen,LogGroupEntryHeader.headerSerSize + off,acc⟩ =
          some (readInPlace crc mem ⟨0,a.buf,a.bufLen,LogGroupEntryHeader.headerSerSize + off,acc⟩) := by
        simp only [calcRound]
        rw [if_neg (by omega),if_neg (by omega)]
      rw [hround,readInPlace_of_header crc mem
        (s := ⟨0,a.buf,a.bufLen,LogGroupEntryHeader.headerSerSize + off,acc⟩) hin
        ((L.decode_first (by omega) hin).trans hdec) hi]
      exact ⟨_,rfl,.inl ⟨rfl,rfl,rfl,by simp only; omega⟩,rfl⟩
    · obtain ⟨b,hb⟩ := L.exists_second (by omega)
      rw [hb] at hcnt
      by_cases hcut : LogGroupEntryHeader.headerSerSize + off < a.bufLen
      · have hround : calcRound crc w mem ⟨0,a.buf,a.bufLen,LogGroupEntryHeader.headerSerSize + off,acc⟩ =
            some (foldHeader crc ⟨1,b.buf,b.bufLen,
              LogEntryHeader.headerSerSize - (a.bufLen - (LogGroupEntryHeader.headerSerSize + off)),acc⟩ h) := by
          simp only [calcRound]
          rw [if_neg (by omega),if_pos (by omega),if_neg (by simp only [hcnt,List.length_singleton]; omega),
            L.getWriteBuf_second hb]
          dsimp only
          rw [LogEntryHeader.deserialize_of_le (by omega),L.decode_split hb (by omega) hcut,hdec,if_pos hi]
        rw [hround]
        simp only [foldHeader,if_pos hi]
        exact ⟨_,rfl,.inr ⟨b,hb,rfl,rfl,rfl,by omega,by simp only; omega⟩,rfl⟩
      · have htot := L.getTotalSize_eq
        simp only [hb,List.map_cons,List.map_nil,List.sum_cons,List.sum_nil] at htot
        have hround : calcRound crc w mem ⟨0,a.buf,a.bufLen,LogGroupEntryHeader.headerSerSize + off,acc⟩ =
            some (readInPlace crc mem
              ⟨1,b.buf,b.bufLen,LogGroupEntryHeader.headerSerSize + off - a.bufLen,acc⟩) := by
          simp only [calcRound]
          rw [if_pos (by omega),if_neg (by simp only [hcnt,List.length_singleton]; omega),
            L.getWriteBuf_second hb]
          dsimp only
          rw [if_neg (by omega),if_pos (by omega)]
        rw [hround]
        obtain ⟨s',hs',hat',hacc⟩ := readInPlace_second L hb acc (by omega) hdec hi hfit
        exact ⟨s',by rw [hs'],hat',hacc⟩
  · have htot := L.getTotalSize_eq
    simp only [hb,List.map_cons,List.map_nil,List.sum_cons,List.sum_nil] at htot
    have hround : calcRound crc w mem
        ⟨1,b.buf,b.bufLen,LogGroupEntryHeader.headerSerSize + off - a.bufLen,acc⟩ =
        some (readInPlace crc mem
          ⟨1,b.buf,b.bufLen,LogGroupEntryHeader.headerSerSize + off - a.bufLen,acc⟩) := by
      simp only [calcRound]
      rw [if_neg (by omega),if_neg (by omega)]
    rw [hround]
    obtain ⟨s',hs',hat',hacc⟩ := readInPlace_second L hb acc hge hdec hi hfit
    exact ⟨s',by rw [hs'],hat',hacc⟩

theorem calcRound_end (L : GroupLayout w mem dst body dataLen a rest) {s : CalcState}
    (hat : s.At a rest (LogGroupEntryHeader.headerSerSize + dataLen)) :
    calcRound crc w mem s = some (.inl (.ok s.tmpLogChecksum)) := by
  have htot := L.getTotalSize_eq
  have hcnt := L.getBufCount_eq
  obtain ⟨bufIdx,currLogBuf,currBufLen,pos,acc⟩ := s
  rcases hat with ⟨rfl,rfl,rfl,rfl⟩ | ⟨b,hb,rfl,rfl,rfl,hge,rfl⟩
  · simp only [calcRound]
    rcases L.rest_le.lt_or_eq with hlen | hlen
    · have hnil : rest = [] := List.length_eq_zero_iff.mp (by omega)
      simp only [hnil,List.map_nil,List.sum_nil,Nat.add_zero] at htot
      rw [if_pos (by omega),if_pos (by simp only [hcnt]; omega)]
    · obtain ⟨b,hb⟩ := List.length_eq_one_iff.mp hlen
      simp only [hb,List.map_cons,List.map_nil,List.sum_cons,List.sum_nil,Nat.add_zero] at htot
      rw [if_pos (by omega),if_neg (by simp only [hcnt,hb,List.length_singleton]; omega),
        L.getWriteBuf_second hb]
      dsimp only
      rw [if_pos (by omega)]
  · simp only [hb,List.map_cons,List.map_nil,List.sum_cons,List.sum_nil,Nat.add_zero] at htot
    simp only [calcRound]
    rw [if_pos (by omega),if_pos (by simp only [hcnt,hb,List.length_singleton]; omega)]

theorem calcLoop_of_entries (L : GroupLayout w mem dst body dataLen a rest) {off : Nat}
    {hs : List LogEntryHeader} (he : Entries crc body dataLen off hs) :
    ∀ fuel (s : CalcState), s.At a rest (LogGroupEntryHeader.headerSerSize + off) → hs.length < fuel →
      calcLoop crc w mem fuel s =
        some (.ok (hs.foldl (fun acc h => accumDataChecksum crc acc h.dataChecksum) s.tmpLogChecksum)) := by
  induction he with
  | nil =>
    intro fuel s hat hfuel
    obtain ⟨fuel,rfl⟩ : ∃ f, fuel = f + 1 := ⟨fuel - 1,by simp at hfuel; omega⟩
    simp only [calcLoop,calcRound_end L hat,List.foldl_nil]
  | @cons off h hs hdec hi _ hrest ih =>
    intro fuel s hat hfuel
    obtain ⟨fuel,rfl⟩ : ∃ f, fuel = f + 1 := ⟨fuel - 1,by simp at hfuel; omega⟩
    have hle := hrest.add_le
    obtain ⟨s',hround,hat',hacc⟩ := calcRound_entry crc L hat hdec hi (by omega)
    simp only [calcLoop,hround,List.foldl_cons]
    rw [ih fuel s' hat' (by simp at hfuel; omega),hacc]

theorem calculateLogChecksum_of_entries (L : GroupLayout w mem dst body dataLen a rest)
    {hs : List LogEntryHeader} (he : Entries crc body dataLen 0 hs) :
    calculateLogChecksum_ crc false w mem dataLen = some (.ok (checksumOf crc hs)) := by
  have hle := he.add_le
  have hvalid : w.isValid = true := by simp [LogWriteBuf.isValid,L.write_buf]
  have htot := L.total
  simp only [calculateLogChecksum_,hvalid,Bool.not_true,Bool.false_eq_true,if_false]
  rw [if_neg (by omega),L.getWriteBuf_first]
  dsimp only
  exact calcLoop_of_entries L he _ _ (.inl ⟨rfl,rfl,rfl,rfl⟩) (by omega)

/-- Both walks fold the same checksum over a body of well-formed entries, however
`get_log_buf` cut the group entry into one or two segments, so a header built by `generate` and
`update_header_checksum` passes `check_integrity` on the body. -/
theorem calculateLogChecksum_eq_checkLogChecksum (crc : ObCrc64) {w : LogWriteBuf}
    {mem dst body : Nat → UInt8} {dataLen : Nat} {hs : List LogEntryHeader}
    (hcnt : 0 < w.getBufCount ∧ w.getBufCount ≤ 2)
    (htotal : w.getTotalSize = LogGroupEntryHeader.headerSerSize + dataLen)
    (hbody : ∀ j < dataLen,
      w.memcpyToContinousMemory mem dst (LogGroupEntryHeader.headerSerSize + j) = body j)
    (hwf : Entries crc body dataLen 0 hs) :
    calculateLogChecksum_ crc false w mem dataLen = some (.ok (checksumOf crc hs)) ∧
    (∀ g : LogGroupEntryHeader, g.isPaddingLog = false →
      g.checkLogChecksum_ crc body dataLen = some (checksumOf crc hs)) ∧
    ∀ (g₀ : LogGroupEntryHeader) (isRawWrite : Bool) (maxScn logId committedEndLsn logProposalId : BitVec 64),
      g₀.isPaddingLog = false → scnIsValid maxScn.toNat = true → isValidLogId logId.toInt = true →
      lsnIsValid committedEndLsn.toNat = true → logProposalId.toNat ≠ invalidProposalId →
      ∃ g, g₀.generate crc isRawWrite false w mem dataLen maxScn logId committedEndLsn logProposalId =
          some (g,.ok (checksumOf crc hs)) ∧
        g.updateHeaderChecksum.checkIntegrity crc body dataLen = some (checksumOf crc hs) := by
  obtain ⟨a,rest,hw⟩ : ∃ a rest, w.writeBuf = a :: rest := by
    cases hwb : w.writeBuf with
    | nil => simp [LogWriteBuf.getBufCount,hwb] at hcnt
    | cons a rest => exact ⟨a,rest,rfl⟩
  have L : GroupLayout w mem dst body dataLen a rest :=
    ⟨hw,by simp [LogWriteBuf.getBufCount,hw] at hcnt; omega,htotal,hbody⟩
  have hcalc := calculateLogChecksum_of_entries L hwf
  refine ⟨hcalc,fun g hpad => checkLogChecksum_of_entries hpad hwf,?_⟩
  intro g₀ isRawWrite maxScn logId committedEndLsn logProposalId hpad hscn hid hlsn hpid
  refine ⟨_,by rw [generate_of_valid g₀ crc isRawWrite false w mem dataLen hscn hid hlsn hpid,hcalc]; rfl,?_⟩
  rw [checkIntegrity_updateHeaderChecksum crc rfl]
  apply checkLogChecksum_of_entries _ hwf
  simp only [isPaddingLog] at hpad ⊢
  rw [and_paddingTypeMask_of_or (by cases isRawWrite <;> decide),
    and_paddingTypeMask_of_or (by decide),hpad]

end Walk

/-- The body of a group of one entry: its header (`'LH'`, version 1, one byte of data, SCN 0,
data checksum 0, the parity bit set) and the byte `0x2A`. -/
def splitBody : Nat → UInt8 := fun j =>
  if j = 0 then 0x4C else if j = 1 then 0x48 else if j = 3 ∨ j = 7 ∨ j = 31 then 1
  else if j = 32 then 0x2A else 0

/-- The ring holds the group entry from address 100 to its end at 170, which cuts the entry's
header after 14 bytes, and the rest from address 0. -/
def splitMem : Nat → UInt8 := fun p => if 100 ≤ p then splitBody (p - 156) else splitBody (p + 14)

def splitWriteBuf : LogWriteBuf := ⟨[⟨100,70⟩,⟨0,19⟩]⟩

def splitHeader : LogEntryHeader := ⟨0x4C48,1,1,0,0,1⟩

theorem calculateLogChecksum_split :
    calculateLogChecksum_ (fun _ _ _ => 0) false splitWriteBuf splitMem 33 =
      some (.ok (checksumOf (fun _ _ _ => 0) [splitHeader])) := by
  have hcnt : 0 < splitWriteBuf.getBufCount ∧ splitWriteBuf.getBufCount ≤ 2 := by decide
  have htotal : splitWriteBuf.getTotalSize = LogGroupEntryHeader.headerSerSize + 33 := by decide
  have hbody : ∀ j < 33, splitWriteBuf.memcpyToContinousMemory splitMem (fun _ => 0)
      (LogGroupEntryHeader.headerSerSize + j) = splitBody j := by decide +kernel
  have hwf : Entries (fun _ _ _ => 0) splitBody 33 0 [splitHeader] :=
    .cons (by decide +kernel) (by decide +kernel) (by decide +kernel) .nil
  exact (calculateLogChecksum_eq_checkLogChecksum _ hcnt htotal hbody hwf).1

end LogGroupEntryHeader

end Palf
end OceanBase
