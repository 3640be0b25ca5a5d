import OceanBase.Define
import OceanBase.Lib.Run
import OceanBase.Lib.Mem
import OceanBase.Palf.LogWriteBuf

/-! `LogGroupBuffer` (`log_group_buffer.cpp`): the ring of `reserved_buffer_size_` bytes in
which group logs are assembled before they are flushed. The byte of LSN `lsn` lives at
`(lsn - start_lsn_) % reserved_buffer_size_`. Three watermarks say what the ring may serve:
bytes below `readable_begin_lsn_` may have been overwritten, bytes below `reuse_lsn_` are
flushed and their room may be filled again, and a fill may end at most
`available_buffer_size_` bytes past `reuse_lsn_`.

Each call runs atomically: `truncate_lock_` orders `truncate` against `read_data`, and no fill
runs during a read, so the double check at the end of `read_data` finds the watermark it
checked. -/
namespace OceanBase
namespace Palf

/-- The fields of `LogGroupBuffer` that its methods read; `data_buf_` is a memory indexed below
`reserved_buffer_size_`. -/
structure LogGroupBuffer where
  isInited : Bool
  startLsn : Nat
  readableBeginLsn : Nat
  reuseLsn : Nat
  reservedBufferSize : Nat
  availableBufferSize : Nat
  dataBuf : Nat → UInt8

namespace LogGroupBuffer

def empty : LogGroupBuffer where
  isInited := false
  startLsn := logInvalidLsnVal
  readableBeginLsn := logInvalidLsnVal
  reuseLsn := logInvalidLsnVal
  reservedBufferSize := 0
  availableBufferSize := 0
  dataBuf := fun _ => 0

def init (g : LogGroupBuffer) (startLsn : Nat) : Except ObErr LogGroupBuffer :=
  if g.isInited then .error .initTwice
  else if !lsnIsValid startLsn then .error .invalidArgument
  else
    let groupBufferSize := followerDefaultGroupBufferSize
    .ok { isInited := true, startLsn, readableBeginLsn := startLsn, reuseLsn := startLsn,
          reservedBufferSize := groupBufferSize, availableBufferSize := groupBufferSize,
          dataBuf := fun _ => 0 }

def getBufferPos_ (g : LogGroupBuffer) (lsn : Nat) : Except ObErr Nat :=
  if !g.isInited then .error .notInit
  else if !lsnIsValid lsn then .error .invalidArgument
  else if lsn < g.startLsn then .error .errOutOfLowerBound
  else
    let diffLen := lsn - g.startLsn
    .ok (diffLen % g.reservedBufferSize)

def canHandleNewLogRef (g : LogGroupBuffer) (lsn totalLen refReuseLsn : Nat) : Bool :=
  let endLsn := lsn + totalLen
  let reuseLsn := min g.reuseLsn refReuseLsn
  if !g.isInited then false
  else if !lsnIsValid lsn || totalLen = 0 || !lsnIsValid refReuseLsn then false
  else if lsn < g.startLsn then false
  else if endLsn > reuseLsn + g.availableBufferSize then false
  else true

/-- The two-argument `LogGroupBuffer::can_handle_new_log`, against `LOG_MAX_LSN_VAL`. -/
def canHandleNewLog (g : LogGroupBuffer) (lsn totalLen : Nat) : Bool :=
  if !g.isInited then false
  else if !lsnIsValid lsn || totalLen = 0 then false
  else g.canHandleNewLogRef lsn totalLen logMaxLsnVal

/-- `LogGroupBuffer::get_log_buf`: appends to `log_buf` the segments of `data_buf_` holding
`total_len` bytes from `lsn` on, the part before the ring's end and the wrapped rest. -/
def getLogBuf (g : LogGroupBuffer) (lsn totalLen : Nat) (logBuf : LogWriteBuf) :
    Except ObErr LogWriteBuf :=
  if !g.isInited then .error .notInit
  else if !lsnIsValid lsn || totalLen = 0 then .error .invalidArgument
  else if lsn < g.startLsn then .error .invalidArgument
  else match g.getBufferPos_ lsn with
    | .error e => .error e
    | .ok startPos =>
      let groupBufTailLen := g.reservedBufferSize - startPos
      let firstPartLen := min groupBufTailLen totalLen
      match logBuf.pushBack startPos firstPartLen with
      | .error e => .error e
      | .ok logBuf =>
        if totalLen > firstPartLen then logBuf.pushBack 0 (totalLen - firstPartLen) else .ok logBuf

def genReadableBeginLsnForFilling_ (g : LogGroupBuffer) (lsn : Nat) : Nat :=
  if lsn ≥ g.reservedBufferSize then lsn - g.reservedBufferSize else 0

def incUpdateReadableBeginLsn_ (g : LogGroupBuffer) (newReadableBeginLsn : Nat) : LogGroupBuffer :=
  { g with readableBeginLsn := max g.readableBeginLsn newReadableBeginLsn }

/-- `LogGroupBuffer::fill_`: copies `data_len` bytes to `start_pos`, wrapping at the ring's end. -/
def fill_ (g : LogGroupBuffer) (startPos : Nat) (data : Nat → UInt8) (dataLen : Nat) :
    LogGroupBuffer :=
  let groupBufTailLen := g.reservedBufferSize - startPos
  let firstPartLen := min groupBufTailLen dataLen
  let buf := Lib.memcpy g.dataBuf startPos data 0 firstPartLen
  { g with dataBuf :=
      if dataLen > firstPartLen then Lib.memcpy buf 0 data firstPartLen (dataLen - firstPartLen)
      else buf }

def fill (g : LogGroupBuffer) (lsn : Nat) (data : Nat → UInt8) (dataLen : Nat) :
    Except ObErr LogGroupBuffer :=
  let endLsn := lsn + dataLen
  if !g.isInited then .error .notInit
  else if !lsnIsValid lsn || dataLen = 0 then .error .invalidArgument
  else if lsn < g.startLsn then .error .errUnexpected
  else if endLsn ≤ g.reuseLsn then .error .errUnexpected
  else if endLsn > g.reuseLsn + g.availableBufferSize then .error .eagain
  else match g.getBufferPos_ lsn with
    | .error e => .error e
    | .ok startPos =>
      -- `readable_begin_lsn_` is raised before the bytes are overwritten
      let g := g.incUpdateReadableBeginLsn_ (g.genReadableBeginLsnForFilling_ endLsn)
      .ok (g.fill_ startPos data dataLen)

/-- `LogGroupBuffer::fill_padding_body`: zeroes `log_body_size` bytes, then copies `data_len`
bytes over their start. -/
def fillPaddingBody (g : LogGroupBuffer) (lsn : Nat) (data : Nat → UInt8) (dataLen logBodySize : Nat) :
    Except ObErr LogGroupBuffer :=
  let endLsn := lsn + logBodySize
  if !g.isInited then .error .notInit
  else if !lsnIsValid lsn || logBodySize = 0 then .error .invalidArgument
  else if lsn < g.startLsn then .error .errUnexpected
  else if endLsn ≤ g.reuseLsn then .error .errUnexpected
  else if endLsn > g.reuseLsn + g.availableBufferSize then .error .eagain
  else match g.getBufferPos_ lsn with
    | .error e => .error e
    | .ok startPos =>
      let g := g.incUpdateReadableBeginLsn_ (g.genReadableBeginLsnForFilling_ endLsn)
      let groupBufTailLen := g.reservedBufferSize - startPos
      let firstPartLen := min groupBufTailLen logBodySize
      let buf := Lib.memset g.dataBuf startPos paddingLogContentChar firstPartLen
      let buf := if logBodySize > firstPartLen then
          Lib.memset buf 0 paddingLogContentChar (logBodySize - firstPartLen)
        else buf
      .ok ({ g with dataBuf := buf }.fill_ startPos data dataLen)

/-- `LogGroupBuffer::check_log_buf_wrapped`; an LSN below `start_lsn_` is reported unwrapped. -/
def checkLogBufWrapped (g : LogGroupBuffer) (lsn logLen : Nat) : Except ObErr Bool :=
  if !g.isInited then .error .notInit
  else if !lsnIsValid lsn || logLen = 0 then .error .invalidArgument
  else if lsn < g.startLsn then .ok false
  else match g.getBufferPos_ lsn with
    | .error e => .error e
    | .ok startPos => .ok (startPos + logLen > g.reservedBufferSize)

def toLeader (g : LogGroupBuffer) : Except ObErr LogGroupBuffer :=
  if !g.isInited then .error .notInit
  else if leaderDefaultGroupBufferSize = g.availableBufferSize then .error .stateNotMatch
  else .ok { g with availableBufferSize := leaderDefaultGroupBufferSize }

def toFollower (g : LogGroupBuffer) : Except ObErr LogGroupBuffer :=
  if !g.isInited then .error .notInit
  else if followerDefaultGroupBufferSize = g.availableBufferSize then .ok g
  else .ok { g with availableBufferSize := followerDefaultGroupBufferSize }

def incUpdateReadableBeginLsn (g : LogGroupBuffer) (newLsn : Nat) : Except ObErr LogGroupBuffer :=
  if !lsnIsValid newLsn then .error .invalidArgument
  else .ok (g.incUpdateReadableBeginLsn_ newLsn)

/-- `LogGroupBuffer::inc_update_reuse_lsn`; its CAS loop raises `reuse_lsn_` to the new value
when that is larger. -/
def incUpdateReuseLsn (g : LogGroupBuffer) (newReuseLsn : Nat) : Except ObErr LogGroupBuffer :=
  if !lsnIsValid newReuseLsn then .error .invalidArgument
  else .ok { g with reuseLsn := max g.reuseLsn newReuseLsn }

/-- `LogGroupBuffer::truncate`: `readable_begin_lsn_` never falls back, `reuse_lsn_` is set. -/
def truncate (g : LogGroupBuffer) (newLsn : Nat) : Except ObErr LogGroupBuffer :=
  if !lsnIsValid newLsn then .error .invalidArgument
  else if newLsn < g.startLsn then .error .invalidArgument
  else .ok { g.incUpdateReadableBeginLsn_ newLsn with reuseLsn := newLsn }

/-- `LogGroupBuffer::read_data`: copies into `buf` the bytes from `read_begin_lsn` on below
`reuse_lsn_`, at most `in_read_size` of them, and returns `out_read_size` with the new `buf`.
With nothing below `reuse_lsn_` it succeeds and leaves both as the caller passed them. -/
def readData (g : LogGroupBuffer) (readBeginLsn inReadSize : Nat) (buf : Nat → UInt8)
    (outReadSize : Nat) : Except ObErr (Nat × (Nat → UInt8)) :=
  if !lsnIsValid readBeginLsn || inReadSize = 0 then .error .invalidArgument
  else match g.getBufferPos_ readBeginLsn with
    | .error e => .error e
    | .ok startPos =>
      if readBeginLsn < g.readableBeginLsn then .error .errOutOfLowerBound
      else if g.reuseLsn > readBeginLsn then
        let readableSize := g.reuseLsn - readBeginLsn
        let realReadSize := min readableSize inReadSize
        let groupBufTailLen := g.reservedBufferSize - startPos
        let firstPartLen := min groupBufTailLen realReadSize
        let buf := Lib.memcpy buf 0 g.dataBuf startPos firstPartLen
        let buf := if realReadSize > firstPartLen then
            Lib.memcpy buf firstPartLen g.dataBuf 0 (realReadSize - firstPartLen)
          else buf
        -- the double check reads `readable_begin_lsn_` again
        if g.readableBeginLsn > readBeginLsn then .error .errOutOfLowerBound
        else .ok (realReadSize,buf)
      else .ok (outReadSize,buf)

/-! ## Positions and the copies of the methods

`bufferPos` names what `get_buffer_pos_` computes; every copy of the methods is a ring copy of
`Lib.Mem` at such a position. -/

def bufferPos (g : LogGroupBuffer) (lsn : Nat) : Nat := (lsn - g.startLsn) % g.reservedBufferSize

section Pos

variable {g : LogGroupBuffer}

theorem getBufferPos_of_le {lsn : Nat} (hi : g.isInited = true) (hv : lsnIsValid lsn = true)
    (hl : g.startLsn ≤ lsn) : g.getBufferPos_ lsn = .ok (g.bufferPos lsn) := by
  simp [getBufferPos_,hi,hv,Nat.not_lt.mpr hl,bufferPos]

theorem getBufferPos_eq_ok {lsn pos : Nat} (h : g.getBufferPos_ lsn = .ok pos) :
    g.isInited = true ∧ g.startLsn ≤ lsn ∧ pos = g.bufferPos lsn := by
  simp only [getBufferPos_] at h
  split_ifs at h with h₁ h₂ h₃
  cases h
  exact ⟨by simpa using h₁,by omega,rfl⟩

theorem bufferPos_lt (hR : 0 < g.reservedBufferSize) (lsn : Nat) :
    g.bufferPos lsn < g.reservedBufferSize :=
  Nat.mod_lt _ hR

theorem bufferPos_add_mod {lsn : Nat} (hl : g.startLsn ≤ lsn) (i : Nat) :
    (g.bufferPos lsn + i) % g.reservedBufferSize = g.bufferPos (lsn + i) := by
  simp only [bufferPos]
  rw [Nat.mod_add_mod,Nat.sub_add_comm hl]

theorem bufferPos_ne {y z : Nat} (hy : g.startLsn ≤ y) (hz : g.startLsn ≤ z) (hne : y ≠ z)
    (h₁ : y < z + g.reservedBufferSize) (h₂ : z < y + g.reservedBufferSize) :
    g.bufferPos y ≠ g.bufferPos z :=
  Lib.mod_ne_of_ne (by omega) (by omega) (by omega)

theorem ringPut_bufferPos_of_mem {buf src : Nat → UInt8} {lsn n y : Nat}
    (hR : 0 < g.reservedBufferSize) (hl : g.startLsn ≤ lsn) (hn : n ≤ g.reservedBufferSize)
    (hy : lsn ≤ y) (hy' : y < lsn + n) :
    Lib.ringPut buf g.reservedBufferSize (g.bufferPos lsn) src n (g.bufferPos y) = src (y - lsn) := by
  have hpos := bufferPos_add_mod hl (y - lsn)
  rw [Nat.add_sub_cancel' hy] at hpos
  rw [← hpos]
  exact Lib.ringPut_apply_add_mod (bufferPos_lt hR lsn) hn (by omega)

theorem ringPut_bufferPos_of_not_mem {buf src : Nat → UInt8} {lsn n y : Nat}
    (hR : 0 < g.reservedBufferSize) (hl : g.startLsn ≤ lsn) (hy : g.startLsn ≤ y)
    (hout : y < lsn ∨ lsn + n ≤ y) (h₁ : y < lsn + g.reservedBufferSize)
    (h₂ : lsn + n ≤ y + g.reservedBufferSize) :
    Lib.ringPut buf g.reservedBufferSize (g.bufferPos lsn) src n (g.bufferPos y) = buf (g.bufferPos y) := by
  apply Lib.ringPut_apply_of_forall_ne (bufferPos_lt hR lsn) (bufferPos_lt hR y)
  intro i hi
  rw [bufferPos_add_mod hl]
  exact bufferPos_ne (by omega) hy (by omega) (by omega) (by omega)

theorem genReadableBeginLsnForFilling_add (e : Nat) :
    e ≤ g.genReadableBeginLsnForFilling_ e + g.reservedBufferSize := by
  simp only [genReadableBeginLsnForFilling_]
  split <;> omega

end Pos

theorem valid_of_check {b : Bool} {n : Nat} (h : ¬(!b || decide (n = 0)) = true) :
    b = true ∧ 0 < n := by
  simpa [Nat.pos_iff_ne_zero] using h

/-! ## What each method does

One inversion lemma per method: the checks a successful call passed and the state it left. -/

structure FillGuard (g : LogGroupBuffer) (lsn endLsn : Nat) : Prop where
  inited : g.isInited = true
  start_le : g.startLsn ≤ lsn
  reuse_lt : g.reuseLsn < endLsn
  end_le : endLsn ≤ g.reuseLsn + g.availableBufferSize

def filled (g : LogGroupBuffer) (endLsn : Nat) (buf : Nat → UInt8) : LogGroupBuffer :=
  { g with readableBeginLsn := max g.readableBeginLsn (g.genReadableBeginLsnForFilling_ endLsn),
           dataBuf := buf }

section Cases

variable {g g' : LogGroupBuffer}

theorem fill_cases {lsn dataLen : Nat} {data : Nat → UInt8} (h : g.fill lsn data dataLen = .ok g') :
    FillGuard g lsn (lsn + dataLen) ∧
      g' = g.filled (lsn + dataLen) (Lib.ringPut g.dataBuf g.reservedBufferSize (g.bufferPos lsn) data dataLen) := by
  simp only [fill] at h
  split_ifs at h with h₁ h₂ h₃ h₄ h₅
  have hi : g.isInited = true := by simpa using h₁
  obtain ⟨hv,-⟩ := valid_of_check h₂
  rw [getBufferPos_of_le hi hv (by omega)] at h
  cases h
  exact ⟨⟨hi,by omega,by omega,by omega⟩,rfl⟩

theorem fillPaddingBody_cases {lsn dataLen logBodySize : Nat} {data : Nat → UInt8}
    (h : g.fillPaddingBody lsn data dataLen logBodySize = .ok g') :
    FillGuard g lsn (lsn + logBodySize) ∧
      g' = g.filled (lsn + logBodySize)
        (Lib.ringPut (Lib.ringPut g.dataBuf g.reservedBufferSize (g.bufferPos lsn)
          (fun _ => paddingLogContentChar) logBodySize) g.reservedBufferSize (g.bufferPos lsn) data dataLen) := by
  simp only [fillPaddingBody] at h
  split_ifs at h with h₁ h₂ h₃ h₄ h₅
  have hi : g.isInited = true := by simpa using h₁
  obtain ⟨hv,-⟩ := valid_of_check h₂
  rw [getBufferPos_of_le hi hv (by omega)] at h
  cases h
  exact ⟨⟨hi,by omega,by omega,by omega⟩,rfl⟩

theorem truncate_cases {newLsn : Nat} (h : g.truncate newLsn = .ok g') :
    g.startLsn ≤ newLsn ∧
      g' = { g with readableBeginLsn := max g.readableBeginLsn newLsn, reuseLsn := newLsn } := by
  simp only [truncate] at h
  split_ifs at h with h₁ h₂
  cases h
  exact ⟨by omega,rfl⟩

theorem incUpdateReuseLsn_cases {newReuseLsn : Nat} (h : g.incUpdateReuseLsn newReuseLsn = .ok g') :
    g' = { g with reuseLsn := max g.reuseLsn newReuseLsn } := by
  simp only [incUpdateReuseLsn] at h
  split_ifs at h
  cases h
  rfl

theorem incUpdateReadableBeginLsn_cases {newLsn : Nat}
    (h : g.incUpdateReadableBeginLsn newLsn = .ok g') :
    g' = { g with readableBeginLsn := max g.readableBeginLsn newLsn } := by
  simp only [incUpdateReadableBeginLsn] at h
  split_ifs at h
  cases h
  rfl

theorem role_cases (h : g.toLeader = .ok g' ∨ g.toFollower = .ok g') :
    (g' = { g with availableBufferSize := leaderDefaultGroupBufferSize } ∨
      g' = { g with availableBufferSize := followerDefaultGroupBufferSize }) := by
  rcases h with h | h
  · simp only [toLeader] at h
    split_ifs at h
    cases h
    exact .inl rfl
  · simp only [toFollower] at h
    split_ifs at h with _ h₂
    · cases h
      exact .inr (by rw [h₂])
    · cases h
      exact .inr rfl

theorem readData_cases {l k n m : Nat} {buf out : Nat → UInt8}
    (h : g.readData l k buf n = .ok (m,out)) :
    g.startLsn ≤ l ∧ g.readableBeginLsn ≤ l ∧
      ((l < g.reuseLsn ∧ m = min (g.reuseLsn - l) k ∧
          out = Lib.ringGet buf g.reservedBufferSize (g.bufferPos l) g.dataBuf m) ∨
        (g.reuseLsn ≤ l ∧ m = n ∧ out = buf)) := by
  simp only [readData] at h
  cases hpos : g.getBufferPos_ l with
  | error e =>
    simp only [hpos] at h
    split_ifs at h
  | ok pos =>
    obtain ⟨-,hstart,rfl⟩ := getBufferPos_eq_ok hpos
    simp only [hpos] at h
    split_ifs at h with h₁ hread hreuse hwrap
    · cases h
      refine ⟨hstart,by omega,.inl ⟨hreuse,rfl,?_⟩⟩
      simp only [Lib.ringGet]
      rw [if_pos hwrap]
    · cases h
      refine ⟨hstart,by omega,.inl ⟨hreuse,rfl,?_⟩⟩
      simp only [Lib.ringGet]
      rw [if_neg hwrap]
    · cases h
      exact ⟨hstart,by omega,.inr ⟨by omega,rfl,rfl⟩⟩

theorem getLogBuf_memcpy {lsn totalLen : Nat} {w : LogWriteBuf}
    (h : g.getLogBuf lsn totalLen ⟨[]⟩ = .ok w) (destBuf : Nat → UInt8) :
    w.memcpyToContinousMemory g.dataBuf destBuf =
      Lib.ringGet destBuf g.reservedBufferSize (g.bufferPos lsn) g.dataBuf totalLen := by
  simp only [getLogBuf] at h
  split_ifs at h with h₁ h₂ h₃
  have hi : g.isInited = true := by simpa using h₁
  obtain ⟨hv,-⟩ := valid_of_check h₂
  rw [getBufferPos_of_le hi hv (by omega)] at h
  simp only at h
  split at h
  · cases h
  · rename_i w₁ hw₁
    have hm₁ := LogWriteBuf.memcpyToContinousMemory_pushBack hw₁ g.dataBuf destBuf
    have hs₁ := LogWriteBuf.getTotalSize_pushBack hw₁
    simp only [LogWriteBuf.memcpyToContinousMemory_empty,LogWriteBuf.getTotalSize_empty,
      Nat.zero_add] at hm₁ hs₁
    simp only [Lib.ringGet]
    split at h
    · rw [LogWriteBuf.memcpyToContinousMemory_pushBack h,hm₁,hs₁,if_pos ‹_›]
    · cases h
      rw [hm₁,if_neg ‹_›]

theorem getLogBuf_getBufCount {lsn totalLen : Nat} {w : LogWriteBuf}
    (h : g.getLogBuf lsn totalLen ⟨[]⟩ = .ok w) (hlen : totalLen ≤ maxLogBufferSize) :
    1 ≤ w.getBufCount ∧ w.getBufCount ≤ 2 := by
  simp only [getLogBuf] at h
  split_ifs at h with h₁ h₂ h₃
  split at h
  · cases h
  · split at h
    · cases h
    · rename_i w₁ hw₁
      have hc₁ := LogWriteBuf.getBufCount_pushBack hw₁ (by omega)
      split at h
      · have hc₂ := LogWriteBuf.getBufCount_pushBack h (by omega)
        simp only [LogWriteBuf.getBufCount,List.length_nil] at hc₁ hc₂ ⊢
        omega
      · cases h
        simp only [LogWriteBuf.getBufCount,List.length_nil] at hc₁ ⊢
        omega

end Cases

/-! ## Runs

A run is a sequence of the calls that change the buffer, each atomic. Beside the buffer a
ghost records, for every LSN, the byte that the last fill covering it wrote; a `truncate`
discards what was written at and above its LSN. -/

inductive Op
  | fill (lsn : Nat) (data : Nat → UInt8) (dataLen : Nat)
  | fillPaddingBody (lsn : Nat) (data : Nat → UInt8) (dataLen logBodySize : Nat)
  | truncate (newLsn : Nat)
  | incUpdateReuseLsn (newReuseLsn : Nat)
  | incUpdateReadableBeginLsn (newLsn : Nat)
  | toLeader
  | toFollower

/-- A group buffer and, for every LSN, the byte last written for it (`none`: no fill since
the last truncate below it). -/
structure Tracked where
  buf : LogGroupBuffer
  lastWrite : Nat → Option UInt8

/-- The state after a call: the call's buffer and the new ghost if it succeeded, the old state
if it failed. -/
def Tracked.commit (x : Tracked) (r : Except ObErr LogGroupBuffer)
    (lastWrite : Nat → Option UInt8) : Tracked :=
  match r with
  | .ok g => ⟨g,lastWrite⟩
  | .error _ => x

def trackedStep (x : Tracked) : Op → Option Tracked
  | .fill lsn data dataLen =>
    some (x.commit (x.buf.fill lsn data dataLen)
      (Lib.memcpy x.lastWrite lsn (fun i => some (data i)) 0 dataLen))
  | .fillPaddingBody lsn data dataLen logBodySize =>
    some (x.commit (x.buf.fillPaddingBody lsn data dataLen logBodySize)
      (Lib.memcpy (Lib.memset x.lastWrite lsn (some paddingLogContentChar) logBodySize) lsn
        (fun i => some (data i)) 0 dataLen))
  | .truncate newLsn =>
    some (x.commit (x.buf.truncate newLsn) fun y => if newLsn ≤ y then none else x.lastWrite y)
  | .incUpdateReuseLsn newReuseLsn => some (x.commit (x.buf.incUpdateReuseLsn newReuseLsn) x.lastWrite)
  | .incUpdateReadableBeginLsn newLsn =>
    some (x.commit (x.buf.incUpdateReadableBeginLsn newLsn) x.lastWrite)
  | .toLeader => some (x.commit x.buf.toLeader x.lastWrite)
  | .toFollower => some (x.commit x.buf.toFollower x.lastWrite)

/-- The callers' side of the bargain as the buffer's users state it: `reuse_lsn_` is raised only
over LSNs that were written, from `readable_begin_lsn_` on. -/
def Op.ReuseWritten (x : Tracked) : Op → Prop
  | .incUpdateReuseLsn newReuseLsn =>
    ∀ y, x.buf.readableBeginLsn ≤ y → y < newReuseLsn → ∃ b, x.lastWrite y = some b
  | _ => True

/-- `ReuseWritten`, and every fill starts at or above `reuse_lsn_`, and the data of a padding
body fits in the body. -/
def Op.Admissible (x : Tracked) : Op → Prop
  | .fill lsn _ _ => x.buf.reuseLsn ≤ lsn
  | .fillPaddingBody lsn _ dataLen logBodySize => x.buf.reuseLsn ≤ lsn ∧ dataLen ≤ logBodySize
  | op => op.ReuseWritten x

/-- The invariant of a run: every byte written for an LSN from `readable_begin_lsn_` on is still
at that LSN's position, and every LSN between `readable_begin_lsn_` and `reuse_lsn_` was
written. -/
structure Sound (x : Tracked) : Prop where
  inited : x.buf.isInited = true
  reserved_eq : x.buf.reservedBufferSize = followerDefaultGroupBufferSize
  avail_le : x.buf.availableBufferSize ≤ x.buf.reservedBufferSize
  start_le : x.buf.startLsn ≤ x.buf.readableBeginLsn
  written_ge : ∀ y b, x.lastWrite y = some b → x.buf.startLsn ≤ y
  written_lt_reuse : ∀ y b, x.lastWrite y = some b → y < x.buf.reuseLsn + x.buf.reservedBufferSize
  written_lt_readable : ∀ y b, x.lastWrite y = some b →
    y < x.buf.readableBeginLsn + x.buf.reservedBufferSize
  byte_eq : ∀ y b, x.buf.readableBeginLsn ≤ y → x.lastWrite y = some b →
    x.buf.dataBuf (x.buf.bufferPos y) = b
  reuse_written : ∀ y, x.buf.readableBeginLsn ≤ y → y < x.buf.reuseLsn → ∃ b, x.lastWrite y = some b

namespace Sound

theorem reserved_pos {x : Tracked} (hs : Sound x) : 0 < x.buf.reservedBufferSize := by
  rw [hs.reserved_eq]
  decide

theorem init {startLsn : Nat} {g₀ : LogGroupBuffer} (h : empty.init startLsn = .ok g₀) :
    Sound ⟨g₀,fun _ => none⟩ := by
  unfold LogGroupBuffer.init at h
  split at h
  · cases h
  split at h
  · cases h
  cases h
  refine ⟨rfl,rfl,le_rfl,le_rfl,nofun,nofun,nofun,nofun,?_⟩
  intro y h₁ h₂
  exact absurd (lt_of_le_of_lt h₁ h₂) (Nat.lt_irrefl startLsn)

theorem commit {x : Tracked} {r : Except ObErr LogGroupBuffer} {lw : Nat → Option UInt8}
    (hs : Sound x) (hok : ∀ g, r = .ok g → Sound ⟨g,lw⟩) : Sound (x.commit r lw) := by
  cases r with
  | error => exact hs
  | ok g => exact hok g rfl

theorem after_fill {x : Tracked} {lw' : Nat → Option UInt8} {buf : Nat → UInt8} {lsn e : Nat}
    (hs : Sound x) (hg : FillGuard x.buf lsn e) (hreuse : x.buf.reuseLsn ≤ lsn)
    (hin : ∀ y, lsn ≤ y → y < e → lw' y = some (buf (x.buf.bufferPos y)))
    (hout : ∀ y, y < lsn ∨ e ≤ y → lw' y = x.lastWrite y)
    (hkeep : ∀ y, x.buf.startLsn ≤ y → y < lsn ∨ e ≤ y → y < lsn + x.buf.reservedBufferSize →
      e ≤ y + x.buf.reservedBufferSize → buf (x.buf.bufferPos y) = x.buf.dataBuf (x.buf.bufferPos y)) :
    Sound ⟨x.buf.filled e buf,lw'⟩ := by
  have hgen := genReadableBeginLsnForFilling_add (g := x.buf) e
  have havail := hs.avail_le
  have hend := hg.end_le
  have hrise := le_max_left x.buf.readableBeginLsn (x.buf.genReadableBeginLsnForFilling_ e)
  have hgen' := le_max_right x.buf.readableBeginLsn (x.buf.genReadableBeginLsnForFilling_ e)
  have hold : ∀ {y b}, lw' y = some b → ¬(lsn ≤ y ∧ y < e) → x.lastWrite y = some b := by
    intro y b hy hmem
    rwa [hout y (by omega)] at hy
  refine ⟨hs.inited,hs.reserved_eq,hs.avail_le,?_,?_,?_,?_,?_,?_⟩ <;> dsimp only [LogGroupBuffer.filled]
  · exact le_trans hs.start_le hrise
  · intro y b hy
    by_cases hmem : lsn ≤ y ∧ y < e
    · exact le_trans hg.start_le hmem.1
    · exact hs.written_ge y b (hold hy hmem)
  · intro y b hy
    by_cases hmem : lsn ≤ y ∧ y < e
    · omega
    · exact hs.written_lt_reuse y b (hold hy hmem)
  · intro y b hy
    by_cases hmem : lsn ≤ y ∧ y < e
    · omega
    · have := hs.written_lt_readable y b (hold hy hmem)
      omega
  · intro y b hread hy
    by_cases hmem : lsn ≤ y ∧ y < e
    · rw [hin y hmem.1 hmem.2] at hy
      exact Option.some_inj.mp hy
    · have hy₀ := hold hy hmem
      have hstart := hs.written_ge y b hy₀
      have hlt := hs.written_lt_reuse y b hy₀
      show buf (x.buf.bufferPos y) = b
      rw [hkeep y hstart (by omega) (by omega) (by omega)]
      exact hs.byte_eq y b (le_trans hrise hread) hy₀
  · intro y hread hy
    by_cases hmem : lsn ≤ y ∧ y < e
    · exact ⟨_,hin y hmem.1 hmem.2⟩
    · rw [hout y (by omega)]
      exact hs.reuse_written y (le_trans hrise hread) hy

theorem fill {x : Tracked} {g' : LogGroupBuffer} {lsn dataLen : Nat} {data : Nat → UInt8}
    (hs : Sound x) (hreuse : x.buf.reuseLsn ≤ lsn) (h : x.buf.fill lsn data dataLen = .ok g') :
    Sound ⟨g',Lib.memcpy x.lastWrite lsn (fun i => some (data i)) 0 dataLen⟩ := by
  obtain ⟨hg,rfl⟩ := fill_cases h
  have hR := hs.reserved_pos
  have hend := hg.end_le
  have havail := hs.avail_le
  have hn : dataLen ≤ x.buf.reservedBufferSize := by omega
  refine Sound.after_fill hs hg hreuse ?_ ?_ ?_
  · intro y hy hy'
    rw [ringPut_bufferPos_of_mem hR hg.start_le hn hy hy',Lib.memcpy,if_pos ⟨hy,hy'⟩]
    congr 2
    omega
  · intro y hy
    rw [Lib.memcpy,if_neg (by omega)]
  · intro y hy hout h₁ h₂
    exact ringPut_bufferPos_of_not_mem hR hg.start_le hy hout h₁ h₂

theorem fillPaddingBody {x : Tracked} {g' : LogGroupBuffer} {lsn dataLen logBodySize : Nat}
    {data : Nat → UInt8} (hs : Sound x) (hreuse : x.buf.reuseLsn ≤ lsn) (hfit : dataLen ≤ logBodySize)
    (h : x.buf.fillPaddingBody lsn data dataLen logBodySize = .ok g') :
    Sound ⟨g',Lib.memcpy (Lib.memset x.lastWrite lsn (some paddingLogContentChar) logBodySize) lsn
      (fun i => some (data i)) 0 dataLen⟩ := by
  obtain ⟨hg,rfl⟩ := fillPaddingBody_cases h
  have hR := hs.reserved_pos
  have hst := hg.start_le
  have hend := hg.end_le
  have havail := hs.avail_le
  have hn : logBodySize ≤ x.buf.reservedBufferSize := by omega
  refine Sound.after_fill hs hg hreuse ?_ ?_ ?_
  · intro y hy hy'
    simp only [Lib.memcpy,Lib.memset]
    by_cases hdata : y < lsn + dataLen
    · rw [if_pos ⟨hy,hdata⟩,ringPut_bufferPos_of_mem hR hst (by omega) hy hdata]
      congr 2
      omega
    · rw [if_neg (by omega),if_pos ⟨hy,hy'⟩,
        ringPut_bufferPos_of_not_mem hR hst (by omega) (.inr (by omega)) (by omega) (by omega),
        ringPut_bufferPos_of_mem hR hst hn hy hy']
  · intro y hy
    simp only [Lib.memcpy,Lib.memset]
    rw [if_neg (by omega),if_neg (by omega)]
  · intro y hy hout h₁ h₂
    rw [ringPut_bufferPos_of_not_mem hR hst hy (by omega) h₁ (by omega),
      ringPut_bufferPos_of_not_mem hR hst hy hout h₁ h₂]

theorem truncate {x : Tracked} {g' : LogGroupBuffer} {newLsn : Nat} (hs : Sound x)
    (h : x.buf.truncate newLsn = .ok g') :
    Sound ⟨g',fun y => if newLsn ≤ y then none else x.lastWrite y⟩ := by
  obtain ⟨hl,rfl⟩ := truncate_cases h
  have hsome : ∀ {y b}, (if newLsn ≤ y then none else x.lastWrite y) = some b →
      y < newLsn ∧ x.lastWrite y = some b := by
    intro y b hy
    split at hy
    · cases hy
    · exact ⟨by omega,hy⟩
  have hrise := le_max_left x.buf.readableBeginLsn newLsn
  have hnew := le_max_right x.buf.readableBeginLsn newLsn
  refine ⟨hs.inited,hs.reserved_eq,hs.avail_le,?_,?_,?_,?_,?_,?_⟩ <;> dsimp only
  · exact le_trans hs.start_le hrise
  · intro y b hy
    exact hs.written_ge y b (hsome hy).2
  · intro y b hy
    have := (hsome hy).1
    omega
  · intro y b hy
    have := hs.written_lt_readable y b (hsome hy).2
    omega
  · intro y b hread hy
    exact hs.byte_eq y b (le_trans hrise hread) (hsome hy).2
  · intro y hread hy
    omega

theorem incUpdateReuseLsn {x : Tracked} {g' : LogGroupBuffer} {newReuseLsn : Nat} (hs : Sound x)
    (hadm : Op.ReuseWritten x (.incUpdateReuseLsn newReuseLsn))
    (h : x.buf.incUpdateReuseLsn newReuseLsn = .ok g') : Sound ⟨g',x.lastWrite⟩ := by
  obtain rfl := incUpdateReuseLsn_cases h
  have hrise := le_max_left x.buf.reuseLsn newReuseLsn
  refine { hs with written_lt_reuse := ?_, reuse_written := ?_ } <;> dsimp only
  · intro y b hy
    have := hs.written_lt_reuse y b hy
    omega
  · intro y hread hy
    by_cases hold : y < x.buf.reuseLsn
    · exact hs.reuse_written y hread hold
    · exact hadm y hread (by omega)

theorem incUpdateReadableBeginLsn {x : Tracked} {g' : LogGroupBuffer} {newLsn : Nat} (hs : Sound x)
    (h : x.buf.incUpdateReadableBeginLsn newLsn = .ok g') : Sound ⟨g',x.lastWrite⟩ := by
  obtain rfl := incUpdateReadableBeginLsn_cases h
  have hrise := le_max_left x.buf.readableBeginLsn newLsn
  refine { hs with start_le := le_trans hs.start_le hrise, written_lt_readable := ?_,
                   byte_eq := ?_, reuse_written := ?_ } <;> dsimp only
  · intro y b hy
    have := hs.written_lt_readable y b hy
    omega
  · intro y b hread hy
    exact hs.byte_eq y b (le_trans hrise hread) hy
  · intro y hread hy
    exact hs.reuse_written y (le_trans hrise hread) hy

theorem role {x : Tracked} {g' : LogGroupBuffer} (hs : Sound x)
    (h : x.buf.toLeader = .ok g' ∨ x.buf.toFollower = .ok g') : Sound ⟨g',x.lastWrite⟩ := by
  have hR : x.buf.reservedBufferSize = followerDefaultGroupBufferSize := hs.reserved_eq
  rcases role_cases h with rfl | rfl
  · refine { hs with avail_le := ?_ }
    dsimp only
    rw [hR]
    decide
  · refine { hs with avail_le := ?_ }
    dsimp only
    rw [hR]

theorem step {x y : Tracked} {op : Op} (hs : Sound x) (hadm : Op.Admissible x op)
    (h : trackedStep x op = some y) : Sound y := by
  cases op with
  | fill lsn data dataLen =>
    cases h
    exact hs.commit fun _ hg => hs.fill hadm hg
  | fillPaddingBody lsn data dataLen logBodySize =>
    cases h
    exact hs.commit fun _ hg => hs.fillPaddingBody hadm.1 hadm.2 hg
  | truncate newLsn =>
    cases h
    exact hs.commit fun _ hg => hs.truncate hg
  | incUpdateReuseLsn newReuseLsn =>
    cases h
    exact hs.commit fun _ hg => hs.incUpdateReuseLsn hadm hg
  | incUpdateReadableBeginLsn newLsn =>
    cases h
    exact hs.commit fun _ hg => hs.incUpdateReadableBeginLsn hg
  | toLeader =>
    cases h
    exact hs.commit fun _ hg => hs.role (.inl hg)
  | toFollower =>
    cases h
    exact hs.commit fun _ hg => hs.role (.inr hg)

theorem readData {x : Tracked} (hs : Sound x) {l k n m : Nat} {buf out : Nat → UInt8}
    (h : x.buf.readData l k buf n = .ok (m,out)) :
    (∀ i < m, x.lastWrite (l + i) = some (out i)) ∨ (x.buf.reuseLsn ≤ l ∧ m = n ∧ out = buf) := by
  obtain ⟨hstart,hread,⟨hlt,rfl,rfl⟩ | hnone⟩ := readData_cases h
  · left
    intro i hi
    have hR := hs.reserved_pos
    obtain ⟨b₀,hb₀⟩ := hs.reuse_written (x.buf.reuseLsn - 1) (by omega) (by omega)
    have hspan := hs.written_lt_readable _ _ hb₀
    obtain ⟨b,hb⟩ := hs.reuse_written (l + i) (by omega) (by omega)
    rw [hb,Lib.ringGet_apply (bufferPos_lt hR l) (by omega) hi,bufferPos_add_mod hstart,
      hs.byte_eq (l + i) b (by omega) hb]
  · exact .inr hnone

theorem getLogBuf {x : Tracked} (hs : Sound x) {lsn totalLen : Nat} {w : LogWriteBuf}
    (hlen : totalLen ≤ x.buf.reservedBufferSize) (h : x.buf.getLogBuf lsn totalLen ⟨[]⟩ = .ok w)
    (destBuf : Nat → UInt8) {i : Nat} (hi : i < totalLen) :
    w.memcpyToContinousMemory x.buf.dataBuf destBuf i = x.buf.dataBuf (x.buf.bufferPos (lsn + i)) ∧
      (x.buf.readableBeginLsn ≤ lsn + i → lsn + i < x.buf.reuseLsn →
        x.lastWrite (lsn + i) = some (w.memcpyToContinousMemory x.buf.dataBuf destBuf i)) := by
  have hR := hs.reserved_pos
  have hstart : x.buf.startLsn ≤ lsn := by
    simp only [LogGroupBuffer.getLogBuf] at h
    split_ifs at h with h₁ h₂ h₃
    omega
  have hbyte : w.memcpyToContinousMemory x.buf.dataBuf destBuf i =
      x.buf.dataBuf (x.buf.bufferPos (lsn + i)) := by
    rw [getLogBuf_memcpy h,Lib.ringGet_apply (bufferPos_lt hR lsn) hlen hi,bufferPos_add_mod hstart]
  refine ⟨hbyte,fun hread hreuse => ?_⟩
  obtain ⟨b,hb⟩ := hs.reuse_written (lsn + i) hread hreuse
  rw [hbyte,hb,hs.byte_eq (lsn + i) b hread hb]

end Sound

/-- What the buffer serves: `read_data` returns the bytes last written for the LSNs it reports
read, or reports nothing read and leaves `out_read_size` and `buf` as passed; `get_log_buf`
into an empty `LogWriteBuf` gathers the buffer's bytes of the requested LSNs in order, the last
written ones between `readable_begin_lsn_` and `reuse_lsn_`, in one or two segments for a log
of at most `MAX_LOG_BUFFER_SIZE` bytes. -/
structure Serves (x : Tracked) : Prop where
  readData_eq : ∀ l k buf n m out, x.buf.readData l k buf n = .ok (m,out) →
    (∀ i < m, x.lastWrite (l + i) = some (out i)) ∨ (x.buf.reuseLsn ≤ l ∧ m = n ∧ out = buf)
  getLogBuf_eq : ∀ lsn totalLen w destBuf, totalLen ≤ x.buf.reservedBufferSize →
    x.buf.getLogBuf lsn totalLen ⟨[]⟩ = .ok w → ∀ i < totalLen,
      w.memcpyToContinousMemory x.buf.dataBuf destBuf i = x.buf.dataBuf (x.buf.bufferPos (lsn + i)) ∧
      (x.buf.readableBeginLsn ≤ lsn + i → lsn + i < x.buf.reuseLsn →
        x.lastWrite (lsn + i) = some (w.memcpyToContinousMemory x.buf.dataBuf destBuf i))
  getLogBuf_count : ∀ lsn totalLen w, totalLen ≤ maxLogBufferSize →
    x.buf.getLogBuf lsn totalLen ⟨[]⟩ = .ok w → 1 ≤ w.getBufCount ∧ w.getBufCount ≤ 2

theorem Sound.serves {x : Tracked} (hs : Sound x) : Serves x :=
  ⟨fun _ _ _ _ _ _ h => hs.readData h,
   fun _ _ _ destBuf hlen h _ hi => hs.getLogBuf hlen h destBuf hi,
   fun _ _ _ hlen h => getLogBuf_getBufCount h hlen⟩

/-- After any run from `init` in which every fill starts at or above `reuse_lsn_`, padding data
fits its body and `reuse_lsn_` is raised only over written LSNs, the buffer serves the bytes
last written. -/
theorem serves_of_admissible_run {startLsn : Nat} {g₀ : LogGroupBuffer} {ops : List Op} {x : Tracked}
    (hinit : empty.init startLsn = .ok g₀)
    (hrun : Lib.Run trackedStep Op.Admissible ⟨g₀,fun _ => none⟩ ops x) : Serves x :=
  (hrun.invariant Sound (fun _ _ _ hs hadm h => hs.step hadm h) (Sound.init hinit)).serves

/-- A fill of the whole ring from LSN 0, `reuse_lsn_` raised over it, a fill of two bytes at
`R = reserved_buffer_size_` that wraps to position 0, and `reuse_lsn_` raised over it. -/
def wrappedFillRun : List Op :=
  [.fill 0 (fun i => UInt8.ofNat i) followerDefaultGroupBufferSize,
    .incUpdateReuseLsn followerDefaultGroupBufferSize,
    .fill followerDefaultGroupBufferSize (fun _ => 7) 2,
    .incUpdateReuseLsn (followerDefaultGroupBufferSize + 2)]

/-- After `wrappedFillRun` a read from `R - 1` gets the first fill's byte of `R - 1` and the
wrapped bytes of `R` and `R + 1`, the last written for those LSNs. -/
theorem serves_after_wrapped_fill :
    ∃ g₀ x, empty.init 0 = .ok g₀ ∧ Lib.Run trackedStep Op.Admissible ⟨g₀,fun _ => none⟩ wrappedFillRun x ∧
      Serves x ∧
      (x.buf.readData (followerDefaultGroupBufferSize - 1) 5 (fun _ => 0) 0).map
        (fun r => (r.1,r.2 0,r.2 1,r.2 2)) = .ok (3,255,7,7) := by
  have hrun : Lib.Run trackedStep Op.Admissible
      ⟨{ isInited := true, startLsn := 0, readableBeginLsn := 0, reuseLsn := 0,
          reservedBufferSize := followerDefaultGroupBufferSize,
          availableBufferSize := followerDefaultGroupBufferSize, dataBuf := fun _ => 0 },
        fun _ => none⟩ wrappedFillRun _ :=
    .cons le_rfl rfl (.cons ?_ rfl (.cons le_rfl rfl (.cons ?_ rfl (.nil _))))
  · exact ⟨_,_,rfl,hrun,serves_of_admissible_run (show empty.init 0 = _ from rfl) hrun,by decide +kernel⟩
  · intro y _ hy
    show ∃ b, Lib.memcpy (fun _ => none) 0 (fun i => some (UInt8.ofNat i)) 0
      followerDefaultGroupBufferSize y = some b
    exact ⟨_,by simp only [Lib.memcpy]; rw [if_pos ⟨Nat.zero_le y,hy⟩]⟩
  · intro y _ hy
    show ∃ b, Lib.memcpy (Lib.memcpy (fun _ => none) 0 (fun i => some (UInt8.ofNat i)) 0
      followerDefaultGroupBufferSize) followerDefaultGroupBufferSize (fun _ => some 7) 0 2 y = some b
    simp only [Lib.memcpy]
    split_ifs <;> simp_all

/-- A fill may start below `reuse_lsn_` as long as it ends above it. With the ring full, a refill of
`[0, 2)` after `reuse_lsn_` passed `1` is accepted, for it ends above `reuse_lsn_`; it overwrites
the position of LSN `R = reserved_buffer_size_`, which `readable_begin_lsn_ = 1` still serves.
`read_data(R, 1)` then succeeds with one byte, the refill's `2`, where the fill of LSN `R`
wrote `1`. -/
theorem readData_after_refill_below_reuse :
    ∃ g₀ x, empty.init 0 = .ok g₀ ∧
      Lib.Run trackedStep Op.ReuseWritten ⟨g₀,fun _ => none⟩
        [.fill 0 (fun _ => 0) followerDefaultGroupBufferSize, .incUpdateReuseLsn 1,
          .fill followerDefaultGroupBufferSize (fun _ => 1) 1, .fill 0 (fun _ => 2) 2,
          .incUpdateReuseLsn (followerDefaultGroupBufferSize + 1)] x ∧
      x.lastWrite followerDefaultGroupBufferSize = some 1 ∧
      (x.buf.readData followerDefaultGroupBufferSize 1 (fun _ => 0) 0).map (fun r => (r.1,r.2 0)) =
        .ok (1,2) := by
  refine ⟨_,_,rfl,.cons trivial rfl (.cons ?_ rfl (.cons trivial rfl (.cons trivial rfl
    (.cons ?_ rfl (.nil _))))),by decide,by decide +kernel⟩
  · intro y _ hy
    obtain rfl : y = 0 := by omega
    exact ⟨0,rfl⟩
  · intro y _ hy
    show ∃ b, Lib.memcpy (Lib.memcpy (Lib.memcpy (fun _ => none) 0 (fun _ => some 0) 0
      followerDefaultGroupBufferSize) followerDefaultGroupBufferSize (fun _ => some 1) 0 1) 0
      (fun _ => some 2) 0 2 y = some b
    simp only [Lib.memcpy]
    split_ifs <;> simp_all

end LogGroupBuffer
end Palf
end OceanBase
