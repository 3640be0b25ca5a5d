import OceanBase.Define
import OceanBase.Lib.Run

/-! The leader's allocator of LSNs, log ids and SCNs (`lsn_allocator.cpp`). Every method
is one update of the allocator: its CAS loops always succeed when calls do not overlap.
`alloc_lsn_scn` decides where the next log entry goes: into the open group log, into a new
group log, or, after a padding group log, at the start of the next block. -/
namespace OceanBase
namespace Palf

def logIdDeltaBitCnt : Nat := 28
def logTsDeltaBitCnt : Nat := 35
def logIdDeltaUpperBound : Nat := 2 ^ logIdDeltaBitCnt - 1000
def logTsDeltaUpperBound : Nat := 2 ^ logTsDeltaBitCnt - 1000
/-- `LOG_CUT_TRIGGER`: an aggregated group log is cut at every 2M boundary of its block. -/
def logCutTrigger : Nat := 2 ^ 21
def logCutTriggerMask : Nat := 2 ^ 21 - 1

/-- `LSNTsMeta`, the 128-bit word each method replaces at once. `log_id_delta_` and
`scn_delta_` are bit-fields of 28 and 35 bits; `lsn_val_` is the end LSN. -/
structure LSNTsMeta where
  isNeedCut : Bool
  logIdDelta : Nat
  scnDelta : Nat
  lsnVal : Nat
  deriving DecidableEq, Repr

structure LSNAllocator where
  lsnTsMeta : LSNTsMeta
  logIdBase : Int
  scnBase : Nat
  isInited : Bool
  deriving DecidableEq, Repr

structure AllocOut where
  lsn : Nat
  logId : Int
  scn : Nat
  isNewGroupLog : Bool
  needGenPaddingEntry : Bool
  paddingLen : Nat
  deriving DecidableEq, Repr

/-- Where `alloc_lsn_scn` places an entry, before it is written back into the meta word. -/
structure Placement where
  isNewGroupLog : Bool
  needGenPaddingEntry : Bool
  paddingLen : Nat
  nextBlockId : Nat
  nextBlockOffset : Nat
  isNextNeedCut : Bool
  deriving DecidableEq, Repr

namespace LSNAllocator

/-- `reset`, also the state after construction (`log_id_base_ = OB_INVALID_LOG_ID`). -/
def reset : LSNAllocator := ⟨⟨true,0,0,0⟩,-1,0,false⟩

/-- The meta word that `init`, `truncate` and `inc_update_last_log_info` install. -/
def cutMetaAt (lsn : Nat) : LSNTsMeta := ⟨true,0,0,lsn⟩

def init (s : LSNAllocator) (logId : Int) (scn lsn : Nat) : Except ObErr LSNAllocator :=
  if s.isInited then .error .initTwice
  else if logId = -1 ∨ !scnIsValid scn ∨ !lsnIsValid lsn then .error .invalidArgument
  else .ok { s with logIdBase := logId, scnBase := scn, lsnTsMeta := cutMetaAt lsn, isInited := true }

def truncate (s : LSNAllocator) (lsn : Nat) (logId : Int) (scn : Nat) : Except ObErr LSNAllocator :=
  if !s.isInited then .error .notInit
  else if !lsnIsValid lsn ∨ logId = -1 ∨ !scnIsValid scn then .error .invalidArgument
  else .ok { s with lsnTsMeta := cutMetaAt lsn, logIdBase := logId, scnBase := scn }

def incUpdateLastLogInfo (s : LSNAllocator) (lsn : Nat) (logId : Int) (scn : Nat) :
    Except ObErr LSNAllocator :=
  if !s.isInited then .error .notInit
  else if !lsnIsValid lsn ∨ !scnIsValid scn ∨ logId = -1 then .error .invalidArgument
  else if logId < s.logIdBase + s.lsnTsMeta.logIdDelta then .ok s
  else if lsn < s.lsnTsMeta.lsnVal then .ok s
  else .ok { s with lsnTsMeta := cutMetaAt lsn, logIdBase := logId, scnBase := scn }

def incUpdateScnBase (s : LSNAllocator) (refScn : Nat) : Except ObErr LSNAllocator :=
  if !s.isInited then .error .notInit
  else if !scnIsValid refScn then .error .invalidArgument
  else if refScn < s.scnBase + s.lsnTsMeta.scnDelta then .ok s
  else .ok { s with lsnTsMeta := { s.lsnTsMeta with scnDelta := 0, isNeedCut := true },
                    scnBase := refScn }

def getMaxLogId (s : LSNAllocator) : Int :=
  if !s.isInited then -1 else s.logIdBase + s.lsnTsMeta.logIdDelta

def getMaxScn (s : LSNAllocator) : Option Nat :=
  if !s.isInited then none else some (s.scnBase + s.lsnTsMeta.scnDelta)

def getCurrEndLsn (s : LSNAllocator) : Except ObErr Nat :=
  if !s.isInited then .error .notInit else .ok s.lsnTsMeta.lsnVal

/-- The two freeze methods: cut the open group log and report the end LSN and the last log
id. They differ only in the code returned when the group log is already cut. -/
def freezeWith (cutCode : Option ObErr) (s : LSNAllocator) : Except ObErr (Nat × Int) × LSNAllocator :=
  if !s.isInited then (.error .notInit,s)
  else
    let out := (s.lsnTsMeta.lsnVal,s.logIdBase + s.lsnTsMeta.logIdDelta)
    if s.lsnTsMeta.isNeedCut then
      match cutCode with
      | some e => (.error e,s)
      | none => (.ok out,s)
    else (.ok out,{ s with lsnTsMeta := { s.lsnTsMeta with isNeedCut := true } })

/-- `try_freeze_by_time`: `OB_STATE_NOT_MATCH` when the last log is already cut. -/
def tryFreezeByTime (s : LSNAllocator) : Except ObErr (Nat × Int) × LSNAllocator :=
  freezeWith (some .stateNotMatch) s

def tryFreeze (s : LSNAllocator) : Except ObErr (Nat × Int) × LSNAllocator :=
  freezeWith none s

/-- The first decision of `alloc_lsn_scn`: open a new group log or append to the open one,
and whether the log after it must be cut because it reaches a 2M boundary. Returns the code the
branch sets and the block offset after the entry. An open group already ending at 2M sets
`OB_ERR_UNEXPECTED` but does not leave the pass: the offset stays 0 and the entry opens no group. -/
def cutPlacement (isNeedCut : Bool) (lastBlockOffset size newGroupLogSize : Nat) :
    Option ObErr × Bool × Nat × Bool :=
  let inTrigger := lastBlockOffset &&& logCutTriggerMask
  if isNeedCut then
    (none,true,lastBlockOffset + newGroupLogSize,decide (logCutTrigger ≤ inTrigger + newGroupLogSize))
  else if 0 < lastBlockOffset ∧ inTrigger = 0 then (some .errUnexpected,false,0,false)
  else if 0 < lastBlockOffset ∧ logCutTrigger < inTrigger + size then
    (none,true,lastBlockOffset + newGroupLogSize,decide (logCutTrigger ≤ inTrigger + newGroupLogSize))
  else (none,false,lastBlockOffset + size,decide (logCutTrigger ≤ inTrigger + size))

/-- The two padding branches: a padding group log fills the rest of the block and the new
group log starts the next block. -/
def paddingPlacement (blockId lastBlockOffset newGroupLogSize : Nat) : Placement :=
  ⟨true,true,palfBlockSize - lastBlockOffset,blockId + 1,newGroupLogSize,
    decide (logCutTrigger ≤ newGroupLogSize)⟩

/-- The second decision of `alloc_lsn_scn`: keep the entry in its block, move to the next
block when it ends exactly there, or pad when less than 4K would remain or it overflows. -/
def blockPlacement (blockId lastBlockOffset newGroupLogSize : Nat) (c : Bool × Nat × Bool) :
    Placement :=
  let (isNew,off,cut) := c
  if off < palfBlockSize then
    if palfBlockSize - off < clogFileTailPaddingTrigger then
      paddingPlacement blockId lastBlockOffset newGroupLogSize
    else ⟨isNew,false,0,blockId,off,cut⟩
  else if off = palfBlockSize then ⟨isNew,false,0,blockId + 1,0,true⟩
  else paddingPlacement blockId lastBlockOffset newGroupLogSize

/-- Where `alloc_lsn_scn` places an entry of `size` bytes after the end that the meta word
`last` records: `cutPlacement`, then `blockPlacement`, with the code `cutPlacement` set. -/
def placeEntry (last : LSNTsMeta) (size : Nat) : Option ObErr × Placement :=
  let newGroupLogSize := size + LogGroupEntryHeader.headerSerSize
  let lastBlockOffset := lsn2Offset last.lsnVal palfBlockSize
  let c := cutPlacement last.isNeedCut lastBlockOffset size newGroupLogSize
  (c.1,blockPlacement (lsn2Block last.lsnVal palfBlockSize) lastBlockOffset newGroupLogSize c.2)

/-- One pass of the allocation loop, or the request to rebase the deltas first. -/
inductive AllocPass
  | needUpdateBase
  | done (ret : Except ObErr AllocOut) (s : LSNAllocator)

/-- One pass of the inner loop of `alloc_lsn_scn` on a consistent snapshot. A padding entry
takes one more log id and one more SCN than the entry it precedes. -/
def allocPass (s : LSNAllocator) (baseScn size : Nat) (logIdUpperBound : Int)
    (lsnUpperBound : Nat) : AllocPass :=
  let last := s.lsnTsMeta
  let lastLogId := s.logIdBase + last.logIdDelta
  let lastScn := s.scnBase + last.scnDelta
  let tmpNextScn := max baseScn (lastScn + 1)
  -- a padding entry may also take a log id and an SCN, hence the `+ 1` and `+ 2`
  if logTsDeltaUpperBound ≤ tmpNextScn + 1 - s.scnBase ∨ logIdDeltaUpperBound ≤ last.logIdDelta + 2 then
    .needUpdateBase
  else
    -- the code of the placement never reaches the caller: `OB_EAGAIN` or the code of
    -- `convert_for_logservice` overwrites it
    let p := (placeEntry last size).2
    let newGroupInc := p.isNewGroupLog.toNat
    let paddingInc := p.needGenPaddingEntry.toNat
    let outputScnDelta := tmpNextScn - s.scnBase
    let next : LSNTsMeta :=
      ⟨p.isNextNeedCut,(last.logIdDelta + newGroupInc + paddingInc) % 2 ^ logIdDeltaBitCnt,
        (outputScnDelta + paddingInc) % 2 ^ logTsDeltaBitCnt,
        p.nextBlockId * palfBlockSize + p.nextBlockOffset⟩
    let logId := lastLogId + newGroupInc
    if logIdUpperBound < logId + paddingInc ∨ lsnUpperBound < next.lsnVal then .done (.error .eagain) s
    else
      let s' := { s with lsnTsMeta := next }
      let scnVal := s.scnBase + outputScnDelta
      -- `convert_for_logservice` fails after the meta word is already replaced
      if obMaxScnTsNs < scnVal then .done (.error .invalidArgument) s'
      else .done (.ok ⟨last.lsnVal,logId,scnVal,p.isNewGroupLog,p.needGenPaddingEntry,p.paddingLen⟩) s'

/-- The rebase done under the write lock when a delta would outgrow its bit-field. -/
def updateBase (s : LSNAllocator) (baseScn : Nat) : LSNAllocator :=
  { s with logIdBase := s.logIdBase + s.lsnTsMeta.logIdDelta,
           scnBase := max baseScn (s.scnBase + s.lsnTsMeta.scnDelta),
           lsnTsMeta := ⟨s.lsnTsMeta.isNeedCut,0,0,s.lsnTsMeta.lsnVal⟩ }

/-- `alloc_lsn_scn`: at most one rebase and then a pass; `none` stands for a loop that would
ask for a second rebase, which the zero deltas after a rebase rule out. -/
def allocLsnScn (s : LSNAllocator) (baseScn : Nat) (size logIdUpperBound : Int)
    (lsnUpperBound : Nat) : Option (Except ObErr AllocOut × LSNAllocator) :=
  if !s.isInited then some (.error .notInit,s)
  else if size ≤ 0 ∨ !scnIsValid baseScn ∨ logIdUpperBound ≤ 0 ∨ !lsnIsValid lsnUpperBound then
    some (.error .invalidArgument,s)
  else
    match allocPass s baseScn size.toNat logIdUpperBound lsnUpperBound with
    | .done r t => some (r,t)
    | .needUpdateBase =>
      match allocPass (updateBase s baseScn) baseScn size.toNat logIdUpperBound lsnUpperBound with
      | .done r t => some (r,t)
      | .needUpdateBase => none

theorem logTsDeltaUpperBound_eq : logTsDeltaUpperBound = 34359737368 := rfl
theorem logIdDeltaUpperBound_eq : logIdDeltaUpperBound = 268434456 := rfl

/-! ## The block layout invariant -/

theorem logCutTrigger_eq : logCutTrigger = 2097152 := rfl
theorem clogFileTailPaddingTrigger_eq : clogFileTailPaddingTrigger = 4096 := rfl
theorem maxLogBodySize_eq : maxLogBodySize = 2113536 := rfl

theorem land_logCutTriggerMask (x : Nat) : x &&& logCutTriggerMask = x % logCutTrigger :=
  Nat.and_two_pow_sub_one_eq_mod x 21

def GoodOffset (off : Nat) : Prop :=
  off = 0 ∨ off ≤ palfBlockSize - clogFileTailPaddingTrigger

instance : DecidablePred GoodOffset := fun _ => inferInstanceAs (Decidable (_ ∨ _))

/-- The layout invariant of the end LSN: (I1) its block offset is good, and (I2) an end at a
2M boundary of its block, the block start included, has cut the group log. -/
structure Good (s : LSNAllocator) : Prop where
  offset_good : GoodOffset (lsn2Offset s.lsnTsMeta.lsnVal palfBlockSize)
  cut_at_trigger : lsn2Offset s.lsnTsMeta.lsnVal palfBlockSize % logCutTrigger = 0 →
    s.lsnTsMeta.isNeedCut = true

theorem good_of_cut {s : LSNAllocator} (ho : GoodOffset (lsn2Offset s.lsnTsMeta.lsnVal palfBlockSize))
    (hc : s.lsnTsMeta.isNeedCut = true) : Good s :=
  ⟨ho,fun _ => hc⟩

theorem good_reset : Good reset := good_of_cut (.inl rfl) rfl

/-- The entry length that `cutPlacement` adds: with a group header when a group log opens. -/
def cutLen (isNew : Bool) (size : Nat) : Nat :=
  if isNew then size + LogGroupEntryHeader.headerSerSize else size

@[simp] theorem cutLen_true (size : Nat) : cutLen true size = size + LogGroupEntryHeader.headerSerSize := rfl
@[simp] theorem cutLen_false (size : Nat) : cutLen false size = size := rfl

theorem cutPlacement_spec {isNeedCut : Bool} {off : Nat} (size : Nat)
    (hcut : off % logCutTrigger = 0 → isNeedCut = true) :
    ∃ isNew next cut, cutPlacement isNeedCut off size (size + LogGroupEntryHeader.headerSerSize) =
        (none,isNew,next,cut) ∧ next = off + cutLen isNew size ∧
      (cut = true ↔ logCutTrigger ≤ off % logCutTrigger + cutLen isNew size) ∧
      (isNew = false → isNeedCut = false ∧ 0 < off ∧ off % logCutTrigger + size ≤ logCutTrigger) := by
  simp only [cutPlacement,land_logCutTriggerMask]
  cases isNeedCut with
  | true => exact ⟨true,_,_,rfl,rfl,by simp,nofun⟩
  | false =>
    have hoff : 0 < off ∨ off % logCutTrigger ≠ 0 := by
      by_contra hc
      simp only [not_or,not_lt,Nat.le_zero,not_not] at hc
      exact Bool.false_ne_true (hcut hc.2)
    by_cases hb : 0 < off ∧ off % logCutTrigger = 0
    · exact absurd (hcut hb.2) Bool.false_ne_true
    · rw [if_neg Bool.false_ne_true,if_neg hb]
      by_cases hn : 0 < off ∧ logCutTrigger < off % logCutTrigger + size
      · rw [if_pos hn]
        exact ⟨true,_,_,rfl,rfl,by simp,nofun⟩
      · rw [if_neg hn]
        refine ⟨false,_,_,rfl,rfl,by simp,fun _ => ⟨rfl,?_,?_⟩⟩
        · rcases hoff with h | h
          · exact h
          · exact Nat.pos_of_ne_zero fun h0 => h (by simp [h0])
        · have hpos : 0 < off := by
            rcases hoff with h | h
            · exact h
            · exact Nat.pos_of_ne_zero fun h0 => h (by simp [h0])
          omega

structure PlacementFacts (blockId off size : Nat) (p : Placement) : Prop where
  next_lt : p.nextBlockOffset < palfBlockSize
  next_good : GoodOffset p.nextBlockOffset
  next_cut : p.nextBlockOffset % logCutTrigger = 0 → p.isNextNeedCut = true
  next_end : p.nextBlockId * palfBlockSize + p.nextBlockOffset = blockId * palfBlockSize + off +
    (if p.needGenPaddingEntry then p.paddingLen + (size + LogGroupEntryHeader.headerSerSize)
      else cutLen p.isNewGroupLog size)
  padding_new : p.needGenPaddingEntry = true → p.isNewGroupLog = true
  padding_len : p.needGenPaddingEntry = true → off + p.paddingLen = palfBlockSize ∧
    clogFileTailPaddingTrigger ≤ p.paddingLen ∧
    p.paddingLen < size + LogGroupEntryHeader.headerSerSize + clogFileTailPaddingTrigger
  no_padding : p.needGenPaddingEntry = false → p.paddingLen = 0 ∧
    off + cutLen p.isNewGroupLog size ≤ palfBlockSize

/-- The size bound `LogSlidingWindow::submit_log` guarantees: a header and at most
`MAX_LOG_BODY_SIZE` bytes of body. -/
def SizeOk (size : Nat) : Prop := 0 < size ∧ size ≤ LogEntryHeader.headerSerSize + maxLogBodySize

theorem blockPlacement_spec (blockId : Nat) {off size next : Nat} {isNew cut : Bool} {p : Placement}
    (hoff : GoodOffset off) (hlt : off < palfBlockSize) (hsize : SizeOk size)
    (hnext : next = off + cutLen isNew size)
    (hcut : cut = true ↔ logCutTrigger ≤ off % logCutTrigger + cutLen isNew size)
    (hp : blockPlacement blockId off (size + LogGroupEntryHeader.headerSerSize) (isNew,next,cut) = p) :
    PlacementFacts blockId off size p ∧ (p.isNewGroupLog = false → isNew = false) := by
  obtain ⟨hs0,hs1⟩ := hsize
  have hlen : 0 < cutLen isNew size ∧ cutLen isNew size ≤ size + 56 := by
    cases isNew <;> simp only [cutLen_true,cutLen_false,LogGroupEntryHeader.headerSerSize] <;> omega
  simp only [GoodOffset,palfBlockSize_eq,clogFileTailPaddingTrigger_eq] at hoff hlt
  simp only [LogEntryHeader.headerSerSize,maxLogBodySize_eq] at hs1
  simp only [logCutTrigger_eq] at hcut hlen
  subst hnext
  have hB : palfBlockSize = 67104768 := palfBlockSize_eq
  have hT : clogFileTailPaddingTrigger = 4096 := clogFileTailPaddingTrigger_eq
  have hH : LogGroupEntryHeader.headerSerSize = 56 := rfl
  simp only [blockPlacement,paddingPlacement] at hp
  split at hp
  · next h1 =>
    split at hp
    · next h2 =>
      subst hp
      refine ⟨⟨?_,?_,?_,?_,fun _ => rfl,fun _ => ?_,nofun⟩,nofun⟩ <;>
        simp only [GoodOffset,hB,hT,hH,logCutTrigger_eq,if_true,decide_eq_true_eq] <;> omega
    · next h2 =>
      subst hp
      refine ⟨⟨?_,?_,?_,?_,nofun,nofun,fun _ => ⟨rfl,?_⟩⟩,fun h => h⟩ <;>
        simp only [GoodOffset,hB,hT,logCutTrigger_eq,Bool.false_eq_true,if_false] <;> try omega
      intro hm
      exact hcut.mpr (by omega)
  · next h1 =>
    split at hp
    · next h2 =>
      subst hp
      refine ⟨⟨?_,?_,fun _ => rfl,?_,nofun,nofun,fun _ => ⟨rfl,?_⟩⟩,fun h => h⟩ <;>
        simp only [GoodOffset,hB,hT,Bool.false_eq_true,if_false] <;> omega
    · next h2 =>
      subst hp
      refine ⟨⟨?_,?_,?_,?_,fun _ => rfl,fun _ => ?_,nofun⟩,nofun⟩ <;>
        simp only [GoodOffset,hB,hT,hH,logCutTrigger_eq,if_true,decide_eq_true_eq] <;> omega

theorem placeEntry_spec {s : LSNAllocator} {size : Nat} (hs : Good s) (hsize : SizeOk size) :
    ∃ p, placeEntry s.lsnTsMeta size = (none,p) ∧
      PlacementFacts (lsn2Block s.lsnTsMeta.lsnVal palfBlockSize)
        (lsn2Offset s.lsnTsMeta.lsnVal palfBlockSize) size p ∧
      (p.isNewGroupLog = false →
        s.lsnTsMeta.isNeedCut = false ∧ 0 < lsn2Offset s.lsnTsMeta.lsnVal palfBlockSize) := by
  have hlt : lsn2Offset s.lsnTsMeta.lsnVal palfBlockSize < palfBlockSize :=
    Nat.mod_lt _ (by rw [palfBlockSize_eq]; omega)
  obtain ⟨isNew,next,cut,hc,hnext,hcut,hagg⟩ := cutPlacement_spec size hs.cut_at_trigger
  obtain ⟨hf,hnew⟩ := blockPlacement_spec (lsn2Block s.lsnTsMeta.lsnVal palfBlockSize)
    hs.offset_good hlt hsize hnext hcut rfl
  refine ⟨_,?_,hf,fun hng => ?_⟩
  · simp only [placeEntry,hc]
  · obtain ⟨h1,h2,_⟩ := hagg (hnew hng)
    exact ⟨h1,h2⟩

structure Places (s : LSNAllocator) (size : Nat) (p : Placement) (t : LSNAllocator) : Prop where
  place_eq : (placeEntry s.lsnTsMeta size).2 = p
  end_eq : t.lsnTsMeta.lsnVal = p.nextBlockId * palfBlockSize + p.nextBlockOffset
  cut_eq : t.lsnTsMeta.isNeedCut = p.isNextNeedCut

structure Reports (s : LSNAllocator) (p : Placement) (out : AllocOut) : Prop where
  lsn_eq : out.lsn = s.lsnTsMeta.lsnVal
  new_eq : out.isNewGroupLog = p.isNewGroupLog
  padding_eq : out.needGenPaddingEntry = p.needGenPaddingEntry
  paddingLen_eq : out.paddingLen = p.paddingLen

theorem allocPass_cases {s t : LSNAllocator} {baseScn size : Nat} {logIdUpperBound : Int}
    {lsnUpperBound : Nat} {r : Except ObErr AllocOut}
    (h : allocPass s baseScn size logIdUpperBound lsnUpperBound = .done r t) :
    (r = .error .eagain ∧ t = s) ∨
    ∃ p, Places s size p t ∧ (r = .error .invalidArgument ∨ ∃ out, r = .ok out ∧ Reports s p out) := by
  dsimp only [allocPass] at h
  split at h
  · exact absurd h nofun
  split at h
  · obtain ⟨rfl,rfl⟩ := AllocPass.done.inj h
    exact .inl ⟨rfl,rfl⟩
  split at h
  · obtain ⟨rfl,rfl⟩ := AllocPass.done.inj h
    exact .inr ⟨_,⟨rfl,rfl,rfl⟩,.inl rfl⟩
  · obtain ⟨rfl,rfl⟩ := AllocPass.done.inj h
    exact .inr ⟨_,⟨rfl,rfl,rfl⟩,.inr ⟨_,rfl,rfl,rfl,rfl,rfl⟩⟩

section Placed

variable {s t : LSNAllocator} {size : Nat} {p : Placement}

theorem Places.facts (hs : Good s) (hsize : SizeOk size) (hp : Places s size p t) :
    PlacementFacts (lsn2Block s.lsnTsMeta.lsnVal palfBlockSize)
        (lsn2Offset s.lsnTsMeta.lsnVal palfBlockSize) size p ∧
      (p.isNewGroupLog = false →
        s.lsnTsMeta.isNeedCut = false ∧ 0 < lsn2Offset s.lsnTsMeta.lsnVal palfBlockSize) := by
  obtain ⟨p',hp',hf⟩ := placeEntry_spec hs hsize
  obtain rfl : p' = p := by rw [← hp.place_eq,hp']
  exact hf

theorem Places.good (hs : Good s) (hsize : SizeOk size) (hp : Places s size p t) : Good t := by
  have hf := (hp.facts hs hsize).1
  have ho : lsn2Offset t.lsnTsMeta.lsnVal palfBlockSize = p.nextBlockOffset := by
    rw [hp.end_eq]
    exact lsn2Offset_mul_add hf.next_lt
  refine ⟨?_,fun h => ?_⟩
  · rw [ho]
    exact hf.next_good
  · rw [ho] at h
    rw [hp.cut_eq]
    exact hf.next_cut h

theorem Places.end_eq_add (hs : Good s) (hsize : SizeOk size) (hp : Places s size p t) :
    t.lsnTsMeta.lsnVal = s.lsnTsMeta.lsnVal +
      (if p.needGenPaddingEntry then p.paddingLen + (size + LogGroupEntryHeader.headerSerSize)
        else cutLen p.isNewGroupLog size) := by
  rw [hp.end_eq,(hp.facts hs hsize).1.next_end,lsn2Block_mul_add_lsn2Offset]

theorem Places.end_ne (hs : Good s) (hsize : SizeOk size) (hp : Places s size p t) :
    t.lsnTsMeta.lsnVal ≠ s.lsnTsMeta.lsnVal := by
  rw [hp.end_eq_add hs hsize]
  have := hsize.1
  split
  · omega
  · cases p.isNewGroupLog <;> simp only [cutLen_true,cutLen_false] <;> omega

end Placed

/-- What a successful `alloc_lsn_scn` from a good state guarantees about its out-parameters
and the end LSN it leaves behind. -/
structure AllocLayout (s : LSNAllocator) (size : Nat) (out : AllocOut) (t : LSNAllocator) : Prop where
  lsn_eq : out.lsn = s.lsnTsMeta.lsnVal
  end_eq : t.lsnTsMeta.lsnVal = out.lsn +
    (if out.needGenPaddingEntry then out.paddingLen + (size + LogGroupEntryHeader.headerSerSize)
      else cutLen out.isNewGroupLog size)
  padding_new : out.needGenPaddingEntry = true → out.isNewGroupLog = true
  padding_boundary : out.needGenPaddingEntry = true →
    out.lsn + out.paddingLen = (lsn2Block out.lsn palfBlockSize + 1) * palfBlockSize
  padding_len : out.needGenPaddingEntry = true → clogFileTailPaddingTrigger ≤ out.paddingLen ∧
    out.paddingLen < size + LogGroupEntryHeader.headerSerSize + clogFileTailPaddingTrigger
  fits : out.needGenPaddingEntry = false →
    lsn2Offset out.lsn palfBlockSize + cutLen out.isNewGroupLog size ≤ palfBlockSize
  aggregate : out.isNewGroupLog = false →
    s.lsnTsMeta.isNeedCut = false ∧ 0 < lsn2Offset out.lsn palfBlockSize

theorem AllocLayout.of_places {s t : LSNAllocator} {size : Nat} {p : Placement} {out : AllocOut}
    (hs : Good s) (hsize : SizeOk size) (hp : Places s size p t) (ho : Reports s p out) :
    AllocLayout s size out t := by
  obtain ⟨hf,hagg⟩ := hp.facts hs hsize
  have hdecomp := lsn2Block_mul_add_lsn2Offset s.lsnTsMeta.lsnVal palfBlockSize
  rw [← ho.lsn_eq] at hagg hdecomp
  refine ⟨ho.lsn_eq,?_,?_,fun hpd => ?_,fun hpd => ?_,fun hpd => ?_,fun hng => hagg (ho.new_eq ▸ hng)⟩
  · rw [hp.end_eq_add hs hsize,ho.lsn_eq,ho.padding_eq,ho.paddingLen_eq,ho.new_eq]
  · rw [ho.padding_eq,ho.new_eq]
    exact hf.padding_new
  · have := (hf.padding_len (ho.padding_eq ▸ hpd)).1
    rw [← ho.lsn_eq] at this
    rw [ho.paddingLen_eq,Nat.add_one_mul]
    omega
  · rw [ho.paddingLen_eq]
    exact (hf.padding_len (ho.padding_eq ▸ hpd)).2
  · rw [ho.new_eq,ho.lsn_eq]
    exact (hf.no_padding (ho.padding_eq ▸ hpd)).2

theorem Good.placeEntry_ret {s : LSNAllocator} (hs : Good s) (size : Nat) :
    (placeEntry s.lsnTsMeta size).1 = none := by
  obtain ⟨isNew,next,cut,hc,-⟩ := cutPlacement_spec size hs.cut_at_trigger
  have hc' : (cutPlacement s.lsnTsMeta.isNeedCut (lsn2Offset s.lsnTsMeta.lsnVal palfBlockSize) size
      (size + LogGroupEntryHeader.headerSerSize)).1 = none := by rw [hc]
  exact hc'

/-- What one call of `alloc_lsn_scn` does from a good state: the state stays good, the end LSN
and cut flag either stay or become those of the placement the call computed, and a successful
call reports that placement. -/
structure AllocSpec (s : LSNAllocator) (size : Nat) (r : Except ObErr AllocOut) (t : LSNAllocator) :
    Prop where
  good : Good t
  kept_or_placed : (t.lsnTsMeta.lsnVal = s.lsnTsMeta.lsnVal ∧
    t.lsnTsMeta.isNeedCut = s.lsnTsMeta.isNeedCut) ∨ ∃ p, Places s size p t
  reports : ∀ out, r = .ok out → ∃ p, Places s size p t ∧ Reports s p out

theorem AllocSpec.kept {s : LSNAllocator} {size : Nat} {e : ObErr} (hs : Good s) :
    AllocSpec s size (.error e) s :=
  ⟨hs,.inl ⟨rfl,rfl⟩,nofun⟩

theorem allocPass_spec {s t : LSNAllocator} {baseScn size : Nat} {logIdUpperBound : Int}
    {lsnUpperBound : Nat} {r : Except ObErr AllocOut} (hs : Good s) (hsize : SizeOk size)
    (h : allocPass s baseScn size logIdUpperBound lsnUpperBound = .done r t) :
    AllocSpec s size r t := by
  rcases allocPass_cases h with ⟨rfl,rfl⟩ | ⟨p,hp,hr⟩
  · exact AllocSpec.kept hs
  · refine ⟨hp.good hs hsize,.inr ⟨p,hp⟩,fun out hout => ?_⟩
    rcases hr with rfl | ⟨out',rfl,ho⟩
    · exact absurd hout nofun
    · obtain rfl := Except.ok.inj hout
      exact ⟨p,hp,ho⟩

@[simp] theorem updateBase_lsnVal (s : LSNAllocator) (b : Nat) :
    (updateBase s b).lsnTsMeta.lsnVal = s.lsnTsMeta.lsnVal := rfl
@[simp] theorem updateBase_isNeedCut (s : LSNAllocator) (b : Nat) :
    (updateBase s b).lsnTsMeta.isNeedCut = s.lsnTsMeta.isNeedCut := rfl

theorem Good.updateBase {s : LSNAllocator} (hs : Good s) (b : Nat) : Good (updateBase s b) :=
  ⟨hs.offset_good,hs.cut_at_trigger⟩

theorem AllocSpec.of_updateBase {s t : LSNAllocator} {b size : Nat} {r : Except ObErr AllocOut}
    (h : AllocSpec (updateBase s b) size r t) : AllocSpec s size r t := by
  have hplaces : ∀ {p}, Places (updateBase s b) size p t → Places s size p t :=
    fun hp => ⟨hp.place_eq,hp.end_eq,hp.cut_eq⟩
  refine ⟨h.good,?_,fun out hout => ?_⟩
  · rcases h.kept_or_placed with hk | ⟨p,hp⟩
    · exact .inl hk
    · exact .inr ⟨p,hplaces hp⟩
  · obtain ⟨p,hp,ho⟩ := h.reports out hout
    exact ⟨p,hplaces hp,⟨ho.lsn_eq,ho.new_eq,ho.padding_eq,ho.paddingLen_eq⟩⟩

theorem allocLsnScn_spec {s t : LSNAllocator} {baseScn : Nat} {size logIdUpperBound : Int}
    {lsnUpperBound : Nat} {r : Except ObErr AllocOut} (hs : Good s)
    (hsize : size ≤ LogEntryHeader.headerSerSize + maxLogBodySize)
    (h : allocLsnScn s baseScn size logIdUpperBound lsnUpperBound = some (r,t)) :
    AllocSpec s size.toNat r t := by
  simp only [allocLsnScn] at h
  split at h
  · obtain ⟨rfl,rfl⟩ := Prod.mk.inj (Option.some.inj h)
    exact AllocSpec.kept hs
  split at h
  · obtain ⟨rfl,rfl⟩ := Prod.mk.inj (Option.some.inj h)
    exact AllocSpec.kept hs
  next hinit hargs =>
  have hsz : SizeOk size.toNat := by
    simp only [not_or,not_le] at hargs
    exact ⟨by omega,by omega⟩
  split at h
  · next r' t' hpass =>
    obtain ⟨rfl,rfl⟩ := Prod.mk.inj (Option.some.inj h)
    exact allocPass_spec hs hsz hpass
  · split at h
    · next r' t' hpass =>
      obtain ⟨rfl,rfl⟩ := Prod.mk.inj (Option.some.inj h)
      exact (allocPass_spec (hs.updateBase baseScn) hsz hpass).of_updateBase
    · exact absurd h nofun

/-! ## Runs of the allocator -/

inductive Op
  | init (logId : Int) (scn lsn : Nat)
  | truncate (lsn : Nat) (logId : Int) (scn : Nat)
  | incUpdateLastLogInfo (lsn : Nat) (logId : Int) (scn : Nat)
  | incUpdateScnBase (refScn : Nat)
  | tryFreeze
  | tryFreezeByTime
  | allocLsnScn (baseScn : Nat) (size logIdUpperBound : Int) (lsnUpperBound : Nat)

/-- The calls the layout invariant is about: end LSNs installed with a good block offset, and
entries no larger than `LogSlidingWindow::submit_log` lets through. -/
def Op.Admissible : Op → Prop
  | .init _ _ lsn | .truncate lsn _ _ | .incUpdateLastLogInfo lsn _ _ =>
    GoodOffset (lsn2Offset lsn palfBlockSize)
  | .allocLsnScn _ size _ _ => 0 < size ∧ size ≤ LogEntryHeader.headerSerSize + maxLogBodySize
  | _ => True

def stateAfter (s : LSNAllocator) : Except ObErr LSNAllocator → LSNAllocator
  | .ok t => t
  | .error _ => s

def step (s : LSNAllocator) : Op → Option LSNAllocator
  | .init logId scn lsn => some (stateAfter s (init s logId scn lsn))
  | .truncate lsn logId scn => some (stateAfter s (truncate s lsn logId scn))
  | .incUpdateLastLogInfo lsn logId scn => some (stateAfter s (incUpdateLastLogInfo s lsn logId scn))
  | .incUpdateScnBase refScn => some (stateAfter s (incUpdateScnBase s refScn))
  | .tryFreeze => some (tryFreeze s).2
  | .tryFreezeByTime => some (tryFreezeByTime s).2
  | .allocLsnScn baseScn size lub sub => (allocLsnScn s baseScn size lub sub).map Prod.snd

/-- A call other than `alloc_lsn_scn` keeps the state, or leaves a good end LSN with the group
log cut. -/
def CutsOrKeeps (s t : LSNAllocator) : Prop :=
  t = s ∨ (GoodOffset (lsn2Offset t.lsnTsMeta.lsnVal palfBlockSize) ∧ t.lsnTsMeta.isNeedCut = true)

theorem CutsOrKeeps.good {s t : LSNAllocator} (hs : Good s) (h : CutsOrKeeps s t) : Good t := by
  rcases h with rfl | ⟨ho,hc⟩
  · exact hs
  · exact good_of_cut ho hc

section Calls

variable {s : LSNAllocator} {logId : Int} {scn lsn : Nat}

theorem init_cutsOrKeeps (h : GoodOffset (lsn2Offset lsn palfBlockSize)) :
    CutsOrKeeps s (stateAfter s (init s logId scn lsn)) := by
  simp only [init]
  split_ifs
  · exact .inl rfl
  · exact .inl rfl
  · exact .inr ⟨h,rfl⟩

theorem truncate_cutsOrKeeps (h : GoodOffset (lsn2Offset lsn palfBlockSize)) :
    CutsOrKeeps s (stateAfter s (truncate s lsn logId scn)) := by
  simp only [truncate]
  split_ifs
  · exact .inl rfl
  · exact .inl rfl
  · exact .inr ⟨h,rfl⟩

theorem incUpdateLastLogInfo_cutsOrKeeps (h : GoodOffset (lsn2Offset lsn palfBlockSize)) :
    CutsOrKeeps s (stateAfter s (incUpdateLastLogInfo s lsn logId scn)) := by
  simp only [incUpdateLastLogInfo]
  split_ifs
  · exact .inl rfl
  · exact .inl rfl
  · exact .inl rfl
  · exact .inl rfl
  · exact .inr ⟨h,rfl⟩

theorem incUpdateScnBase_cutsOrKeeps (hs : Good s) (refScn : Nat) :
    CutsOrKeeps s (stateAfter s (incUpdateScnBase s refScn)) := by
  simp only [incUpdateScnBase]
  split_ifs
  · exact .inl rfl
  · exact .inl rfl
  · exact .inl rfl
  · exact .inr ⟨hs.offset_good,rfl⟩

theorem freezeWith_cutsOrKeeps (hs : Good s) (cutCode : Option ObErr) :
    CutsOrKeeps s (freezeWith cutCode s).2 := by
  simp only [freezeWith]
  split_ifs
  · exact .inl rfl
  · cases cutCode <;> exact .inl rfl
  · exact .inr ⟨hs.offset_good,rfl⟩

end Calls

/-! ## Group logs stay inside one block -/

def OneBlock (a e : Nat) : Prop :=
  a ≤ e ∧ e ≤ lsn2Block a palfBlockSize * palfBlockSize + palfBlockSize

theorem oneBlock_of_fits {a n : Nat} (h : lsn2Offset a palfBlockSize + n ≤ palfBlockSize) :
    OneBlock a (a + n) := by
  have := lsn2Block_mul_add_lsn2Offset a palfBlockSize
  exact ⟨by omega,by omega⟩

theorem OneBlock.extend {g e n : Nat} (h : OneBlock g e) (hoff : 0 < lsn2Offset e palfBlockSize)
    (hfit : lsn2Offset e palfBlockSize + n ≤ palfBlockSize) : OneBlock g (e + n) := by
  obtain ⟨hle,hend⟩ := h
  have he := lsn2Block_mul_add_lsn2Offset e palfBlockSize
  have hblk : lsn2Block g palfBlockSize ≤ lsn2Block e palfBlockSize := Nat.div_le_div_right hle
  have hsame : lsn2Block e palfBlockSize = lsn2Block g palfBlockSize := by
    by_contra hne
    have : (lsn2Block g palfBlockSize + 1) * palfBlockSize ≤ lsn2Block e palfBlockSize * palfBlockSize :=
      Nat.mul_le_mul_right _ (by omega)
    rw [Nat.add_one_mul] at this
    omega
  refine ⟨by omega,?_⟩
  rw [← hsame]
  omega

/-- The allocator together with a ghost: where the group log of the last placed entry
begins. -/
structure Tracked where
  alloc : LSNAllocator
  groupBegin : Nat
  deriving DecidableEq, Repr

/-- Where the group log holding an entry placed after meta word `m` begins: behind the padding
when a new group log opens, `g` when the entry is appended to the open group. -/
def groupBeginOf (m : LSNTsMeta) (size g : Nat) : Nat :=
  let p := (placeEntry m size).2
  if p.isNewGroupLog then m.lsnVal + p.paddingLen else g

def groupBeginAfter (g : Nat) (out : AllocOut) : Nat :=
  if out.isNewGroupLog then out.lsn + out.paddingLen else g

/-- A call with the ghost kept up to date: it moves when the call placed an entry, which
`convert_for_logservice` failing afterwards does not undo. -/
def trackedStep (x : Tracked) (op : Op) : Option Tracked :=
  match op with
  | .allocLsnScn baseScn size lub sub =>
    (allocLsnScn x.alloc baseScn size lub sub).map fun rt =>
      ⟨rt.2,if rt.2.lsnTsMeta.lsnVal = x.alloc.lsnTsMeta.lsnVal then x.groupBegin
        else groupBeginOf x.alloc.lsnTsMeta size.toNat x.groupBegin⟩
  | _ => (step x.alloc op).map fun t => ⟨t,x.groupBegin⟩

/-- The invariant of tracked runs: the state is good, and an open group log lies inside one
block. -/
structure Tracked.Inv (x : Tracked) : Prop where
  good : Good x.alloc
  group : x.alloc.lsnTsMeta.isNeedCut = false → OneBlock x.groupBegin x.alloc.lsnTsMeta.lsnVal

theorem Tracked.inv_reset (g : Nat) : Tracked.Inv ⟨reset,g⟩ := ⟨good_reset,nofun⟩

namespace Tracked.Inv

variable {x : Tracked}

theorem call {t : LSNAllocator} (hx : Tracked.Inv x) (h : CutsOrKeeps x.alloc t) :
    Tracked.Inv ⟨t,x.groupBegin⟩ := by
  refine ⟨h.good hx.good,fun hc => ?_⟩
  rcases h with rfl | ⟨-,hcut⟩
  · exact hx.group hc
  · rw [hcut] at hc
    exact absurd hc nofun

theorem oneBlock_groupBeginOf {size : Nat} {p : Placement} {t : LSNAllocator}
    (hx : Tracked.Inv x) (hsize : SizeOk size) (hp : Places x.alloc size p t) :
    OneBlock (groupBeginOf x.alloc.lsnTsMeta size x.groupBegin) t.lsnTsMeta.lsnVal := by
  obtain ⟨hf,hagg⟩ := hp.facts hx.good hsize
  have hend := hp.end_eq_add hx.good hsize
  have hdec := lsn2Block_mul_add_lsn2Offset x.alloc.lsnTsMeta.lsnVal palfBlockSize
  simp only [groupBeginOf,hp.place_eq]
  cases hnew : p.isNewGroupLog with
  | false =>
    obtain ⟨hcut,hoff⟩ := hagg hnew
    have hpd : p.needGenPaddingEntry = false := by
      cases hpd : p.needGenPaddingEntry
      · rfl
      · rw [hf.padding_new hpd] at hnew
        exact absurd hnew nofun
    have hfit := (hf.no_padding hpd).2
    simp only [hpd,hnew,Bool.false_eq_true,if_false,cutLen_false] at hend hfit ⊢
    rw [hend]
    exact (hx.group hcut).extend hoff hfit
  | true =>
    simp only [if_true]
    cases hpd : p.needGenPaddingEntry with
    | false =>
      obtain ⟨hzero,hfit⟩ := hf.no_padding hpd
      simp only [hpd,hnew,Bool.false_eq_true,if_false] at hend hfit
      rw [hend,hzero,Nat.add_zero]
      exact oneBlock_of_fits hfit
    | true =>
      obtain ⟨hb,-,-⟩ := hf.padding_len hpd
      simp only [hpd,if_true] at hend
      have hstart : x.alloc.lsnTsMeta.lsnVal + p.paddingLen =
          (lsn2Block x.alloc.lsnTsMeta.lsnVal palfBlockSize + 1) * palfBlockSize + 0 := by
        rw [Nat.add_one_mul]
        omega
      have hoff0 : lsn2Offset (x.alloc.lsnTsMeta.lsnVal + p.paddingLen) palfBlockSize = 0 := by
        rw [hstart]
        exact lsn2Offset_mul_add (by rw [palfBlockSize_eq]; omega)
      have hsz : size + LogGroupEntryHeader.headerSerSize ≤ palfBlockSize := by
        have := hsize.2
        simp only [LogEntryHeader.headerSerSize,LogGroupEntryHeader.headerSerSize,maxLogBodySize_eq,
          palfBlockSize_eq] at this ⊢
        omega
      rw [hend,← Nat.add_assoc]
      exact oneBlock_of_fits (by omega)

theorem alloc {baseScn : Nat} {size lub : Int} {sub : Nat} {r : Except ObErr AllocOut}
    {t : LSNAllocator} (hx : Tracked.Inv x) (hop : (Op.allocLsnScn baseScn size lub sub).Admissible)
    (h : allocLsnScn x.alloc baseScn size lub sub = some (r,t)) :
    Tracked.Inv ⟨t,if t.lsnTsMeta.lsnVal = x.alloc.lsnTsMeta.lsnVal then x.groupBegin
      else groupBeginOf x.alloc.lsnTsMeta size.toNat x.groupBegin⟩ := by
  obtain ⟨hpos,hle⟩ := hop
  have hsize : SizeOk size.toNat := ⟨by omega,by omega⟩
  have hspec := allocLsnScn_spec hx.good hle h
  refine ⟨hspec.good,fun hc => ?_⟩
  rcases hspec.kept_or_placed with ⟨hl,hk⟩ | ⟨p,hp⟩
  · rw [if_pos hl,hl]
    exact hx.group (hk ▸ hc)
  · rw [if_neg (hp.end_ne hx.good hsize)]
    exact hx.oneBlock_groupBeginOf hsize hp

theorem step {op : Op} {y : Tracked} (hx : Tracked.Inv x) (hop : op.Admissible)
    (h : trackedStep x op = some y) : Tracked.Inv y := by
  cases op with
  | allocLsnScn baseScn size lub sub =>
    obtain ⟨⟨r,t⟩,hrt,rfl⟩ := Option.map_eq_some_iff.mp h
    exact hx.alloc hop hrt
  | init logId scn lsn =>
    cases h
    exact hx.call (init_cutsOrKeeps hop)
  | truncate lsn logId scn =>
    cases h
    exact hx.call (truncate_cutsOrKeeps hop)
  | incUpdateLastLogInfo lsn logId scn =>
    cases h
    exact hx.call (incUpdateLastLogInfo_cutsOrKeeps hop)
  | incUpdateScnBase refScn =>
    cases h
    exact hx.call (incUpdateScnBase_cutsOrKeeps hx.good refScn)
  | tryFreeze =>
    cases h
    exact hx.call (freezeWith_cutsOrKeeps hx.good none)
  | tryFreezeByTime =>
    cases h
    exact hx.call (freezeWith_cutsOrKeeps hx.good (some .stateNotMatch))

end Tracked.Inv

theorem groupBeginAfter_eq {s t : LSNAllocator} {size g : Nat} {p : Placement} {out : AllocOut}
    (hp : Places s size p t) (ho : Reports s p out) :
    groupBeginAfter g out = groupBeginOf s.lsnTsMeta size g := by
  simp only [groupBeginAfter,groupBeginOf,hp.place_eq,ho.new_eq,ho.lsn_eq,ho.paddingLen_eq]

/-- The block layout of the allocator over every run from its constructed state: every state
reached is good, and every call of `alloc_lsn_scn` with an admissible size from it never takes
the `OB_ERR_UNEXPECTED` branch of its placement, leaves a good state, and when it succeeds lays
its entry out as `AllocLayout` says, inside a group log that lies in one block. -/
theorem allocLsnScn_layout_of_run {g₀ : Nat} {ops : List Op} {x : Tracked}
    (hrun : Lib.Run trackedStep (fun _ => Op.Admissible) ⟨reset,g₀⟩ ops x) :
    Good x.alloc ∧ ∀ (baseScn : Nat) (size logIdUpperBound : Int) (lsnUpperBound : Nat) r t,
      (Op.allocLsnScn baseScn size logIdUpperBound lsnUpperBound).Admissible →
      allocLsnScn x.alloc baseScn size logIdUpperBound lsnUpperBound = some (r,t) →
      (placeEntry x.alloc.lsnTsMeta size.toNat).1 = none ∧ Good t ∧ ∀ out, r = .ok out →
        AllocLayout x.alloc size.toNat out t ∧
        groupBeginAfter x.groupBegin out ≤ out.lsn + out.paddingLen ∧
        OneBlock (groupBeginAfter x.groupBegin out) t.lsnTsMeta.lsnVal := by
  have hx : Tracked.Inv x :=
    hrun.invariant Tracked.Inv (fun _ _ _ hx hop h => hx.step hop h) (Tracked.inv_reset g₀)
  refine ⟨hx.good,fun baseScn size lub sub r t hop h => ?_⟩
  obtain ⟨hpos,hle⟩ := hop
  have hsize : SizeOk size.toNat := ⟨by omega,by omega⟩
  have hspec := allocLsnScn_spec hx.good hle h
  refine ⟨hx.good.placeEntry_ret _,hspec.good,fun out hout => ?_⟩
  obtain ⟨p,hp,ho⟩ := hspec.reports out hout
  have hlay := AllocLayout.of_places hx.good hsize hp ho
  refine ⟨hlay,?_,groupBeginAfter_eq hp ho ▸ hx.oneBlock_groupBeginOf hsize hp⟩
  unfold groupBeginAfter
  split
  · exact le_rfl
  · next hng =>
    have hagg := hlay.aggregate (by simpa using hng)
    have := (hx.group hagg.1).1
    rw [hlay.lsn_eq]
    omega

instance (op : Op) : Decidable op.Admissible :=
  match op with
  | .init _ _ lsn | .truncate lsn _ _ | .incUpdateLastLogInfo lsn _ _ =>
    inferInstanceAs (Decidable (GoodOffset (lsn2Offset lsn palfBlockSize)))
  | .allocLsnScn _ size _ _ =>
    inferInstanceAs (Decidable (0 < size ∧ size ≤ LogEntryHeader.headerSerSize + maxLogBodySize))
  | .incUpdateScnBase _ | .tryFreeze | .tryFreezeByTime => isTrue trivial

/-- `init` at LSN 0, a new group log and an entry appended to it, a truncate to 4106 bytes
before the end of block 0, and an entry that no longer fits: it is placed behind a padding
group log at the start of block 1. -/
def paddingRun : List Op :=
  [.init 1 1 0,.allocLsnScn 2 100 1000 (2 ^ 40),.allocLsnScn 3 100 1000 (2 ^ 40),
    .truncate (palfBlockSize - 4106) 5 9,.allocLsnScn 10 100 1000 (2 ^ 40)]

/-- Where `paddingRun` ends: two more log ids and SCNs (the padding group and the entry's), the
end 156 bytes into block 1, and the open group log starting at block 1. -/
def paddingRunEnd : Tracked := ⟨⟨⟨false,2,2,palfBlockSize + 156⟩,5,9,true⟩,palfBlockSize⟩

theorem allocLsnScn_layout_after_padding :
    Lib.Run trackedStep (fun _ => Op.Admissible) ⟨reset,0⟩ paddingRun paddingRunEnd ∧
      Good paddingRunEnd.alloc ∧ ∀ (baseScn : Nat) (size logIdUpperBound : Int) (lsnUpperBound : Nat) r t,
      (Op.allocLsnScn baseScn size logIdUpperBound lsnUpperBound).Admissible →
      allocLsnScn paddingRunEnd.alloc baseScn size logIdUpperBound lsnUpperBound = some (r,t) →
      (placeEntry paddingRunEnd.alloc.lsnTsMeta size.toNat).1 = none ∧ Good t ∧ ∀ out, r = .ok out →
        AllocLayout paddingRunEnd.alloc size.toNat out t ∧
        groupBeginAfter paddingRunEnd.groupBegin out ≤ out.lsn + out.paddingLen ∧
        OneBlock (groupBeginAfter paddingRunEnd.groupBegin out) t.lsnTsMeta.lsnVal :=
  have hrun : Lib.Run trackedStep (fun _ => Op.Admissible) ⟨reset,0⟩ paddingRun paddingRunEnd :=
    Lib.Run.of_exec (by decide +kernel)
  ⟨hrun,allocLsnScn_layout_of_run hrun⟩

end LSNAllocator

end Palf
end OceanBase
