import Mathlib
import OceanBase.Define

/-! One replica's id service (`ob_id_service.cpp`, `ob_timestamp_service.cpp`). The timestamp,
transaction id and DAS id services all hand out ranges of ids through `get_number`, without the
service's lock: a caller sizes its range from one load of `last_id_` and one of `limited_id_`,
carves it out of `last_id_` with a compare-and-swap or a fetch-and-add, and loads `limited_id_`
again before it answers. `limited_id_` rises when a log that persists a new limit commits
(`submit_log_`, then `handle_submit_callback`), when such a log is replayed
(`handle_replay_result`), or from the log stream's meta (`update_limited_id`).

Each access of a caller to the shared words is one step of a `GetNumberCall` here, so that the
callers of a replica interleave with each other and with the callbacks, which hold the lock.
`rec_log_ts_`, `submit_log_ts_` and the rate-limited logging are left out: no decision of the
code reads them, except the `OB_ERR_UNEXPECTED` of `submit_log_` on a logging service whose
`submit_log_ts_` is unset, which the service never reaches. -/
namespace OceanBase
namespace Transaction

inductive ServiceType
  | timestampService | transIdService | dasIdService
  deriving DecidableEq, Repr

def minLastId : Int := 1

/-- `INT64_MAX`, the cap `max_pre_allocated_id_` gives the services other than the timestamp
service. -/
def idInt64Max : Int := 2 ^ 63 - 1

def transIdPreallocatedRange : Int := 1000000

/-- `SCN::operator>`, with `none` for the invalid SCN: it is above no SCN and below every valid
one. -/
def scnGt : Option Nat → Option Nat → Bool
  | some a, some b => decide (b < a)
  | some _, none => true
  | none, _ => false

def scnIncUpdate (cur ref : Option Nat) : Option Nat := if scnGt ref cur then ref else cur

structure ObIDMeta where
  limitedId : Int
  latestLogTs : Option Nat
  deriving DecidableEq, Repr

def ObIDMeta.init : ObIDMeta := ⟨minLastId,none⟩

def ObIDMeta.updateIdMeta (m : ObIDMeta) (limitedId : Int) (latestLogTs : Option Nat) : ObIDMeta :=
  ⟨max m.limitedId limitedId,scnIncUpdate m.latestLogTs latestLogTs⟩

structure ObPresistIDLog where
  lastId : Int
  limitId : Int
  deriving DecidableEq, Repr

/-- One replica's `ObIDService`. `cbLimitedId` and `cbLogTs` are the fields of its callback
`cb_`, and `lsIdMeta` is this service's entry in the meta of the log stream `ls_`. -/
structure ObIDService where
  serviceType : ServiceType
  preAllocatedRange : Int
  lastId : Int
  tmpLastId : Int
  limitedId : Int
  isLogging : Bool
  latestLogTs : Option Nat
  cbLimitedId : Int
  cbLogTs : Option Nat
  lsIdMeta : ObIDMeta
  deriving DecidableEq, Repr

namespace ObIDService

/-- `reset()`, then the `init()` of a service, which sets its type and pre-allocated range. -/
def init (serviceType : ServiceType) (preAllocatedRange : Int) : ObIDService where
  serviceType := serviceType
  preAllocatedRange := preAllocatedRange
  lastId := minLastId
  tmpLastId := 0
  limitedId := minLastId
  isLogging := false
  latestLogTs := none
  cbLimitedId := 0
  cbLogTs := none
  lsIdMeta := ObIDMeta.init

/-- `update_ls_id_meta`: the log stream's meta takes the limit and the latest SCN. -/
def updateLsIdMeta (s : ObIDService) : ObIDService :=
  { s with lsIdMeta := s.lsIdMeta.updateIdMeta s.limitedId s.latestLogTs }

/-- The success branch of `handle_submit_callback`: a replayed `tmp_last_id_` becomes
`last_id_`, and the committed limit is taken. -/
def commitCallback (s : ObIDService) (limitedId : Int) (logTs : Option Nat) : ObIDService :=
  let s := if s.tmpLastId ≠ 0 then { s with lastId := s.tmpLastId, tmpLastId := 0 } else s
  updateLsIdMeta { s with limitedId := max s.limitedId limitedId, latestLogTs := logTs }

/-- `handle_submit_callback(success, limited_id, log_ts)`: whatever the outcome, the service
stops logging and its callback is reset. -/
def handleSubmitCallback (s : ObIDService) (success : Bool) (limitedId : Int)
    (logTs : Option Nat) : ObIDService :=
  let s := if limitedId < 0 ∨ logTs = none then s
    else if success then s.commitCallback limitedId logTs else s
  { s with isLogging := false, cbLimitedId := 0, cbLogTs := none }

def handleReplayResult (s : ObIDService) (lastId limitedId : Int) (logTs : Option Nat) :
    Except ObErr ObIDService :=
  if lastId < 0 ∨ limitedId < 0 ∨ logTs = none then .error .invalidArgument
  else
    let tmpLastId := if lastId ≠ limitedId ∧ limitedId = s.limitedId then max s.tmpLastId lastId
      else 0
    let s := { s with tmpLastId := tmpLastId, lastId := max s.lastId limitedId,
                      limitedId := max s.limitedId limitedId }
    if scnGt logTs s.latestLogTs then .ok (updateLsIdMeta { s with latestLogTs := logTs })
    else .ok s

/-- `update_limited_id(limited_id, latest_log_ts)`, applied from a log stream's meta. -/
def updateLimitedId (s : ObIDService) (limitedId : Int) (latestLogTs : Option Nat) : ObIDService :=
  { s with lastId := max s.lastId limitedId, limitedId := max s.limitedId limitedId,
           latestLogTs := latestLogTs }

/-- `switch_to_leader`, given the log stream's largest SCN: `ObTimestampService` raises
`last_id_` to it; the other services return at once. -/
def switchToLeader (s : ObIDService) (maxScn : Option Nat) : ObIDService :=
  if s.serviceType = .timestampService then
    let versionVal : Int := (maxScn.map Int.ofNat).getD (-1)
    if versionVal ≥ s.limitedId then { s with lastId := max s.lastId versionVal, tmpLastId := 0 }
    else if s.tmpLastId ≠ 0 ∧ versionVal > s.tmpLastId then
      { s with tmpLastId := max s.tmpLastId versionVal }
    else s
  else s

/-- `max_pre_allocated_id_(base_id)`: the timestamp service first raises `last_id_` to a base
above its limit. -/
def maxPreAllocatedId (s : ObIDService) (baseId : Int) : ObIDService × Int :=
  if s.serviceType = .timestampService then
    let s := if baseId > s.limitedId then { s with lastId := max s.lastId baseId } else s
    (s,s.lastId + 2 * s.preAllocatedRange)
  else (s,idInt64Max)

/-- The `base_ts` of `submit_log_`: the timestamp service asks for an SCN not below its
`tmp_last_id_`, or its `last_id_`; the other services for any SCN. -/
def submitBaseTs (s : ObIDService) : Int :=
  if s.serviceType = .timestampService then
    (if s.tmpLastId ≠ 0 then s.tmpLastId else s.lastId)
  else 0

/-- `submit_log_(last_id, limited_id)`. `canAppend` is whether the log stream takes the append
(its replica leads) and `maxScn` the largest SCN it has given out; the log appended, with its
SCN, is returned beside the service. -/
def submitLog (s : ObIDService) (lastId limitedId : Int) (canAppend : Bool) (maxScn : Nat) :
    ObIDService × Except ObErr (Option (ObPresistIDLog × Nat)) :=
  if s.isLogging then (s,.error .eagain)
  else if lastId < 0 ∨ limitedId < 0 then (s,.error .invalidArgument)
  else if limitedId ≤ s.limitedId then (s,.ok none)
  else if s.submitBaseTs < 0 ∨ (obMaxScnTsNs : Int) < s.submitBaseTs then
    (s,.error .invalidArgument)
  else if !canAppend then ({ s with cbLimitedId := 0, cbLogTs := none },.error .notMaster)
  else
    -- the log stream gives the log an SCN above every one before it and not below the base
    ({ s with cbLogTs := some (max s.submitBaseTs.toNat (maxScn + 1)), cbLimitedId := limitedId,
               isLogging := true },
      .ok (some (⟨lastId,limitedId⟩,max s.submitBaseTs.toNat (maxScn + 1))))

end ObIDService

/-- Where a `get_number` call stands. Each constructor is one access to `last_id_` or
`limited_id_`; `tail` holds the result, and the call returns once the pre-allocation check after
it has run. -/
inductive GetNumberPc
  | loadLimit | reserve | fetchAdd | reload
  | tail (ret : Except ObErr (Int × Int))
  deriving DecidableEq, Repr

/-- A `get_number(range, base_id)` call of a leader in flight: its arguments, its locals
`last_id`, `allocated_range` and `tmp_id`, and its place. `seen` is not the code's: it counts
the ranges handed out before the call began. -/
structure GetNumberCall where
  replica : Nat
  range : Int
  baseId : Int
  lastId : Int
  allocatedRange : Int
  tmpId : Int
  pc : GetNumberPc
  seen : Nat
  deriving DecidableEq, Repr

namespace GetNumberCall

/-- `limit_id = ATOMIC_LOAD(&limited_id_)` and the size of the range: never past the limit
from the base or from the loaded `last_id`. -/
def loadLimit (c : GetNumberCall) (s : ObIDService) : GetNumberCall :=
  let allocatedRange := min (min (s.limitedId - c.baseId) (s.limitedId - c.lastId)) c.range
  if allocatedRange ≤ 0 then { c with pc := .tail (.error .eagain) }
  else { c with allocatedRange := allocatedRange, pc := .reserve }

def fetchAdd (c : GetNumberCall) (s : ObIDService) : ObIDService × GetNumberCall :=
  ({ s with lastId := s.lastId + c.allocatedRange },{ c with tmpId := s.lastId, pc := .reload })

/-- `ATOMIC_BCAS(&last_id_, last_id, base_id + allocated_range)` when `base_id > last_id`, the
fetch-and-add otherwise; a failed compare-and-swap falls back to the fetch-and-add. -/
def reserve (c : GetNumberCall) (s : ObIDService) : ObIDService × GetNumberCall :=
  if c.baseId > c.lastId then
    if s.lastId = c.lastId then
      ({ s with lastId := c.baseId + c.allocatedRange },{ c with tmpId := c.baseId, pc := .reload })
    else (s,{ c with pc := .fetchAdd })
  else c.fetchAdd s

/-- The second load of `limited_id_`: a `tmp_id` at or past it is `OB_EAGAIN`, otherwise the
range ends at the limit at the latest. -/
def reload (c : GetNumberCall) (s : ObIDService) : GetNumberCall :=
  if c.tmpId ≥ s.limitedId then { c with pc := .tail (.error .eagain) }
  else { c with pc := .tail (.ok (c.tmpId,min (c.tmpId + c.allocatedRange) s.limitedId)) }

/-- The end of `get_number`: after `OB_EAGAIN`, or when less than two thirds of the
pre-allocated range is left, a log raising the limit is submitted through
`submit_log_with_lock_`, which only tries the lock (`locked`). -/
def tail (c : GetNumberCall) (s : ObIDService) (ret : Except ObErr (Int × Int))
    (locked canAppend : Bool) (maxScn : Nat) : ObIDService × Option (ObPresistIDLog × Nat) :=
  if ret = .error .eagain ∨ s.limitedId - s.lastId < Int.tdiv (s.preAllocatedRange * 2) 3 then
    let p := s.maxPreAllocatedId c.baseId
    let preAllocatedId :=
      min p.2 (max c.baseId p.1.limitedId + max (c.range * 10) p.1.preAllocatedRange)
    if locked then
      let r := p.1.submitLog preAllocatedId preAllocatedId canAppend maxScn
      (r.1,r.2.toOption.join)
    else (p.1,none)
  else (s,none)

def held (c : GetNumberCall) : Option (Int × Int) :=
  match c.pc with
  | .reload => some (c.tmpId,c.tmpId + c.allocatedRange)
  | .tail ret => ret.toOption
  | _ => none

theorem held_reload {c : GetNumberCall} (h : c.pc = .reload) :
    c.held = some (c.tmpId,c.tmpId + c.allocatedRange) := by
  simp [held,h]

theorem held_tail {c : GetNumberCall} {ret : Except ObErr (Int × Int)} (h : c.pc = .tail ret) :
    c.held = ret.toOption := by
  simp [held,h]

theorem held_eq_none {c : GetNumberCall}
    (h : c.pc = .loadLimit ∨ c.pc = .reserve ∨ c.pc = .fetchAdd) : c.held = none := by
  rcases h with h | h | h <;> simp [held,h]

end GetNumberCall

/-! ### What each operation does to the ids -/

/-- A replica state whose limits are at most `M` and that carries no replayed `tmp_last_id_`. -/
structure Settled (M : Int) (s : ObIDService) : Prop where
  tmpLastId_eq : s.tmpLastId = 0
  limitedId_le : s.limitedId ≤ M
  meta_le : s.lsIdMeta.limitedId ≤ M

structure Raises (M : Int) (s s' : ObIDService) : Prop where
  settled : Settled M s'
  lastId_le : s.lastId ≤ s'.lastId

namespace Settled

variable {M : Int} {s : ObIDService}

theorem mono (h : Settled M s) {M' : Int} (hM : M ≤ M') : Settled M' s :=
  ⟨h.tmpLastId_eq,h.limitedId_le.trans hM,h.meta_le.trans hM⟩

theorem updateLsIdMeta (h : Settled M s) : Settled M s.updateLsIdMeta :=
  ⟨h.tmpLastId_eq,h.limitedId_le,max_le h.meta_le h.limitedId_le⟩

end Settled

namespace Raises

variable {M : Int} {s s' s'' : ObIDService}

theorem refl (h : Settled M s) : Raises M s s := ⟨h,le_rfl⟩

theorem trans (h : Raises M s s') (h' : Raises M s' s'') : Raises M s s'' :=
  ⟨h'.settled,h.lastId_le.trans h'.lastId_le⟩

end Raises

namespace ObIDService

variable {M : Int} {s : ObIDService}

theorem commitCallback_raises (hs : Settled M s) {limitedId : Int} (hl : limitedId ≤ M)
    (logTs : Option Nat) : Raises M s (s.commitCallback limitedId logTs) := by
  have hc : s.commitCallback limitedId logTs =
      updateLsIdMeta { s with limitedId := max s.limitedId limitedId, latestLogTs := logTs } := by
    simp [commitCallback,hs.tmpLastId_eq]
  rw [hc]
  exact ⟨Settled.updateLsIdMeta ⟨hs.tmpLastId_eq,max_le hs.limitedId_le hl,hs.meta_le⟩,le_rfl⟩

theorem handleSubmitCallback_raises (hs : Settled M s) {success : Bool} {limitedId : Int}
    (hl : success = true → limitedId ≤ M) (logTs : Option Nat) :
    Raises M s (s.handleSubmitCallback success limitedId logTs) := by
  have hpre : Raises M s (if limitedId < 0 ∨ logTs = none then s
      else if success then s.commitCallback limitedId logTs else s) := by
    split_ifs with hinv hsucc
    · exact .refl hs
    · exact commitCallback_raises hs (hl hsucc) logTs
    · exact .refl hs
  exact ⟨⟨hpre.settled.tmpLastId_eq,hpre.settled.limitedId_le,hpre.settled.meta_le⟩,hpre.lastId_le⟩

@[simp] theorem isLogging_handleSubmitCallback (success : Bool) (limitedId : Int)
    (logTs : Option Nat) : (s.handleSubmitCallback success limitedId logTs).isLogging = false := rfl

theorem handleReplayResult_raises (hs : Settled M s) {limitedId : Int} (hl : limitedId ≤ M)
    {logTs : Option Nat} {s' : ObIDService}
    (h : s.handleReplayResult limitedId limitedId logTs = .ok s') :
    Raises M s s' ∧ limitedId ≤ s'.lastId := by
  let t : ObIDService :=
    { s with tmpLastId := 0, lastId := max s.lastId limitedId, limitedId := max s.limitedId limitedId }
  have ht : Raises M s t := ⟨⟨rfl,max_le hs.limitedId_le hl,hs.meta_le⟩,le_max_left _ _⟩
  have hlast : limitedId ≤ t.lastId := le_max_right _ _
  have hinv : ¬(limitedId < 0 ∨ limitedId < 0 ∨ logTs = none) := by
    intro hinv
    simp [handleReplayResult,hinv] at h
  simp only [handleReplayResult,if_neg hinv,ne_eq,not_true_eq_false,false_and,if_false] at h
  by_cases hgt : scnGt logTs s.latestLogTs = true
  · rw [if_pos hgt] at h
    cases h
    exact ⟨⟨Settled.updateLsIdMeta ⟨rfl,ht.settled.limitedId_le,ht.settled.meta_le⟩,ht.lastId_le⟩,
      hlast⟩
  · rw [if_neg hgt] at h
    cases h
    exact ⟨ht,hlast⟩

theorem handleReplayResult_cb {lastId limitedId : Int} {logTs : Option Nat} {s' : ObIDService}
    (h : s.handleReplayResult lastId limitedId logTs = .ok s') :
    s'.isLogging = s.isLogging ∧ s'.cbLimitedId = s.cbLimitedId := by
  dsimp only [handleReplayResult] at h
  split_ifs at h <;> cases h <;> exact ⟨rfl,rfl⟩

theorem updateLimitedId_raises (hs : Settled M s) {limitedId : Int} (hl : limitedId ≤ M)
    (latestLogTs : Option Nat) : Raises M s (s.updateLimitedId limitedId latestLogTs) :=
  ⟨⟨hs.tmpLastId_eq,max_le hs.limitedId_le hl,hs.meta_le⟩,le_max_left _ _⟩

theorem switchToLeader_raises (hs : Settled M s) (maxScn : Option Nat) :
    Raises M s (s.switchToLeader maxScn) := by
  dsimp only [switchToLeader]
  split_ifs with hts hge hne
  · exact ⟨⟨rfl,hs.limitedId_le,hs.meta_le⟩,le_max_left _ _⟩
  · exact absurd hs.tmpLastId_eq hne.1
  · exact .refl hs
  · exact .refl hs

@[simp] theorem isLogging_switchToLeader (maxScn : Option Nat) :
    (s.switchToLeader maxScn).isLogging = s.isLogging := by
  dsimp only [switchToLeader]
  split_ifs <;> rfl

@[simp] theorem cbLimitedId_switchToLeader (maxScn : Option Nat) :
    (s.switchToLeader maxScn).cbLimitedId = s.cbLimitedId := by
  dsimp only [switchToLeader]
  split_ifs <;> rfl

theorem maxPreAllocatedId_fst (baseId : Int) :
    ∃ v, s.lastId ≤ v ∧ (s.maxPreAllocatedId baseId).1 = { s with lastId := v } := by
  unfold maxPreAllocatedId
  split_ifs with hts hgt
  · exact ⟨max s.lastId baseId,le_max_left _ _,rfl⟩
  · exact ⟨s.lastId,le_rfl,rfl⟩
  · exact ⟨s.lastId,le_rfl,rfl⟩

theorem submitLog_cases {lastId limitedId : Int} {canAppend : Bool} {maxScn : Nat}
    {r : ObIDService × Except ObErr (Option (ObPresistIDLog × Nat))}
    (h : s.submitLog lastId limitedId canAppend maxScn = r) :
    (r.2.toOption.join = none ∧
      (r.1 = s ∨ s.isLogging = false ∧ r.1 = { s with cbLimitedId := 0, cbLogTs := none })) ∨
    (s.isLogging = false ∧ canAppend = true ∧ ∃ ts,
      r.2.toOption.join = some (⟨lastId,limitedId⟩,ts) ∧
      r.1 = { s with cbLogTs := some ts, cbLimitedId := limitedId, isLogging := true }) := by
  subst h
  unfold submitLog
  split_ifs with hl hneg hle hbase happ
  · exact .inl ⟨rfl,.inl rfl⟩
  · exact .inl ⟨rfl,.inl rfl⟩
  · exact .inl ⟨rfl,.inl rfl⟩
  · exact .inl ⟨rfl,.inl rfl⟩
  · exact .inl ⟨rfl,.inr ⟨by simpa using hl,rfl⟩⟩
  · exact .inr ⟨by simpa using hl,by simpa using happ,_,rfl,rfl⟩

end ObIDService

namespace GetNumberCall

variable {M : Int} {s s' : ObIDService}

theorem tail_spec (hs : Settled M s) {c : GetNumberCall} {ret : Except ObErr (Int × Int)}
    {locked canAppend : Bool} {maxScn : Nat} {out : Option (ObPresistIDLog × Nat)}
    (h : c.tail s ret locked canAppend maxScn = (s',out)) :
    Raises M s s' ∧
      (s.isLogging = true → s'.isLogging = true ∧ s'.cbLimitedId = s.cbLimitedId) ∧
      (out = none → s'.isLogging = s.isLogging) ∧
      ∀ e, out = some e → s.isLogging = false ∧ canAppend = true ∧ s'.isLogging = true ∧
        s'.cbLimitedId = e.1.limitId ∧ e.1.lastId = e.1.limitId := by
  unfold tail at h
  obtain ⟨v,hv,hp⟩ := s.maxPreAllocatedId_fst c.baseId
  have ht : Raises M s { s with lastId := v } := ⟨⟨hs.tmpLastId_eq,hs.limitedId_le,hs.meta_le⟩,hv⟩
  split_ifs at h with hcond hlock
  · dsimp only at h
    rw [hp] at h
    generalize hr : ObIDService.submitLog _ _ _ canAppend maxScn = r at h
    rcases ObIDService.submitLog_cases hr with
      ⟨hnone,hsame | ⟨hnl,hreset⟩⟩ | ⟨hnl,happ,ts,happended,hlog⟩
    · simp only [Prod.mk.injEq] at h
      obtain ⟨rfl,rfl⟩ := h
      rw [hsame]
      exact ⟨ht,fun hl => ⟨hl,rfl⟩,fun _ => rfl,fun e he => absurd (hnone.symm.trans he) nofun⟩
    · simp only [Prod.mk.injEq] at h
      obtain ⟨rfl,rfl⟩ := h
      rw [hreset]
      refine ⟨⟨⟨hs.tmpLastId_eq,hs.limitedId_le,hs.meta_le⟩,hv⟩,?_,fun _ => rfl,
        fun e he => absurd (hnone.symm.trans he) nofun⟩
      intro hl
      exact absurd hl (by simpa using hnl)
    · simp only [Prod.mk.injEq] at h
      obtain ⟨rfl,rfl⟩ := h
      rw [hlog]
      refine ⟨⟨⟨hs.tmpLastId_eq,hs.limitedId_le,hs.meta_le⟩,hv⟩,?_,?_,?_⟩
      · intro hl
        exact absurd hl (by simpa using hnl)
      · intro hn
        exact absurd (happended.symm.trans hn) nofun
      · intro e he
        rw [happended] at he
        cases he
        exact ⟨by simpa using hnl,happ,rfl,rfl,rfl⟩
  · dsimp only at h
    rw [hp] at h
    simp only [Prod.mk.injEq] at h
    obtain ⟨rfl,rfl⟩ := h
    exact ⟨ht,fun hl => ⟨hl,rfl⟩,fun _ => rfl,fun e he => absurd he nofun⟩
  · simp only [Prod.mk.injEq] at h
    obtain ⟨rfl,rfl⟩ := h
    exact ⟨.refl hs,fun hl => ⟨hl,rfl⟩,fun _ => rfl,fun e he => absurd he nofun⟩

end GetNumberCall

end Transaction
end OceanBase
