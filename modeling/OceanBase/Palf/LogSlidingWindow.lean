import Mathlib
import OceanBase.Define
import OceanBase.Lib.Run
import OceanBase.Lib.KthLargest

/-! The leader's commit point (`log_sliding_window.cpp`, `log_config_mgr.cpp`).
`get_majority_lsn_` sorts the matched LSNs of the members found in `match_lsn_map_` in
descending order and takes the one at `replica_num / 2`. `gen_committed_end_lsn_` caps it at
the reconfiguration barrier while the previous member list decides and hands it to
`try_advance_committed_lsn_`, whose CAS loop is the only writer of `committed_end_lsn_` after
`init`. Calls of that loop run concurrently, one atomic access at a time. -/
namespace OceanBase
namespace Palf

variable {Addr : Type*} [DecidableEq Addr]

/-- `get_majority_lsn_`. `resultLsn` is the caller's `result_lsn`, left as it is when fewer
than `replica_num / 2 + 1` members are in the map. `std::sort` with `LSNCompare` and the
descending `insertionSort` give the same sequence of LSNs. -/
def getMajorityLsn_ (matchLsnMap : Addr → Option Nat) (memberList : List Addr)
    (replicaNum resultLsn : Nat) : Except ObErr Nat :=
  -- members missing from `match_lsn_map_` are skipped
  let lsnArray := memberList.filterMap matchLsnMap
  if lsnArray.length < replicaNum / 2 + 1 then .ok resultLsn
  else
    let r := (lsnArray.insertionSort (· ≥ ·)).getD (replicaNum / 2) logInvalidLsnVal
    if lsnIsValid r then .ok r else .error .errUnexpected

def matchedAtLeast (matchLsnMap : Addr → Option Nat) (memberList : List Addr) (lsn : Nat) :
    Finset Addr :=
  memberList.toFinset.filter fun s => ∃ l ∈ matchLsnMap s, lsn ≤ l

/-- The fields of `LogConfigMgr` that `get_log_sync_member_list_for_generate_committed_lsn`
reads: the log sync member lists and replica numbers of the previous and the current config,
`reconfig_barrier_` and the proposal id of the last submitted mode meta. -/
structure LogConfigMgr (Addr : Type*) where
  isInited : Bool
  prevLogSyncMemberlist : List Addr
  prevLogSyncReplicaNum : Nat
  currLogSyncMemberlist : List Addr
  currLogSyncReplicaNum : Nat
  reconfigBarrierPrevEndLsn : Nat
  reconfigBarrierPrevModePid : Int
  lastSubmitModePid : Int

/-- The member list, replica number, `is_before_barrier` and `barrier_lsn` it returns. -/
structure LogSyncMemberList (Addr : Type*) where
  memberList : List Addr
  replicaNum : Nat
  isBeforeBarrier : Bool
  barrierLsn : Nat

def palfInitialLsnVal : Nat := 0

/-- `get_log_sync_member_list_for_generate_committed_lsn`: the previous config decides while
the committed end LSN is below a valid barrier set under the current access mode. -/
def LogConfigMgr.getLogSyncMemberListForGenerateCommittedLsn (m : LogConfigMgr Addr)
    (prevCommittedEndLsn : Nat) : Except ObErr (LogSyncMemberList Addr) :=
  if !m.isInited then .error .notInit
  else if prevCommittedEndLsn < m.reconfigBarrierPrevEndLsn ∧
      lsnIsValid m.reconfigBarrierPrevEndLsn = true ∧
      m.lastSubmitModePid = m.reconfigBarrierPrevModePid then
    .ok ⟨m.prevLogSyncMemberlist,m.prevLogSyncReplicaNum,true,m.reconfigBarrierPrevEndLsn⟩
  else .ok ⟨m.currLogSyncMemberlist,m.currLogSyncReplicaNum,false,palfInitialLsnVal⟩

/-- The next atomic access of a call in the loop of `try_advance_committed_lsn_`. -/
inductive AdvancePc
  | cas
  | reload
deriving DecidableEq, Repr

/-- A call in the loop of `try_advance_committed_lsn_`: the LSN it installs, the value of
`committed_end_lsn_` it read last and its next access. `barrier` is ghost: the barrier that
`gen_committed_end_lsn_` capped `endLsn` at, for a call it made before the barrier. -/
structure AdvanceCall where
  endLsn : Nat
  old : Nat
  pc : AdvancePc
  barrier : Option Nat
deriving DecidableEq, Repr

/-- The fields of `LogSlidingWindow` that the commit point reads and writes, the parts of
`mm_` and `state_mgr_` it asks, and the calls of `try_advance_committed_lsn_` in flight by
thread. -/
structure LogSlidingWindow (Addr : Type*) where
  committedEndLsn : Nat
  matchLsnMap : Addr → Option Nat
  isChangingConfigWithArb : Bool
  mm : LogConfigMgr Addr
  calls : Nat → Option AdvanceCall

/-- One access of a call's loop against the current `committed_end_lsn_`: `ATOMIC_BCAS`
installs `endLsn` and ends the call when the value is still `old`, or fails; after a failure
`get_committed_end_lsn_` reads the value again and the loop goes on while `endLsn` is above
it. Returns the new value and the call, if it goes on. -/
def AdvanceCall.step (c : AdvanceCall) (cur : Nat) : Nat × Option AdvanceCall :=
  match c.pc with
  | .cas => if cur = c.old then (c.endLsn,none) else (cur,some { c with pc := .reload })
  | .reload => if cur < c.endLsn then (cur,some { c with old := cur, pc := .cas }) else (cur,none)

namespace LogSlidingWindow

/-- `try_advance_committed_lsn_` of thread `t` up to its loop: an invalid `end_lsn` is refused,
otherwise it reads `committed_end_lsn_` and enters the loop when `end_lsn` is above it. -/
def tryAdvanceCommittedLsn_ (sw : LogSlidingWindow Addr) (t endLsn : Nat)
    (barrier : Option Nat) : LogSlidingWindow Addr × Except ObErr Unit :=
  if !lsnIsValid endLsn then (sw,.error .invalidArgument)
  else if sw.committedEndLsn < endLsn then
    ({ sw with calls := Function.update sw.calls t (some ⟨endLsn,sw.committedEndLsn,.cas,barrier⟩) },
      .ok ())
  else (sw,.ok ())

/-- `gen_committed_end_lsn_` of thread `t`: the majority LSN of the member list that
`mm_` gives, capped at `barrier_lsn` before the barrier, is handed to
`try_advance_committed_lsn_` unless a config change with an arbitration member is going on,
and reported as `new_committed_end_lsn`. `LSN result_lsn` starts invalid. -/
def genCommittedEndLsn_ (sw : LogSlidingWindow Addr) (t : Nat) :
    LogSlidingWindow Addr × Except ObErr Nat :=
  match sw.mm.getLogSyncMemberListForGenerateCommittedLsn sw.committedEndLsn with
  | .error e => (sw,.error e)
  | .ok r =>
    match getMajorityLsn_ sw.matchLsnMap r.memberList r.replicaNum logInvalidLsnVal with
    | .error e => (sw,.error e)
    | .ok resultLsn =>
      let resultLsn := if r.isBeforeBarrier then min resultLsn r.barrierLsn else resultLsn
      -- the error of `try_advance_committed_lsn_` is dropped
      let sw' := if !sw.isChangingConfigWithArb then
        (sw.tryAdvanceCommittedLsn_ t resultLsn
          (if r.isBeforeBarrier then some r.barrierLsn else none)).1
        else sw
      (sw',.ok resultLsn)

end LogSlidingWindow

/-- What happens to the commit point: a thread runs `gen_committed_end_lsn_` or another caller
of `try_advance_committed_lsn_`, a call takes its next access, and the environment changes
the matched LSNs, the config and the arbitration flag. -/
inductive CommitEvent (Addr : Type*)
  | genCommittedEndLsn (t : Nat)
  | tryAdvanceCommittedLsn (t endLsn : Nat)
  | resume (t : Nat)
  | updateMatchLsn (server : Addr) (lsn : Option Nat)
  | changeConfig (mm : LogConfigMgr Addr)
  | setChangingConfigWithArb (b : Bool)

open LogSlidingWindow in
def commitStep (sw : LogSlidingWindow Addr) : CommitEvent Addr → Option (LogSlidingWindow Addr)
  | .genCommittedEndLsn t => if (sw.calls t).isSome then none else some (sw.genCommittedEndLsn_ t).1
  | .tryAdvanceCommittedLsn t endLsn =>
    if (sw.calls t).isSome then none else some (sw.tryAdvanceCommittedLsn_ t endLsn none).1
  | .resume t => (sw.calls t).map fun c =>
      { sw with committedEndLsn := (c.step sw.committedEndLsn).1,
                calls := Function.update sw.calls t (c.step sw.committedEndLsn).2 }
  | .updateMatchLsn s l => some { sw with matchLsnMap := Function.update sw.matchLsnMap s l }
  | .changeConfig m => some { sw with mm := m }
  | .setChangingConfigWithArb b => some { sw with isChangingConfigWithArb := b }

/-! ### The majority LSN -/

section Majority

variable (matchLsnMap : Addr → Option Nat) {memberList : List Addr}

theorem card_matchedAtLeast (hnodup : memberList.Nodup) (x : Nat) :
    (memberList.filterMap matchLsnMap).countP (fun y => x ≤ y) =
      (matchedAtLeast matchLsnMap memberList x).card :=
  Lib.countP_filterMap_eq_card hnodup matchLsnMap x

theorem length_filterMap_eq_card (hnodup : memberList.Nodup) :
    (memberList.filterMap matchLsnMap).length = (matchedAtLeast matchLsnMap memberList 0).card := by
  rw [← card_matchedAtLeast matchLsnMap hnodup 0, List.countP_eq_length.mpr (by simp)]

theorem getMajorityLsn_spec (hnodup : memberList.Nodup) (replicaNum resultLsn : Nat) :
    ((matchedAtLeast matchLsnMap memberList 0).card < replicaNum / 2 + 1 ∧
        getMajorityLsn_ matchLsnMap memberList replicaNum resultLsn = .ok resultLsn) ∨
      (replicaNum / 2 + 1 ≤ (matchedAtLeast matchLsnMap memberList 0).card ∧
        ∃ r, IsGreatest {x | replicaNum / 2 + 1 ≤ (matchedAtLeast matchLsnMap memberList x).card} r ∧
          getMajorityLsn_ matchLsnMap memberList replicaNum resultLsn =
            if lsnIsValid r then .ok r else .error .errUnexpected) := by
  have hlen := length_filterMap_eq_card matchLsnMap hnodup
  by_cases hfew : (memberList.filterMap matchLsnMap).length < replicaNum / 2 + 1
  · left
    exact ⟨hlen ▸ hfew,by simp [getMajorityLsn_,hfew]⟩
  · right
    simp only [getMajorityLsn_,if_neg hfew]
    have hidx : replicaNum / 2 < ((memberList.filterMap matchLsnMap).insertionSort (· ≥ ·)).length := by
      rw [List.length_insertionSort]
      omega
    set sorted := (memberList.filterMap matchLsnMap).insertionSort (· ≥ ·)
    have hget : sorted[replicaNum / 2]? = some sorted[replicaNum / 2] :=
      List.getElem?_eq_getElem hidx
    have hgreat := Lib.isGreatest_of_getElem?_insertionSort hget
    refine ⟨by omega,sorted[replicaNum / 2],?_,?_⟩
    · simpa only [card_matchedAtLeast matchLsnMap hnodup] using hgreat
    · rw [List.getD_eq_getElem?_getD,hget,Option.getD_some]

end Majority

/-! ### Calls of `try_advance_committed_lsn_` -/

/-- What a call keeps: inside the loop `end_lsn` is above the value read last, and a call made
before the barrier installs at most the barrier. -/
def AdvanceCall.Ok (c : AdvanceCall) : Prop :=
  (c.pc = .cas → c.old < c.endLsn) ∧ ∀ b, c.barrier = some b → c.endLsn ≤ b

theorem AdvanceCall.step_fst {c : AdvanceCall} (hc : c.Ok) (cur : Nat) :
    cur ≤ (c.step cur).1 ∧ ((c.step cur).1 = cur ∨ (c.step cur).1 = c.endLsn) := by
  rcases c with ⟨endLsn,old,pc,barrier⟩
  cases pc with
  | cas =>
    by_cases hcur : cur = old
    · have hlt : old < endLsn := hc.1 rfl
      simp only [AdvanceCall.step,if_pos hcur,or_true,and_true]
      omega
    · simp [AdvanceCall.step,hcur]
  | reload =>
    by_cases hcur : cur < endLsn <;> simp [AdvanceCall.step,hcur]

theorem AdvanceCall.step_snd {c c' : AdvanceCall} (hc : c.Ok) {cur : Nat}
    (h : (c.step cur).2 = some c') : c'.Ok := by
  rcases c with ⟨endLsn,old,pc,barrier⟩
  cases pc with
  | cas =>
    by_cases hcur : cur = old
    · simp [AdvanceCall.step,hcur] at h
    · simp only [AdvanceCall.step,if_neg hcur,Option.some.injEq] at h
      subst h
      exact ⟨(fun h => by cases h),hc.2⟩
  | reload =>
    by_cases hcur : cur < endLsn
    · simp only [AdvanceCall.step,if_pos hcur,Option.some.injEq] at h
      subst h
      exact ⟨fun _ => hcur,hc.2⟩
    · simp [AdvanceCall.step,hcur] at h

namespace LogSlidingWindow

def CallsOk (sw : LogSlidingWindow Addr) : Prop :=
  ∀ t c, sw.calls t = some c → c.Ok

omit [DecidableEq Addr] in
@[simp] theorem tryAdvanceCommittedLsn_committedEndLsn (sw : LogSlidingWindow Addr)
    (t endLsn : Nat) (barrier : Option Nat) :
    (sw.tryAdvanceCommittedLsn_ t endLsn barrier).1.committedEndLsn = sw.committedEndLsn := by
  unfold tryAdvanceCommittedLsn_
  split_ifs <;> rfl

omit [DecidableEq Addr] in
theorem CallsOk.tryAdvanceCommittedLsn_ {sw : LogSlidingWindow Addr} (h : sw.CallsOk)
    (t endLsn : Nat) {barrier : Option Nat} (hb : ∀ b, barrier = some b → endLsn ≤ b) :
    (sw.tryAdvanceCommittedLsn_ t endLsn barrier).1.CallsOk := by
  unfold LogSlidingWindow.tryAdvanceCommittedLsn_
  split_ifs with hvalid hlt
  · exact h
  · intro u c hc
    by_cases hu : u = t
    · subst hu
      simp only [Function.update_self,Option.some.injEq] at hc
      subst hc
      exact ⟨fun _ => hlt,hb⟩
    · exact h u c (by simpa [hu] using hc)
  · exact h

omit [DecidableEq Addr] in
theorem genCommittedEndLsn_cases (sw : LogSlidingWindow Addr) (t : Nat) :
    ∃ endLsn barrier, (∀ b, barrier = some b → endLsn ≤ b) ∧
      ((sw.genCommittedEndLsn_ t).1 = sw ∨
        (sw.genCommittedEndLsn_ t).1 = (sw.tryAdvanceCommittedLsn_ t endLsn barrier).1) := by
  cases hm : sw.mm.getLogSyncMemberListForGenerateCommittedLsn sw.committedEndLsn with
  | error e => exact ⟨0,none,by simp,.inl (by simp [genCommittedEndLsn_,hm])⟩
  | ok r =>
    cases hg : getMajorityLsn_ sw.matchLsnMap r.memberList r.replicaNum logInvalidLsnVal with
    | error e => exact ⟨0,none,by simp,.inl (by simp [genCommittedEndLsn_,hm,hg])⟩
    | ok resultLsn =>
      refine ⟨if r.isBeforeBarrier then min resultLsn r.barrierLsn else resultLsn,
        if r.isBeforeBarrier then some r.barrierLsn else none,?_,?_⟩
      · intro b hb
        by_cases hbefore : r.isBeforeBarrier = true
        · simp only [hbefore,if_true,Option.some.injEq] at hb ⊢
          subst hb
          exact min_le_right _ _
        · simp [hbefore] at hb
      · by_cases harb : sw.isChangingConfigWithArb = true
        · exact .inl (by simp [genCommittedEndLsn_,hm,hg,harb])
        · exact .inr (by simp [genCommittedEndLsn_,hm,hg,harb])

omit [DecidableEq Addr] in
theorem CallsOk.genCommittedEndLsn_ {sw : LogSlidingWindow Addr} (h : sw.CallsOk) (t : Nat) :
    (sw.genCommittedEndLsn_ t).1.CallsOk := by
  obtain ⟨endLsn,barrier,hb,hsw | hsw⟩ := sw.genCommittedEndLsn_cases t
  · rw [hsw]
    exact h
  · rw [hsw]
    exact h.tryAdvanceCommittedLsn_ t endLsn hb

omit [DecidableEq Addr] in
@[simp] theorem genCommittedEndLsn_committedEndLsn (sw : LogSlidingWindow Addr) (t : Nat) :
    (sw.genCommittedEndLsn_ t).1.committedEndLsn = sw.committedEndLsn := by
  obtain ⟨endLsn,barrier,_,hsw | hsw⟩ := sw.genCommittedEndLsn_cases t <;> simp [hsw]

omit [DecidableEq Addr] in
theorem genCommittedEndLsn_le_barrier {sw : LogSlidingWindow Addr} {t n : Nat}
    {r : LogSyncMemberList Addr}
    (hm : sw.mm.getLogSyncMemberListForGenerateCommittedLsn sw.committedEndLsn = .ok r)
    (hbefore : r.isBeforeBarrier = true) (hn : (sw.genCommittedEndLsn_ t).2 = .ok n) :
    n ≤ r.barrierLsn := by
  simp only [genCommittedEndLsn_,hm] at hn
  cases hg : getMajorityLsn_ sw.matchLsnMap r.memberList r.replicaNum logInvalidLsnVal with
  | error e => simp [hg] at hn
  | ok resultLsn =>
    simp only [hg,hbefore,if_true,Except.ok.injEq] at hn
    omega

omit [DecidableEq Addr] in
theorem genCommittedEndLsn_call {sw : LogSlidingWindow Addr} {t : Nat}
    {r : LogSyncMemberList Addr}
    (hm : sw.mm.getLogSyncMemberListForGenerateCommittedLsn sw.committedEndLsn = .ok r)
    (hidle : sw.calls t = none) {c : AdvanceCall}
    (hc : (sw.genCommittedEndLsn_ t).1.calls t = some c) :
    c.barrier = if r.isBeforeBarrier then some r.barrierLsn else none := by
  simp only [genCommittedEndLsn_,hm] at hc
  cases hg : getMajorityLsn_ sw.matchLsnMap r.memberList r.replicaNum logInvalidLsnVal with
  | error e => simp [hg,hidle] at hc
  | ok resultLsn =>
    by_cases harb : sw.isChangingConfigWithArb = true
    · simp [hg,harb,hidle] at hc
    · simp only [hg,harb,Bool.not_false,if_true,tryAdvanceCommittedLsn_] at hc
      split_ifs at hc <;> simp_all <;> subst hc <;> rfl

end LogSlidingWindow

/-! ### Runs -/

namespace LogSlidingWindow

theorem CallsOk.step {sw sw' : LogSlidingWindow Addr} {e : CommitEvent Addr}
    (h : sw.CallsOk) (hstep : commitStep sw e = some sw') : sw'.CallsOk := by
  cases e with
  | genCommittedEndLsn t =>
    simp only [commitStep] at hstep
    split_ifs at hstep
    cases hstep
    exact h.genCommittedEndLsn_ t
  | tryAdvanceCommittedLsn t endLsn =>
    simp only [commitStep] at hstep
    split_ifs at hstep
    cases hstep
    exact h.tryAdvanceCommittedLsn_ t endLsn (by simp)
  | resume t =>
    obtain ⟨c,hc,rfl⟩ := Option.map_eq_some_iff.mp hstep
    intro u d hd
    by_cases hu : u = t
    · subst hu
      simp only [Function.update_self] at hd
      exact AdvanceCall.step_snd (h u c hc) hd
    · exact h u d (by simpa [hu] using hd)
  | updateMatchLsn s l =>
    cases hstep
    exact h
  | changeConfig m =>
    cases hstep
    exact h
  | setChangingConfigWithArb b =>
    cases hstep
    exact h

theorem CallsOk.committedEndLsn_step {sw sw' : LogSlidingWindow Addr} {e : CommitEvent Addr}
    (h : sw.CallsOk) (hstep : commitStep sw e = some sw') :
    sw.committedEndLsn ≤ sw'.committedEndLsn ∧
      ∀ t c b, e = .resume t → sw.calls t = some c → c.barrier = some b →
        sw'.committedEndLsn = sw.committedEndLsn ∨ sw'.committedEndLsn ≤ b := by
  cases e with
  | genCommittedEndLsn t =>
    simp only [commitStep] at hstep
    split_ifs at hstep
    cases hstep
    simp
  | tryAdvanceCommittedLsn t endLsn =>
    simp only [commitStep] at hstep
    split_ifs at hstep
    cases hstep
    simp
  | resume t =>
    obtain ⟨c,hc,rfl⟩ := Option.map_eq_some_iff.mp hstep
    have hfst := AdvanceCall.step_fst (h t c hc) sw.committedEndLsn
    refine ⟨hfst.1,?_⟩
    rintro u d b hu hd hb
    rw [← CommitEvent.resume.inj hu,hc] at hd
    cases hd
    rcases hfst.2 with hsame | hend
    · exact .inl hsame
    · exact .inr (hend.trans_le ((h t c hc).2 b hb))
  | updateMatchLsn s l =>
    cases hstep
    simp
  | changeConfig m =>
    cases hstep
    simp
  | setChangingConfigWithArb b =>
    cases hstep
    simp

theorem callsOk_of_run {sw sw' : LogSlidingWindow Addr} {es : List (CommitEvent Addr)}
    (hidle : ∀ t, sw.calls t = none) (hrun : Lib.Run commitStep (fun _ _ => True) sw es sw') :
    sw'.CallsOk ∧ sw.committedEndLsn ≤ sw'.committedEndLsn := by
  refine hrun.invariant (fun s => s.CallsOk ∧ sw.committedEndLsn ≤ s.committedEndLsn) ?_
    ⟨fun t c hc => by simp [hidle t] at hc,le_rfl⟩
  rintro s e s' ⟨hs,hle⟩ - hstep
  exact ⟨hs.step hstep,hle.trans (hs.committedEndLsn_step hstep).1⟩

end LogSlidingWindow

open LogSlidingWindow in
/-- The commit point. `get_majority_lsn_` returns the largest LSN that `replica_num / 2 + 1`
members found in the map have matched, and leaves `result_lsn` alone when fewer are found.
Along every run of concurrent `gen_committed_end_lsn_` and `try_advance_committed_lsn_` calls
from a window with none in flight, no step lowers `committed_end_lsn_`. A call that
`gen_committed_end_lsn_` made before the barrier carries the barrier, reports at most it and
sets `committed_end_lsn_` to at most it. -/
theorem commitPoint_of_run (matchLsnMap : Addr → Option Nat) {memberList : List Addr}
    (hnodup : memberList.Nodup) (replicaNum resultLsn : Nat) {sw sw' : LogSlidingWindow Addr}
    {es : List (CommitEvent Addr)} (hidle : ∀ t, sw.calls t = none)
    (hrun : Lib.Run commitStep (fun _ _ => True) sw es sw') :
    (((matchedAtLeast matchLsnMap memberList 0).card < replicaNum / 2 + 1 ∧
        getMajorityLsn_ matchLsnMap memberList replicaNum resultLsn = .ok resultLsn) ∨
      (replicaNum / 2 + 1 ≤ (matchedAtLeast matchLsnMap memberList 0).card ∧
        ∃ r, IsGreatest {x | replicaNum / 2 + 1 ≤ (matchedAtLeast matchLsnMap memberList x).card} r ∧
          getMajorityLsn_ matchLsnMap memberList replicaNum resultLsn =
            if lsnIsValid r then .ok r else .error .errUnexpected)) ∧
    sw.committedEndLsn ≤ sw'.committedEndLsn ∧
    (∀ t r, sw'.mm.getLogSyncMemberListForGenerateCommittedLsn sw'.committedEndLsn = .ok r →
      r.isBeforeBarrier = true →
        (∀ n, (sw'.genCommittedEndLsn_ t).2 = .ok n → n ≤ r.barrierLsn) ∧
        (∀ c, sw'.calls t = none → (sw'.genCommittedEndLsn_ t).1.calls t = some c →
          c.barrier = some r.barrierLsn)) ∧
    ∀ e sw'', commitStep sw' e = some sw'' →
      sw'.committedEndLsn ≤ sw''.committedEndLsn ∧
        ∀ t c b, e = .resume t → sw'.calls t = some c → c.barrier = some b →
          sw''.committedEndLsn = sw'.committedEndLsn ∨ sw''.committedEndLsn ≤ b := by
  obtain ⟨hok,hle⟩ := callsOk_of_run hidle hrun
  refine ⟨getMajorityLsn_spec matchLsnMap hnodup replicaNum resultLsn,hle,?_,
    fun e sw'' hstep => hok.committedEndLsn_step hstep⟩
  intro t r hm hbefore
  refine ⟨fun n hn => genCommittedEndLsn_le_barrier hm hbefore hn,fun c hfree hc => ?_⟩
  rw [genCommittedEndLsn_call hm hfree hc,hbefore,if_pos rfl]

/-- Three members, of which two are in the map at 100 and 50; the current config decides. -/
def twoOfThreeWindow : LogSlidingWindow Nat where
  committedEndLsn := 10
  matchLsnMap := fun s => if s = 0 then some 100 else if s = 1 then some 50 else none
  isChangingConfigWithArb := false
  mm := ⟨true,[],0,[0,1,2],3,logInvalidLsnVal,0,0⟩
  calls := fun _ => none

/-- `gen_committed_end_lsn_` finds the majority LSN 50 and its CAS installs it. -/
def twoOfThreeRun : List (CommitEvent Nat) := [.genCommittedEndLsn 0,.resume 0]

def twoOfThreeEnd : LogSlidingWindow Nat :=
  (Lib.Run.exec commitStep (fun _ _ => True) twoOfThreeWindow twoOfThreeRun).getD twoOfThreeWindow

theorem commitPoint_twoOfThree :
    [0,1,2].Nodup ∧ (∀ t, twoOfThreeWindow.calls t = none) ∧
      Lib.Run commitStep (fun _ _ => True) twoOfThreeWindow twoOfThreeRun twoOfThreeEnd ∧
      twoOfThreeEnd.committedEndLsn = 50 ∧
      ((((matchedAtLeast twoOfThreeWindow.matchLsnMap [0,1,2] 0).card < 3 / 2 + 1 ∧
          getMajorityLsn_ twoOfThreeWindow.matchLsnMap [0,1,2] 3 logInvalidLsnVal =
            .ok logInvalidLsnVal) ∨
        (3 / 2 + 1 ≤ (matchedAtLeast twoOfThreeWindow.matchLsnMap [0,1,2] 0).card ∧
          ∃ r, IsGreatest {x | 3 / 2 + 1 ≤ (matchedAtLeast twoOfThreeWindow.matchLsnMap [0,1,2] x).card} r ∧
            getMajorityLsn_ twoOfThreeWindow.matchLsnMap [0,1,2] 3 logInvalidLsnVal =
              if lsnIsValid r then .ok r else .error .errUnexpected)) ∧
      twoOfThreeWindow.committedEndLsn ≤ twoOfThreeEnd.committedEndLsn ∧
      (∀ t r, twoOfThreeEnd.mm.getLogSyncMemberListForGenerateCommittedLsn
          twoOfThreeEnd.committedEndLsn = .ok r → r.isBeforeBarrier = true →
          (∀ n, (twoOfThreeEnd.genCommittedEndLsn_ t).2 = .ok n → n ≤ r.barrierLsn) ∧
          (∀ c, twoOfThreeEnd.calls t = none → (twoOfThreeEnd.genCommittedEndLsn_ t).1.calls t = some c →
            c.barrier = some r.barrierLsn)) ∧
      ∀ e sw'', commitStep twoOfThreeEnd e = some sw'' →
        twoOfThreeEnd.committedEndLsn ≤ sw''.committedEndLsn ∧
          ∀ t c b, e = .resume t → twoOfThreeEnd.calls t = some c → c.barrier = some b →
            sw''.committedEndLsn = twoOfThreeEnd.committedEndLsn ∨ sw''.committedEndLsn ≤ b) :=
  have hidle : ∀ t, twoOfThreeWindow.calls t = none := fun _ => rfl
  have hrun : Lib.Run commitStep (fun _ _ => True) twoOfThreeWindow twoOfThreeRun twoOfThreeEnd :=
    Lib.Run.of_exec_isSome (by decide +kernel)
  ⟨by decide,hidle,hrun,by decide +kernel,
    commitPoint_of_run twoOfThreeWindow.matchLsnMap (by decide) 3 logInvalidLsnVal hidle hrun⟩

end Palf
end OceanBase
