import Mathlib
import OceanBase.Define
import OceanBase.Lib.Compare

/-! The priority an election candidate carries (`election_priority_v1.cpp`,
`ElectionPriorityImpl::compare_with`).

`PriorityV1::compare` takes the first of ten criteria that tells two priorities apart. Nine of
them compare a flag or a count. `compare_scn_` levels two SCNs whose timestamps lie within
`MAX_UNREPLAYED_LOG_TS_DIFF_THRESHOLD_US` of each other, and a maximal SCN with any SCN; that
relation is not transitive, so the whole comparison is a total preorder only on priorities whose
SCNs are equal or far enough apart (`ScnsSeparated`). `compare_in_blacklist_flag_` prints the
blacklisted side's reason into a fixed buffer, and a long reason makes the comparison fail. -/
namespace OceanBase
namespace Palf
namespace Election

open Lib

def maxUnreplayedLogTsDiffThresholdUs : Nat := 2 * 1000 * 1000

def scnIsMax (scn : Nat) : Bool := scn == obMaxScnTsNs

/-- `SCN::convert_to_ts`: the microseconds of a valid SCN, `0` for an invalid one. -/
def convertToTs (scn : Nat) : Nat := if scnIsValid scn then scn / 1000 else 0

/-- `PriorityV1`: the failure lists by their counts, which is all the comparison reads of them,
and the blacklist reason as `to_cstring` prints it. -/
structure PriorityV1 where
  isValid : Bool
  isObserverStopped : Bool
  isServerStopped : Bool
  isZoneStopped : Bool
  fatalFailures : Nat
  isPrimaryRegion : Bool
  seriousFailures : Nat
  scn : Nat
  isInBlacklist : Bool
  inBlacklistReason : String
  isManualLeader : Bool
  zonePriority : Int
  deriving DecidableEq, Repr, Inhabited

/-- The flag comparisons of `PriorityV1::compare`: level when the flags are equal, otherwise `1`
when the first holds the value that ranks higher. -/
def cmpFlag (higher l r : Bool) : Int := if l = r then 0 else if l = higher then 1 else -1

/-- The count comparisons of `PriorityV1::compare`: level when equal, otherwise `1` when the
first is the smaller. -/
def cmpFewer {β : Type} [LinearOrder β] (l r : β) : Int :=
  if l = r then 0 else if l < r then 1 else -1

namespace PriorityV1

def compareObserverStopped_ (a b : PriorityV1) : Int :=
  cmpFlag false a.isObserverStopped b.isObserverStopped

def compareServerStoppedFlag_ (a b : PriorityV1) : Int :=
  cmpFlag false a.isServerStopped b.isServerStopped

def compareZoneStoppedFlag_ (a b : PriorityV1) : Int :=
  cmpFlag false a.isZoneStopped b.isZoneStopped

def compareFatalFailures_ (a b : PriorityV1) : Int := cmpFewer a.fatalFailures b.fatalFailures

def compareScn_ (a b : PriorityV1) : Int :=
  if a.scn = b.scn ∨ scnIsMax a.scn ∨ scnIsMax b.scn then 0
  else if scnIsValid a.scn ∧ scnIsValid b.scn then
    if convertToTs (max a.scn b.scn) - convertToTs (min a.scn b.scn) ≤
        maxUnreplayedLogTsDiffThresholdUs then 0
    else if max a.scn b.scn = a.scn then 1 else -1
  else if scnIsValid a.scn ∧ !scnIsValid b.scn then 1
  else if !scnIsValid a.scn ∧ scnIsValid b.scn then -1
  else 0

/-- Whether `databuff_printf` fits `IN BLACKLIST(reason)` and its terminating zero into the
64-byte `remove_reason` buffer. -/
def blacklistReasonFits (p : PriorityV1) : Bool :=
  ("IN BLACKLIST(" ++ p.inBlacklistReason ++ ")").utf8ByteSize < 64

/-- `compare_in_blacklist_flag_`: the flag compares as the other flags do, but when the flags
differ it prints the blacklisted side's reason, and a reason too long for the buffer fails the
comparison with `OB_SIZE_OVERFLOW`. -/
def compareInBlacklistFlag_ (a b : PriorityV1) : Except ObErr Int :=
  if a.isInBlacklist = b.isInBlacklist then .ok 0
  else if !a.isInBlacklist ∧ b.isInBlacklist then
    if b.blacklistReasonFits then .ok 1 else .error .sizeOverflow
  else if a.blacklistReasonFits then .ok (-1) else .error .sizeOverflow

def compareManualLeaderFlag_ (a b : PriorityV1) : Int :=
  cmpFlag true a.isManualLeader b.isManualLeader

def comparePrimaryRegion_ (a b : PriorityV1) : Int :=
  cmpFlag true a.isPrimaryRegion b.isPrimaryRegion

def compareSeriousFailures_ (a b : PriorityV1) : Int :=
  cmpFewer a.seriousFailures b.seriousFailures

def compareZonePriority_ (a b : PriorityV1) : Int := cmpFewer a.zonePriority b.zonePriority

/-- `PriorityV1::compare`: the first criterion that tells the two apart (`COMPARE_OUT`), in the
source's order. Only printing the blacklist reason can fail, and its failure ends the chain. -/
def compare (a b : PriorityV1) : Except ObErr Int :=
  let r := firstCmp [compareObserverStopped_,compareServerStoppedFlag_,compareZoneStoppedFlag_,
    compareFatalFailures_,compareScn_] a b
  if r ≠ 0 then .ok r
  else match compareInBlacklistFlag_ a b with
    | .error e => .error e
    | .ok r => if r ≠ 0 then .ok r
      else .ok (firstCmp [compareManualLeaderFlag_,comparePrimaryRegion_,compareSeriousFailures_,
        compareZonePriority_] a b)

end PriorityV1

/-- `ElectionPriorityImpl::compare_with` on the `PriorityV1` both sides carry: an invalid
priority ranks lowest only under decentralized voting. -/
def compareWith (a b : PriorityV1) (decentralizedVoting : Bool) : Except ObErr Int :=
  if !a.isValid ∧ !b.isValid then .ok 0
  else if a.isValid ∧ !b.isValid then .ok (if decentralizedVoting then 1 else 0)
  else if !a.isValid ∧ b.isValid then .ok (if decentralizedVoting then -1 else 0)
  else a.compare b

/-! ### The criteria as comparisons by a key -/

section Family

variable {α : Type}

theorem cmpFlag_comp (higher : Bool) (f : α → Bool) (a b : α) :
    cmpFlag higher (f a) (f b) = cmpBy (fun x => f x == higher) a b := by
  unfold cmpFlag cmpBy
  cases hfa : f a <;> cases hfb : f b <;> cases higher <;> simp [hfa,hfb]

theorem cmpFewer_comp {β : Type} [LinearOrder β] (f : α → β) (a b : α) :
    cmpFewer (f a) (f b) = cmpBy (fun x => OrderDual.toDual (f x)) a b := by
  unfold cmpFewer cmpBy
  simp only [OrderDual.toDual_lt_toDual,EmbeddingLike.apply_eq_iff_eq]

theorem totalPreorderOn_cmpFlag (higher : Bool) (f : α → Bool) (s : Set α) :
    TotalPreorderOn (fun a b => cmpFlag higher (f a) (f b)) s :=
  (totalPreorderOn_cmpBy _ s).congr fun a _ b _ => cmpFlag_comp higher f a b

theorem totalPreorderOn_cmpFewer {β : Type} [LinearOrder β] (f : α → β) (s : Set α) :
    TotalPreorderOn (fun a b => cmpFewer (f a) (f b)) s :=
  (totalPreorderOn_cmpBy _ s).congr fun a _ b _ => cmpFewer_comp f a b

end Family

namespace PriorityV1

/-- The ten criteria of `compare` in order, the blacklist flag compared as the other flags are. -/
def criteria : List (PriorityV1 → PriorityV1 → Int) :=
  [compareObserverStopped_,compareServerStoppedFlag_,compareZoneStoppedFlag_,compareFatalFailures_,
    compareScn_,fun a b => cmpFlag false a.isInBlacklist b.isInBlacklist,compareManualLeaderFlag_,
    comparePrimaryRegion_,compareSeriousFailures_,compareZonePriority_]

theorem compareInBlacklistFlag_ok_of_fits {a b : PriorityV1} (ha : a.blacklistReasonFits = true)
    (hb : b.blacklistReasonFits = true) :
    compareInBlacklistFlag_ a b = .ok (cmpFlag false a.isInBlacklist b.isInBlacklist) := by
  unfold compareInBlacklistFlag_ cmpFlag
  cases a.isInBlacklist <;> cases b.isInBlacklist <;> simp [ha,hb]

theorem compare_of_fits {a b : PriorityV1} (ha : a.blacklistReasonFits = true)
    (hb : b.blacklistReasonFits = true) : a.compare b = .ok (firstCmp criteria a b) := by
  have hsplit : criteria = [compareObserverStopped_,compareServerStoppedFlag_,
      compareZoneStoppedFlag_,compareFatalFailures_,compareScn_] ++
      ((fun a b => cmpFlag false a.isInBlacklist b.isInBlacklist) :: [compareManualLeaderFlag_,
        comparePrimaryRegion_,compareSeriousFailures_,compareZonePriority_]) := rfl
  unfold compare
  rw [compareInBlacklistFlag_ok_of_fits ha hb,hsplit,firstCmp_append]
  simp only [firstCmp,thenCmp]
  split_ifs <;> rfl

theorem compareWith_of_fits {a b : PriorityV1} (ha : a.blacklistReasonFits = true)
    (hb : b.blacklistReasonFits = true) :
    compareWith a b true = .ok (guardCmp isValid (firstCmp criteria) a b) := by
  unfold compareWith guardCmp
  cases hva : a.isValid <;> cases hvb : b.isValid <;> simp [compare_of_fits ha hb]

/-! ### Where the SCN criterion is a total preorder -/

/-- The SCN criterion ranks the priorities of `T` by their SCNs: two different SCNs of `T` are
not maximal and, when both are valid, their timestamps lie more than
`MAX_UNREPLAYED_LOG_TS_DIFF_THRESHOLD_US` apart. -/
def ScnsSeparated (T : Set PriorityV1) : Prop :=
  ∀ a ∈ T, ∀ b ∈ T, a.scn ≠ b.scn → scnIsMax a.scn = false ∧ scnIsMax b.scn = false ∧
    (scnIsValid a.scn = true → scnIsValid b.scn = true →
      maxUnreplayedLogTsDiffThresholdUs < convertToTs (max a.scn b.scn) - convertToTs (min a.scn b.scn))

theorem compareScn_eq_guardCmp {a b : PriorityV1} (hsep : a.scn ≠ b.scn → scnIsMax a.scn = false ∧
      scnIsMax b.scn = false ∧ (scnIsValid a.scn = true → scnIsValid b.scn = true →
        maxUnreplayedLogTsDiffThresholdUs < convertToTs (max a.scn b.scn) - convertToTs (min a.scn b.scn))) :
    compareScn_ a b = guardCmp (fun p => scnIsValid p.scn) (cmpBy scn) a b := by
  unfold compareScn_ guardCmp cmpBy
  by_cases heq : a.scn = b.scn
  · simp only [heq,true_or,if_pos]
    by_cases hv : scnIsValid b.scn = true <;> simp [hv]
  obtain ⟨ha,hb,hts⟩ := hsep heq
  cases hva : scnIsValid a.scn <;> cases hvb : scnIsValid b.scn
  · simp [heq,ha,hb,hva,hvb]
  · simp [heq,ha,hb,hva,hvb]
  · simp [heq,ha,hb,hva,hvb]
  · have hfar := hts hva hvb
    rw [if_neg (by simp [heq,ha,hb]),if_pos (by simp),if_neg (by omega)]
    simp only [heq,hva,hvb,if_false,if_true]
    rcases lt_or_gt_of_ne heq with hlt | hgt
    · rw [max_eq_right hlt.le,if_neg (Ne.symm heq),if_neg (not_lt.mpr hlt.le)]
    · rw [max_eq_left hgt.le,if_pos rfl,if_pos hgt]

theorem totalPreorderOn_compareScn_ {T : Set PriorityV1} (hT : ScnsSeparated T) :
    TotalPreorderOn compareScn_ T :=
  ((totalPreorderOn_cmpBy scn _).guardCmp).congr fun a ha b hb =>
    compareScn_eq_guardCmp (hT a ha b hb)

theorem totalPreorderOn_criteria {T : Set PriorityV1} (hscn : TotalPreorderOn compareScn_ T) :
    TotalPreorderOn (firstCmp criteria) T := by
  refine TotalPreorderOn.firstCmp fun c hc => ?_
  simp only [criteria,List.mem_cons,List.not_mem_nil,or_false] at hc
  rcases hc with rfl | rfl | rfl | rfl | rfl | rfl | rfl | rfl | rfl | rfl
  · exact totalPreorderOn_cmpFlag false isObserverStopped T
  · exact totalPreorderOn_cmpFlag false isServerStopped T
  · exact totalPreorderOn_cmpFlag false isZoneStopped T
  · exact totalPreorderOn_cmpFewer fatalFailures T
  · exact hscn
  · exact totalPreorderOn_cmpFlag false isInBlacklist T
  · exact totalPreorderOn_cmpFlag true isManualLeader T
  · exact totalPreorderOn_cmpFlag true isPrimaryRegion T
  · exact totalPreorderOn_cmpFewer seriousFailures T
  · exact totalPreorderOn_cmpFewer zonePriority T

end PriorityV1

end Election
end Palf
end OceanBase
