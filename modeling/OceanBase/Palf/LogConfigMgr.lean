import Mathlib
import OceanBase.Define
import OceanBase.Palf.VoteChoice

/-! The configuration change check of `LogConfigMgr` (`log_config_mgr.cpp`, `log_config_mgr.h`)
over the configuration it changes (`LogConfigInfo`, `LogConfigInfoV2`, `LogLockMeta` in
`log_meta_info.cpp`) and the member and learner lists it reads (`ob_member_list.ipp`,
`ob_learner_list.ipp`).

Before a leader proposes a new configuration, `check_config_change_args_` validates the request:
`check_config_change_args_by_type_` tells per type whether it is invalid or already done,
`generate_new_config_info_` builds the new configuration, and `can_memberlist_majority_` asks
that the new member list can still form a majority of the new replica number. Lists keep their
elements in insertion order here; the code sorts them, and nothing modelled reads a position. -/
namespace OceanBase
namespace Palf

open Election (LogConfigVersion)

def obMaxMemberNumber : Nat := 7

def obMaxGlobalLearnerNumber : Nat := 2000

def obInvalidTimestamp : Int := -1

def obInvalidConfigChangeLockOwner : Int := -1

def lockNothing : Int := 0

def lockPaxosMemberChange : Int := 1

def logLockMetaVersion : Int := 1

def logConfigInfoVersion : Int := 1

def isValidReplicaNum (replicaNum : Int) : Bool := 0 < replicaNum && replicaNum ≤ obMaxMemberNumber

inductive LogConfigChangeType
  | invalidLogConfigChangeType
  | changeReplicaNum
  | addMember
  | addArbMember
  | removeMember
  | removeArbMember
  | addMemberAndNum
  | removeMemberAndNum
  | addLearner
  | removeLearner
  | switchLearnerToAcceptor
  | switchAcceptorToLearner
  | degradeAcceptorToLearner
  | upgradeLearnerToAcceptor
  | startworking
  | forceSingleMember
  | tryLockConfigChange
  | unlockConfigChange
  | replaceLearners
  | switchLearnerToAcceptorAndNum
  deriving DecidableEq, Repr

namespace LogConfigChangeType

/-- `need_check_config_version`; `isCluster4200` is whether `GET_MIN_CLUSTER_VERSION()` has
reached `CLUSTER_VERSION_4_2_0_0`. -/
def needCheckConfigVersion (isCluster4200 : Bool) (t : LogConfigChangeType) : Bool :=
  isCluster4200 && (t == addMember || t == addMemberAndNum || t == switchLearnerToAcceptor ||
    t == switchLearnerToAcceptorAndNum)

def isAddLogSyncMemberList (t : LogConfigChangeType) : Bool :=
  t == addMember || t == addMemberAndNum || t == switchLearnerToAcceptor ||
    t == upgradeLearnerToAcceptor || t == switchLearnerToAcceptorAndNum

def isRemoveLogSyncMemberList (t : LogConfigChangeType) : Bool :=
  t == removeMember || t == removeMemberAndNum || t == switchAcceptorToLearner ||
    t == degradeAcceptorToLearner

def isAddMemberList (t : LogConfigChangeType) : Bool := isAddLogSyncMemberList t || t == addArbMember

def isRemoveMemberList (t : LogConfigChangeType) : Bool :=
  isRemoveLogSyncMemberList t || t == removeArbMember

def isArbMemberChangeType (t : LogConfigChangeType) : Bool := t == addArbMember || t == removeArbMember

def isAddLearnerList (t : LogConfigChangeType) : Bool :=
  t == addLearner || t == switchAcceptorToLearner || t == degradeAcceptorToLearner ||
    t == replaceLearners

def isRemoveLearnerList (t : LogConfigChangeType) : Bool :=
  t == removeLearner || t == switchLearnerToAcceptor || t == upgradeLearnerToAcceptor ||
    t == switchLearnerToAcceptorAndNum || t == replaceLearners

def isUseReplicaNumArgs (t : LogConfigChangeType) : Bool :=
  t == addMember || t == removeMember || t == changeReplicaNum || t == forceSingleMember ||
    t == switchLearnerToAcceptor || t == switchAcceptorToLearner

def isMayChangeReplicaNum (t : LogConfigChangeType) : Bool :=
  isAddMemberList t || isRemoveMemberList t || t == changeReplicaNum || t == forceSingleMember

def isPaxosMemberListChange (t : LogConfigChangeType) : Bool :=
  t == addMember || t == removeMember || t == addMemberAndNum || t == removeMemberAndNum ||
    t == switchLearnerToAcceptor || t == switchAcceptorToLearner || t == changeReplicaNum

def isTryLockConfigChange (t : LogConfigChangeType) : Bool := t == tryLockConfigChange

def isUnlockConfigChange (t : LogConfigChangeType) : Bool := t == unlockConfigChange

def isUseAddedList (t : LogConfigChangeType) : Bool := t == replaceLearners

def isUseRemovedList (t : LogConfigChangeType) : Bool := t == replaceLearners

end LogConfigChangeType

variable {Addr : Type} [DecidableEq Addr]

/-- `ObMember`: the server, the timestamp it joined with, and the migrating bit, the one bit of
`flag_` the code sets. An invalid member (`ObMember()`, a reset arbitration member) is `none`
where the code may hold one. -/
structure ObMember (Addr : Type) where
  server : Addr
  timestamp : Int
  migrating : Bool
  deriving DecidableEq, Repr

/-- `ObMember::reset_migrating`. With the migrating bit the only flag, it is also
`ObMember(server, timestamp)` of the member. -/
def ObMember.resetMigrating (m : ObMember Addr) : ObMember Addr := { m with migrating := false }

/-- `ObMemberList`: its members, whose servers differ, as `add_member` keeps them. -/
structure ObMemberList (Addr : Type) where
  members : List (ObMember Addr)
  nodup : (members.map ObMember.server).Nodup

namespace ObMemberList

def empty : ObMemberList Addr := ⟨[],List.nodup_nil⟩

def getMemberNumber (l : ObMemberList Addr) : Nat := l.members.length

def isValid (l : ObMemberList Addr) : Bool := 0 < l.members.length

def contains (l : ObMemberList Addr) (m : Option (ObMember Addr)) : Bool := m.any l.members.contains

def containsServer (l : ObMemberList Addr) (s : Addr) : Bool := l.members.any (·.server == s)

theorem nodup_append {l : ObMemberList Addr} {m : ObMember Addr} (h : ¬l.containsServer m.server) :
    ((l.members ++ [m]).map ObMember.server).Nodup := by
  simp only [containsServer,List.any_eq_true,beq_iff_eq,not_exists,not_and] at h
  simp only [List.map_append,List.map_cons,List.map_nil]
  refine List.nodup_append.mpr ⟨l.nodup,List.nodup_singleton _,?_⟩
  simp only [List.mem_map,List.mem_singleton]
  rintro _ ⟨x,hx,rfl⟩ _ rfl heq
  exact h x hx heq

/-- `add_member`: the member is appended unless it is invalid, the list is full, or its server
is already there. -/
def addMember (l : ObMemberList Addr) : Option (ObMember Addr) → Except ObErr (ObMemberList Addr)
  | none => .error .invalidArgument
  | some m =>
    if obMaxMemberNumber ≤ l.members.length then .error .sizeOverflow
    else if h : l.containsServer m.server then .error .entryExist
    else .ok ⟨l.members ++ [m],nodup_append h⟩

def removeServer (l : ObMemberList Addr) (s : Addr) : Except ObErr (ObMemberList Addr) :=
  if l.containsServer s then
    .ok ⟨l.members.eraseP (·.server == s),(List.eraseP_sublist.map _).nodup l.nodup⟩
  else .error .entryNotExist

/-- `member_addr_equal`: the same number of members, each server of `a` in `b`. -/
def memberAddrEqual (a b : ObMemberList Addr) : Bool :=
  a.members.length == b.members.length && a.members.all (fun m => b.containsServer m.server)

end ObMemberList

/-! `GlobalLearnerList`, `BaseLearnerList<OB_MAX_GLOBAL_LEARNER_NUMBER, ObMember>`, as its list
of learners. -/
namespace GlobalLearnerList

def contains (l : List (ObMember Addr)) (m : Option (ObMember Addr)) : Bool := m.any l.contains

def containsServer (l : List (ObMember Addr)) (s : Addr) : Bool := l.any (·.server == s)

def addLearner (l : List (ObMember Addr)) :
    Option (ObMember Addr) → Except ObErr (List (ObMember Addr))
  | none => .error .invalidArgument
  | some m =>
    if obMaxGlobalLearnerNumber ≤ l.length then .error .sizeOverflow
    else if l.contains m then .error .entryExist
    else .ok (l ++ [m])

def removeLearner (l : List (ObMember Addr)) :
    Option (ObMember Addr) → Except ObErr (List (ObMember Addr))
  | none => .error .invalidArgument
  | some m => if l.contains m then .ok (l.erase m) else .error .entryNotExist

def append (l : List (ObMember Addr)) (ms : List (ObMember Addr)) :
    Except ObErr (List (ObMember Addr)) :=
  ms.foldlM (fun acc m => addLearner acc (some m)) l

end GlobalLearnerList

structure LogLockMeta where
  version : Int
  lockOwner : Int
  lockType : Int
  lockTime : Int
  deriving DecidableEq, Repr

namespace LogLockMeta

/-- `is_valid`: locked by a positive owner at some time, or unlocked with an owner and a time
both set or both unset. -/
def isValid (l : LogLockMeta) : Bool :=
  let isValidLockedStat :=
    0 < l.lockOwner && l.lockType == lockPaxosMemberChange && l.lockTime != obInvalidTimestamp
  let isValidUnlockedStat := l.lockType == lockNothing &&
    ((l.lockOwner == obInvalidConfigChangeLockOwner && l.lockTime == obInvalidTimestamp) ||
      (l.lockOwner != obInvalidConfigChangeLockOwner && l.lockTime != obInvalidTimestamp))
  l.version == logLockMetaVersion && (isValidLockedStat || isValidUnlockedStat)

def isLocked (l : LogLockMeta) : Bool := l.lockType == lockPaxosMemberChange

def generate (lockOwner lockType now : Int) : Except ObErr LogLockMeta :=
  if lockType ≠ lockPaxosMemberChange ∨ lockOwner ≤ 0 then .error .invalidArgument
  else .ok ⟨logLockMetaVersion,lockOwner,lockType,now⟩

def unlock (l : LogLockMeta) (now : Int) : LogLockMeta := { l with lockType := lockNothing, lockTime := now }

end LogLockMeta

structure LogConfigInfo (Addr : Type) where
  logSyncMemberlist : ObMemberList Addr
  logSyncReplicaNum : Int
  arbitrationMember : Option (ObMember Addr)
  learnerlist : List (ObMember Addr)
  degradedLearnerlist : List (ObMember Addr)
  configVersion : LogConfigVersion

/-- `LogConfigInfo::check_list_unique`: each member's server is new to `serverList`, which
collects them. -/
def checkListUnique (serverList : List (ObMember Addr)) :
    List (ObMember Addr) → Except ObErr (List (ObMember Addr))
  | [] => .ok serverList
  | m :: rest =>
    if GlobalLearnerList.containsServer serverList m.server then .error .invalidArgument
    else match GlobalLearnerList.addLearner serverList (some m) with
      | .ok l => checkListUnique l rest
      | .error e => .error e

namespace LogConfigInfo

/-- `is_all_list_unique`: no server is in two places among the arbitration member, the log sync
members, the degraded learners and the learners. -/
def isAllListUnique (c : LogConfigInfo Addr) : Bool :=
  Except.isOk (do
    let l ← match c.arbitrationMember with
      | some a => GlobalLearnerList.addLearner [] (some a)
      | none => pure []
    let l ← checkListUnique l c.logSyncMemberlist.members
    let l ← checkListUnique l c.degradedLearnerlist
    checkListUnique l c.learnerlist)

def isValid (c : LogConfigInfo Addr) : Bool :=
  c.logSyncMemberlist.isValid && c.isAllListUnique && 0 < c.logSyncReplicaNum &&
    c.logSyncReplicaNum ≤ obMaxMemberNumber && c.configVersion.isValid

/-- `get_expected_paxos_memberlist`: the log sync members and replica number, with each degraded
learner added back. -/
def getExpectedPaxosMemberlist (c : LogConfigInfo Addr) : Except ObErr (ObMemberList Addr × Int) :=
  if !c.logSyncMemberlist.isValid || c.logSyncReplicaNum ≤ 0 ||
      obMaxMemberNumber < c.logSyncReplicaNum then .ok (ObMemberList.empty,0)
  else if !c.degradedLearnerlist.isEmpty then
    c.degradedLearnerlist.foldlM (fun acc m => do
      let l ← acc.1.addMember (some m)
      pure (l,acc.2 + 1)) (c.logSyncMemberlist,c.logSyncReplicaNum)
  else .ok (c.logSyncMemberlist,c.logSyncReplicaNum)

/-- `convert_to_complete_config`: the paxos member list and replica number, the arbitration
member counted, and all learners. -/
def convertToCompleteConfig (c : LogConfigInfo Addr) :
    Except ObErr (ObMemberList Addr × Int × List (ObMember Addr)) :=
  if !c.logSyncMemberlist.isValid || c.logSyncReplicaNum ≤ 0 ||
      obMaxMemberNumber < c.logSyncReplicaNum then .error .notInit
  else do
    let learners ← GlobalLearnerList.append [] c.learnerlist
    let learners ← GlobalLearnerList.append learners c.degradedLearnerlist
    match c.arbitrationMember with
    | some a => do
      let l ← c.logSyncMemberlist.addMember (some a)
      pure (l,c.logSyncReplicaNum + 1,learners)
    | none => pure (c.logSyncMemberlist,c.logSyncReplicaNum,learners)

end LogConfigInfo

structure LogConfigInfoV2 (Addr : Type) where
  version : Int
  config : LogConfigInfo Addr
  lockMeta : LogLockMeta

def LogConfigInfoV2.isValid (c : LogConfigInfoV2 Addr) : Bool :=
  c.version == logConfigInfoVersion && c.config.isValid && c.lockMeta.isValid

/-- `LogConfigVersion::inc_update_version`: the next sequence number under a proposal id no
older than the current one. -/
def Election.LogConfigVersion.incUpdateVersion (v : LogConfigVersion) (proposalId : Int) :
    Except ObErr LogConfigVersion :=
  if v.proposalId = (invalidProposalId : Int) ∨ v.configSeq < 0 then .error .notInit
  else if proposalId = (invalidProposalId : Int) ∨ proposalId < v.proposalId then
    .error .invalidArgument
  else .ok ⟨proposalId,v.configSeq + 1⟩

structure LogConfigChangeArgs (Addr : Type) where
  server : Option (ObMember Addr)
  currMemberList : ObMemberList Addr
  currReplicaNum : Int
  newReplicaNum : Int
  configVersion : LogConfigVersion
  lockOwner : Int
  lockType : Int
  type : LogConfigChangeType
  addedList : ObMemberList Addr
  removedList : ObMemberList Addr

def LogConfigChangeArgs.isValid (a : LogConfigChangeArgs Addr) : Bool :=
  let t := a.type
  t != .invalidLogConfigChangeType &&
  (if t.isAddMemberList || t.isRemoveMemberList || t.isAddLearnerList || t.isRemoveLearnerList
    then a.server.isSome || (a.addedList.isValid && a.removedList.isValid) else true) &&
  (if t.isUseReplicaNumArgs then isValidReplicaNum a.newReplicaNum else true) &&
  (if t == .changeReplicaNum then a.currMemberList.isValid && isValidReplicaNum a.currReplicaNum &&
    isValidReplicaNum a.newReplicaNum else true) &&
  (if t == .tryLockConfigChange || t == .unlockConfigChange
    then a.lockOwner != obInvalidConfigChangeLockOwner else true)

/-- What the checks read of `LogConfigMgr`: the server it runs on (`self_`), the current
configuration (`log_ms_meta_.curr_`) and the proposal id of its `state_mgr_`. -/
structure ConfigChecker (Addr : Type) where
  self : Addr
  curr : LogConfigInfoV2 Addr
  proposalId : Int

/-- The loop of `check_config_change_args_by_type_` over the added list of `REPLACE_LEARNERS`:
an added member already a paxos member fails; the first one not yet a learner ends it. -/
def replaceAddedScan (currMemberList : ObMemberList Addr) (learners : List (ObMember Addr)) :
    List (ObMember Addr) → Except ObErr Bool
  | [] => .ok true
  | m :: rest =>
    if currMemberList.containsServer m.server then .error .invalidArgument
    else if !GlobalLearnerList.contains learners (some m) then .ok false
    else replaceAddedScan currMemberList learners rest

/-- `check_config_change_args_by_type_`: whether the change is already done, or the error that
makes it invalid for the current configuration. -/
def checkConfigChangeArgsByType_ (mgr : ConfigChecker Addr) (args : LogConfigChangeArgs Addr) :
    Except ObErr Bool := do
  let (currMemberList,currReplicaNum) ← mgr.curr.config.getExpectedPaxosMemberlist
  let c := mgr.curr.config
  let member := args.server
  let isInLogSyncMemberlist := c.logSyncMemberlist.contains (member.map ObMember.resetMigrating)
  let isInDegradedLearnerlist := GlobalLearnerList.contains c.degradedLearnerlist member
  let isInLearnerlist := GlobalLearnerList.contains c.learnerlist member
  let isArbReplica := c.arbitrationMember == member
  let hasArbReplica := c.arbitrationMember.isSome
  let currLockOwner := mgr.curr.lockMeta.lockOwner
  let currLockType := mgr.curr.lockMeta.lockType
  let newReplicaNum := args.newReplicaNum
  match args.type with
  | .changeReplicaNum =>
    if currReplicaNum == newReplicaNum && currMemberList.memberAddrEqual args.currMemberList then
      pure true
    else if !currMemberList.memberAddrEqual args.currMemberList ||
        currReplicaNum != args.currReplicaNum then throw .invalidArgument
    else pure false
  | .addMember | .addMemberAndNum =>
    if isInLearnerlist || isInDegradedLearnerlist || isArbReplica then throw .invalidArgument
    else if isInLogSyncMemberlist then
      if args.type == .addMemberAndNum || newReplicaNum == currReplicaNum then pure true
      else throw .invalidArgument
    else pure false
  | .removeMember | .removeMemberAndNum =>
    if isInLearnerlist || isArbReplica then throw .invalidArgument
    else if !isInLogSyncMemberlist then
      if isInDegradedLearnerlist then pure false
      else if args.type == .removeMemberAndNum || newReplicaNum == currReplicaNum ||
          (hasArbReplica && c.degradedLearnerlist.length == 0 &&
            ((c.logSyncMemberlist.getMemberNumber : Int) * 2 == newReplicaNum)) then pure true
      else throw .invalidArgument
    else pure false
  | .addArbMember =>
    if isInLearnerlist || isInDegradedLearnerlist || isInLogSyncMemberlist then
      throw .invalidArgument
    else if isArbReplica then
      if newReplicaNum == currReplicaNum then pure true else throw .invalidArgument
    else if hasArbReplica then throw .invalidArgument
    else pure false
  | .removeArbMember =>
    if isInLearnerlist || isInDegradedLearnerlist || isInLogSyncMemberlist then
      throw .invalidArgument
    else if !isArbReplica then
      if newReplicaNum == currReplicaNum then pure true else throw .invalidArgument
    else pure false
  | .addLearner =>
    if isInLogSyncMemberlist || isInDegradedLearnerlist || isArbReplica then throw .invalidArgument
    else pure isInLearnerlist
  | .removeLearner =>
    if isInLogSyncMemberlist || isInDegradedLearnerlist || isArbReplica then throw .invalidArgument
    else pure !isInLearnerlist
  | .switchLearnerToAcceptor | .switchLearnerToAcceptorAndNum | .upgradeLearnerToAcceptor =>
    if (isInDegradedLearnerlist || isInLearnerlist) && isInLogSyncMemberlist then
      throw .errUnexpected
    else if (isInLearnerlist || isInDegradedLearnerlist) && !isInLogSyncMemberlist then
      if args.type == .upgradeLearnerToAcceptor && isInLearnerlist then throw .invalidArgument
      else if args.type != .upgradeLearnerToAcceptor && isInDegradedLearnerlist then
        throw .invalidArgument
      else pure false
    else if !isInLearnerlist && !isInDegradedLearnerlist && isInLogSyncMemberlist then
      if args.type != .switchLearnerToAcceptor || newReplicaNum == currReplicaNum then pure true
      else throw .invalidArgument
    else throw .invalidArgument
  | .switchAcceptorToLearner | .degradeAcceptorToLearner =>
    if !hasArbReplica && args.type == .degradeAcceptorToLearner then throw .invalidArgument
    else if (isInLearnerlist || isInDegradedLearnerlist) && isInLogSyncMemberlist then
      throw .errUnexpected
    else if (isInLearnerlist || isInDegradedLearnerlist) && !isInLogSyncMemberlist then
      if args.type == .degradeAcceptorToLearner && isInLearnerlist then throw .invalidArgument
      else if args.type == .switchAcceptorToLearner && isInDegradedLearnerlist then
        throw .invalidArgument
      else if args.type == .degradeAcceptorToLearner || newReplicaNum == currReplicaNum then
        pure true
      else throw .invalidArgument
    else if !isInDegradedLearnerlist && isInLogSyncMemberlist then
      if args.type == .degradeAcceptorToLearner && !hasArbReplica then throw .invalidArgument
      else pure false
    else throw .invalidArgument
  | .startworking | .forceSingleMember => pure false
  | .tryLockConfigChange =>
    if args.lockOwner == currLockOwner then
      if lockPaxosMemberChange == currLockType then pure true else throw .stateNotMatch
    else if args.lockOwner > currLockOwner then
      if lockNothing == currLockType then pure false else throw .tryLockConfigChangeConflict
    else throw .stateNotMatch
  | .unlockConfigChange =>
    if args.lockOwner == currLockOwner then
      if lockPaxosMemberChange == currLockType then pure false
      else if lockNothing == currLockType then pure true
      else throw .notSupported
    else throw .stateNotMatch
  | .replaceLearners => do
    let allAddedInLearnerlist ← replaceAddedScan currMemberList c.learnerlist args.addedList.members
    let allRemovedNotInLearnerlist :=
      args.removedList.members.all (fun m => !GlobalLearnerList.contains c.learnerlist (some m))
    pure (allAddedInLearnerlist && allRemovedNotInLearnerlist)
  | .invalidLogConfigChangeType => throw .invalidArgument

/-- `can_memberlist_majority_`: no more members than the replica number, and enough of them for
a majority of it. The length is never negative, so the quotient is taken only of a replica
number that is not, where `/` truncates as C++ does. -/
def canMemberlistMajority_ (newMemberListLen : Nat) (newReplicaNum : Int) : Bool :=
  if (newMemberListLen : Int) > newReplicaNum then false
  else if (newMemberListLen : Int) < newReplicaNum / 2 + 1 then false
  else true

/-- The replica number of the new configuration, the "change replica num" block of
`generate_new_config_info_`. -/
def newLogSyncReplicaNum (c : LogConfigInfo Addr) (args : LogConfigChangeArgs Addr) :
    Except ObErr Int :=
  let t := args.type
  if !t.isMayChangeReplicaNum then .ok c.logSyncReplicaNum
  else do
    let isRemoveDegradedLearner :=
      t.isRemoveLogSyncMemberList && GlobalLearnerList.contains c.degradedLearnerlist args.server
    let r ←
      if t.isUseReplicaNumArgs then
        let degradedCnt : Int := c.degradedLearnerlist.length
        let degradedCnt := if isRemoveDegradedLearner then degradedCnt - 1 else degradedCnt
        pure (args.newReplicaNum - degradedCnt)
      else if t.isAddLogSyncMemberList then pure (c.logSyncReplicaNum + 1)
      else if t.isRemoveLogSyncMemberList && isRemoveDegradedLearner then pure c.logSyncReplicaNum
      else if t.isRemoveLogSyncMemberList && !isRemoveDegradedLearner then
        pure (c.logSyncReplicaNum - 1)
      else if t.isArbMemberChangeType then pure c.logSyncReplicaNum
      else throw .errUnexpected
    if isRemoveDegradedLearner && (c.logSyncMemberlist.getMemberNumber : Int) * 2 == r then
      pure c.logSyncReplicaNum
    else pure r

/-- The "memberlist add" block: the member joins the log sync member list, its migrating bit
cleared, or becomes the arbitration member. -/
def addMemberListStep (c : LogConfigInfo Addr) (args : LogConfigChangeArgs Addr) :
    Except ObErr (LogConfigInfo Addr) :=
  if !args.type.isAddMemberList then .ok c
  else if args.type.isAddLogSyncMemberList then do
    let l ← c.logSyncMemberlist.addMember (args.server.map ObMember.resetMigrating)
    pure { c with logSyncMemberlist := l }
  else .ok { c with arbitrationMember := args.server }

/-- The "memberlist remove" block: the member leaves the log sync member list or the degraded
learners, or the arbitration member is reset. -/
def removeMemberListStep (c : LogConfigInfo Addr) (args : LogConfigChangeArgs Addr) :
    Except ObErr (LogConfigInfo Addr) :=
  if !args.type.isRemoveMemberList then .ok c
  else if args.type.isRemoveLogSyncMemberList then
    match args.server with
    | some m =>
      if c.logSyncMemberlist.contains (some m) then do
        let l ← c.logSyncMemberlist.removeServer m.server
        pure { c with logSyncMemberlist := l }
      else if GlobalLearnerList.contains c.degradedLearnerlist (some m) then do
        let l ← GlobalLearnerList.removeLearner c.degradedLearnerlist (some m)
        pure { c with degradedLearnerlist := l }
      else .error .invalidArgument
    | none => .error .invalidArgument
  else .ok { c with arbitrationMember := none }

/-- The loop of `REPLACE_LEARNERS` over its added list: a learner already there is skipped. -/
def addLearners (l : List (ObMember Addr)) : List (ObMember Addr) → Except ObErr (List (ObMember Addr))
  | [] => .ok l
  | m :: rest =>
    match GlobalLearnerList.addLearner l (some m) with
    | .ok l' => addLearners l' rest
    | .error .entryExist => addLearners l rest
    | .error e => .error e

/-- The loop of `REPLACE_LEARNERS` over its removed list: a learner not there is skipped. -/
def removeLearners (l : List (ObMember Addr)) :
    List (ObMember Addr) → Except ObErr (List (ObMember Addr))
  | [] => .ok l
  | m :: rest =>
    match GlobalLearnerList.removeLearner l (some m) with
    | .ok l' => removeLearners l' rest
    | .error .entryNotExist => removeLearners l rest
    | .error e => .error e

def addLearnerListStep (c : LogConfigInfo Addr) (args : LogConfigChangeArgs Addr) :
    Except ObErr (LogConfigInfo Addr) :=
  if !args.type.isAddLearnerList then .ok c
  else if args.type == .degradeAcceptorToLearner then do
    let l ← GlobalLearnerList.addLearner c.degradedLearnerlist args.server
    pure { c with degradedLearnerlist := l }
  else if args.type.isUseAddedList then do
    let l ← addLearners c.learnerlist args.addedList.members
    pure { c with learnerlist := l }
  else do
    let l ← GlobalLearnerList.addLearner c.learnerlist args.server
    pure { c with learnerlist := l }

def removeLearnerListStep (c : LogConfigInfo Addr) (args : LogConfigChangeArgs Addr) :
    Except ObErr (LogConfigInfo Addr) :=
  if !args.type.isRemoveLearnerList then .ok c
  else if args.type == .upgradeLearnerToAcceptor then do
    let l ← GlobalLearnerList.removeLearner c.degradedLearnerlist args.server
    pure { c with degradedLearnerlist := l }
  else if args.type.isUseRemovedList then do
    let l ← removeLearners c.learnerlist args.removedList.members
    pure { c with learnerlist := l }
  else do
    let l ← GlobalLearnerList.removeLearner c.learnerlist args.server
    pure { c with learnerlist := l }

def lockMetaStep (l : LogLockMeta) (args : LogConfigChangeArgs Addr) (now : Int) :
    Except ObErr LogLockMeta := do
  let l ← if args.type.isTryLockConfigChange then LogLockMeta.generate args.lockOwner args.lockType now
    else pure l
  pure (if args.type.isUnlockConfigChange then l.unlock now else l)

/-- `FORCE_SINGLE_MEMBER`: the member alone, with the caller's replica number. The result of its
`add_member` is not checked. -/
def forceSingleMemberStep (c : LogConfigInfo Addr) (args : LogConfigChangeArgs Addr) :
    LogConfigInfo Addr :=
  { c with
    logSyncMemberlist := ((ObMemberList.empty.addMember args.server).toOption).getD ObMemberList.empty
    degradedLearnerlist := []
    arbitrationMember := none
    logSyncReplicaNum := args.newReplicaNum }

def generateNewConfigInfo_ (curr : LogConfigInfoV2 Addr) (proposalId : Int)
    (args : LogConfigChangeArgs Addr) (now : Int) : Except ObErr (LogConfigInfoV2 Addr) :=
  if proposalId = (invalidProposalId : Int) ∨ !args.isValid then .error .invalidArgument
  else do
    let configVersion ← curr.config.configVersion.incUpdateVersion proposalId
    let c := { curr.config with configVersion := configVersion }
    if args.type == .startworking then pure { curr with config := c }
    else do
      let replicaNum ← newLogSyncReplicaNum c args
      let c ← addMemberListStep c args
      let c ← removeMemberListStep c args
      let c ← addLearnerListStep c args
      let c ← removeLearnerListStep c args
      let lockMeta ← lockMetaStep curr.lockMeta args now
      let c := { c with logSyncReplicaNum := replicaNum }
      let c := if args.type == .forceSingleMember then forceSingleMemberStep c args else c
      let info : LogConfigInfoV2 Addr := { curr with config := c, lockMeta := lockMeta }
      if !info.isValid then throw .invalidArgument else pure info

/-- `check_config_change_args_`: whether the change is already done, or the error that rejects
it. A new member list without the server itself is logged as an error but not rejected. -/
def checkConfigChangeArgs_ (mgr : ConfigChecker Addr) (isCluster4200 : Bool) (now : Int)
    (args : LogConfigChangeArgs Addr) : Except ObErr Bool :=
  let configVersion := mgr.curr.config.configVersion
  let needCheck := args.type.needCheckConfigVersion isCluster4200
  if !args.isValid then .error .invalidArgument
  else if args.type.isRemoveMemberList && args.server.map ObMember.server == some mgr.self then
    .error .notAllowRemovingLeader
  else if mgr.curr.lockMeta.isLocked && args.type.isPaxosMemberListChange then .error .eagain
  else if needCheck && args.configVersion.gt configVersion then .error .errUnexpected
  else do
    let isAlreadyFinished ← checkConfigChangeArgsByType_ mgr args
    if isAlreadyFinished then pure true
    else if needCheck && args.configVersion != configVersion then throw .stateNotMatch
    else do
      let newConfigInfo ← generateNewConfigInfo_ mgr.curr mgr.proposalId args now
      let (newPaxosMemberlist,newPaxosReplicaNum,_) ←
        newConfigInfo.config.convertToCompleteConfig
      if !newPaxosMemberlist.containsServer mgr.self ||
          !newConfigInfo.config.logSyncMemberlist.containsServer mgr.self then pure false
      else if !canMemberlistMajority_ newConfigInfo.config.logSyncMemberlist.getMemberNumber
            newConfigInfo.config.logSyncReplicaNum ||
          !canMemberlistMajority_ newPaxosMemberlist.getMemberNumber newPaxosReplicaNum then
        throw .invalidArgument
      else pure false

end Palf
end OceanBase
