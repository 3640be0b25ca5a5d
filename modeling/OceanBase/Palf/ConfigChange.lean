import Mathlib
import OceanBase.Lib.Quorum
import OceanBase.Palf.LogConfigMgr

/-! What a configuration change that `check_config_change_args_` accepts does to the quorums.

A change the check accepts, not already done, moves at most one server into or out of the log
sync member list, and the configuration `generate_new_config_info_` builds for it carries a
newer config version. Where the server running the check stays a member, the check's
`can_memberlist_majority_` ran on the new configuration, so a majority of the old replica number
among the old members meets a majority of the new one among the new members
(`Lib.majorities_inter_nonempty`). The check keeps no such guard when the server is not a
member: its defensive test only logs. -/
namespace OceanBase
namespace Palf

open Election (LogConfigVersion)

variable {Addr : Type} [DecidableEq Addr]

theorem except_bind_eq_ok {ε α β : Type} {x : Except ε α} {f : α → Except ε β} {b : β} :
    x >>= f = .ok b ↔ ∃ a, x = .ok a ∧ f a = .ok b := by
  cases x <;> simp [bind,Except.bind]

theorem except_pure_eq_ok {ε α : Type} {a b : α} : (pure a : Except ε α) = .ok b ↔ a = b := by
  simp [pure,Except.pure]

/-! ### Member lists as sets of servers -/

namespace ObMemberList

def servers (l : ObMemberList Addr) : Finset Addr := (l.members.map ObMember.server).toFinset

theorem card_servers (l : ObMemberList Addr) : l.servers.card = l.getMemberNumber := by
  rw [servers,List.toFinset_card_of_nodup l.nodup,List.length_map]
  rfl

theorem containsServer_iff (l : ObMemberList Addr) (s : Addr) :
    l.containsServer s = true ↔ s ∈ l.servers := by
  simp [containsServer,servers]

theorem servers_of_addMember {l l' : ObMemberList Addr} {m : Option (ObMember Addr)}
    (h : l.addMember m = .ok l') :
    ∃ x, m = some x ∧ x.server ∉ l.servers ∧ l'.servers = insert x.server l.servers := by
  cases m with
  | none => simp [addMember] at h
  | some x =>
    dsimp only [addMember] at h
    by_cases hfull : obMaxMemberNumber ≤ l.members.length
    · simp [hfull] at h
    by_cases hin : l.containsServer x.server = true
    · simp [hfull,hin] at h
    rw [if_neg hfull,dif_neg hin] at h
    cases h
    refine ⟨x,rfl,(containsServer_iff l x.server).not.mp hin,?_⟩
    ext s
    simp [servers]

theorem map_server_eraseP (ms : List (ObMember Addr)) (s : Addr) :
    (ms.eraseP (·.server == s)).map ObMember.server = (ms.map ObMember.server).erase s := by
  rw [List.erase_eq_eraseP,List.eraseP_map]
  congr 2
  funext x
  exact BEq.comm

theorem servers_of_removeServer {l l' : ObMemberList Addr} {s : Addr}
    (h : l.removeServer s = .ok l') : s ∈ l.servers ∧ l'.servers = l.servers.erase s := by
  unfold removeServer at h
  split_ifs at h with hin
  cases h
  refine ⟨(containsServer_iff l s).mp hin,?_⟩
  ext x
  simp only [servers,List.mem_toFinset,Finset.mem_erase,map_server_eraseP]
  exact l.nodup.mem_erase_iff

end ObMemberList

/-! ### What each block of `generate_new_config_info_` does -/

section Steps

variable {c c' : LogConfigInfo Addr} {args : LogConfigChangeArgs Addr}

theorem addLearnerListStep_frame (h : addLearnerListStep c args = .ok c') :
    c'.logSyncMemberlist = c.logSyncMemberlist ∧ c'.arbitrationMember = c.arbitrationMember ∧
      c'.configVersion = c.configVersion := by
  unfold addLearnerListStep at h
  split_ifs at h
  · cases h
    exact ⟨rfl,rfl,rfl⟩
  all_goals
    obtain ⟨l,-,h⟩ := except_bind_eq_ok.mp h
    cases except_pure_eq_ok.mp h
    exact ⟨rfl,rfl,rfl⟩

theorem removeLearnerListStep_frame (h : removeLearnerListStep c args = .ok c') :
    c'.logSyncMemberlist = c.logSyncMemberlist ∧ c'.arbitrationMember = c.arbitrationMember ∧
      c'.configVersion = c.configVersion := by
  unfold removeLearnerListStep at h
  split_ifs at h
  · cases h
    exact ⟨rfl,rfl,rfl⟩
  all_goals
    obtain ⟨l,-,h⟩ := except_bind_eq_ok.mp h
    cases except_pure_eq_ok.mp h
    exact ⟨rfl,rfl,rfl⟩

theorem addMemberListStep_of_not (ht : args.type.isAddMemberList = false)
    (h : addMemberListStep c args = .ok c') : c' = c := by
  simp [addMemberListStep,ht] at h
  exact h.symm

theorem addMemberListStep_of_logSync (ht : args.type.isAddLogSyncMemberList = true)
    (h : addMemberListStep c args = .ok c') :
    c.logSyncMemberlist.addMember (args.server.map ObMember.resetMigrating) =
        .ok c'.logSyncMemberlist ∧
      c'.arbitrationMember = c.arbitrationMember ∧ c'.configVersion = c.configVersion := by
  have hadd : args.type.isAddMemberList = true := by
    simp [LogConfigChangeType.isAddMemberList,ht]
  simp only [addMemberListStep,hadd,ht,Bool.not_true,Bool.false_eq_true,if_false,if_true] at h
  obtain ⟨l,hl,h⟩ := except_bind_eq_ok.mp h
  cases except_pure_eq_ok.mp h
  exact ⟨hl,rfl,rfl⟩

theorem removeMemberListStep_of_not (ht : args.type.isRemoveMemberList = false)
    (h : removeMemberListStep c args = .ok c') : c' = c := by
  simp [removeMemberListStep,ht] at h
  exact h.symm

theorem removeMemberListStep_of_logSync (ht : args.type.isRemoveLogSyncMemberList = true)
    (h : removeMemberListStep c args = .ok c') (hdeg : c.degradedLearnerlist = []) :
    ∃ m, args.server = some m ∧ c.logSyncMemberlist.removeServer m.server = .ok c'.logSyncMemberlist ∧
      c'.arbitrationMember = c.arbitrationMember ∧ c'.configVersion = c.configVersion := by
  have hrem : args.type.isRemoveMemberList = true := by
    simp [LogConfigChangeType.isRemoveMemberList,ht]
  simp only [removeMemberListStep,hrem,ht,Bool.not_true,Bool.false_eq_true,if_false,if_true] at h
  cases hm : args.server with
  | none => simp [hm] at h
  | some m =>
    simp only [hm] at h
    split_ifs at h with hin hdin
    · obtain ⟨l,hl,h⟩ := except_bind_eq_ok.mp h
      cases except_pure_eq_ok.mp h
      exact ⟨m,rfl,hl,rfl,rfl⟩
    · simp [GlobalLearnerList.contains,hdeg] at hdin

end Steps

theorem generateNewConfigInfo_steps {curr : LogConfigInfoV2 Addr} {proposalId now : Int}
    {args : LogConfigChangeArgs Addr} {info : LogConfigInfoV2 Addr}
    (hs : args.type ≠ .startworking) (hf : args.type ≠ .forceSingleMember)
    (h : generateNewConfigInfo_ curr proposalId args now = .ok info) :
    ∃ v c₁ c₂ c₃ c₄ r, curr.config.configVersion.incUpdateVersion proposalId = .ok v ∧
      addMemberListStep { curr.config with configVersion := v } args = .ok c₁ ∧
      removeMemberListStep c₁ args = .ok c₂ ∧ addLearnerListStep c₂ args = .ok c₃ ∧
      removeLearnerListStep c₃ args = .ok c₄ ∧ info.config = { c₄ with logSyncReplicaNum := r } := by
  have hst : (args.type == .startworking) = false := by simpa using hs
  have hfs : (args.type == .forceSingleMember) = false := by simpa using hf
  unfold generateNewConfigInfo_ at h
  simp only [hst,hfs,Bool.false_eq_true,if_false] at h
  split_ifs at h
  obtain ⟨v,hv,h⟩ := except_bind_eq_ok.mp h
  obtain ⟨r,-,h⟩ := except_bind_eq_ok.mp h
  obtain ⟨c₁,h₁,h⟩ := except_bind_eq_ok.mp h
  obtain ⟨c₂,h₂,h⟩ := except_bind_eq_ok.mp h
  obtain ⟨c₃,h₃,h⟩ := except_bind_eq_ok.mp h
  obtain ⟨c₄,h₄,h⟩ := except_bind_eq_ok.mp h
  obtain ⟨lm,-,h⟩ := except_bind_eq_ok.mp h
  split_ifs at h
  cases except_pure_eq_ok.mp h
  exact ⟨v,c₁,c₂,c₃,c₄,r,hv,h₁,h₂,h₃,h₄,rfl⟩

theorem incUpdateVersion_gt {v v' : LogConfigVersion} {proposalId : Int}
    (h : v.incUpdateVersion proposalId = .ok v') : v'.gt v = true := by
  unfold Election.LogConfigVersion.incUpdateVersion at h
  split_ifs at h with hv hp
  cases h
  simp only [not_or,not_lt] at hv hp
  simp only [LogConfigVersion.gt,LogConfigVersion.isValid]
  simp [hv.1,hp.1]
  split_ifs <;> omega

theorem convertToCompleteConfig_of_arb_none {c : LogConfigInfo Addr}
    {p : ObMemberList Addr × Int × List (ObMember Addr)} (harb : c.arbitrationMember = none)
    (h : c.convertToCompleteConfig = .ok p) : p.1 = c.logSyncMemberlist ∧ p.2.1 = c.logSyncReplicaNum := by
  unfold LogConfigInfo.convertToCompleteConfig at h
  split_ifs at h
  obtain ⟨l₁,-,h⟩ := except_bind_eq_ok.mp h
  obtain ⟨l₂,-,h⟩ := except_bind_eq_ok.mp h
  simp only [harb] at h
  cases except_pure_eq_ok.mp h
  exact ⟨rfl,rfl⟩

theorem canMemberlistMajority_iff (n : Nat) (r : Int) :
    canMemberlistMajority_ n r = true ↔ (n : Int) ≤ r ∧ r / 2 + 1 ≤ n := by
  unfold canMemberlistMajority_
  split_ifs <;> simp <;> omega

theorem checkConfigChangeArgs_ok_false {mgr : ConfigChecker Addr} {isCluster4200 : Bool}
    {now : Int} {args : LogConfigChangeArgs Addr}
    (h : checkConfigChangeArgs_ mgr isCluster4200 now args = .ok false) :
    ¬(args.type.isRemoveMemberList = true ∧ args.server.map ObMember.server = some mgr.self) ∧
    ∃ info, generateNewConfigInfo_ mgr.curr mgr.proposalId args now = .ok info ∧
      ∃ p, info.config.convertToCompleteConfig = .ok p ∧
        (p.1.containsServer mgr.self = true →
          info.config.logSyncMemberlist.containsServer mgr.self = true →
          canMemberlistMajority_ info.config.logSyncMemberlist.getMemberNumber
              info.config.logSyncReplicaNum = true ∧
            canMemberlistMajority_ p.1.getMemberNumber p.2.1 = true) := by
  unfold checkConfigChangeArgs_ at h
  dsimp only at h
  split_ifs at h with h₁ h₂ h₃ h₄ h₅
  · obtain ⟨finished,-,h⟩ := except_bind_eq_ok.mp h
    cases finished <;> cases h
  refine ⟨fun ⟨hr,hs⟩ => h₂ (by simp [hr,hs]),?_⟩
  obtain ⟨finished,-,h⟩ := except_bind_eq_ok.mp h
  cases finished
  · simp only [Bool.false_eq_true,if_false] at h
    obtain ⟨info,hinfo,h⟩ := except_bind_eq_ok.mp h
    obtain ⟨⟨l,n,ls⟩,hp,h⟩ := except_bind_eq_ok.mp h
    refine ⟨info,hinfo,(l,n,ls),hp,fun hs₁ hs₂ => ?_⟩
    simp only [hs₁,hs₂,Bool.not_true,Bool.false_or,Bool.false_eq_true,if_false] at h
    split_ifs at h with hmaj
    simpa using hmaj
  · simp [pure,Except.pure] at h

/-! ### Moving one server -/

/-- How a change moves the servers of the log sync member list: one joins, one other than the
server running the check leaves, or none moves. -/
inductive ServerMove (self : Addr) (S T : Finset Addr) : Prop
  | join (x : Addr) (hx : x ∉ S) (hT : T = insert x S)
  | leave (x : Addr) (hx : x ∈ S) (hself : x ≠ self) (hT : T = S.erase x)
  | stay (hT : T = S)

theorem ServerMove.changed_le {self : Addr} {S T : Finset Addr} (h : ServerMove self S T) :
    Lib.changed S T ≤ 1 := by
  cases h with
  | join x hx hT => rw [hT,Lib.changed_insert hx]
  | leave x hx _ hT => rw [hT,Lib.changed_erase hx]
  | stay hT => simp [hT]

theorem ServerMove.self_mem {self : Addr} {S T : Finset Addr} (h : ServerMove self S T)
    (hs : self ∈ S) : self ∈ T := by
  cases h with
  | join x _ hT => exact hT ▸ Finset.mem_insert_of_mem hs
  | leave x _ hself hT => exact hT ▸ Finset.mem_erase.mpr ⟨hself.symm,hs⟩
  | stay hT => exact hT ▸ hs

/-- The change types that move a member of the log sync member list, or none: `ADD_MEMBER`,
`ADD_MEMBER_AND_NUM`, `REMOVE_MEMBER`, `REMOVE_MEMBER_AND_NUM`, `CHANGE_REPLICA_NUM`, the two
`SWITCH_LEARNER_TO_ACCEPTOR` types, `SWITCH_ACCEPTOR_TO_LEARNER` and the learner changes. -/
def memberChangeTypes : List LogConfigChangeType :=
  [.addMember,.addMemberAndNum,.removeMember,.removeMemberAndNum,.changeReplicaNum,
    .switchLearnerToAcceptor,.switchLearnerToAcceptorAndNum,.switchAcceptorToLearner,
    .addLearner,.removeLearner,.replaceLearners]

theorem memberChangeTypes_cases {t : LogConfigChangeType} (h : t ∈ memberChangeTypes) :
    t ≠ .startworking ∧ t ≠ .forceSingleMember ∧
      ((t.isAddLogSyncMemberList = true ∧ t.isRemoveMemberList = false) ∨
        (t.isAddMemberList = false ∧ t.isRemoveLogSyncMemberList = true) ∨
        (t.isAddMemberList = false ∧ t.isRemoveMemberList = false)) := by
  simp only [memberChangeTypes,List.mem_cons,List.not_mem_nil,or_false] at h
  rcases h with rfl | rfl | rfl | rfl | rfl | rfl | rfl | rfl | rfl | rfl | rfl <;> decide

theorem generateNewConfigInfo_move {mgr : ConfigChecker Addr} {args : LogConfigChangeArgs Addr}
    {now : Int} {info : LogConfigInfoV2 Addr} (htype : args.type ∈ memberChangeTypes)
    (harb : mgr.curr.config.arbitrationMember = none) (hdeg : mgr.curr.config.degradedLearnerlist = [])
    (hleader : ¬(args.type.isRemoveMemberList = true ∧ args.server.map ObMember.server = some mgr.self))
    (h : generateNewConfigInfo_ mgr.curr mgr.proposalId args now = .ok info) :
    ServerMove mgr.self mgr.curr.config.logSyncMemberlist.servers
        info.config.logSyncMemberlist.servers ∧
      info.config.arbitrationMember = none ∧
      info.config.configVersion.gt mgr.curr.config.configVersion = true := by
  obtain ⟨hs,hf,hgroup⟩ := memberChangeTypes_cases htype
  obtain ⟨v,c₁,c₂,c₃,c₄,r,hv,h₁,h₂,h₃,h₄,hinfo⟩ := generateNewConfigInfo_steps hs hf h
  obtain ⟨hl₃,ha₃,hv₃⟩ := addLearnerListStep_frame h₃
  obtain ⟨hl₄,ha₄,hv₄⟩ := removeLearnerListStep_frame h₄
  rw [hinfo]
  simp only [hl₄,hl₃,ha₄,ha₃,hv₄,hv₃]
  rcases hgroup with ⟨hadd,hrem⟩ | ⟨hadd,hrem⟩ | ⟨hadd,hrem⟩
  · obtain ⟨hl₁,ha₁,hv₁⟩ := addMemberListStep_of_logSync hadd h₁
    cases removeMemberListStep_of_not hrem h₂
    obtain ⟨x,-,hnot,hT⟩ := ObMemberList.servers_of_addMember hl₁
    refine ⟨.join _ hnot hT,ha₁.trans harb,?_⟩
    rw [hv₁]
    exact incUpdateVersion_gt hv
  · cases addMemberListStep_of_not hadd h₁
    obtain ⟨m,hm,hl₂,ha₂,hv₂⟩ := removeMemberListStep_of_logSync hrem h₂ hdeg
    obtain ⟨hin,hT⟩ := ObMemberList.servers_of_removeServer hl₂
    have hself : m.server ≠ mgr.self := fun heq =>
      hleader ⟨by simp [LogConfigChangeType.isRemoveMemberList,hrem],by simp [hm,heq]⟩
    refine ⟨.leave _ hin hself hT,ha₂.trans harb,?_⟩
    rw [hv₂]
    exact incUpdateVersion_gt hv
  · cases addMemberListStep_of_not hadd h₁
    cases removeMemberListStep_of_not hrem h₂
    exact ⟨.stay rfl,harb,incUpdateVersion_gt hv⟩

/-! ### Quorums across the change -/

/-- A change of one of these types that the check accepts, not already done, on a configuration
without an arbitration member or degraded learners whose member list does not exceed its replica
number and holds the server running the check: the configuration built moves one server at most,
keeps its member list within its replica number and able to reach a majority of it, carries a
newer config version, and every majority of the old replica number among the old members meets
every majority of the new one among the new members. -/
theorem reconfiguration_keeps_quorums_intersecting (mgr : ConfigChecker Addr) (isCluster4200 : Bool)
    (now : Int) (args : LogConfigChangeArgs Addr) (htype : args.type ∈ memberChangeTypes)
    (hself : mgr.self ∈ mgr.curr.config.logSyncMemberlist.servers)
    (harb : mgr.curr.config.arbitrationMember = none)
    (hdeg : mgr.curr.config.degradedLearnerlist = [])
    (hnr : (mgr.curr.config.logSyncMemberlist.getMemberNumber : Int) ≤
      mgr.curr.config.logSyncReplicaNum)
    (hok : checkConfigChangeArgs_ mgr isCluster4200 now args = .ok false) :
    ∃ info, generateNewConfigInfo_ mgr.curr mgr.proposalId args now = .ok info ∧
      (mgr.curr.config.logSyncMemberlist.servers \ info.config.logSyncMemberlist.servers).card +
          (info.config.logSyncMemberlist.servers \ mgr.curr.config.logSyncMemberlist.servers).card ≤ 1 ∧
      (info.config.logSyncMemberlist.getMemberNumber : Int) ≤ info.config.logSyncReplicaNum ∧
      info.config.logSyncReplicaNum / 2 + 1 ≤ info.config.logSyncMemberlist.getMemberNumber ∧
      info.config.configVersion.gt mgr.curr.config.configVersion = true ∧
      ∀ A B : Finset Addr, A ⊆ mgr.curr.config.logSyncMemberlist.servers →
        (A.card : Int) = mgr.curr.config.logSyncReplicaNum / 2 + 1 →
        B ⊆ info.config.logSyncMemberlist.servers →
        (B.card : Int) = info.config.logSyncReplicaNum / 2 + 1 → (A ∩ B).Nonempty := by
  obtain ⟨hleader,info,hgen,p,hp,hmaj⟩ := checkConfigChangeArgs_ok_false hok
  obtain ⟨hmove,harb',hver⟩ := generateNewConfigInfo_move htype harb hdeg hleader hgen
  obtain ⟨hp₁,-⟩ := convertToCompleteConfig_of_arb_none harb' hp
  have hin : info.config.logSyncMemberlist.containsServer mgr.self = true :=
    (ObMemberList.containsServer_iff _ _).mpr (hmove.self_mem hself)
  obtain ⟨hle',hge'⟩ := (canMemberlistMajority_iff _ _).mp (hmaj (hp₁ ▸ hin) hin).1
  refine ⟨info,hgen,hmove.changed_le,hle',hge',hver,fun A B hA hAc hB hBc => ?_⟩
  apply Lib.majorities_inter_nonempty hA hB _ _ hmove.changed_le
  · rw [ObMemberList.card_servers]
    omega
  · rw [ObMemberList.card_servers]
    omega

def memberAt (s : Nat) : ObMember Nat := ⟨s,1,false⟩

/-- Members on servers 1, 2 and 3 with replica number 3, at config version (1, 0), unlocked. -/
def threeMemberConfig : LogConfigInfoV2 Nat :=
  ⟨logConfigInfoVersion,
    ⟨⟨[memberAt 1,memberAt 2,memberAt 3],by decide⟩,3,none,[],[],⟨1,0⟩⟩,
    ⟨logLockMetaVersion,obInvalidConfigChangeLockOwner,lockNothing,obInvalidTimestamp⟩⟩

def addFourthMember : LogConfigChangeArgs Nat :=
  ⟨some (memberAt 4),ObMemberList.empty,0,4,⟨1,0⟩,obInvalidConfigChangeLockOwner,lockNothing,
    .addMember,ObMemberList.empty,ObMemberList.empty⟩

theorem reconfiguration_keeps_quorums_intersecting_add :
    ∃ info, generateNewConfigInfo_ threeMemberConfig 1 addFourthMember 0 = .ok info ∧
      info.config.configVersion.gt threeMemberConfig.config.configVersion = true := by
  obtain ⟨info,hgen,-,-,-,hver,-⟩ := reconfiguration_keeps_quorums_intersecting
    ⟨1,threeMemberConfig,1⟩ true 0 addFourthMember (by decide) (by decide) rfl rfl (by decide)
    (by decide)
  exact ⟨info,hgen,hver⟩

end Palf
end OceanBase
