import Mathlib
import OceanBase.Palf.ElectionAcceptor
import OceanBase.Palf.ElectionPriority

/-! How an acceptor chooses the request it votes for (`ElectionImpl::is_rhs_message_higher_`
in `election_impl.h` and the vote counting of `ElectionAcceptor::on_prepare_request`).

While its time window is open, an acceptor keeps the request of highest priority among those of
the window's ballot, and votes for it when the window closes. A request ranks by its membership
version, then by its priority seed, then by whether it carries a priority, then by that priority
(`PriorityV1::compare`), and last by its sender. Where the priorities' SCNs are separated and
their blacklist reasons print, that ranking is a strict total order, and the request kept does
not depend on the order the requests arrived in. -/
namespace OceanBase
namespace Palf
namespace Election

open Lib

structure LogConfigVersion where
  proposalId : Int
  configSeq : Int
  deriving DecidableEq, Repr

namespace LogConfigVersion

def isValid (v : LogConfigVersion) : Bool :=
  decide (v.proposalId ≠ (invalidProposalId : Int) ∧ 0 ≤ v.configSeq)

/-- `LogConfigVersion::operator>`: an invalid version is above nothing, and a valid one is above
every invalid one. -/
def gt (a b : LogConfigVersion) : Bool :=
  if a.isValid ∧ b.isValid then
    decide (a.proposalId > b.proposalId ∨ (a.proposalId = b.proposalId ∧ a.configSeq > b.configSeq))
  else if !a.isValid then false
  else true

def lt (a b : LogConfigVersion) : Bool :=
  if a.isValid ∧ b.isValid then
    decide (a.proposalId < b.proposalId ∨ (a.proposalId = b.proposalId ∧ a.configSeq < b.configSeq))
  else if !b.isValid then false
  else true

end LogConfigVersion

variable {Addr : Type}

/-- `ElectionPrepareRequestMsg` with what the vote choice reads beside the sender, ballot and
role: whether the message is valid, its membership version, its priority seed, and the
`PriorityV1` its buffer holds (`none` when `is_buffer_valid_` is false). -/
structure PrepareRequest (Addr : Type) where
  msg : ElectionPrepareRequestMsg Addr
  isValid : Bool
  membershipVersion : LogConfigVersion
  innerPrioritySeed : Nat
  priority : Option PriorityV1
  deriving DecidableEq, Repr

/-- `is_rhs_message_higher_`. `canCompare` is false when the election has no priority of its own
or has seen no cluster version; then only the senders tell two priorities apart. A comparison
that fails leaves the cached request in place. -/
def isRhsMessageHigher_ [LT Addr] [DecidableLT Addr] (lhs rhs : PrepareRequest Addr)
    (decentralizedVoting canCompare : Bool) : Bool :=
  if !rhs.isValid then false
  else if !lhs.isValid then true
  else if lhs.membershipVersion.gt rhs.membershipVersion then false
  else if lhs.membershipVersion.lt rhs.membershipVersion then true
  else if lhs.innerPrioritySeed < rhs.innerPrioritySeed then false
  else if lhs.innerPrioritySeed > rhs.innerPrioritySeed then true
  else match lhs.priority, rhs.priority with
    | none, some _ => true
    | none, none => decentralizedVoting && decide (rhs.msg.sender < lhs.msg.sender)
    | some _, none => false
    | some lp, some rp =>
      if !canCompare then decentralizedVoting && decide (rhs.msg.sender < lhs.msg.sender)
      else match compareWith lp rp decentralizedVoting with
        | .error _ => false
        | .ok compareResult =>
          if compareResult < 0 then true
          else if compareResult = 0 ∧ decentralizedVoting then decide (rhs.msg.sender < lhs.msg.sender)
          else false

/-- The decision of `on_prepare_request` whether `req`, of the window's ballot, replaces the
cached request: an invalid cached request is replaced, a larger membership version replaces, a
smaller one does not, and otherwise `is_rhs_message_higher_` with decentralized voting decides. -/
def prepareReplaces [LT Addr] [DecidableLT Addr] (canCompare : Bool)
    (cached req : PrepareRequest Addr) : Bool :=
  if !cached.isValid then true
  else if req.membershipVersion.gt cached.membershipVersion then true
  else if req.membershipVersion.lt cached.membershipVersion then false
  else isRhsMessageHigher_ cached req true canCompare

/-- The vote counting of `on_prepare_request` on the full cached request, `none` before the first
request of the window. -/
def countVote [LT Addr] [DecidableLT Addr] (canCompare : Bool) :
    Option (PrepareRequest Addr) → PrepareRequest Addr → Option (PrepareRequest Addr) :=
  pick (prepareReplaces canCompare)

/-- The acceptor after the candidates' requests `reqs`: each goes to `on_prepare_request`, whose
decision is taken on the full cached request `cached`, kept beside the acceptor state. -/
def windowRun [LT Addr] [DecidableLT Addr] (canCompare : Bool) :
    ElectionAcceptor Addr → Option (PrepareRequest Addr) → List (PrepareRequest Addr) →
      ElectionAcceptor Addr
  | acc, _, [] => acc
  | acc, cached, req :: reqs =>
    windowRun canCompare
      (acc.onCandidatePrepare req.msg (cached.all fun c => prepareReplaces canCompare c req))
      (countVote canCompare cached req) reqs

/-! ### The ranking of requests -/

namespace LogConfigVersion

def cmp (a b : LogConfigVersion) : Int := if a.gt b then 1 else if a.lt b then -1 else 0

theorem cmp_eq_guardCmp (a b : LogConfigVersion) :
    cmp a b = guardCmp isValid (cmpBy fun v => toLex (v.proposalId,v.configSeq)) a b := by
  unfold cmp gt lt guardCmp cmpBy
  cases hva : a.isValid <;> cases hvb : b.isValid
  · simp
  · simp
  · simp
  · simp only [and_self,if_true,decide_eq_true_eq,toLex_inj,Prod.mk.injEq,
      Prod.Lex.toLex_lt_toLex]
    split_ifs <;> omega

theorem totalPreorderOn_cmp (s : Set LogConfigVersion) : TotalPreorderOn cmp s :=
  ((totalPreorderOn_cmpBy _ _).guardCmp).congr fun a _ b _ => cmp_eq_guardCmp a b

theorem gt_eq_decide (a b : LogConfigVersion) : a.gt b = decide (0 < cmp a b) := by
  unfold cmp
  cases a.gt b <;> cases a.lt b <;> simp

theorem lt_eq_decide (a b : LogConfigVersion) : a.lt b = decide (cmp a b < 0) := by
  have hboth : ¬ (a.gt b = true ∧ a.lt b = true) := by
    unfold gt lt
    cases a.isValid <;> cases b.isValid <;> simp
    omega
  unfold cmp
  cases hgt : a.gt b <;> cases hlt : a.lt b <;> simp_all

theorem cmp_swap (a b : LogConfigVersion) : cmp b a = -cmp a b :=
  (totalPreorderOn_cmp Set.univ).antisymm a trivial b trivial

end LogConfigVersion

/-- The ranking `is_rhs_message_higher_` makes of requests with decentralized voting, as a chain
of comparisons: membership version, priority seed (the smaller ranks higher), whether the
request carries a priority, and the priorities. Ties go to the smaller sender (`Above`). -/
def requestCmp (canCompare : Bool) : PrepareRequest Addr → PrepareRequest Addr → Int :=
  firstCmp [fun l r => LogConfigVersion.cmp l.membershipVersion r.membershipVersion,
    fun l r => cmpFewer l.innerPrioritySeed r.innerPrioritySeed,
    cmpBy fun m => m.priority.isSome,
    fun l r => match l.priority, r.priority with
      | some lp, some rp => if canCompare then guardCmp PriorityV1.isValid (firstCmp PriorityV1.criteria) lp rp else 0
      | _, _ => 0]

theorem isRhsMessageHigher_iff_above [LinearOrder Addr] (canCompare : Bool)
    {l r : PrepareRequest Addr} (hl : l.isValid = true) (hr : r.isValid = true)
    (hlf : ∀ p, l.priority = some p → p.blacklistReasonFits = true)
    (hrf : ∀ p, r.priority = some p → p.blacklistReasonFits = true) :
    isRhsMessageHigher_ l r true canCompare = true ↔
      Above (requestCmp canCompare) (fun m => m.msg.sender) l r := by
  simp only [requestCmp,firstCmp,above_thenCmp,above_zero]
  unfold isRhsMessageHigher_
  simp only [hl,hr,Bool.not_true,Bool.false_eq_true,if_false,LogConfigVersion.gt_eq_decide,
    LogConfigVersion.lt_eq_decide,decide_eq_true_eq]
  rcases lt_trichotomy (LogConfigVersion.cmp l.membershipVersion r.membershipVersion) 0 with
    hv | hv | hv
  · simp [hv,not_lt.mpr hv.le]
  swap
  · simp [hv,hv.ne',not_lt.mpr hv.le]
  simp only [hv,lt_irrefl,if_false,true_and,false_or]
  unfold cmpFewer
  rcases lt_trichotomy l.innerPrioritySeed r.innerPrioritySeed with hs | hs | hs
  · simp [hs,hs.ne]
  swap
  · simp [hs,hs.ne',not_lt.mpr hs.le]
  simp only [hs,lt_irrefl,if_false,if_true,true_and,false_or]
  cases hlp : l.priority with
  | none =>
    cases hrp : r.priority <;> simp [cmpBy,hlp,hrp,show ¬ (true < false) by decide]
  | some lp =>
    cases hrp : r.priority with
    | none => simp [cmpBy,hlp,hrp]
    | some rp =>
      cases canCompare
      · simp [cmpBy,hlp,hrp]
      · simp [cmpBy,hlp,hrp,PriorityV1.compareWith_of_fits (hlf lp hlp) (hrf rp hrp)]

theorem totalPreorderOn_requestCmp (canCompare : Bool) {S : Set (PrepareRequest Addr)}
    (hprio : ∀ m ∈ S, m.priority.isSome = true)
    (hscn : TotalPreorderOn PriorityV1.compareScn_ {p | p.isValid = true ∧ ∃ m ∈ S, m.priority = some p}) :
    TotalPreorderOn (requestCmp canCompare) S := by
  refine TotalPreorderOn.firstCmp fun c hc => ?_
  simp only [List.mem_cons,List.not_mem_nil,or_false] at hc
  rcases hc with rfl | rfl | rfl | rfl
  · exact (LogConfigVersion.totalPreorderOn_cmp Set.univ).comap fun _ _ => trivial
  · exact totalPreorderOn_cmpFewer _ S
  · exact totalPreorderOn_cmpBy _ S
  have hsome : ∀ m ∈ S, m.priority = some (m.priority.getD default) := fun m hm => by
    obtain ⟨p,hp⟩ := Option.isSome_iff_exists.mp (hprio m hm)
    simp [hp]
  cases canCompare
  · refine (totalPreorderOn_zero S).congr fun l hl r hr => ?_
    rw [hsome l hl,hsome r hr]
    rfl
  · have hT : TotalPreorderOn (guardCmp PriorityV1.isValid (firstCmp PriorityV1.criteria))
        {p | ∃ m ∈ S, m.priority = some p} :=
      (PriorityV1.totalPreorderOn_criteria (hscn.mono fun p hp => ⟨hp.2,hp.1⟩)).guardCmp
    refine (hT.comap (f := fun m => m.priority.getD default) fun m hm => ⟨m,hm,hsome m hm⟩).congr
      fun l hl r hr => ?_
    rw [hsome l hl,hsome r hr]
    rfl

theorem fits_of_mem {S : Set (PrepareRequest Addr)}
    (hprio : ∀ m ∈ S, ∃ p, m.priority = some p ∧ p.blacklistReasonFits = true) {m : PrepareRequest Addr}
    (hm : m ∈ S) : ∀ p, m.priority = some p → p.blacklistReasonFits = true := by
  obtain ⟨q,hq,hf⟩ := hprio m hm
  intro p hp
  rw [hq,Option.some.injEq] at hp
  exact hp ▸ hf

theorem strictTotalOn_isRhsMessageHigher_ [LinearOrder Addr] (canCompare : Bool)
    {S : Set (PrepareRequest Addr)} (hvalid : ∀ m ∈ S, m.isValid = true)
    (hprio : ∀ m ∈ S, ∃ p, m.priority = some p ∧ p.blacklistReasonFits = true)
    (hsender : Set.InjOn (fun m : PrepareRequest Addr => m.msg.sender) S)
    (hscn : TotalPreorderOn PriorityV1.compareScn_ {p | p.isValid = true ∧ ∃ m ∈ S, m.priority = some p}) :
    StrictTotalOn (fun l r => isRhsMessageHigher_ l r true canCompare = true) S := by
  have hsome : ∀ m ∈ S, m.priority.isSome = true := fun m hm => by
    obtain ⟨p,hp,-⟩ := hprio m hm
    simp [hp]
  exact ((totalPreorderOn_requestCmp canCompare hsome hscn).strictTotalOn_above hsender).congr
    fun l hl r hr => isRhsMessageHigher_iff_above canCompare (hvalid l hl) (hvalid r hr)
      (fits_of_mem hprio hl) (fits_of_mem hprio hr)

theorem prepareReplaces_eq_isRhsMessageHigher_ [LinearOrder Addr] (canCompare : Bool)
    {c r : PrepareRequest Addr} (hc : c.isValid = true) (hr : r.isValid = true) :
    prepareReplaces canCompare c r = isRhsMessageHigher_ c r true canCompare := by
  unfold prepareReplaces isRhsMessageHigher_
  simp only [hc,hr,Bool.not_true,Bool.false_eq_true,if_false,LogConfigVersion.gt_eq_decide,
    LogConfigVersion.lt_eq_decide,decide_eq_true_eq]
  have hswap := LogConfigVersion.cmp_swap c.membershipVersion r.membershipVersion
  rcases lt_trichotomy (LogConfigVersion.cmp c.membershipVersion r.membershipVersion) 0 with
    h | h | h
  · simp [hswap,h,not_lt.mpr h.le]
  · simp [hswap,h]
  · simp [hswap,h,not_lt.mpr h.le]

/-! ### The window run -/

theorem onCandidatePrepare_of_window (acc : ElectionAcceptor Addr)
    (req : ElectionPrepareRequestMsg Addr) (replace : Bool) (hopen : acc.isTimeWindowOpened = true)
    (hb : req.ballotNumber = acc.ballotOfTimeWindow) :
    acc.onCandidatePrepare req replace =
      { acc with highestPriorityPrepareReq := pick (fun _ _ => replace) acc.highestPriorityPrepareReq req } := by
  obtain ⟨bn,botw,opened,highest⟩ := acc
  simp only at hopen hb
  subst hopen hb
  cases highest <;> cases replace <;> simp [ElectionAcceptor.onCandidatePrepare,pick]

theorem windowRun_eq [LT Addr] [DecidableLT Addr] (canCompare : Bool) (reqs : List (PrepareRequest Addr)) :
    ∀ (acc : ElectionAcceptor Addr) (cached : Option (PrepareRequest Addr)),
      acc.isTimeWindowOpened = true → acc.highestPriorityPrepareReq = cached.map PrepareRequest.msg →
      (∀ m ∈ reqs, m.msg.ballotNumber = acc.ballotOfTimeWindow) →
      windowRun canCompare acc cached reqs =
        { acc with highestPriorityPrepareReq := (reqs.foldl (countVote canCompare) cached).map PrepareRequest.msg } := by
  induction reqs with
  | nil =>
    intro acc cached _ hcache _
    rw [List.foldl_nil,← hcache]
    rfl
  | cons req reqs ih =>
    intro acc cached hopen hcache hb
    rw [windowRun,onCandidatePrepare_of_window _ _ _ hopen (hb req (List.mem_cons_self ..)),List.foldl_cons]
    refine ih _ _ hopen ?_ fun m hm => hb m (List.mem_cons_of_mem _ hm)
    rw [hcache]
    cases cached <;> simp [countVote,pick,apply_ite (Option.map PrepareRequest.msg)]

theorem vote_choice_order_independent [LinearOrder Addr] (canCompare : Bool) (S : Set (PrepareRequest Addr))
    (hvalid : ∀ m ∈ S, m.isValid = true)
    (hprio : ∀ m ∈ S, ∃ p, m.priority = some p ∧ p.blacklistReasonFits = true)
    (hsender : Set.InjOn (fun m : PrepareRequest Addr => m.msg.sender) S)
    (hscn : PriorityV1.ScnsSeparated {p | p.isValid = true ∧ ∃ m ∈ S, m.priority = some p}) :
    StrictTotalOn (fun l r => isRhsMessageHigher_ l r true canCompare = true) S ∧
      ∀ (acc : ElectionAcceptor Addr) (reqs₁ reqs₂ : List (PrepareRequest Addr)),
        acc.isTimeWindowOpened = true → acc.highestPriorityPrepareReq = none → reqs₁.Perm reqs₂ →
        (∀ m ∈ reqs₁, m ∈ S ∧ m.msg.ballotNumber = acc.ballotOfTimeWindow) →
        windowRun canCompare acc none reqs₁ = windowRun canCompare acc none reqs₂ := by
  have hord := strictTotalOn_isRhsMessageHigher_ canCompare hvalid hprio hsender
    (PriorityV1.totalPreorderOn_compareScn_ hscn)
  refine ⟨hord,fun acc reqs₁ reqs₂ hopen hnone hperm hreqs => ?_⟩
  have hrep : StrictTotalOn (fun c r => prepareReplaces canCompare c r = true) S :=
    hord.congr fun c hc r hr => by
      rw [prepareReplaces_eq_isRhsMessageHigher_ canCompare (hvalid c hc) (hvalid r hr)]
  have hreqs₂ : ∀ m ∈ reqs₂, m.msg.ballotNumber = acc.ballotOfTimeWindow :=
    fun m hm => (hreqs m (hperm.mem_iff.mpr hm)).2
  rw [windowRun_eq canCompare reqs₁ acc none hopen hnone fun m hm => (hreqs m hm).2,
    windowRun_eq canCompare reqs₂ acc none hopen hnone hreqs₂]
  simp only [countVote]
  rw [foldl_pick_perm hrep hperm fun m hm => (hreqs m hm).1]

def runningPriority (scn : Nat) : PriorityV1 :=
  ⟨true,false,false,false,0,true,0,scn,false,"",false,0⟩

/-- The request of candidate `sender` for ballot 5, carrying `runningPriority scn`. -/
def candidateRequest (sender scn : Nat) : PrepareRequest Nat :=
  ⟨⟨sender,5,.follower⟩,true,⟨1,0⟩,0,some (runningPriority scn)⟩

def openWindow : ElectionAcceptor Nat := ⟨4,5,true,none⟩

theorem vote_choice_order_independent_separated :
    windowRun true openWindow none
        [candidateRequest 1 1000000000,candidateRequest 2 5000000000,candidateRequest 3 9000000000] =
      windowRun true openWindow none
        [candidateRequest 3 9000000000,candidateRequest 1 1000000000,candidateRequest 2 5000000000] := by
  refine (vote_choice_order_independent true
    {candidateRequest 1 1000000000,candidateRequest 2 5000000000,candidateRequest 3 9000000000}
    ?_ ?_ ?_ ?_).2 openWindow _ _ rfl rfl (by decide) ?_
  · simp only [Set.mem_insert_iff,Set.mem_singleton_iff,forall_eq_or_imp,forall_eq]
    decide
  · simp only [Set.mem_insert_iff,Set.mem_singleton_iff,forall_eq_or_imp,forall_eq]
    exact ⟨⟨_,rfl,by decide⟩,⟨_,rfl,by decide⟩,⟨_,rfl,by decide⟩⟩
  · intro x hx y hy hxy
    simp only [Set.mem_insert_iff,Set.mem_singleton_iff] at hx hy
    rcases hx with rfl | rfl | rfl <;> rcases hy with rfl | rfl | rfl <;>
      first | rfl | exact absurd hxy (by decide)
  · intro a ha b hb hne
    obtain ⟨-,m,hm,hp⟩ := ha
    obtain ⟨-,m',hm',hp'⟩ := hb
    simp only [Set.mem_insert_iff,Set.mem_singleton_iff] at hm hm'
    rcases hm with rfl | rfl | rfl <;> rcases hm' with rfl | rfl | rfl <;>
      simp only [candidateRequest,Option.some.injEq] at hp hp' <;> subst hp hp' <;>
      first | exact absurd rfl hne | decide
  · intro m hm
    simp only [List.mem_cons,List.not_mem_nil,or_false] at hm
    rcases hm with rfl | rfl | rfl <;> exact ⟨by simp,rfl⟩

def blacklistedRequest (sender scn : Nat) (reason : String) : PrepareRequest Nat :=
  ⟨⟨sender,5,.follower⟩,true,⟨1,0⟩,0,
    some ⟨true,false,false,false,0,true,0,scn,true,reason,false,0⟩⟩

theorem vote_choice_depends_on_arrival :
    (isRhsMessageHigher_ (candidateRequest 1 1000000000) (candidateRequest 3 4000000000) true true ∧
      isRhsMessageHigher_ (candidateRequest 2 2500000000) (candidateRequest 1 1000000000) true true ∧
      isRhsMessageHigher_ (candidateRequest 3 4000000000) (candidateRequest 2 2500000000) true true) ∧
    windowRun true openWindow none
        [candidateRequest 1 1000000000,candidateRequest 2 2500000000,candidateRequest 3 4000000000] ≠
      windowRun true openWindow none
        [candidateRequest 2 2500000000,candidateRequest 3 4000000000,candidateRequest 1 1000000000] ∧
    windowRun true openWindow none [candidateRequest 1 1000000000,
        blacklistedRequest 2 1000000000 "removed from the election by the migration of rs 01"] ≠
      windowRun true openWindow none [blacklistedRequest 2 1000000000
        "removed from the election by the migration of rs 01",candidateRequest 1 1000000000] := by
  decide

end Election
end Palf
end OceanBase
