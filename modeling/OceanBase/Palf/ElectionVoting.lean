import OceanBase.Palf.ElectionProposer
import OceanBase.Lib.Run

/-! The election as a system: every replica runs an acceptor and a proposer over one member
list, and the network delivers any message sent earlier, any number of times and in any
order. A run is any sequence of events at the replicas: message deliveries, timer firings, and
the role changes and change-leader calls the leases drive.

Voting safety rests on two facts: an acceptor votes only while raising its ballot, so at most
once per ballot; and a proposer's `prepare_ok_` holds only votes for its current ballot. A
majority for a ballot is then unique, as two majorities of one member list share a voter. -/
namespace OceanBase
namespace Palf
namespace Election

variable {Addr : Type} [DecidableEq Addr]

structure ElectionServer (Addr : Type) where
  acceptor : ElectionAcceptor Addr
  proposer : ElectionProposer Addr

/-- What can happen at a replica. The Boolean arguments are what the handler reads from its
clocks and leases, and from the priority comparison. -/
inductive ElectionEvent (Addr : Type)
  | acceptorPrepareRequest (req : ElectionPrepareRequestMsg Addr) (replace : Bool)
  | acceptorTimeWindowTask (canVote : Bool)
  | acceptorAcceptRequest (sender : Addr) (ballotNumber : Int)
  | proposerPrepare (role : ObRole)
  | proposerPrepareRequest (req : ElectionPrepareRequestMsg Addr)
  | proposerPrepareResponse (sender : Addr) (ballotNumber : Int) (accepted leaseOk isLeader : Bool)
  | proposerAcceptResponse (sender : Addr) (ballotNumber : Int) (accepted isLeader : Bool)
  | proposerRenewLease
  | proposerChangeLeaderTo (dst : Addr)
  | proposerChangeLeader (sender : Addr) (ballotNumber oldBallotNumber : Int)
  | proposerRoleChange (role : ObRole)

/-- The message an event at `self` delivers: a request from anyone, a response or a
change-leader message addressed to `self`. -/
def ElectionEvent.delivered (self : Addr) : ElectionEvent Addr → Option (ElectionMsg Addr)
  | .acceptorPrepareRequest req _ => some (.prepareRequest req)
  | .acceptorAcceptRequest s b => some (.acceptRequest s b)
  | .proposerPrepareRequest req => some (.prepareRequest req)
  | .proposerPrepareResponse s b accepted _ _ => some (.prepareResponse s self b accepted)
  | .proposerAcceptResponse s b accepted _ => some (.acceptResponse s self b accepted)
  | .proposerChangeLeader s b old => some (.changeLeader s self b old)
  | _ => none

namespace ElectionServer

/-- The handler an event runs at replica `self`: the new replica, what it sends, and whether
`record_prepare_ok` reached the majority. -/
def handle (members : List Addr) (replicaNum : Nat) (self : Addr) (srv : ElectionServer Addr) :
    ElectionEvent Addr → ElectionServer Addr × List (ElectionMsg Addr) × Bool
  | .acceptorPrepareRequest req replace =>
    let r := srv.acceptor.onPrepareRequest self req replace
    ({ srv with acceptor := r.1 },r.2,false)
  | .acceptorTimeWindowTask canVote =>
    let r := srv.acceptor.onTimeWindowTask self canVote
    ({ srv with acceptor := r.1 },r.2,false)
  | .acceptorAcceptRequest s b =>
    let r := srv.acceptor.onAcceptRequest self s b
    ({ srv with acceptor := r.1 },r.2,false)
  | .proposerPrepare role =>
    let r := ElectionProposer.prepare self srv.proposer role
    ({ srv with proposer := r.1 },r.2,false)
  | .proposerPrepareRequest req =>
    let r := srv.proposer.onPrepareRequest self req
    ({ srv with proposer := r.1 },r.2,false)
  | .proposerPrepareResponse s b accepted leaseOk isLeader =>
    let r := srv.proposer.onPrepareResponse members replicaNum self s b accepted leaseOk isLeader
    ({ srv with proposer := r.1 },r.2.1,r.2.2)
  | .proposerAcceptResponse _ b accepted isLeader =>
    let r := srv.proposer.onAcceptResponse self b accepted isLeader
    ({ srv with proposer := r.1 },r.2,false)
  | .proposerRenewLease =>
    let r := srv.proposer.renewLease self
    ({ srv with proposer := r.1 },r.2,false)
  | .proposerChangeLeaderTo dst =>
    let r := srv.proposer.innerChangeLeaderTo self dst
    ({ srv with proposer := r.1 },r.2,false)
  | .proposerChangeLeader s b old =>
    let r := srv.proposer.onChangeLeader self s b old
    ({ srv with proposer := r.1 },r.2,false)
  | .proposerRoleChange role => ({ srv with proposer := { srv.proposer with role := role } },[],false)

end ElectionServer

/-- All replicas, every message sent so far, and a ghost record of each majority reached: the
proposer and its ballot. -/
structure ElectionWorld (Addr : Type) where
  servers : Addr → ElectionServer Addr
  sent : List (ElectionMsg Addr)
  majorities : List (Addr × Int)

namespace ElectionWorld

def init : ElectionWorld Addr := ⟨fun _ => ⟨ElectionAcceptor.init,ElectionProposer.init⟩,[],[]⟩

def act (members : List Addr) (replicaNum : Nat) (w : ElectionWorld Addr) (self : Addr)
    (ev : ElectionEvent Addr) : ElectionWorld Addr :=
  let r := (w.servers self).handle members replicaNum self ev
  { servers := Function.update w.servers self r.1
    sent := w.sent ++ r.2.1
    majorities := if r.2.2 then w.majorities ++ [(self,r.1.proposer.ballotNumber)] else w.majorities }

end ElectionWorld

def electionStep (members : List Addr) (replicaNum : Nat) (w : ElectionWorld Addr)
    (e : Addr × ElectionEvent Addr) : Option (ElectionWorld Addr) :=
  some (w.act members replicaNum e.1 e.2)

def Delivers (w : ElectionWorld Addr) (e : Addr × ElectionEvent Addr) : Prop :=
  match e.2.delivered e.1 with
  | none => True
  | some m => m ∈ w.sent

instance (w : ElectionWorld Addr) (e : Addr × ElectionEvent Addr) : Decidable (Delivers w e) := by
  unfold Delivers
  split <;> infer_instance

/-! ## What one event does -/

theorem handle_cases (members : List Addr) (replicaNum : Nat) (self : Addr) (srv : ElectionServer Addr)
    (ev : ElectionEvent Addr) :
    let r := srv.handle members replicaNum self ev
    (r.1.proposer = srv.proposer ∧ r.2.2 = false ∧
        srv.acceptor.ballotNumber ≤ r.1.acceptor.ballotNumber ∧
        ElectionAcceptor.VotesRaise self srv.acceptor r.1.acceptor r.2.1 ∧ VotesFrom self r.2.1) ∨
      (r.1.acceptor = srv.acceptor ∧ ElectionProposer.NoVotes r.2.1 ∧
        (ElectionProposer.Keeps srv.proposer r.1.proposer ∨
          ∃ s b accepted, ev.delivered self = some (.prepareResponse s self b accepted) ∧
            ElectionProposer.Records members srv.proposer r.1.proposer s b accepted) ∧
        (r.2.2 = true → ∃ s b accepted, ev.delivered self = some (.prepareResponse s self b accepted) ∧
          ElectionProposer.Records members srv.proposer r.1.proposer s b accepted ∧
          r.1.proposer.prepareOk.card = replicaNum / 2 + 1)) := by
  intro r
  cases ev with
  | acceptorPrepareRequest req replace =>
    exact .inl ⟨rfl,rfl,srv.acceptor.ballotNumber_le_onPrepareRequest self req replace,
      srv.acceptor.votesRaise_onPrepareRequest self req replace,
      votesFrom_of_sender (srv.acceptor.sender_onPrepareRequest self req replace)⟩
  | acceptorTimeWindowTask canVote =>
    exact .inl ⟨rfl,rfl,srv.acceptor.ballotNumber_le_onTimeWindowTask self canVote,
      srv.acceptor.votesRaise_onTimeWindowTask self canVote,
      votesFrom_of_sender (srv.acceptor.sender_onTimeWindowTask self canVote)⟩
  | acceptorAcceptRequest s b =>
    exact .inl ⟨rfl,rfl,srv.acceptor.ballotNumber_le_onAcceptRequest self s b,
      srv.acceptor.votesRaise_onAcceptRequest self s b,
      votesFrom_of_sender (srv.acceptor.sender_onAcceptRequest self s b)⟩
  | proposerPrepare role =>
    exact .inr ⟨rfl,ElectionProposer.noVotes_prepare self _ role,
      .inl (ElectionProposer.keeps_prepare self _ role),fun h => nomatch h⟩
  | proposerPrepareRequest req =>
    exact .inr ⟨rfl,srv.proposer.noVotes_onPrepareRequest self req,
      .inl (srv.proposer.keeps_onPrepareRequest self req),fun h => nomatch h⟩
  | proposerPrepareResponse s b accepted leaseOk isLeader =>
    obtain ⟨hstep,hmaj⟩ := srv.proposer.onPrepareResponse_spec members replicaNum self s b accepted leaseOk isLeader
    refine .inr ⟨rfl,srv.proposer.noVotes_onPrepareResponse members replicaNum self s b accepted leaseOk isLeader,?_,
      fun h => ⟨s,b,accepted,rfl,hmaj h⟩⟩
    rcases hstep with hkeep | hrec
    · exact .inl hkeep
    · exact .inr ⟨s,b,accepted,rfl,hrec⟩
  | proposerAcceptResponse s b accepted isLeader =>
    exact .inr ⟨rfl,srv.proposer.noVotes_onAcceptResponse self b accepted isLeader,
      .inl (srv.proposer.keeps_onAcceptResponse self b accepted isLeader),fun h => nomatch h⟩
  | proposerRenewLease =>
    exact .inr ⟨rfl,srv.proposer.noVotes_renewLease self,.inl (srv.proposer.keeps_renewLease self),
      fun h => nomatch h⟩
  | proposerChangeLeaderTo dst =>
    exact .inr ⟨rfl,srv.proposer.noVotes_innerChangeLeaderTo self dst,
      .inl (srv.proposer.keeps_innerChangeLeaderTo self dst),fun h => nomatch h⟩
  | proposerChangeLeader s b old =>
    exact .inr ⟨rfl,srv.proposer.noVotes_onChangeLeader self s b old,
      .inl (srv.proposer.keeps_onChangeLeader self s b old),fun h => nomatch h⟩
  | proposerRoleChange role =>
    exact .inr ⟨rfl,fun _ _ => rfl,.inl (.inr ⟨rfl,rfl⟩),fun h => nomatch h⟩

namespace ElectionWorld

variable {members : List Addr} {replicaNum : Nat}

theorem servers_act (w : ElectionWorld Addr) (self : Addr) (ev : ElectionEvent Addr) (a : Addr) :
    (w.act members replicaNum self ev).servers a =
      if a = self then ((w.servers self).handle members replicaNum self ev).1 else w.servers a := by
  simp only [act,Function.update_apply]

theorem sent_act (w : ElectionWorld Addr) (self : Addr) (ev : ElectionEvent Addr) :
    (w.act members replicaNum self ev).sent = w.sent ++ ((w.servers self).handle members replicaNum self ev).2.1 :=
  rfl

theorem mem_sent_act {w : ElectionWorld Addr} {m : ElectionMsg Addr} (h : m ∈ w.sent) (self : Addr)
    (ev : ElectionEvent Addr) : m ∈ (w.act members replicaNum self ev).sent := by
  rw [sent_act]
  exact List.mem_append_left _ h

theorem ballotNumber_le_act (w : ElectionWorld Addr) (self : Addr) (ev : ElectionEvent Addr) (a : Addr) :
    (w.servers a).acceptor.ballotNumber ≤ ((w.act members replicaNum self ev).servers a).acceptor.ballotNumber := by
  rw [servers_act]
  split_ifs with ha
  · subst ha
    rcases handle_cases members replicaNum a (w.servers a) ev with h | h
    · exact h.2.2.1
    · rw [h.1]
  · exact le_rfl

end ElectionWorld

/-! ## The invariant -/

structure VotingInv (members : List Addr) (replicaNum : Nat) (w : ElectionWorld Addr) : Prop where
  /-- A vote is for a ballot the voter has reached. -/
  vote_le : ∀ a r b, ElectionMsg.prepareResponse a r b true ∈ w.sent → b ≤ (w.servers a).acceptor.ballotNumber
  /-- An acceptor votes at most once per ballot. -/
  vote_once : ∀ a b, (w.sent.filter (ElectionMsg.isVote a b)).length ≤ 1
  /-- A proposer counts only members that voted for it in its current ballot. -/
  tally : ∀ p, ∀ a ∈ (w.servers p).proposer.prepareOk,
    a ∈ members ∧ ElectionMsg.prepareResponse a p (w.servers p).proposer.ballotNumber true ∈ w.sent
  /-- Each majority recorded was a majority of votes. -/
  majority : ∀ p b, (p,b) ∈ w.majorities → ∃ S : Finset Addr, (∀ a ∈ S, a ∈ members) ∧
    S.card = replicaNum / 2 + 1 ∧ ∀ a ∈ S, ElectionMsg.prepareResponse a p b true ∈ w.sent

theorem votingInv_init (members : List Addr) (replicaNum : Nat) :
    VotingInv members replicaNum (ElectionWorld.init : ElectionWorld Addr) where
  vote_le _ _ _ h := by simp [ElectionWorld.init] at h
  vote_once _ _ := by simp [ElectionWorld.init]
  tally _ _ h := by simp [ElectionWorld.init,ElectionProposer.init] at h
  majority _ _ h := by simp [ElectionWorld.init] at h

section Step

variable {members : List Addr} {replicaNum : Nat} {w : ElectionWorld Addr} {self : Addr} {ev : ElectionEvent Addr}

theorem VotingInv.vote_le_act (hinv : VotingInv members replicaNum w) :
    ∀ a r b, ElectionMsg.prepareResponse a r b true ∈ (w.act members replicaNum self ev).sent →
      b ≤ ((w.act members replicaNum self ev).servers a).acceptor.ballotNumber := by
  intro a r b hm
  rw [ElectionWorld.sent_act,List.mem_append] at hm
  rcases hm with hold | hnew
  · exact le_trans (hinv.vote_le a r b hold) (w.ballotNumber_le_act self ev a)
  · have hvote : (ElectionMsg.prepareResponse a r b true).isVote a b = true := by simp [ElectionMsg.isVote]
    have hne : (((w.servers self).handle members replicaNum self ev).2.1.filter (ElectionMsg.isVote a b)).length ≠ 0 := by
      rw [Ne,List.length_eq_zero_iff,List.filter_eq_nil_iff]
      exact fun h => by simpa [hvote] using h _ hnew
    rcases handle_cases members replicaNum self (w.servers self) ev with h | h
    · have hself : a = self := by
        by_contra hne'
        exact hne (by rw [h.2.2.2.2 a b hne']; rfl)
      subst hself
      obtain ⟨-,hb,-⟩ := h.2.2.2.1 b hne
      rw [ElectionWorld.servers_act,if_pos rfl,hb]
    · exact absurd (by rw [h.2.1 a b]; rfl) hne

theorem VotingInv.vote_once_act (hinv : VotingInv members replicaNum w) :
    ∀ a b, ((w.act members replicaNum self ev).sent.filter (ElectionMsg.isVote a b)).length ≤ 1 := by
  intro a b
  rw [ElectionWorld.sent_act,List.filter_append,List.length_append]
  by_cases hnew : (((w.servers self).handle members replicaNum self ev).2.1.filter (ElectionMsg.isVote a b)).length = 0
  · rw [hnew]
    exact hinv.vote_once a b
  · rcases handle_cases members replicaNum self (w.servers self) ev with h | h
    · have hself : a = self := by
        by_contra hne'
        exact hnew (by rw [h.2.2.2.2 a b hne']; rfl)
      subst hself
      obtain ⟨hlt,-,hone⟩ := h.2.2.2.1 b hnew
      have hold : w.sent.filter (ElectionMsg.isVote a b) = [] := by
        rw [List.filter_eq_nil_iff]
        intro m hm hvote
        obtain ⟨r,rfl⟩ := ElectionMsg.isVote_iff.mp hvote
        exact absurd (hinv.vote_le a r b hm) (not_le.mpr hlt)
      rw [hold,hone]
      rfl
    · exact absurd (by rw [h.2.1 a b]; rfl) hnew

theorem VotingInv.tally_act (hinv : VotingInv members replicaNum w) (hdel : Delivers w (self,ev)) :
    ∀ p, ∀ a ∈ ((w.act members replicaNum self ev).servers p).proposer.prepareOk,
      a ∈ members ∧ ElectionMsg.prepareResponse a p ((w.act members replicaNum self ev).servers p).proposer.ballotNumber true ∈
        (w.act members replicaNum self ev).sent := by
  intro p a ha
  rw [ElectionWorld.servers_act] at ha ⊢
  split_ifs at ha ⊢ with hp
  · subst hp
    have hold : ∀ a ∈ (w.servers p).proposer.prepareOk, a ∈ members ∧
        ElectionMsg.prepareResponse a p (w.servers p).proposer.ballotNumber true ∈ (w.act members replicaNum p ev).sent :=
      fun a ha => ⟨(hinv.tally p a ha).1,ElectionWorld.mem_sent_act (hinv.tally p a ha).2 p ev⟩
    rcases handle_cases members replicaNum p (w.servers p) ev with h | h
    · rw [h.1] at ha ⊢
      exact hold a ha
    · rcases h.2.2.1 with hkeep | ⟨s,b,accepted,hdeliv,hb,hbal,hacc,hmem,hok⟩
      · rcases hkeep with hempty | ⟨hok,hb⟩
        · simp [hempty] at ha
        · rw [hok] at ha
          rw [hb]
          exact hold a ha
      · rw [hok,Finset.mem_insert] at ha
        rw [hb]
        rcases ha with rfl | ha
        · have hsent : ElectionMsg.prepareResponse a p b accepted ∈ w.sent := by
            have := hdel
            simp only [Delivers,hdeliv] at this
            exact this
          rw [hbal,hacc] at hsent
          exact ⟨hmem,ElectionWorld.mem_sent_act hsent p ev⟩
        · exact hold a ha
  · exact ⟨(hinv.tally p a ha).1,ElectionWorld.mem_sent_act (hinv.tally p a ha).2 self ev⟩

theorem VotingInv.act (hinv : VotingInv members replicaNum w) (hdel : Delivers w (self,ev)) :
    VotingInv members replicaNum (w.act members replicaNum self ev) where
  vote_le := hinv.vote_le_act
  vote_once := hinv.vote_once_act
  tally := hinv.tally_act hdel
  majority := by
    intro p b hpb
    simp only [ElectionWorld.act] at hpb
    split_ifs at hpb with hflag
    · rcases List.mem_append.mp hpb with hold | hnew
      · obtain ⟨S,hS,hcard,hvotes⟩ := hinv.majority p b hold
        exact ⟨S,hS,hcard,fun a ha => ElectionWorld.mem_sent_act (hvotes a ha) self ev⟩
      · obtain ⟨hp,hb⟩ := Prod.mk.inj (List.mem_singleton.mp hnew)
        rw [hp,hb]
        have htally := hinv.tally_act hdel self
        rw [ElectionWorld.servers_act,if_pos rfl] at htally
        rcases handle_cases members replicaNum self (w.servers self) ev with h | h
        · exact absurd hflag (by rw [h.2.1]; simp)
        · obtain ⟨-,-,-,-,-,hcard⟩ := h.2.2.2 hflag
          exact ⟨_,fun a ha => (htally a ha).1,hcard,fun a ha => (htally a ha).2⟩
    · obtain ⟨S,hS,hcard,hvotes⟩ := hinv.majority p b hpb
      exact ⟨S,hS,hcard,fun a ha => ElectionWorld.mem_sent_act (hvotes a ha) self ev⟩

end Step

theorem votingInv_of_run {members : List Addr} {replicaNum : Nat} {es : List (Addr × ElectionEvent Addr)}
    {w : ElectionWorld Addr} (hrun : Lib.Run (electionStep members replicaNum) Delivers ElectionWorld.init es w) :
    VotingInv members replicaNum w := by
  refine hrun.invariant (VotingInv members replicaNum) ?_ (votingInv_init members replicaNum)
  rintro w ⟨self,ev⟩ w' hinv hdel hstep
  obtain rfl := Option.some.inj hstep
  exact hinv.act hdel

theorem receiver_eq_of_vote_once {sent : List (ElectionMsg Addr)} {a p q : Addr} {b : Int}
    (hone : (sent.filter (ElectionMsg.isVote a b)).length ≤ 1)
    (hp : ElectionMsg.prepareResponse a p b true ∈ sent) (hq : ElectionMsg.prepareResponse a q b true ∈ sent) :
    p = q := by
  by_contra hne
  have hsub : ({ElectionMsg.prepareResponse a p b true,ElectionMsg.prepareResponse a q b true} : Finset (ElectionMsg Addr)) ⊆
      (sent.filter (ElectionMsg.isVote a b)).toFinset := by
    intro m hm
    rw [List.mem_toFinset,List.mem_filter]
    rcases Finset.mem_insert.mp hm with rfl | hm
    · exact ⟨hp,by simp [ElectionMsg.isVote]⟩
    · rw [Finset.mem_singleton.mp hm]
      exact ⟨hq,by simp [ElectionMsg.isVote]⟩
  have htwo := (Finset.card_le_card hsub).trans (List.toFinset_card_le _)
  rw [Finset.card_pair (by simpa using hne)] at htwo
  omega

theorem majorities_meet {members : List Addr} {replicaNum : Nat} (hmembers : members.length ≤ replicaNum)
    {S T : Finset Addr} (hS : ∀ a ∈ S, a ∈ members) (hT : ∀ a ∈ T, a ∈ members)
    (hSc : S.card = replicaNum / 2 + 1) (hTc : T.card = replicaNum / 2 + 1) : (S ∩ T).Nonempty := by
  have hU : members.toFinset.card ≤ replicaNum := (List.toFinset_card_le members).trans hmembers
  have hSU : S ⊆ members.toFinset := fun a ha => List.mem_toFinset.mpr (hS a ha)
  have hTU : T ⊆ members.toFinset := fun a ha => List.mem_toFinset.mpr (hT a ha)
  exact Finset.inter_nonempty_of_card_lt_card_add_card hSU hTU (by omega)

/-- Every run of the election over one member list of at most `replica_num` members, with
messages lost, duplicated and reordered and the timers and leases arbitrary: each acceptor
sends at most one vote per ballot, so to a single proposer; at most one proposer ever reaches a
majority in `record_prepare_ok` for a given ballot; and no acceptor's `ballot_number_` ever
goes down from there on. -/
theorem election_voting_safety {members : List Addr} {replicaNum : Nat} (hmembers : members.length ≤ replicaNum)
    {es : List (Addr × ElectionEvent Addr)} {w : ElectionWorld Addr}
    (hrun : Lib.Run (electionStep members replicaNum) Delivers ElectionWorld.init es w) :
    (∀ a b, (w.sent.filter (ElectionMsg.isVote a b)).length ≤ 1) ∧
      (∀ p q b, (p,b) ∈ w.majorities → (q,b) ∈ w.majorities → p = q) ∧
      ∀ es' w', Lib.Run (electionStep members replicaNum) Delivers w es' w' →
        ∀ a, (w.servers a).acceptor.ballotNumber ≤ (w'.servers a).acceptor.ballotNumber := by
  have hinv := votingInv_of_run hrun
  refine ⟨hinv.vote_once,?_,?_⟩
  · intro p q b hp hq
    obtain ⟨S,hS,hSc,hSv⟩ := hinv.majority p b hp
    obtain ⟨T,hT,hTc,hTv⟩ := hinv.majority q b hq
    obtain ⟨a,ha⟩ := majorities_meet hmembers hS hT hSc hTc
    rw [Finset.mem_inter] at ha
    exact receiver_eq_of_vote_once (hinv.vote_once a b) (hSv a ha.1) (hTv a ha.2)
  · intro es' w' hrun' a
    refine Lib.Run.monotone (fun w => (w.servers a).acceptor.ballotNumber) ?_ hrun'
    rintro w ⟨self,ev⟩ w' - hstep
    obtain rfl := Option.some.inj hstep
    exact w.ballotNumber_le_act self ev a

/-- One replica alone: it prepares, its acceptor votes for it when the window closes, and the
vote is a majority of one. -/
def soloElection : List (Nat × ElectionEvent Nat) :=
  [(0,.proposerPrepare .follower),(0,.acceptorPrepareRequest ⟨0,0,.follower⟩ false),
    (0,.acceptorTimeWindowTask true),(0,.proposerPrepareResponse 0 0 true true false)]

def soloElectionWorld : ElectionWorld Nat :=
  soloElection.foldl (fun w e => w.act [0] 1 e.1 e.2) ElectionWorld.init

theorem election_voting_safety_solo :
    Lib.Run (electionStep [0] 1) Delivers ElectionWorld.init soloElection soloElectionWorld ∧
      (0,0) ∈ soloElectionWorld.majorities ∧
      ((∀ a b, (soloElectionWorld.sent.filter (ElectionMsg.isVote a b)).length ≤ 1) ∧
        (∀ p q b, (p,b) ∈ soloElectionWorld.majorities → (q,b) ∈ soloElectionWorld.majorities → p = q) ∧
        ∀ es' w', Lib.Run (electionStep [0] 1) Delivers soloElectionWorld es' w' →
          ∀ a, (soloElectionWorld.servers a).acceptor.ballotNumber ≤ (w'.servers a).acceptor.ballotNumber) :=
  have hrun : Lib.Run (electionStep [0] 1) Delivers ElectionWorld.init soloElection soloElectionWorld :=
    .cons (by decide) rfl (.cons (by decide) rfl (.cons (by decide) rfl (.cons (by decide) rfl (.nil _))))
  ⟨hrun,by decide,election_voting_safety (by decide) hrun⟩

end Election
end Palf
end OceanBase
