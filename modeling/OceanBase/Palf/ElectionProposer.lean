import OceanBase.Palf.ElectionAcceptor

/-! The proposer of the PALF election (`election_proposer.cpp`) and the prepare states of its
member list (`MemberListWithStates`, `election_utils.cpp`). A proposer counts the votes for its
current ballot in `prepare_ok_`, clears them whenever its ballot moves, and proposes when
`record_prepare_ok` finds them exactly a majority of `replica_num`.

As for the acceptor, what the proposer reads from its clocks and leases is an argument:
`check_leader()` after a rejection, and whether a vote's lease lets it count. The lease renewal
itself, the accept responses' lease bookkeeping and the role changes it drives are left to the
environment, which may change the role at any time. -/
namespace OceanBase
namespace Palf
namespace Election

variable {Addr : Type}

/-- The state of `ElectionProposer`, with the `prepare_ok_` of its member list. -/
structure ElectionProposer (Addr : Type) where
  role : ObRole
  ballotNumber : Int
  prepareSuccessBallot : Int
  /-- The members whose vote for `ballot_number_` arrived. -/
  prepareOk : Finset Addr
  switchSourceLeaderBallot : Int
  switchSourceLeaderAddr : Option Addr

namespace ElectionProposer

def init : ElectionProposer Addr := ⟨.follower,invalidValue,invalidValue,∅,invalidValue,none⟩

/-- `MemberListWithStates::record_prepare_ok`: marks a member and reports whether the marked
members are now exactly a majority of `replica_num`. -/
def recordPrepareOk [DecidableEq Addr] (members : List Addr) (replicaNum : Nat) (prepareOk : Finset Addr) (sender : Addr) :
    Except ObErr Unit × Finset Addr :=
  if sender ∉ members then (.error .entryNotExist,prepareOk)
  else
    let ok := insert sender prepareOk
    if ok.card < replicaNum / 2 + 1 then (.error .electionBelowMajority,ok)
    else if ok.card > replicaNum / 2 + 1 then (.error .electionOverMajority,ok)
    else (.ok (),ok)

/-- `advance_ballot_number_and_reset_related_states_`: the new ballot, with the votes and the
change-leader source cleared. -/
def advanceBallotNumberAndResetRelatedStates (p : ElectionProposer Addr) (newBallotNumber : Int) :
    ElectionProposer Addr :=
  { p with ballotNumber := newBallotNumber, prepareOk := ∅, switchSourceLeaderBallot := invalidValue,
           switchSourceLeaderAddr := none }

/-- `prepare(role)`: a candidate raises its ballot first; both broadcast a prepare request. -/
def prepare (self : Addr) (p : ElectionProposer Addr) (role : ObRole) :
    ElectionProposer Addr × List (ElectionMsg Addr) :=
  let p' := match role with
    | .follower => p.advanceBallotNumberAndResetRelatedStates (p.ballotNumber + 1)
    | .leader => p
  (p',[.prepareRequest ⟨self,p'.ballotNumber,role⟩])

/-- `on_prepare_request`: an old ballot is rejected, the current one ignored, and a larger one
taken; a candidate's request is then followed by a prepare of our own. -/
def onPrepareRequest (self : Addr) (p : ElectionProposer Addr) (req : ElectionPrepareRequestMsg Addr) :
    ElectionProposer Addr × List (ElectionMsg Addr) :=
  if req.ballotNumber ≤ p.ballotNumber then
    if req.ballotNumber < p.ballotNumber then (p,[.prepareResponse self req.sender p.ballotNumber false])
    else (p,[])
  else
    let p' := p.advanceBallotNumberAndResetRelatedStates req.ballotNumber
    match req.role with
    | .leader => (p',[])
    | .follower => (p',[.prepareRequest ⟨self,p'.ballotNumber,p'.role⟩])

/-- `ResponseChecker::check_ballot_and_restart_counter_valid_and_accepted`: an old response is
dropped, a larger ballot is taken (and a leader, `isLeader`, prepares again above it), and a
response of the current ballot passes when accepted. -/
def checkBallotValidAndAccepted (self : Addr) (p : ElectionProposer Addr) (ballotNumber : Int)
    (accepted isLeader : Bool) : ElectionProposer Addr × List (ElectionMsg Addr) × Bool :=
  if ballotNumber < p.ballotNumber then (p,[],false)
  else if ballotNumber > p.ballotNumber then
    let p₁ := p.advanceBallotNumberAndResetRelatedStates ballotNumber
    if isLeader then
      let r := prepare self (p₁.advanceBallotNumberAndResetRelatedStates (p₁.ballotNumber + 1)) .leader
      (r.1,r.2,false)
    else (p₁,[],false)
  else if !accepted then (p,[],false)
  else (p,[],true)

def propose (self : Addr) (p : ElectionProposer Addr) : List (ElectionMsg Addr) :=
  [.acceptRequest self p.prepareSuccessBallot]

/-- `on_prepare_response`. `leaseOk` is the test on the vote's lease (none, ours, or the
change-leader source's). The last component says `record_prepare_ok` reached the majority. -/
def onPrepareResponse [DecidableEq Addr] (members : List Addr) (replicaNum : Nat) (self : Addr) (p : ElectionProposer Addr)
    (sender : Addr) (ballotNumber : Int) (accepted leaseOk isLeader : Bool) :
    ElectionProposer Addr × List (ElectionMsg Addr) × Bool :=
  let r := p.checkBallotValidAndAccepted self ballotNumber accepted isLeader
  if !r.2.2 then (r.1,r.2.1,false)
  else if !leaseOk then (r.1,r.2.1,false)
  else
    let res := recordPrepareOk members replicaNum r.1.prepareOk sender
    match res.1 with
    | .error _ => ({ r.1 with prepareOk := res.2 },r.2.1,false)
    | .ok () =>
      let p' := { r.1 with prepareOk := res.2,
                           prepareSuccessBallot := max r.1.ballotNumber r.1.prepareSuccessBallot }
      (p',r.2.1 ++ propose self p',true)

/-- `on_accept_response`, up to the response check: the lease it then records is not
modelled. -/
def onAcceptResponse (self : Addr) (p : ElectionProposer Addr) (ballotNumber : Int) (accepted isLeader : Bool) :
    ElectionProposer Addr × List (ElectionMsg Addr) :=
  let r := p.checkBallotValidAndAccepted self ballotNumber accepted isLeader
  (r.1,r.2.1)

/-- The renew-lease task: a leader whose prepare succeeded in its current ballot proposes. -/
def renewLease (self : Addr) (p : ElectionProposer Addr) : ElectionProposer Addr × List (ElectionMsg Addr) :=
  if p.role = .leader ∧ p.prepareSuccessBallot = p.ballotNumber then (p,propose self p) else (p,[])

/-- `inner_change_leader_to(dst)`: the old leader moves past its ballot, revokes, and sends the
change-leader message with both ballots. -/
def innerChangeLeaderTo (self : Addr) (p : ElectionProposer Addr) (dst : Addr) :
    ElectionProposer Addr × List (ElectionMsg Addr) :=
  let p' := { p.advanceBallotNumberAndResetRelatedStates (p.ballotNumber + 1) with role := .follower }
  (p',[.changeLeader self dst p'.ballotNumber p.ballotNumber])

/-- `on_change_leader`: the message's ballot is taken (the same one from ourselves, a larger one
from another) and a leader prepare follows. -/
def onChangeLeader [DecidableEq Addr] (self : Addr) (p : ElectionProposer Addr) (sender : Addr) (ballotNumber oldBallotNumber : Int) :
    ElectionProposer Addr × List (ElectionMsg Addr) :=
  let accept := if sender = self then decide (ballotNumber = p.ballotNumber)
    else decide (ballotNumber > p.ballotNumber)
  if !accept then (p,[])
  else
    let p₁ := { p.advanceBallotNumberAndResetRelatedStates ballotNumber with
                switchSourceLeaderBallot := oldBallotNumber, switchSourceLeaderAddr := some sender }
    prepare self p₁ .leader

/-! ### What the handlers do to the votes counted -/

/-- A handler keeps the count: it clears `prepare_ok_`, or leaves it and the ballot as they
were. -/
def Keeps (p p' : ElectionProposer Addr) : Prop :=
  p'.prepareOk = ∅ ∨ (p'.prepareOk = p.prepareOk ∧ p'.ballotNumber = p.ballotNumber)

theorem keeps_self (p : ElectionProposer Addr) : Keeps p p := .inr ⟨rfl,rfl⟩

theorem keeps_advance (p q : ElectionProposer Addr) (b : Int) :
    Keeps p (q.advanceBallotNumberAndResetRelatedStates b) := .inl rfl

theorem keeps_prepare_advance (self : Addr) (p q : ElectionProposer Addr) (b : Int) (role : ObRole) :
    Keeps p (prepare self (q.advanceBallotNumberAndResetRelatedStates b) role).1 := by
  cases role
  · exact keeps_advance p q b
  · exact keeps_advance p _ _

theorem keeps_prepare (self : Addr) (p : ElectionProposer Addr) (role : ObRole) :
    Keeps p (prepare self p role).1 := by
  cases role
  · exact keeps_self p
  · exact keeps_advance p p _

theorem keeps_onPrepareRequest (self : Addr) (p : ElectionProposer Addr) (req : ElectionPrepareRequestMsg Addr) :
    Keeps p (p.onPrepareRequest self req).1 := by
  unfold onPrepareRequest
  split_ifs
  · exact keeps_self p
  · exact keeps_self p
  · cases req.role <;> exact keeps_advance p p _

theorem checkBallotValidAndAccepted_spec (self : Addr) (p : ElectionProposer Addr) (b : Int)
    (accepted isLeader : Bool) :
    Keeps p (p.checkBallotValidAndAccepted self b accepted isLeader).1 ∧
      ((p.checkBallotValidAndAccepted self b accepted isLeader).2.2 = true →
        (p.checkBallotValidAndAccepted self b accepted isLeader).1 = p ∧ b = p.ballotNumber ∧ accepted = true) := by
  unfold checkBallotValidAndAccepted
  by_cases hlt : b < p.ballotNumber
  · simp only [if_pos hlt]
    exact ⟨keeps_self p,by simp⟩
  by_cases hgt : b > p.ballotNumber
  · simp only [if_neg hlt,if_pos hgt]
    cases isLeader
    · exact ⟨keeps_advance p p b,by simp⟩
    · exact ⟨keeps_prepare_advance self p _ _ .leader,by simp⟩
  · simp only [if_neg hlt,if_neg hgt]
    cases accepted
    · exact ⟨keeps_self p,by simp⟩
    · exact ⟨keeps_self p,fun _ => ⟨rfl,by omega,rfl⟩⟩

theorem keeps_onAcceptResponse (self : Addr) (p : ElectionProposer Addr) (b : Int) (accepted isLeader : Bool) :
    Keeps p (p.onAcceptResponse self b accepted isLeader).1 :=
  (checkBallotValidAndAccepted_spec self p b accepted isLeader).1

theorem keeps_renewLease (self : Addr) (p : ElectionProposer Addr) : Keeps p (p.renewLease self).1 := by
  unfold renewLease
  split_ifs <;> exact keeps_self p

theorem keeps_innerChangeLeaderTo (self : Addr) (p : ElectionProposer Addr) (dst : Addr) :
    Keeps p (p.innerChangeLeaderTo self dst).1 := .inl rfl

theorem keeps_onChangeLeader [DecidableEq Addr] (self : Addr) (p : ElectionProposer Addr) (sender : Addr) (b old : Int) :
    Keeps p (p.onChangeLeader self sender b old).1 := by
  unfold onChangeLeader
  dsimp only
  split_ifs
  all_goals first
    | exact keeps_self p
    | exact .inl rfl

theorem recordPrepareOk_spec [DecidableEq Addr] (members : List Addr) (replicaNum : Nat) (ok : Finset Addr) (sender : Addr) :
    ((recordPrepareOk members replicaNum ok sender).2 = ok ∨
      (sender ∈ members ∧ (recordPrepareOk members replicaNum ok sender).2 = insert sender ok)) ∧
    ((recordPrepareOk members replicaNum ok sender).1 = .ok () →
      sender ∈ members ∧ (recordPrepareOk members replicaNum ok sender).2 = insert sender ok ∧
        (insert sender ok).card = replicaNum / 2 + 1) := by
  unfold recordPrepareOk
  by_cases hmem : sender ∈ members
  · rw [if_neg (fun h => h hmem)]
    dsimp only
    split_ifs with hlt hgt
    · exact ⟨.inr ⟨hmem,rfl⟩,fun h => nomatch h⟩
    · exact ⟨.inr ⟨hmem,rfl⟩,fun h => nomatch h⟩
    · exact ⟨.inr ⟨hmem,rfl⟩,fun _ => ⟨hmem,rfl,by omega⟩⟩
  · rw [if_pos hmem]
    exact ⟨.inl rfl,fun h => nomatch h⟩

/-- A handler records a vote: the accepted response of a member for the current ballot joins the
count. -/
def Records [DecidableEq Addr] (members : List Addr) (p p' : ElectionProposer Addr) (sender : Addr) (b : Int) (accepted : Bool) :
    Prop :=
  p'.ballotNumber = p.ballotNumber ∧ b = p.ballotNumber ∧ accepted = true ∧ sender ∈ members ∧
    p'.prepareOk = insert sender p.prepareOk

theorem onPrepareResponse_spec [DecidableEq Addr] (members : List Addr) (replicaNum : Nat) (self : Addr) (p : ElectionProposer Addr)
    (sender : Addr) (b : Int) (accepted leaseOk isLeader : Bool) :
    (Keeps p (p.onPrepareResponse members replicaNum self sender b accepted leaseOk isLeader).1 ∨
      Records members p (p.onPrepareResponse members replicaNum self sender b accepted leaseOk isLeader).1 sender b accepted) ∧
    ((p.onPrepareResponse members replicaNum self sender b accepted leaseOk isLeader).2.2 = true →
      Records members p (p.onPrepareResponse members replicaNum self sender b accepted leaseOk isLeader).1 sender b accepted ∧
        (p.onPrepareResponse members replicaNum self sender b accepted leaseOk isLeader).1.prepareOk.card =
          replicaNum / 2 + 1) := by
  obtain ⟨hkeep,hpass⟩ := checkBallotValidAndAccepted_spec self p b accepted isLeader
  unfold onPrepareResponse
  generalize p.checkBallotValidAndAccepted self b accepted isLeader = r at hkeep hpass
  obtain ⟨q,out,passed⟩ := r
  dsimp only at hkeep hpass ⊢
  cases passed
  · exact ⟨.inl hkeep,fun h => nomatch h⟩
  obtain ⟨rfl,hb,hacc⟩ := hpass rfl
  cases leaseOk
  · exact ⟨.inl hkeep,fun h => nomatch h⟩
  obtain ⟨hrec,hsucc⟩ := recordPrepareOk_spec members replicaNum q.prepareOk sender
  generalize recordPrepareOk members replicaNum q.prepareOk sender = res at hrec hsucc
  obtain ⟨e,ok⟩ := res
  dsimp only at hrec hsucc ⊢
  cases e with
  | error err =>
    refine ⟨?_,fun h => nomatch h⟩
    rcases hrec with rfl | ⟨hmem,rfl⟩
    · exact .inl (.inr ⟨rfl,rfl⟩)
    · exact .inr ⟨rfl,hb,hacc,hmem,rfl⟩
  | ok u =>
    obtain ⟨hmem,rfl,hcard⟩ := hsucc rfl
    exact ⟨.inr ⟨rfl,hb,hacc,hmem,rfl⟩,fun _ => ⟨⟨rfl,hb,hacc,hmem,rfl⟩,hcard⟩⟩


/-! ### A proposer casts no votes -/

def NoVotes [DecidableEq Addr] (out : List (ElectionMsg Addr)) : Prop :=
  ∀ a b, out.filter (ElectionMsg.isVote a b) = []

theorem noVotes_of_forall [DecidableEq Addr] {out : List (ElectionMsg Addr)}
    (h : ∀ m ∈ out, ∀ a b, m.isVote a b = false) : NoVotes out :=
  fun a b => List.filter_eq_nil_iff.mpr fun m hm => by simp [h m hm a b]

theorem NoVotes.append [DecidableEq Addr] {out out' : List (ElectionMsg Addr)} (h : NoVotes out)
    (h' : NoVotes out') : NoVotes (out ++ out') := by
  intro a b
  rw [List.filter_append,h a b,h' a b]
  rfl

theorem noVotes_prepare [DecidableEq Addr] (self : Addr) (p : ElectionProposer Addr) (role : ObRole) :
    NoVotes (prepare self p role).2 :=
  noVotes_of_forall (by simp [prepare,ElectionMsg.isVote])

theorem noVotes_propose [DecidableEq Addr] (self : Addr) (p : ElectionProposer Addr) :
    NoVotes (propose self p) :=
  noVotes_of_forall (by simp [propose,ElectionMsg.isVote])

theorem noVotes_onPrepareRequest [DecidableEq Addr] (self : Addr) (p : ElectionProposer Addr)
    (req : ElectionPrepareRequestMsg Addr) : NoVotes (p.onPrepareRequest self req).2 := by
  unfold onPrepareRequest
  split_ifs
  · exact noVotes_of_forall (by simp [ElectionMsg.isVote])
  · exact noVotes_of_forall (by simp)
  · cases req.role
    · exact noVotes_of_forall (by simp)
    · exact noVotes_of_forall (by simp [ElectionMsg.isVote])

theorem noVotes_checkBallotValidAndAccepted [DecidableEq Addr] (self : Addr) (p : ElectionProposer Addr)
    (b : Int) (accepted isLeader : Bool) : NoVotes (p.checkBallotValidAndAccepted self b accepted isLeader).2.1 := by
  unfold checkBallotValidAndAccepted
  split_ifs
  all_goals first
    | exact noVotes_prepare self _ .leader
    | exact noVotes_of_forall (by simp)

theorem noVotes_onPrepareResponse [DecidableEq Addr] (members : List Addr) (replicaNum : Nat) (self : Addr)
    (p : ElectionProposer Addr) (sender : Addr) (b : Int) (accepted leaseOk isLeader : Bool) :
    NoVotes (p.onPrepareResponse members replicaNum self sender b accepted leaseOk isLeader).2.1 := by
  have hcheck := noVotes_checkBallotValidAndAccepted self p b accepted isLeader
  unfold onPrepareResponse
  dsimp only
  split_ifs <;> (try split)
  all_goals first
    | exact hcheck
    | exact hcheck.append (noVotes_propose self _)

theorem noVotes_onAcceptResponse [DecidableEq Addr] (self : Addr) (p : ElectionProposer Addr) (b : Int)
    (accepted isLeader : Bool) : NoVotes (p.onAcceptResponse self b accepted isLeader).2 :=
  noVotes_checkBallotValidAndAccepted self p b accepted isLeader

theorem noVotes_renewLease [DecidableEq Addr] (self : Addr) (p : ElectionProposer Addr) :
    NoVotes (p.renewLease self).2 := by
  unfold renewLease
  split_ifs
  · exact noVotes_propose self p
  · exact noVotes_of_forall (by simp)

theorem noVotes_innerChangeLeaderTo [DecidableEq Addr] (self : Addr) (p : ElectionProposer Addr) (dst : Addr) :
    NoVotes (p.innerChangeLeaderTo self dst).2 :=
  noVotes_of_forall (by simp [innerChangeLeaderTo,ElectionMsg.isVote])

theorem noVotes_onChangeLeader [DecidableEq Addr] (self : Addr) (p : ElectionProposer Addr) (sender : Addr)
    (b old : Int) : NoVotes (p.onChangeLeader self sender b old).2 := by
  unfold onChangeLeader
  dsimp only
  split_ifs
  all_goals first
    | exact noVotes_prepare self _ .leader
    | exact noVotes_of_forall (by simp)

end ElectionProposer

end Election
end Palf
end OceanBase
