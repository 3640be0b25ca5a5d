import OceanBase.Define

/-! The messages of the PALF election and its acceptor (`election_message.cpp`,
`election_acceptor.cpp`). A proposer broadcasts prepare requests for a ballot; an acceptor
answers a leader's prepare at once and a candidate's at the end of a time window, voting for the
request of highest priority it saw in the window. Either way it votes only while raising its
`ballot_number_`, so it votes at most once per ballot.

What the acceptor reads from its environment is an argument of its handlers: whether the time
window task may vote now (the lease and window clocks), and whether a request has higher
priority than the cached one (`is_rhs_message_higher_`). The lease an acceptor keeps and returns
is not modelled: the proposer's use of it is an argument of its handler too. -/
namespace OceanBase
namespace Palf
namespace Election

def invalidValue : Int := -1

inductive ObRole
  | leader | follower
  deriving DecidableEq, Repr

variable {Addr : Type}

structure ElectionPrepareRequestMsg (Addr : Type) where
  sender : Addr
  ballotNumber : Int
  role : ObRole
  deriving DecidableEq, Repr

/-- The election messages. A response goes back to the sender of the request it answers, and
`accepted` marks a vote (or an accept) rather than a rejection. -/
inductive ElectionMsg (Addr : Type)
  | prepareRequest (req : ElectionPrepareRequestMsg Addr)
  | prepareResponse (sender receiver : Addr) (ballotNumber : Int) (accepted : Bool)
  | acceptRequest (sender : Addr) (ballotNumber : Int)
  | acceptResponse (sender receiver : Addr) (ballotNumber : Int) (accepted : Bool)
  | changeLeader (sender receiver : Addr) (ballotNumber oldBallotNumber : Int)
  deriving DecidableEq, Repr

def ElectionMsg.sender : ElectionMsg Addr → Addr
  | .prepareRequest req => req.sender
  | .prepareResponse s _ _ _ => s
  | .acceptRequest s _ => s
  | .acceptResponse s _ _ _ => s
  | .changeLeader s _ _ _ => s

def ElectionMsg.isVote [DecidableEq Addr] (a : Addr) (b : Int) : ElectionMsg Addr → Bool
  | .prepareResponse s _ b' true => s == a && b' == b
  | _ => false

theorem ElectionMsg.isVote_iff [DecidableEq Addr] {a : Addr} {b : Int} {m : ElectionMsg Addr} :
    m.isVote a b = true ↔ ∃ r, m = .prepareResponse a r b true := by
  cases m with
  | prepareResponse s r b' accepted =>
    cases accepted
    · simp [isVote]
    · constructor
      · intro h
        simp only [isVote,Bool.and_eq_true,beq_iff_eq] at h
        obtain ⟨rfl,rfl⟩ := h
        exact ⟨r,rfl⟩
      · rintro ⟨r',h⟩
        simp only [ElectionMsg.prepareResponse.injEq] at h
        obtain ⟨rfl,-,rfl,-⟩ := h
        simp [isVote]
  | _ => simp [isVote]

theorem ElectionMsg.sender_of_isVote [DecidableEq Addr] {a : Addr} {b : Int} {m : ElectionMsg Addr}
    (h : m.isVote a b = true) : m.sender = a := by
  obtain ⟨r,rfl⟩ := ElectionMsg.isVote_iff.mp h
  rfl

def VotesFrom [DecidableEq Addr] (self : Addr) (out : List (ElectionMsg Addr)) : Prop :=
  ∀ a b, a ≠ self → out.filter (ElectionMsg.isVote a b) = []

theorem votesFrom_of_sender [DecidableEq Addr] {self : Addr} {out : List (ElectionMsg Addr)}
    (h : ∀ m ∈ out, m.sender = self) : VotesFrom self out := by
  intro a b hne
  rw [List.filter_eq_nil_iff]
  intro m hm hvote
  exact hne ((ElectionMsg.sender_of_isVote hvote).symm.trans (h m hm))

structure ElectionAcceptor (Addr : Type) where
  ballotNumber : Int
  ballotOfTimeWindow : Int
  isTimeWindowOpened : Bool
  highestPriorityPrepareReq : Option (ElectionPrepareRequestMsg Addr)
  deriving DecidableEq, Repr

namespace ElectionAcceptor

def init : ElectionAcceptor Addr := ⟨invalidValue,invalidValue,false,none⟩

/-- `reset_time_window_states_`: an open window is closed and forgets its request. -/
def resetTimeWindowStates (acc : ElectionAcceptor Addr) : ElectionAcceptor Addr :=
  if acc.isTimeWindowOpened then { acc with isTimeWindowOpened := false, highestPriorityPrepareReq := none }
  else acc

/-- `advance_ballot_number_and_reset_related_states_`: only a larger ballot is taken. -/
def advanceBallotNumberAndResetRelatedStates (acc : ElectionAcceptor Addr) (newBallotNumber : Int) :
    ElectionAcceptor Addr :=
  if newBallotNumber > acc.ballotNumber then
    { acc.resetTimeWindowStates with ballotNumber := newBallotNumber, ballotOfTimeWindow := newBallotNumber }
  else acc

/-- The time-window part of `on_prepare_request` for a candidate's request: a larger ballot
closes the open window and opens one for itself, and a request of the window's ballot is cached
when it is the first or of higher priority (`replace`). -/
def onCandidatePrepare (acc : ElectionAcceptor Addr) (req : ElectionPrepareRequestMsg Addr)
    (replace : Bool) : ElectionAcceptor Addr :=
  let acc₁ := if acc.isTimeWindowOpened ∧ req.ballotNumber > acc.ballotOfTimeWindow then
    acc.resetTimeWindowStates else acc
  let acc₂ := if !acc₁.isTimeWindowOpened ∧ req.ballotNumber > acc₁.ballotOfTimeWindow then
    { acc₁ with ballotOfTimeWindow := req.ballotNumber, highestPriorityPrepareReq := none,
                isTimeWindowOpened := true }
  else acc₁
  if acc₂.isTimeWindowOpened then
    if req.ballotNumber ≠ acc₂.ballotOfTimeWindow then acc₂
    else match acc₂.highestPriorityPrepareReq with
      | none => { acc₂ with highestPriorityPrepareReq := some req }
      | some _ => if replace then { acc₂ with highestPriorityPrepareReq := some req } else acc₂
  else acc₂

/-- `on_prepare_request`. An old ballot is rejected (`check_ballot_valid`); a leader's prepare
of a larger ballot gets a vote at once; a candidate's goes to the time window. -/
def onPrepareRequest (self : Addr) (acc : ElectionAcceptor Addr) (req : ElectionPrepareRequestMsg Addr)
    (replace : Bool) : ElectionAcceptor Addr × List (ElectionMsg Addr) :=
  if req.ballotNumber < acc.ballotNumber then
    (acc,[.prepareResponse self req.sender acc.ballotNumber false])
  else
    match req.role with
    | .leader =>
      if req.ballotNumber ≤ acc.ballotNumber then (acc,[])
      else
        let acc' := acc.advanceBallotNumberAndResetRelatedStates req.ballotNumber
        (acc',[.prepareResponse self req.sender acc'.ballotNumber true])
    | .follower => (acc.onCandidatePrepare req replace,[])

/-- The time window task. When it may vote (`canVote`) and the cached request is of the window's
ballot, above the acceptor's, it raises the ballot and votes for that request; the window
closes either way. -/
def onTimeWindowTask (self : Addr) (acc : ElectionAcceptor Addr) (canVote : Bool) :
    ElectionAcceptor Addr × List (ElectionMsg Addr) :=
  if acc.isTimeWindowOpened ∧ canVote then
    match acc.highestPriorityPrepareReq with
    | some req =>
      if acc.ballotOfTimeWindow = req.ballotNumber ∧ acc.ballotOfTimeWindow > acc.ballotNumber then
        ({ acc with ballotNumber := acc.ballotOfTimeWindow, isTimeWindowOpened := false },
          [.prepareResponse self req.sender acc.ballotOfTimeWindow true])
      else ({ acc with isTimeWindowOpened := false },[])
    | none => ({ acc with isTimeWindowOpened := false },[])
  else (acc,[])

/-- `on_accept_request`: an old ballot is rejected; otherwise the ballot is raised to the
request's and the lease accepted. -/
def onAcceptRequest (self : Addr) (acc : ElectionAcceptor Addr) (sender : Addr) (ballotNumber : Int) :
    ElectionAcceptor Addr × List (ElectionMsg Addr) :=
  if ballotNumber < acc.ballotNumber then (acc,[.acceptResponse self sender acc.ballotNumber false])
  else
    let acc' := if ballotNumber > acc.ballotNumber then
      acc.advanceBallotNumberAndResetRelatedStates ballotNumber else acc
    (acc',[.acceptResponse self sender acc'.ballotNumber true])

/-! ### The ballot never goes down, and each vote raises it -/

theorem ballotNumber_le_advance (acc : ElectionAcceptor Addr) (b : Int) :
    acc.ballotNumber ≤ (acc.advanceBallotNumberAndResetRelatedStates b).ballotNumber := by
  unfold advanceBallotNumberAndResetRelatedStates
  split_ifs with h
  · exact le_of_lt h
  · exact le_rfl

@[simp] theorem ballotNumber_resetTimeWindowStates (acc : ElectionAcceptor Addr) :
    acc.resetTimeWindowStates.ballotNumber = acc.ballotNumber := by
  unfold resetTimeWindowStates
  split_ifs <;> rfl

@[simp] theorem ballotNumber_onCandidatePrepare (acc : ElectionAcceptor Addr)
    (req : ElectionPrepareRequestMsg Addr) (replace : Bool) :
    (acc.onCandidatePrepare req replace).ballotNumber = acc.ballotNumber := by
  simp only [onCandidatePrepare]
  split_ifs <;> (try split) <;> simp

theorem ballotNumber_le_onPrepareRequest (self : Addr) (acc : ElectionAcceptor Addr)
    (req : ElectionPrepareRequestMsg Addr) (replace : Bool) :
    acc.ballotNumber ≤ (acc.onPrepareRequest self req replace).1.ballotNumber := by
  unfold onPrepareRequest
  by_cases hold : req.ballotNumber < acc.ballotNumber
  · rw [if_pos hold]
  · rw [if_neg hold]
    cases req.role with
    | leader =>
      dsimp only
      split_ifs
      · exact le_rfl
      · exact ballotNumber_le_advance acc _
    | follower => simp

theorem ballotNumber_le_onTimeWindowTask (self : Addr) (acc : ElectionAcceptor Addr) (canVote : Bool) :
    acc.ballotNumber ≤ (acc.onTimeWindowTask self canVote).1.ballotNumber := by
  unfold onTimeWindowTask
  split_ifs with h
  · split
    · split_ifs with hv
      · exact le_of_lt hv.2
      · exact le_rfl
    · exact le_rfl
  · exact le_rfl

theorem ballotNumber_le_onAcceptRequest (self : Addr) (acc : ElectionAcceptor Addr) (sender : Addr)
    (b : Int) : acc.ballotNumber ≤ (acc.onAcceptRequest self sender b).1.ballotNumber := by
  unfold onAcceptRequest
  split_ifs
  · exact le_rfl
  · exact ballotNumber_le_advance acc b
  · exact le_rfl

/-- What a handler sends: votes only for a ballot it has just raised its own to. -/
def VotesRaise [DecidableEq Addr] (self : Addr) (acc acc' : ElectionAcceptor Addr) (out : List (ElectionMsg Addr)) : Prop :=
  ∀ b, (out.filter (ElectionMsg.isVote self b)).length ≠ 0 →
    acc.ballotNumber < b ∧ acc'.ballotNumber = b ∧ (out.filter (ElectionMsg.isVote self b)).length = 1

theorem votesRaise_of_noVote [DecidableEq Addr] {self : Addr} {acc acc' : ElectionAcceptor Addr} {out : List (ElectionMsg Addr)}
    (h : ∀ b, out.filter (ElectionMsg.isVote self b) = []) : VotesRaise self acc acc' out := by
  intro b hb
  rw [h b] at hb
  exact absurd rfl hb

theorem votesRaise_single [DecidableEq Addr] {self r : Addr} {acc acc' : ElectionAcceptor Addr} {b : Int}
    (hlt : acc.ballotNumber < b) (hb : acc'.ballotNumber = b) :
    VotesRaise self acc acc' [.prepareResponse self r b true] := by
  intro b' hb'
  by_cases h : b = b'
  · subst h
    simp [ElectionMsg.isVote,hlt,hb]
  · simp [ElectionMsg.isVote,h] at hb'

theorem votesRaise_onPrepareRequest [DecidableEq Addr] (self : Addr) (acc : ElectionAcceptor Addr)
    (req : ElectionPrepareRequestMsg Addr) (replace : Bool) :
    VotesRaise self acc (acc.onPrepareRequest self req replace).1 (acc.onPrepareRequest self req replace).2 := by
  unfold onPrepareRequest
  by_cases hold : req.ballotNumber < acc.ballotNumber
  · rw [if_pos hold]
    exact votesRaise_of_noVote (fun b => by simp [ElectionMsg.isVote])
  · rw [if_neg hold]
    cases req.role with
    | leader =>
      dsimp only
      split_ifs with hle
      · exact votesRaise_of_noVote (fun b => by simp)
      · have hgt : acc.ballotNumber < req.ballotNumber := lt_of_not_ge hle
        have hadv : (acc.advanceBallotNumberAndResetRelatedStates req.ballotNumber).ballotNumber =
            req.ballotNumber := by
          simp [advanceBallotNumberAndResetRelatedStates,hgt]
        rw [hadv]
        exact votesRaise_single hgt hadv
    | follower => exact votesRaise_of_noVote (fun b => by simp)

theorem votesRaise_onTimeWindowTask [DecidableEq Addr] (self : Addr) (acc : ElectionAcceptor Addr) (canVote : Bool) :
    VotesRaise self acc (acc.onTimeWindowTask self canVote).1 (acc.onTimeWindowTask self canVote).2 := by
  unfold onTimeWindowTask
  split_ifs with h
  · split
    · split_ifs with hv
      · exact votesRaise_single hv.2 rfl
      · exact votesRaise_of_noVote (fun b => by simp)
    · exact votesRaise_of_noVote (fun b => by simp)
  · exact votesRaise_of_noVote (fun b => by simp)

theorem votesRaise_onAcceptRequest [DecidableEq Addr] (self : Addr) (acc : ElectionAcceptor Addr) (sender : Addr) (b : Int) :
    VotesRaise self acc (acc.onAcceptRequest self sender b).1 (acc.onAcceptRequest self sender b).2 := by
  unfold onAcceptRequest
  split_ifs <;> exact votesRaise_of_noVote (fun b => by simp [ElectionMsg.isVote])

theorem sender_onPrepareRequest (self : Addr) (acc : ElectionAcceptor Addr) (req : ElectionPrepareRequestMsg Addr)
    (replace : Bool) : ∀ m ∈ (acc.onPrepareRequest self req replace).2, m.sender = self := by
  unfold onPrepareRequest
  by_cases hold : req.ballotNumber < acc.ballotNumber
  · rw [if_pos hold]
    simp [ElectionMsg.sender]
  · rw [if_neg hold]
    cases req.role with
    | leader =>
      dsimp only
      split_ifs <;> simp [ElectionMsg.sender]
    | follower => simp

theorem sender_onTimeWindowTask (self : Addr) (acc : ElectionAcceptor Addr) (canVote : Bool) :
    ∀ m ∈ (acc.onTimeWindowTask self canVote).2, m.sender = self := by
  unfold onTimeWindowTask
  split_ifs
  · split
    · split_ifs <;> simp [ElectionMsg.sender]
    · simp
  · simp

theorem sender_onAcceptRequest (self : Addr) (acc : ElectionAcceptor Addr) (sender : Addr) (b : Int) :
    ∀ m ∈ (acc.onAcceptRequest self sender b).2, m.sender = self := by
  unfold onAcceptRequest
  split_ifs <;> simp [ElectionMsg.sender]

end ElectionAcceptor

end Election
end Palf
end OceanBase
