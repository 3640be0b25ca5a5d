import Mathlib
import OceanBase.Lib.Run
import OceanBase.Tx.IdService

/-! The replicas of one id service over one replicated log (`ob_id_service.cpp`,
`ob_timestamp_service.cpp`, with the log stream as the environment). The leader appends
`ObPresistIDLog`s through `submit_log_`; a log is then committed or dropped, and its author
learns which in `handle_submit_callback`. Every replica that does not lead applies the
committed logs in order through `handle_replay_result`. A replica takes over only when no
replica leads, no log is undecided, and it has replayed every committed log; it then runs
`switch_to_leader`. Any replica may apply any replica's persisted id meta
(`update_limited_id`) or persist its own (`flush`).

`get_number` only asks whether its replica leads when it starts: a call may go on after its
replica stepped down. The ranges of such a late call can meet those of the next leader (see
`getNumber_overlap_after_switch`); when a leader steps down only once none of its calls is in
flight (`QuietSwitch`), the ranges handed out are disjoint, each below a committed limit, and
ordered in real time (`getNumber_ranges_of_quiet_run`). -/
namespace OceanBase
namespace Transaction

def Within (a b : Int × Int) : Prop := b.1 ≤ a.1 ∧ a.2 ≤ b.2

/-- A range `get_number` handed out: `seen` counts the ranges handed out before its call began,
and `committed` the logs committed when it returned. -/
structure IssuedRange where
  replica : Nat
  startId : Int
  endId : Int
  seen : Nat
  committed : Nat
  deriving DecidableEq, Repr

def committedLimit (log : List (ObPresistIDLog × Nat)) : Int :=
  log.foldl (fun m p => max m p.1.limitId) minLastId

/-- The replicas' services, the committed log with each log's SCN, the largest SCN given out,
the log appended and not yet decided (with its author), the outcomes not yet called back, the
leader, how many logs each replica has replayed, the calls in flight by thread, and every range
handed out so far. -/
structure IdWorld where
  replicas : Nat → ObIDService
  log : List (ObPresistIDLog × Nat)
  logScn : Nat
  pending : Option (Nat × ObPresistIDLog × Nat)
  outcome : Nat → Option Bool
  leader : Option Nat
  replayed : Nat → Nat
  calls : Nat → Option GetNumberCall
  nextThread : Nat
  issued : List IssuedRange

/-- What the environment does: a caller starts `get_number` on a replica, a call in flight
takes its next step (`locked` is whether its `try_wrlock` would succeed), the log stream
decides the pending log, a callback, a replay or a role change runs, or a replica applies or
persists an id meta. -/
inductive IdEvent
  | getNumber (replica : Nat) (range baseId : Int)
  | resume (thread : Nat) (locked : Bool)
  | commitLog
  | dropLog
  | submitCallback (replica : Nat)
  | replay (replica : Nat)
  | switchToLeader (replica : Nat)
  | switchToFollower
  | updateLimitedId (replica source : Nat)
  | flush (replica : Nat)
  deriving DecidableEq, Repr

namespace IdWorld

/-- Every replica runs the same service, reset; nothing is logged and nobody leads. -/
def init (serviceType : ServiceType) (preAllocatedRange : Int) : IdWorld where
  replicas := fun _ => ObIDService.init serviceType preAllocatedRange
  log := []
  logScn := 0
  pending := none
  outcome := fun _ => none
  leader := none
  replayed := fun _ => 0
  calls := fun _ => none
  nextThread := 0
  issued := []

def setReplica (w : IdWorld) (r : Nat) (s : ObIDService) : IdWorld :=
  { w with replicas := Function.update w.replicas r s }

def setCall (w : IdWorld) (t : Nat) (c : Option GetNumberCall) : IdWorld :=
  { w with calls := Function.update w.calls t c }

def appendLog (w : IdWorld) (r : Nat) : Option (ObPresistIDLog × Nat) → IdWorld
  | some e => { w with pending := some (r,e.1,e.2), logScn := e.2 }
  | none => w

/-- The range a returning call hands out, recorded with when it was asked for and returned. -/
def handOut (w : IdWorld) (c : GetNumberCall) : Option (Int × Int) → IdWorld
  | some r => { w with issued := w.issued ++ [⟨c.replica,r.1,r.2,c.seen,w.log.length⟩] }
  | none => w

/-- Call `t` returns `ret`, after its last step left the service and the log `p`. -/
def finish (w : IdWorld) (t : Nat) (c : GetNumberCall) (ret : Except ObErr (Int × Int))
    (p : ObIDService × Option (ObPresistIDLog × Nat)) : IdWorld :=
  ((((w.setReplica c.replica p.1).setCall t none).appendLog c.replica p.2).handOut c ret.toOption)

def resume (w : IdWorld) (t : Nat) (c : GetNumberCall) (locked : Bool) : IdWorld :=
  match c.pc with
  | .loadLimit => w.setCall t (some (c.loadLimit (w.replicas c.replica)))
  | .reserve =>
    let p := c.reserve (w.replicas c.replica)
    (w.setReplica c.replica p.1).setCall t (some p.2)
  | .fetchAdd =>
    let p := c.fetchAdd (w.replicas c.replica)
    (w.setReplica c.replica p.1).setCall t (some p.2)
  | .reload => w.setCall t (some (c.reload (w.replicas c.replica)))
  | .tail ret =>
    w.finish t c ret
      (c.tail (w.replicas c.replica) ret locked (decide (w.leader = some c.replica)) w.logScn)

/-- A caller starts `get_number` on the leader `r`: `check_leader`, then the load of
`last_id_`. -/
def start (w : IdWorld) (r : Nat) (range baseId : Int) : IdWorld :=
  { w with
    calls := Function.update w.calls w.nextThread
      (some ⟨r,range,baseId,(w.replicas r).lastId,0,0,.loadLimit,w.issued.length⟩)
    nextThread := w.nextThread + 1 }

end IdWorld

open IdWorld in
/-- One event. A `get_number` on a replica that does not lead returns `OB_NOT_MASTER` and
changes nothing; an event the environment cannot produce in this state gives `none`. -/
def idStep (w : IdWorld) : IdEvent → Option IdWorld
  | .getNumber r range baseId => if w.leader = some r then some (w.start r range baseId) else some w
  | .resume t locked => (w.calls t).map fun c => w.resume t c locked
  | .commitLog => w.pending.map fun p =>
      { w with log := w.log ++ [(p.2.1,p.2.2)], pending := none,
               outcome := Function.update w.outcome p.1 (some true) }
  | .dropLog => w.pending.map fun p =>
      { w with pending := none, outcome := Function.update w.outcome p.1 (some false) }
  | .submitCallback r => (w.outcome r).map fun b =>
      { w.setReplica r ((w.replicas r).handleSubmitCallback b (w.replicas r).cbLimitedId
          (w.replicas r).cbLogTs) with outcome := Function.update w.outcome r none }
  | .replay r =>
    if w.leader = some r then none
    else (w.log[w.replayed r]?).bind fun e =>
      ((w.replicas r).handleReplayResult e.1.lastId e.1.limitId (some e.2)).toOption.map fun s =>
        { w.setReplica r s with replayed := Function.update w.replayed r (w.replayed r + 1) }
  | .switchToLeader r =>
    if w.leader = none ∧ w.pending = none ∧ w.replayed r = w.log.length then
      some { w.setReplica r ((w.replicas r).switchToLeader (some w.logScn)) with leader := some r }
    else none
  | .switchToFollower => if w.leader = none then none else some { w with leader := none }
  | .updateLimitedId r q =>
    some (w.setReplica r ((w.replicas r).updateLimitedId (w.replicas q).lsIdMeta.limitedId
      (w.replicas q).lsIdMeta.latestLogTs))
  | .flush r => some (w.setReplica r (w.replicas r).updateLsIdMeta)

/-- A leader steps down only once none of its `get_number` calls is in flight. -/
def QuietSwitch (w : IdWorld) : IdEvent → Prop
  | .switchToFollower =>
    ∀ t < w.nextThread, ((w.calls t).all fun c => w.leader != some c.replica) = true
  | _ => True

instance (w : IdWorld) (e : IdEvent) : Decidable (QuietSwitch w e) :=
  match e with
  | .switchToFollower => inferInstanceAs
      (Decidable (∀ t < w.nextThread, ((w.calls t).all fun c => w.leader != some c.replica) = true))
  | .getNumber .. | .resume .. | .commitLog | .dropLog | .submitCallback _ | .replay _
  | .switchToLeader _ | .updateLimitedId .. | .flush _ => isTrue trivial

@[simp] theorem IdWorld.setReplica_self (w : IdWorld) (r : Nat) : w.setReplica r (w.replicas r) = w := by
  simp [IdWorld.setReplica]

/-! ### The committed limit -/

theorem committedLimit_le_iff_aux (l : List (ObPresistIDLog × Nat)) (init B : Int) :
    l.foldl (fun m p => max m p.1.limitId) init ≤ B ↔ init ≤ B ∧ ∀ p ∈ l, p.1.limitId ≤ B := by
  induction l generalizing init with
  | nil => simp
  | cons p l ih =>
    rw [List.foldl_cons,ih,max_le_iff,List.forall_mem_cons]
    tauto

theorem committedLimit_le_iff {l : List (ObPresistIDLog × Nat)} {B : Int} :
    committedLimit l ≤ B ↔ minLastId ≤ B ∧ ∀ p ∈ l, p.1.limitId ≤ B :=
  committedLimit_le_iff_aux l minLastId B

theorem minLastId_le_committedLimit (l : List (ObPresistIDLog × Nat)) :
    minLastId ≤ committedLimit l :=
  (committedLimit_le_iff.mp le_rfl).1

theorem limitId_le_committedLimit {l : List (ObPresistIDLog × Nat)} {p : ObPresistIDLog × Nat}
    (hp : p ∈ l) : p.1.limitId ≤ committedLimit l :=
  (committedLimit_le_iff.mp le_rfl).2 p hp

theorem committedLimit_append (l : List (ObPresistIDLog × Nat)) (p : ObPresistIDLog × Nat) :
    committedLimit (l ++ [p]) = max (committedLimit l) p.1.limitId := by
  simp [committedLimit,List.foldl_append]

theorem committedLimit_mono {l l' : List (ObPresistIDLog × Nat)} (h : ∀ p ∈ l, p ∈ l') :
    committedLimit l ≤ committedLimit l' :=
  committedLimit_le_iff.mpr
    ⟨minLastId_le_committedLimit l',fun p hp => limitId_le_committedLimit (h p hp)⟩

theorem exists_limitId_of_le_committedLimit {l : List (ObPresistIDLog × Nat)} {v : Int}
    (hv : minLastId < v) (hle : v ≤ committedLimit l) : ∃ p ∈ l, v ≤ p.1.limitId := by
  by_contra hno
  simp only [not_exists,not_and,not_le] at hno
  have : committedLimit l ≤ v - 1 :=
    committedLimit_le_iff.mpr ⟨by omega,fun p hp => by have := hno p hp; omega⟩
  omega

namespace IdWorld

variable (w : IdWorld)

@[simp] theorem setReplica_replicas (r : Nat) (s : ObIDService) :
    (w.setReplica r s).replicas = Function.update w.replicas r s := rfl
@[simp] theorem setReplica_calls (r : Nat) (s : ObIDService) :
    (w.setReplica r s).calls = w.calls := rfl
@[simp] theorem setReplica_log (r : Nat) (s : ObIDService) : (w.setReplica r s).log = w.log := rfl
@[simp] theorem setReplica_leader (r : Nat) (s : ObIDService) :
    (w.setReplica r s).leader = w.leader := rfl
@[simp] theorem setReplica_issued (r : Nat) (s : ObIDService) :
    (w.setReplica r s).issued = w.issued := rfl
@[simp] theorem setReplica_pending (r : Nat) (s : ObIDService) :
    (w.setReplica r s).pending = w.pending := rfl
@[simp] theorem setReplica_outcome (r : Nat) (s : ObIDService) :
    (w.setReplica r s).outcome = w.outcome := rfl
@[simp] theorem setReplica_replayed (r : Nat) (s : ObIDService) :
    (w.setReplica r s).replayed = w.replayed := rfl
@[simp] theorem setReplica_nextThread (r : Nat) (s : ObIDService) :
    (w.setReplica r s).nextThread = w.nextThread := rfl

@[simp] theorem setCall_calls (t : Nat) (c : Option GetNumberCall) :
    (w.setCall t c).calls = Function.update w.calls t c := rfl
@[simp] theorem setCall_replicas (t : Nat) (c : Option GetNumberCall) :
    (w.setCall t c).replicas = w.replicas := rfl
@[simp] theorem setCall_log (t : Nat) (c : Option GetNumberCall) : (w.setCall t c).log = w.log := rfl
@[simp] theorem setCall_leader (t : Nat) (c : Option GetNumberCall) :
    (w.setCall t c).leader = w.leader := rfl
@[simp] theorem setCall_issued (t : Nat) (c : Option GetNumberCall) :
    (w.setCall t c).issued = w.issued := rfl
@[simp] theorem setCall_pending (t : Nat) (c : Option GetNumberCall) :
    (w.setCall t c).pending = w.pending := rfl
@[simp] theorem setCall_outcome (t : Nat) (c : Option GetNumberCall) :
    (w.setCall t c).outcome = w.outcome := rfl
@[simp] theorem setCall_replayed (t : Nat) (c : Option GetNumberCall) :
    (w.setCall t c).replayed = w.replayed := rfl
@[simp] theorem setCall_nextThread (t : Nat) (c : Option GetNumberCall) :
    (w.setCall t c).nextThread = w.nextThread := rfl

@[simp] theorem appendLog_none (r : Nat) : w.appendLog r none = w := rfl
@[simp] theorem appendLog_replicas (r : Nat) (o : Option (ObPresistIDLog × Nat)) :
    (w.appendLog r o).replicas = w.replicas := by cases o <;> rfl
@[simp] theorem appendLog_calls (r : Nat) (o : Option (ObPresistIDLog × Nat)) :
    (w.appendLog r o).calls = w.calls := by cases o <;> rfl
@[simp] theorem appendLog_log (r : Nat) (o : Option (ObPresistIDLog × Nat)) :
    (w.appendLog r o).log = w.log := by cases o <;> rfl
@[simp] theorem appendLog_leader (r : Nat) (o : Option (ObPresistIDLog × Nat)) :
    (w.appendLog r o).leader = w.leader := by cases o <;> rfl
@[simp] theorem appendLog_issued (r : Nat) (o : Option (ObPresistIDLog × Nat)) :
    (w.appendLog r o).issued = w.issued := by cases o <;> rfl
@[simp] theorem appendLog_outcome (r : Nat) (o : Option (ObPresistIDLog × Nat)) :
    (w.appendLog r o).outcome = w.outcome := by cases o <;> rfl
@[simp] theorem appendLog_replayed (r : Nat) (o : Option (ObPresistIDLog × Nat)) :
    (w.appendLog r o).replayed = w.replayed := by cases o <;> rfl
@[simp] theorem appendLog_nextThread (r : Nat) (o : Option (ObPresistIDLog × Nat)) :
    (w.appendLog r o).nextThread = w.nextThread := by cases o <;> rfl
theorem appendLog_pending (r : Nat) (o : Option (ObPresistIDLog × Nat)) :
    (w.appendLog r o).pending = (o.map fun e => (r,e.1,e.2)).or w.pending := by cases o <;> rfl

@[simp] theorem handOut_none (c : GetNumberCall) : w.handOut c none = w := rfl
@[simp] theorem handOut_replicas (c : GetNumberCall) (o : Option (Int × Int)) :
    (w.handOut c o).replicas = w.replicas := by cases o <;> rfl
@[simp] theorem handOut_calls (c : GetNumberCall) (o : Option (Int × Int)) :
    (w.handOut c o).calls = w.calls := by cases o <;> rfl
@[simp] theorem handOut_log (c : GetNumberCall) (o : Option (Int × Int)) :
    (w.handOut c o).log = w.log := by cases o <;> rfl
@[simp] theorem handOut_leader (c : GetNumberCall) (o : Option (Int × Int)) :
    (w.handOut c o).leader = w.leader := by cases o <;> rfl
@[simp] theorem handOut_pending (c : GetNumberCall) (o : Option (Int × Int)) :
    (w.handOut c o).pending = w.pending := by cases o <;> rfl
@[simp] theorem handOut_outcome (c : GetNumberCall) (o : Option (Int × Int)) :
    (w.handOut c o).outcome = w.outcome := by cases o <;> rfl
@[simp] theorem handOut_replayed (c : GetNumberCall) (o : Option (Int × Int)) :
    (w.handOut c o).replayed = w.replayed := by cases o <;> rfl
@[simp] theorem handOut_nextThread (c : GetNumberCall) (o : Option (Int × Int)) :
    (w.handOut c o).nextThread = w.nextThread := by cases o <;> rfl

end IdWorld

/-! ### The invariant -/

def Apart (a b : Int × Int) : Prop := a.2 ≤ b.1 ∨ b.2 ≤ a.1

theorem Apart.symm {a b : Int × Int} (h : Apart a b) : Apart b a := Or.symm h

theorem Apart.of_within {a a' b : Int × Int} (h : Apart a b) (hw : Within a' a) : Apart a' b := by
  unfold Apart at *
  unfold Within at hw
  omega

def IssuedRange.range (x : IssuedRange) : Int × Int := (x.startId,x.endId)

/-- What the replicas and the log keep, whoever calls: the ids persisted and replayed, the
pending log and the outcomes not yet called back. -/
structure LogInv (w : IdWorld) : Prop where
  settled : ∀ r, Settled (committedLimit w.log) (w.replicas r)
  log_ids : ∀ p ∈ w.log, p.1.lastId = p.1.limitId
  replayed_le : ∀ r, w.replayed r ≤ w.log.length ∧
    committedLimit (w.log.take (w.replayed r)) ≤ (w.replicas r).lastId
  pending_ok : ∀ a e n, w.pending = some (a,e,n) →
    e.lastId = e.limitId ∧ (w.replicas a).cbLimitedId = e.limitId ∧
      (w.replicas a).isLogging = true ∧ w.outcome a = none ∧ (w.leader = none ∨ w.leader = some a)
  outcome_logging : ∀ r b, w.outcome r = some b → (w.replicas r).isLogging = true
  outcome_committed : ∀ r, w.outcome r = some true →
    (w.replicas r).cbLimitedId ≤ committedLimit w.log

/-- What a call in flight knows: it runs on the leader; its loaded `last_id` is at least
`MIN_LAST_ID`, at most its replica's `last_id_`, and at least the end of every range handed out
before it began; a sized range is not empty; a range it holds starts at its `last_id` or above
and lies below `last_id_`; and a range it obtained lies below the committed limit. -/
structure CallOk (w : IdWorld) (c : GetNumberCall) : Prop where
  on_leader : w.leader = some c.replica
  lastId_ge : minLastId ≤ c.lastId
  lastId_le : c.lastId ≤ (w.replicas c.replica).lastId
  seen_le : c.seen ≤ w.issued.length
  seen_below : ∀ y ∈ w.issued.take c.seen, y.endId ≤ c.lastId
  alloc_pos : c.pc = .reserve ∨ c.pc = .fetchAdd → 0 < c.allocatedRange
  held_ok : ∀ h, c.held = some h → c.lastId ≤ h.1 ∧ h.1 < h.2 ∧ h.2 ≤ (w.replicas c.replica).lastId
  tail_le : ∀ ret r, c.pc = .tail ret → ret = .ok r → r.2 ≤ committedLimit w.log

/-- What the calls and the ranges keep: the ranges handed out and held are pairwise apart,
lie below the leader's `last_id_`, below the limit committed when they were handed out, and
after every range handed out before their call began. -/
structure AllocInv (w : IdWorld) : Prop where
  calls_ok : ∀ t c, w.calls t = some c → CallOk w c ∧ t < w.nextThread
  issued_ok : ∀ x ∈ w.issued, minLastId ≤ x.startId ∧ x.startId < x.endId ∧
    x.committed ≤ w.log.length ∧ x.endId ≤ committedLimit (w.log.take x.committed) ∧
    x.seen ≤ w.issued.length ∧ ∀ y ∈ w.issued.take x.seen, y.endId ≤ x.startId
  issued_below : ∀ L, w.leader = some L → ∀ x ∈ w.issued, x.endId ≤ (w.replicas L).lastId
  issued_apart : w.issued.Pairwise fun x y => Apart x.range y.range
  held_apart : ∀ t c h, w.calls t = some c → c.held = some h → ∀ x ∈ w.issued, Apart h x.range
  held_pair : ∀ t t' c c' h h', t ≠ t' → w.calls t = some c → w.calls t' = some c' →
    c.held = some h → c'.held = some h' → Apart h h'

structure IdInv (w : IdWorld) : Prop where
  log_inv : LogInv w
  alloc_inv : AllocInv w

theorem idInv_init (serviceType : ServiceType) (preAllocatedRange : Int) :
    IdInv (IdWorld.init serviceType preAllocatedRange) where
  log_inv := {
    settled := fun _ => ⟨rfl,le_rfl,le_rfl⟩
    log_ids := nofun
    replayed_le := fun _ => ⟨le_rfl,le_rfl⟩
    pending_ok := nofun
    outcome_logging := nofun
    outcome_committed := nofun }
  alloc_inv := {
    calls_ok := nofun
    issued_ok := nofun
    issued_below := nofun
    issued_apart := List.Pairwise.nil
    held_apart := nofun
    held_pair := fun _ _ _ _ _ _ _ h => nomatch h }

/-! ### Steps that leave the calls alone -/

section Frame

variable {w w' : IdWorld}

theorem CallOk.frame {c : GetNumberCall} (h : CallOk w c) (hleader : w'.leader = w.leader)
    (hissued : ∃ m, w'.issued = w.issued ++ m)
    (hlast : (w.replicas c.replica).lastId ≤ (w'.replicas c.replica).lastId)
    (hlog : committedLimit w.log ≤ committedLimit w'.log) : CallOk w' c := by
  obtain ⟨m,hm⟩ := hissued
  refine ⟨hleader.trans h.on_leader,h.lastId_ge,h.lastId_le.trans hlast,?_,?_,h.alloc_pos,?_,?_⟩
  · rw [hm,List.length_append]
    exact h.seen_le.trans (Nat.le_add_right _ _)
  · rw [hm,List.take_append_of_le_length h.seen_le]
    exact h.seen_below
  · intro r hr
    exact ⟨(h.held_ok r hr).1,(h.held_ok r hr).2.1,(h.held_ok r hr).2.2.trans hlast⟩
  · intro ret r hp hr
    exact (h.tail_le ret r hp hr).trans hlog

theorem CallOk.setCall {c : GetNumberCall} (h : CallOk w c) (t : Nat) (o : Option GetNumberCall) :
    CallOk (w.setCall t o) c :=
  h.frame rfl ⟨[],by simp⟩ le_rfl le_rfl

theorem CallOk.step {c c' : GetNumberCall} (h : CallOk w c) (hr : c'.replica = c.replica)
    (hl : c'.lastId = c.lastId) (hs : c'.seen = c.seen)
    (halloc : c'.pc = .reserve ∨ c'.pc = .fetchAdd → 0 < c'.allocatedRange)
    (hheld : ∀ r, c'.held = some r →
      c'.lastId ≤ r.1 ∧ r.1 < r.2 ∧ r.2 ≤ (w.replicas c'.replica).lastId)
    (htail : ∀ ret r, c'.pc = .tail ret → ret = .ok r → r.2 ≤ committedLimit w.log) :
    CallOk w c' where
  on_leader := hr ▸ h.on_leader
  lastId_ge := hl ▸ h.lastId_ge
  lastId_le := hl ▸ hr ▸ h.lastId_le
  seen_le := hs ▸ h.seen_le
  seen_below := hs ▸ hl ▸ h.seen_below
  alloc_pos := halloc
  held_ok := hheld
  tail_le := htail

theorem AllocInv.frame (h : AllocInv w) (hcalls : w'.calls = w.calls)
    (hnext : w'.nextThread = w.nextThread) (hissued : w'.issued = w.issued)
    (hleader : w'.leader = w.leader) (hlast : ∀ r, (w.replicas r).lastId ≤ (w'.replicas r).lastId)
    (hlog : ∃ m, w'.log = w.log ++ m) : AllocInv w' := by
  obtain ⟨m,hm⟩ := hlog
  have hM : committedLimit w.log ≤ committedLimit w'.log :=
    committedLimit_mono fun p hp => hm ▸ List.mem_append_left m hp
  refine ⟨?_,?_,?_,?_,?_,?_⟩
  · intro t c hc
    rw [hcalls] at hc
    have hok := h.calls_ok t c hc
    exact ⟨hok.1.frame hleader ⟨[],by simp [hissued]⟩ (hlast _) hM,hnext ▸ hok.2⟩
  · intro x hx
    rw [hissued] at hx ⊢
    obtain ⟨h1,h2,h3,h4,h5,h6⟩ := h.issued_ok x hx
    refine ⟨h1,h2,?_,?_,h5,h6⟩
    · rw [hm,List.length_append]
      omega
    · rw [hm,List.take_append_of_le_length h3]
      exact h4
  · intro L hL x hx
    rw [hissued] at hx
    exact (h.issued_below L (hleader ▸ hL) x hx).trans (hlast L)
  · rw [hissued]
    exact h.issued_apart
  · intro t c r hc hr x hx
    rw [hcalls] at hc
    rw [hissued] at hx
    exact h.held_apart t c r hc hr x hx
  · intro t t' c c' r r' htt hc hc'
    rw [hcalls] at hc hc'
    exact h.held_pair t t' c c' r r' htt hc hc'

theorem LogInv.setReplica (h : LogInv w) {r : Nat} {s' : ObIDService}
    (hr : Raises (committedLimit w.log) (w.replicas r) s')
    (hlog : s'.isLogging = (w.replicas r).isLogging)
    (hcb : s'.cbLimitedId = (w.replicas r).cbLimitedId) : LogInv (w.setReplica r s') := by
  refine ⟨?_,h.log_ids,?_,?_,?_,?_⟩
  · intro q
    by_cases hq : q = r
    · subst hq
      simpa using hr.settled
    · simpa [Function.update_of_ne hq] using h.settled q
  · intro q
    by_cases hq : q = r
    · subst hq
      simpa using ⟨(h.replayed_le q).1,(h.replayed_le q).2.trans hr.lastId_le⟩
    · simpa [Function.update_of_ne hq] using h.replayed_le q
  · intro a e n hp
    have hpa := h.pending_ok a e n hp
    by_cases ha : a = r
    · subst ha
      simpa [hlog,hcb] using hpa
    · simpa [Function.update_of_ne ha] using hpa
  · intro q b hq
    by_cases hqr : q = r
    · subst hqr
      simpa [hlog] using h.outcome_logging q b hq
    · simpa [Function.update_of_ne hqr] using h.outcome_logging q b hq
  · intro q hq
    by_cases hqr : q = r
    · subst hqr
      simpa [hcb] using h.outcome_committed q hq
    · simpa [Function.update_of_ne hqr] using h.outcome_committed q hq

theorem lastId_le_update {r : Nat} {s' : ObIDService} (hr : (w.replicas r).lastId ≤ s'.lastId)
    (q : Nat) : (w.replicas q).lastId ≤ (Function.update w.replicas r s' q).lastId := by
  by_cases hq : q = r
  · subst hq
    simpa using hr
  · simp [Function.update_of_ne hq]

theorem IdInv.setReplica (h : IdInv w) {r : Nat} {s' : ObIDService}
    (hr : Raises (committedLimit w.log) (w.replicas r) s')
    (hlog : s'.isLogging = (w.replicas r).isLogging)
    (hcb : s'.cbLimitedId = (w.replicas r).cbLimitedId) : IdInv (w.setReplica r s') :=
  ⟨h.log_inv.setReplica hr hlog hcb,
    h.alloc_inv.frame rfl rfl rfl rfl (lastId_le_update hr.lastId_le) ⟨[],by simp⟩⟩

end Frame

/-! ### The log stream's events -/

section LogEvents

variable {w : IdWorld}

theorem IdInv.commitLog (h : IdInv w) {a : Nat} {e : ObPresistIDLog} {n : Nat}
    (hp : w.pending = some (a,e,n)) :
    IdInv { w with log := w.log ++ [(e,n)], pending := none,
                   outcome := Function.update w.outcome a (some true) } := by
  have hl := h.log_inv
  obtain ⟨hid,hcb,hlogging,-,-⟩ := hl.pending_ok a e n hp
  have hM : committedLimit w.log ≤ committedLimit (w.log ++ [(e,n)]) :=
    committedLimit_mono fun p hp => List.mem_append_left _ hp
  have he : e.limitId ≤ committedLimit (w.log ++ [(e,n)]) :=
    limitId_le_committedLimit (p := (e,n)) (by simp)
  refine ⟨⟨fun r => (hl.settled r).mono hM,?_,?_,nofun,?_,?_⟩,
    h.alloc_inv.frame rfl rfl rfl rfl (fun _ => le_rfl) ⟨[(e,n)],rfl⟩⟩
  · intro p hp
    rcases List.mem_append.mp hp with hp | hp
    · exact hl.log_ids p hp
    · rw [List.mem_singleton] at hp
      subst hp
      exact hid
  · intro r
    have hr := hl.replayed_le r
    refine ⟨hr.1.trans (by simp),?_⟩
    rw [List.take_append_of_le_length hr.1]
    exact hr.2
  · intro r b hr
    by_cases hra : r = a
    · subst hra
      exact hlogging
    · simp only [Function.update_of_ne hra] at hr
      exact hl.outcome_logging r b hr
  · intro r hr
    by_cases hra : r = a
    · subst hra
      exact hcb ▸ he
    · simp only [Function.update_of_ne hra] at hr
      exact (hl.outcome_committed r hr).trans hM

theorem IdInv.dropLog (h : IdInv w) {a : Nat} {e : ObPresistIDLog} {n : Nat}
    (hp : w.pending = some (a,e,n)) :
    IdInv { w with pending := none, outcome := Function.update w.outcome a (some false) } := by
  have hl := h.log_inv
  have hlogging := (hl.pending_ok a e n hp).2.2.1
  refine ⟨⟨hl.settled,hl.log_ids,hl.replayed_le,nofun,?_,?_⟩,
    h.alloc_inv.frame rfl rfl rfl rfl (fun _ => le_rfl) ⟨[],by simp⟩⟩
  · intro r b hr
    by_cases hra : r = a
    · subst hra
      exact hlogging
    · simp only [Function.update_of_ne hra] at hr
      exact hl.outcome_logging r b hr
  · intro r hr
    by_cases hra : r = a
    · subst hra
      simp at hr
    · simp only [Function.update_of_ne hra] at hr
      exact hl.outcome_committed r hr

theorem IdInv.submitCallback (h : IdInv w) {r : Nat} {b : Bool} (hb : w.outcome r = some b) :
    IdInv { w.setReplica r ((w.replicas r).handleSubmitCallback b (w.replicas r).cbLimitedId
      (w.replicas r).cbLogTs) with outcome := Function.update w.outcome r none } := by
  have hl := h.log_inv
  have hr : Raises (committedLimit w.log) (w.replicas r) ((w.replicas r).handleSubmitCallback b
      (w.replicas r).cbLimitedId (w.replicas r).cbLogTs) :=
    ObIDService.handleSubmitCallback_raises (hl.settled r)
      (fun hbt => hl.outcome_committed r (hbt ▸ hb)) _
  have hpend : ∀ a e n, w.pending = some (a,e,n) → a ≠ r := by
    intro a e n hp har
    have := (hl.pending_ok a e n hp).2.2.2.1
    rw [har,hb] at this
    cases this
  refine ⟨⟨?_,hl.log_ids,?_,?_,?_,?_⟩,
    h.alloc_inv.frame rfl rfl rfl rfl (lastId_le_update hr.lastId_le) ⟨[],by simp⟩⟩
  · intro q
    by_cases hq : q = r
    · subst hq
      simpa using hr.settled
    · simpa [Function.update_of_ne hq] using hl.settled q
  · intro q
    by_cases hq : q = r
    · subst hq
      simpa using ⟨(hl.replayed_le q).1,(hl.replayed_le q).2.trans hr.lastId_le⟩
    · simpa [Function.update_of_ne hq] using hl.replayed_le q
  · intro a e n hp
    have ha := hpend a e n hp
    simpa [Function.update_of_ne ha] using hl.pending_ok a e n hp
  · intro q b' hq
    by_cases hqr : q = r
    · subst hqr
      simp at hq
    · simp only [Function.update_of_ne hqr] at hq
      simpa [Function.update_of_ne hqr] using hl.outcome_logging q b' hq
  · intro q hq
    by_cases hqr : q = r
    · subst hqr
      simp at hq
    · simp only [Function.update_of_ne hqr] at hq
      simpa [Function.update_of_ne hqr] using hl.outcome_committed q hq

theorem IdInv.replay (h : IdInv w) {r : Nat} {e : ObPresistIDLog × Nat}
    (he : w.log[w.replayed r]? = some e) {s' : ObIDService}
    (hs : (w.replicas r).handleReplayResult e.1.lastId e.1.limitId (some e.2) = .ok s') :
    IdInv { w.setReplica r s' with replayed := Function.update w.replayed r (w.replayed r + 1) } := by
  have hl := h.log_inv
  obtain ⟨hk,-⟩ := List.getElem?_eq_some_iff.mp he
  have hmem : e ∈ w.log := List.mem_of_getElem? he
  rw [hl.log_ids e hmem] at hs
  obtain ⟨hr,hlast⟩ :=
    ObIDService.handleReplayResult_raises (hl.settled r) (limitId_le_committedLimit hmem) hs
  have h1 := h.setReplica hr (ObIDService.handleReplayResult_cb hs).1
    (ObIDService.handleReplayResult_cb hs).2
  refine ⟨⟨h1.log_inv.settled,h1.log_inv.log_ids,?_,h1.log_inv.pending_ok,
    h1.log_inv.outcome_logging,h1.log_inv.outcome_committed⟩,
    h1.alloc_inv.frame rfl rfl rfl rfl (fun _ => le_rfl) ⟨[],by simp⟩⟩
  intro q
  by_cases hq : q = r
  · subst hq
    have htake : w.log.take (w.replayed q + 1) = w.log.take (w.replayed q) ++ [e] := by
      rw [List.take_add_one,he]
      rfl
    simp only [Function.update_self,IdWorld.setReplica_log,IdWorld.setReplica_replicas]
    refine ⟨hk,?_⟩
    rw [htake,committedLimit_append]
    exact max_le ((hl.replayed_le q).2.trans hr.lastId_le) hlast
  · simpa [Function.update_of_ne hq] using h1.log_inv.replayed_le q

theorem IdInv.switchToLeader (h : IdInv w) {r : Nat} (hnone : w.leader = none)
    (hpend : w.pending = none) (hrep : w.replayed r = w.log.length) :
    IdInv { w.setReplica r ((w.replicas r).switchToLeader (some w.logScn)) with leader := some r } := by
  have hl := h.log_inv
  have ha := h.alloc_inv
  have hr := ObIDService.switchToLeader_raises (hl.settled r) (some w.logScn)
  have h1 := h.setReplica hr (by simp) (by simp)
  have hcalls : ∀ t, w.calls t = none := by
    intro t
    cases hc : w.calls t with
    | none => rfl
    | some c => exact absurd ((ha.calls_ok t c hc).1.on_leader.symm.trans hnone) nofun
  refine ⟨⟨h1.log_inv.settled,h1.log_inv.log_ids,h1.log_inv.replayed_le,?_,
    h1.log_inv.outcome_logging,h1.log_inv.outcome_committed⟩,⟨?_,h1.alloc_inv.issued_ok,?_,
    h1.alloc_inv.issued_apart,?_,?_⟩⟩
  · intro a e n hp
    simp [hpend] at hp
  · intro t c hc
    simp [hcalls t] at hc
  · intro L hL x hx
    simp only [Option.some.injEq] at hL
    subst hL
    obtain ⟨-,-,hc,hx4,-⟩ := ha.issued_ok x hx
    have hall : committedLimit w.log ≤ (w.replicas r).lastId := by
      have := (hl.replayed_le r).2
      rwa [hrep,List.take_length] at this
    calc x.endId ≤ committedLimit (w.log.take x.committed) := hx4
      _ ≤ committedLimit w.log := committedLimit_mono fun p hp => List.mem_of_mem_take hp
      _ ≤ (w.replicas r).lastId := hall
      _ ≤ _ := by simpa using hr.lastId_le
  · intro t c _ hc
    simp [hcalls t] at hc
  · intro t _ c _ _ _ _ hc
    simp [hcalls t] at hc

theorem IdInv.switchToFollower (h : IdInv w)
    (hquiet : ∀ t < w.nextThread, ((w.calls t).all fun c => w.leader != some c.replica) = true) :
    IdInv { w with leader := none } := by
  have hl := h.log_inv
  have ha := h.alloc_inv
  have hcalls : ∀ t, w.calls t = none := by
    intro t
    cases hc : w.calls t with
    | none => rfl
    | some c =>
      have hok := ha.calls_ok t c hc
      have := hquiet t hok.2
      simp [hc,hok.1.on_leader] at this
  refine ⟨⟨hl.settled,hl.log_ids,hl.replayed_le,?_,hl.outcome_logging,hl.outcome_committed⟩,
    ⟨?_,ha.issued_ok,nofun,ha.issued_apart,?_,?_⟩⟩
  · intro a e n hp
    obtain ⟨h1,h2,h3,h4,-⟩ := hl.pending_ok a e n hp
    exact ⟨h1,h2,h3,h4,.inl rfl⟩
  · intro t c hc
    simp [hcalls t] at hc
  · intro t c _ hc
    simp [hcalls t] at hc
  · intro t _ c _ _ _ _ hc
    simp [hcalls t] at hc

theorem IdInv.updateLimitedId (h : IdInv w) (r q : Nat) :
    IdInv (w.setReplica r ((w.replicas r).updateLimitedId (w.replicas q).lsIdMeta.limitedId
      (w.replicas q).lsIdMeta.latestLogTs)) :=
  h.setReplica (ObIDService.updateLimitedId_raises (h.log_inv.settled r)
    (h.log_inv.settled q).meta_le _) rfl rfl

theorem IdInv.flush (h : IdInv w) (r : Nat) :
    IdInv (w.setReplica r (w.replicas r).updateLsIdMeta) :=
  h.setReplica ⟨(h.log_inv.settled r).updateLsIdMeta,le_rfl⟩ rfl rfl

end LogEvents

/-! ### The steps of a call -/

section CallSteps

variable {w : IdWorld}

theorem IdInv.replaceCall (h : IdInv w) {t : Nat} {c c' : GetNumberCall}
    (hc : w.calls t = some c) (hok : CallOk w c')
    (hheld : ∀ r', c'.held = some r' → ∃ r, c.held = some r ∧ Within r' r) :
    IdInv (w.setCall t (some c')) := by
  have hl := h.log_inv
  have ha := h.alloc_inv
  refine ⟨⟨hl.settled,hl.log_ids,hl.replayed_le,hl.pending_ok,hl.outcome_logging,
    hl.outcome_committed⟩,⟨?_,ha.issued_ok,ha.issued_below,ha.issued_apart,?_,?_⟩⟩
  · intro u d hd
    by_cases hu : u = t
    · subst hu
      simp only [IdWorld.setCall_calls,Function.update_self,Option.some.injEq] at hd
      subst hd
      exact ⟨hok.setCall u _,(ha.calls_ok u c hc).2⟩
    · simp only [IdWorld.setCall_calls,Function.update_of_ne hu] at hd
      exact ⟨(ha.calls_ok u d hd).1.setCall t _,(ha.calls_ok u d hd).2⟩
  · intro u d r' hd hr' x hx
    by_cases hu : u = t
    · subst hu
      simp only [IdWorld.setCall_calls,Function.update_self,Option.some.injEq] at hd
      subst hd
      obtain ⟨r,hr,hw⟩ := hheld r' hr'
      exact (ha.held_apart u c r hc hr x hx).of_within hw
    · simp only [IdWorld.setCall_calls,Function.update_of_ne hu] at hd
      exact ha.held_apart u d r' hd hr' x hx
  · intro u u' d d' r₁ r₂ huu hd hd' hr₁ hr₂
    simp only [IdWorld.setCall_calls] at hd hd'
    by_cases hu : u = t
    · subst hu
      simp only [Function.update_self,Option.some.injEq] at hd
      subst hd
      rw [Function.update_of_ne (Ne.symm huu)] at hd'
      obtain ⟨r,hr,hw⟩ := hheld r₁ hr₁
      exact (ha.held_pair u u' c d' r r₂ huu hc hd' hr hr₂).of_within hw
    · rw [Function.update_of_ne hu] at hd
      by_cases hu' : u' = t
      · subst hu'
        simp only [Function.update_self,Option.some.injEq] at hd'
        subst hd'
        obtain ⟨r,hr,hw⟩ := hheld r₂ hr₂
        exact ((ha.held_pair u' u c d r r₁ (Ne.symm huu) hc hd hr hr₁).of_within hw).symm
      · rw [Function.update_of_ne hu'] at hd'
        exact ha.held_pair u u' d d' r₁ r₂ huu hd hd' hr₁ hr₂

theorem IdInv.carve (h : IdInv w) {t : Nat} {c c' : GetNumberCall} (hc : w.calls t = some c)
    {a b v : Int} (hstart : (w.replicas c.replica).lastId ≤ a)
    (hv : (w.replicas c.replica).lastId ≤ v) (hheld : c'.held = some (a,b))
    (hok : CallOk (w.setReplica c.replica { w.replicas c.replica with lastId := v }) c') :
    IdInv ((w.setReplica c.replica { w.replicas c.replica with lastId := v }).setCall t
      (some c')) := by
  have ha := h.alloc_inv
  have hc0 := (ha.calls_ok t c hc).1
  have hraise : Raises (committedLimit w.log) (w.replicas c.replica)
      { w.replicas c.replica with lastId := v } :=
    ⟨⟨(h.log_inv.settled _).tmpLastId_eq,(h.log_inv.settled _).limitedId_le,
      (h.log_inv.settled _).meta_le⟩,hv⟩
  have h1 := h.setReplica hraise rfl rfl
  have hbelow_issued : ∀ x ∈ w.issued, Apart (a,b) x.range := fun x hx =>
    .inr ((ha.issued_below c.replica hc0.on_leader x hx).trans hstart)
  have hbelow_held : ∀ u d r, u ≠ t → w.calls u = some d → d.held = some r → Apart (a,b) r := by
    intro u d r _ hd hr
    have hd0 := (ha.calls_ok u d hd).1
    have hrep : d.replica = c.replica :=
      Option.some.inj (hd0.on_leader.symm.trans hc0.on_leader)
    exact .inr ((hd0.held_ok r hr).2.2.trans (hrep ▸ hstart))
  refine ⟨⟨h1.log_inv.settled,h1.log_inv.log_ids,h1.log_inv.replayed_le,h1.log_inv.pending_ok,
    h1.log_inv.outcome_logging,h1.log_inv.outcome_committed⟩,⟨?_,h1.alloc_inv.issued_ok,
    h1.alloc_inv.issued_below,h1.alloc_inv.issued_apart,?_,?_⟩⟩
  · intro u d hd
    by_cases hu : u = t
    · subst hu
      simp only [IdWorld.setCall_calls,Function.update_self,Option.some.injEq] at hd
      subst hd
      exact ⟨hok.setCall u _,(ha.calls_ok u c hc).2⟩
    · simp only [IdWorld.setCall_calls,Function.update_of_ne hu,IdWorld.setReplica_calls] at hd
      exact ⟨(h1.alloc_inv.calls_ok u d hd).1.setCall t _,(h1.alloc_inv.calls_ok u d hd).2⟩
  · intro u d r' hd hr' x hx
    simp only [IdWorld.setCall_issued,IdWorld.setReplica_issued] at hx
    by_cases hu : u = t
    · subst hu
      simp only [IdWorld.setCall_calls,Function.update_self,Option.some.injEq] at hd
      subst hd
      rw [hheld,Option.some.injEq] at hr'
      subst hr'
      exact hbelow_issued x hx
    · simp only [IdWorld.setCall_calls,Function.update_of_ne hu,IdWorld.setReplica_calls] at hd
      exact ha.held_apart u d r' hd hr' x hx
  · intro u u' d d' r₁ r₂ huu hd hd' hr₁ hr₂
    simp only [IdWorld.setCall_calls,IdWorld.setReplica_calls] at hd hd'
    by_cases hu : u = t
    · subst hu
      simp only [Function.update_self,Option.some.injEq] at hd
      subst hd
      rw [Function.update_of_ne (Ne.symm huu)] at hd'
      rw [hheld,Option.some.injEq] at hr₁
      subst hr₁
      exact hbelow_held u' d' r₂ (Ne.symm huu) hd' hr₂
    · rw [Function.update_of_ne hu] at hd
      by_cases hu' : u' = t
      · subst hu'
        simp only [Function.update_self,Option.some.injEq] at hd'
        subst hd'
        rw [hheld,Option.some.injEq] at hr₂
        subst hr₂
        exact (hbelow_held u d r₁ hu hd hr₁).symm
      · rw [Function.update_of_ne hu'] at hd'
        exact ha.held_pair u u' d d' r₁ r₂ huu hd hd' hr₁ hr₂

theorem IdInv.loadLimit (h : IdInv w) {t : Nat} {c : GetNumberCall} (hc : w.calls t = some c) :
    IdInv (w.setCall t (some (c.loadLimit (w.replicas c.replica)))) := by
  have hok := (h.alloc_inv.calls_ok t c hc).1
  dsimp only [GetNumberCall.loadLimit]
  split_ifs with hle
  · refine h.replaceCall hc (hok.step rfl rfl rfl (fun hp => by simp at hp) ?_ ?_) ?_
    · intro r hr
      simp [GetNumberCall.held,Except.toOption] at hr
    · intro ret r hp hr
      simp only [GetNumberPc.tail.injEq] at hp
      subst hp
      cases hr
    · intro r hr
      simp [GetNumberCall.held,Except.toOption] at hr
  · refine h.replaceCall hc (hok.step rfl rfl rfl (fun _ => by dsimp only; omega) ?_ ?_) ?_
    · intro r hr
      simp [GetNumberCall.held] at hr
    · intro ret r hp
      cases hp
    · intro r hr
      simp [GetNumberCall.held] at hr

theorem IdInv.fetchAdd (h : IdInv w) {t : Nat} {c : GetNumberCall} (hc : w.calls t = some c)
    (halloc : 0 < c.allocatedRange) :
    IdInv ((w.setReplica c.replica (c.fetchAdd (w.replicas c.replica)).1).setCall t
      (some (c.fetchAdd (w.replicas c.replica)).2)) := by
  have hok := (h.alloc_inv.calls_ok t c hc).1
  dsimp only [GetNumberCall.fetchAdd]
  refine h.carve hc le_rfl (by omega) (GetNumberCall.held_reload rfl)
    (CallOk.step (hok.frame rfl ⟨[],by simp⟩ (by simp; omega) le_rfl) rfl rfl rfl
      (fun hp => by simp at hp) ?_ ?_)
  · intro r hr
    simp only [GetNumberCall.held,Option.some.injEq] at hr
    subst hr
    simp only [IdWorld.setReplica_replicas,Function.update_self]
    exact ⟨hok.lastId_le,by omega,le_rfl⟩
  · intro ret r hp
    cases hp

theorem IdInv.reserve (h : IdInv w) {t : Nat} {c : GetNumberCall} (hc : w.calls t = some c)
    (hpc : c.pc = .reserve) :
    IdInv ((w.setReplica c.replica (c.reserve (w.replicas c.replica)).1).setCall t
      (some (c.reserve (w.replicas c.replica)).2)) := by
  have hok := (h.alloc_inv.calls_ok t c hc).1
  have halloc := hok.alloc_pos (.inl hpc)
  dsimp only [GetNumberCall.reserve]
  split_ifs with hgt heq
  · refine h.carve hc (by dsimp only; omega) (by omega) (GetNumberCall.held_reload rfl)
      (CallOk.step (hok.frame rfl ⟨[],by simp⟩ (by simp; omega) le_rfl) rfl rfl rfl
        (fun hp => by simp at hp) ?_ ?_)
    · intro r hr
      simp only [GetNumberCall.held,Option.some.injEq] at hr
      subst hr
      simp only [IdWorld.setReplica_replicas,Function.update_self]
      exact ⟨by omega,by omega,le_rfl⟩
    · intro ret r hp
      cases hp
  · simp only [IdWorld.setReplica_self]
    refine h.replaceCall hc (hok.step rfl rfl rfl (fun _ => halloc) ?_ ?_) ?_
    · intro r hr
      simp [GetNumberCall.held] at hr
    · intro ret r hp
      cases hp
    · intro r hr
      simp [GetNumberCall.held] at hr
  · exact h.fetchAdd hc halloc

theorem IdInv.reload (h : IdInv w) {t : Nat} {c : GetNumberCall} (hc : w.calls t = some c)
    (hpc : c.pc = .reload) : IdInv (w.setCall t (some (c.reload (w.replicas c.replica)))) := by
  have hok := (h.alloc_inv.calls_ok t c hc).1
  have hheld := hok.held_ok _ (GetNumberCall.held_reload hpc)
  have hlim := (h.log_inv.settled c.replica).limitedId_le
  dsimp only [GetNumberCall.reload]
  split_ifs with hge
  · refine h.replaceCall hc (hok.step rfl rfl rfl (fun hp => by simp at hp) ?_ ?_) ?_
    · intro r hr
      simp [GetNumberCall.held,Except.toOption] at hr
    · intro ret r hp hr
      simp only [GetNumberPc.tail.injEq] at hp
      subst hp
      cases hr
    · intro r hr
      simp [GetNumberCall.held,Except.toOption] at hr
  · refine h.replaceCall hc (hok.step rfl rfl rfl (fun hp => by simp at hp) ?_ ?_) ?_
    · intro r hr
      simp only [GetNumberCall.held,Except.toOption,Option.some.injEq] at hr
      subst hr
      simp only at hheld ⊢
      refine ⟨hheld.1,?_,?_⟩
      · simp only [lt_min_iff]
        omega
      · exact (min_le_left _ _).trans hheld.2.2
    · intro ret r hp hr
      simp only [GetNumberPc.tail.injEq] at hp
      subst hp
      simp only [Except.ok.injEq] at hr
      subst hr
      exact (min_le_right _ _).trans hlim
    · intro r hr
      simp only [GetNumberCall.held,Except.toOption,Option.some.injEq] at hr
      subst hr
      exact ⟨_,GetNumberCall.held_reload hpc,le_rfl,min_le_left _ _⟩

theorem IdInv.start (h : IdInv w) {r : Nat} (hr : w.leader = some r) (range baseId : Int) :
    IdInv (w.start r range baseId) := by
  have hl := h.log_inv
  have ha := h.alloc_inv
  let c : GetNumberCall := ⟨r,range,baseId,(w.replicas r).lastId,0,0,.loadLimit,w.issued.length⟩
  have hnone : c.held = none := GetNumberCall.held_eq_none (.inl rfl)
  have hok : CallOk (w.start r range baseId) c := {
    on_leader := hr
    lastId_ge := (minLastId_le_committedLimit _).trans (hl.replayed_le r).2
    lastId_le := le_rfl
    seen_le := le_rfl
    seen_below := by
      show ∀ y ∈ w.issued.take w.issued.length, y.endId ≤ (w.replicas r).lastId
      rw [List.take_length]
      exact ha.issued_below r hr
    alloc_pos := fun hp => by simp [c] at hp
    held_ok := fun _ hh => by simp [hnone] at hh
    tail_le := fun _ _ hp => by simp [c] at hp }
  have hcalls : ∀ u, u ≠ w.nextThread → (w.start r range baseId).calls u = w.calls u :=
    fun u hu => Function.update_of_ne hu _ _
  refine ⟨⟨hl.settled,hl.log_ids,hl.replayed_le,hl.pending_ok,hl.outcome_logging,
    hl.outcome_committed⟩,⟨?_,ha.issued_ok,ha.issued_below,ha.issued_apart,?_,?_⟩⟩
  · intro u d hd
    by_cases hu : u = w.nextThread
    · subst hu
      simp only [IdWorld.start,Function.update_self,Option.some.injEq] at hd
      subst hd
      exact ⟨hok,Nat.lt_succ_self _⟩
    · rw [hcalls u hu] at hd
      have hd0 := ha.calls_ok u d hd
      exact ⟨hd0.1.frame rfl ⟨[],by simp [IdWorld.start]⟩ le_rfl le_rfl,
        Nat.lt_succ_of_lt hd0.2⟩
  · intro u d r' hd hr' x hx
    by_cases hu : u = w.nextThread
    · subst hu
      simp only [IdWorld.start,Function.update_self,Option.some.injEq] at hd
      subst hd
      simp [GetNumberCall.held] at hr'
    · rw [hcalls u hu] at hd
      exact ha.held_apart u d r' hd hr' x hx
  · intro u u' d d' r₁ r₂ huu hd hd' hr₁ hr₂
    by_cases hu : u = w.nextThread
    · subst hu
      simp only [IdWorld.start,Function.update_self,Option.some.injEq] at hd
      subst hd
      simp [GetNumberCall.held] at hr₁
    · by_cases hu' : u' = w.nextThread
      · subst hu'
        simp only [IdWorld.start,Function.update_self,Option.some.injEq] at hd'
        subst hd'
        simp [GetNumberCall.held] at hr₂
      · rw [hcalls u hu] at hd
        rw [hcalls u' hu'] at hd'
        exact ha.held_pair u u' d d' r₁ r₂ huu hd hd' hr₁ hr₂

theorem LogInv.finish (hl : LogInv w) {t : Nat} {c : GetNumberCall} {s' : ObIDService}
    {out : Option (ObPresistIDLog × Nat)}
    (hr : Raises (committedLimit w.log) (w.replicas c.replica) s')
    (hlogging : (w.replicas c.replica).isLogging = true →
      s'.isLogging = true ∧ s'.cbLimitedId = (w.replicas c.replica).cbLimitedId)
    (hnone : out = none → s'.isLogging = (w.replicas c.replica).isLogging)
    (happ : ∀ e, out = some e → (w.replicas c.replica).isLogging = false ∧
      w.leader = some c.replica ∧ s'.isLogging = true ∧ s'.cbLimitedId = e.1.limitId ∧
      e.1.lastId = e.1.limitId)
    (o : Option (Int × Int)) :
    LogInv ((((w.setReplica c.replica s').setCall t none).appendLog c.replica out).handOut c o) := by
  have hrep : ∀ q, ((w.setReplica c.replica s').replicas q).lastId ≥ (w.replicas q).lastId :=
    fun q => lastId_le_update hr.lastId_le q
  refine ⟨?_,by simpa using hl.log_ids,?_,?_,?_,?_⟩
  · intro q
    by_cases hq : q = c.replica
    · subst hq
      simpa using hr.settled
    · simpa [Function.update_of_ne hq] using hl.settled q
  · intro q
    simp only [IdWorld.handOut_replayed,IdWorld.appendLog_replayed,IdWorld.setCall_replayed,
      IdWorld.setReplica_replayed,IdWorld.handOut_log,IdWorld.appendLog_log,IdWorld.setCall_log,
      IdWorld.setReplica_log,IdWorld.handOut_replicas,IdWorld.appendLog_replicas,
      IdWorld.setCall_replicas]
    exact ⟨(hl.replayed_le q).1,(hl.replayed_le q).2.trans (hrep q)⟩
  · intro a e n hp
    simp only [IdWorld.handOut_pending,IdWorld.appendLog_pending,IdWorld.setCall_pending,
      IdWorld.setReplica_pending] at hp
    simp only [IdWorld.handOut_replicas,IdWorld.appendLog_replicas,IdWorld.setCall_replicas,
      IdWorld.setReplica_replicas,IdWorld.handOut_outcome,IdWorld.appendLog_outcome,
      IdWorld.setCall_outcome,IdWorld.setReplica_outcome,IdWorld.handOut_leader,
      IdWorld.appendLog_leader,IdWorld.setCall_leader,IdWorld.setReplica_leader]
    cases out with
    | some e' =>
      simp only [Option.map_some,Option.some_or,Option.some.injEq,Prod.mk.injEq] at hp
      obtain ⟨rfl,rfl,rfl⟩ := hp
      obtain ⟨hnl,hlead,hlog',hcb',hid⟩ := happ e' rfl
      have hout : w.outcome c.replica = none := by
        cases ho : w.outcome c.replica with
        | none => rfl
        | some b => exact absurd (hl.outcome_logging _ b ho) (by simp [hnl])
      exact ⟨hid,by simpa using hcb',by simpa using hlog',hout,.inr hlead⟩
    | none =>
      simp only [Option.map_none,Option.none_or] at hp
      have hpa := hl.pending_ok a e n hp
      by_cases ha : a = c.replica
      · subst ha
        obtain ⟨h1,h2⟩ := hlogging hpa.2.2.1
        simpa [h1,h2,hpa.2.2.1] using hpa
      · simpa [Function.update_of_ne ha] using hpa
  · intro q b hq
    simp only [IdWorld.handOut_outcome,IdWorld.appendLog_outcome,IdWorld.setCall_outcome,
      IdWorld.setReplica_outcome] at hq
    have hlq := hl.outcome_logging q b hq
    by_cases hqr : q = c.replica
    · subst hqr
      simpa using (hlogging hlq).1
    · simpa [Function.update_of_ne hqr] using hlq
  · intro q hq
    simp only [IdWorld.handOut_outcome,IdWorld.appendLog_outcome,IdWorld.setCall_outcome,
      IdWorld.setReplica_outcome] at hq
    have hcq := hl.outcome_committed q hq
    by_cases hqr : q = c.replica
    · subst hqr
      simpa [(hlogging (hl.outcome_logging _ true hq)).2] using hcq
    · simpa [Function.update_of_ne hqr] using hcq

theorem AllocInv.release (ha : AllocInv w) (t : Nat) {r : Nat} {s' : ObIDService}
    (hlast : (w.replicas r).lastId ≤ s'.lastId) (out : Option (ObPresistIDLog × Nat)) :
    AllocInv (((w.setReplica r s').setCall t none).appendLog r out) := by
  have hup := lastId_le_update hlast
  have hcalls : ∀ u d, (((w.setReplica r s').setCall t none).appendLog r out).calls u = some d →
      u ≠ t ∧ w.calls u = some d := by
    intro u d hd
    simp only [IdWorld.appendLog_calls,IdWorld.setCall_calls,IdWorld.setReplica_calls] at hd
    by_cases hu : u = t
    · subst hu
      simp at hd
    · rw [Function.update_of_ne hu] at hd
      exact ⟨hu,hd⟩
  refine ⟨?_,by simpa using ha.issued_ok,?_,by simpa using ha.issued_apart,?_,?_⟩
  · intro u d hd
    obtain ⟨-,hd⟩ := hcalls u d hd
    have hd0 := ha.calls_ok u d hd
    exact ⟨hd0.1.frame (by simp) ⟨[],by simp⟩ (by simpa using hup d.replica) (by simp),
      by simpa using hd0.2⟩
  · intro L hL x hx
    simp only [IdWorld.appendLog_leader,IdWorld.setCall_leader,IdWorld.setReplica_leader] at hL
    simp only [IdWorld.appendLog_issued,IdWorld.setCall_issued,IdWorld.setReplica_issued] at hx
    simpa using (ha.issued_below L hL x hx).trans (hup L)
  · intro u d h' hd hh x hx
    simp only [IdWorld.appendLog_issued,IdWorld.setCall_issued,IdWorld.setReplica_issued] at hx
    exact ha.held_apart u d h' (hcalls u d hd).2 hh x hx
  · intro u u' d d' r₁ r₂ huu hd hd' hr₁ hr₂
    exact ha.held_pair u u' d d' r₁ r₂ huu (hcalls u d hd).2 (hcalls u' d' hd').2 hr₁ hr₂

theorem AllocInv.handOut (ha : AllocInv w) {c : GetNumberCall} {r : Int × Int}
    (hleader : w.leader = some c.replica) (hstart : minLastId ≤ r.1) (hlt : r.1 < r.2)
    (hbelow : r.2 ≤ (w.replicas c.replica).lastId) (hlim : r.2 ≤ committedLimit w.log)
    (hseen : c.seen ≤ w.issued.length) (hafter : ∀ y ∈ w.issued.take c.seen, y.endId ≤ r.1)
    (hapart : ∀ x ∈ w.issued, Apart r x.range)
    (hheld : ∀ u d h, w.calls u = some d → d.held = some h → Apart h r) :
    AllocInv (w.handOut c (some r)) := by
  let x : IssuedRange := ⟨c.replica,r.1,r.2,c.seen,w.log.length⟩
  have hissued : (w.handOut c (some r)).issued = w.issued ++ [x] := rfl
  refine ⟨?_,?_,?_,?_,?_,?_⟩
  · intro u d hd
    have hd0 := ha.calls_ok u d hd
    exact ⟨hd0.1.frame rfl ⟨[x],hissued⟩ le_rfl le_rfl,hd0.2⟩
  · intro y hy
    rw [hissued] at hy ⊢
    rcases List.mem_append.mp hy with hy | hy
    · obtain ⟨h1,h2,h3,h4,h5,h6⟩ := ha.issued_ok y hy
      refine ⟨h1,h2,h3,h4,?_,?_⟩
      · rw [List.length_append]
        omega
      · rw [List.take_append_of_le_length h5]
        exact h6
    · rw [List.mem_singleton] at hy
      subst hy
      refine ⟨hstart,hlt,le_rfl,?_,?_,?_⟩
      · show r.2 ≤ committedLimit (w.log.take w.log.length)
        rw [List.take_length]
        exact hlim
      · rw [List.length_append]
        exact hseen.trans (Nat.le_add_right _ _)
      · rw [List.take_append_of_le_length hseen]
        exact hafter
  · intro L hL y hy
    rw [hissued] at hy
    have hL' : L = c.replica := Option.some.inj (hL.symm.trans hleader)
    subst hL'
    rcases List.mem_append.mp hy with hy | hy
    · exact ha.issued_below _ hleader y hy
    · rw [List.mem_singleton] at hy
      subst hy
      exact hbelow
  · rw [hissued,List.pairwise_append]
    refine ⟨ha.issued_apart,List.pairwise_singleton _ _,?_⟩
    intro y hy z hz
    rw [List.mem_singleton] at hz
    subst hz
    exact (hapart y hy).symm
  · intro u d h' hd hh y hy
    rw [hissued] at hy
    rcases List.mem_append.mp hy with hy | hy
    · exact ha.held_apart u d h' hd hh y hy
    · rw [List.mem_singleton] at hy
      subst hy
      exact hheld u d h' hd hh
  · exact ha.held_pair

theorem IdInv.finish (h : IdInv w) {t : Nat} {c : GetNumberCall} (hc : w.calls t = some c)
    {ret : Except ObErr (Int × Int)} (hpc : c.pc = .tail ret) (locked : Bool) :
    IdInv (w.finish t c ret (c.tail (w.replicas c.replica) ret locked
      (decide (w.leader = some c.replica)) w.logScn)) := by
  have hl := h.log_inv
  have ha := h.alloc_inv
  have hok := (ha.calls_ok t c hc).1
  generalize hp : c.tail (w.replicas c.replica) ret locked (decide (w.leader = some c.replica))
    w.logScn = p
  obtain ⟨s',out⟩ := p
  obtain ⟨hr,hlogging,hnone,happ⟩ := GetNumberCall.tail_spec (hl.settled c.replica) hp
  have happ' : ∀ e, out = some e → (w.replicas c.replica).isLogging = false ∧
      w.leader = some c.replica ∧ s'.isLogging = true ∧ s'.cbLimitedId = e.1.limitId ∧
      e.1.lastId = e.1.limitId := by
    intro e he
    obtain ⟨h1,h2,h3,h4,h5⟩ := happ e he
    exact ⟨h1,by simpa using h2,h3,h4,h5⟩
  refine ⟨hl.finish hr hlogging hnone happ' _,?_⟩
  have hrel := ha.release t hr.lastId_le out
  cases ret with
  | error e => exact hrel
  | ok r =>
    have hheld : c.held = some r := GetNumberCall.held_tail hpc
    obtain ⟨h1,h2,h3⟩ := hok.held_ok r hheld
    refine hrel.handOut (by simpa using hok.on_leader) (hok.lastId_ge.trans h1) h2
      (by simpa using h3.trans hr.lastId_le) (by simpa using hok.tail_le _ r hpc rfl)
      (by simpa using hok.seen_le) ?_ ?_ ?_
    · intro y hy
      simp only [IdWorld.appendLog_issued,IdWorld.setCall_issued,IdWorld.setReplica_issued] at hy
      exact (hok.seen_below y hy).trans h1
    · intro x hx
      simp only [IdWorld.appendLog_issued,IdWorld.setCall_issued,IdWorld.setReplica_issued] at hx
      exact ha.held_apart t c r hc hheld x hx
    · intro u d h' hd hh
      simp only [IdWorld.appendLog_calls,IdWorld.setCall_calls,IdWorld.setReplica_calls] at hd
      by_cases hu : u = t
      · subst hu
        simp at hd
      · rw [Function.update_of_ne hu] at hd
        exact ha.held_pair u t d c h' r hu hd hc hh hheld

theorem IdInv.resume (h : IdInv w) {t : Nat} {c : GetNumberCall} (hc : w.calls t = some c)
    (locked : Bool) : IdInv (w.resume t c locked) := by
  cases hpc : c.pc with
  | loadLimit =>
    simp only [IdWorld.resume,hpc]
    exact h.loadLimit hc
  | reserve =>
    simp only [IdWorld.resume,hpc]
    exact h.reserve hc hpc
  | fetchAdd =>
    simp only [IdWorld.resume,hpc]
    exact h.fetchAdd hc ((h.alloc_inv.calls_ok t c hc).1.alloc_pos (.inr hpc))
  | reload =>
    simp only [IdWorld.resume,hpc]
    exact h.reload hc hpc
  | tail ret =>
    simp only [IdWorld.resume,hpc]
    exact h.finish hc hpc locked

end CallSteps

/-! ### Runs -/

section Runs

variable {w : IdWorld}

theorem IdInv.step (h : IdInv w) {e : IdEvent} (hq : QuietSwitch w e) {w' : IdWorld}
    (hs : idStep w e = some w') : IdInv w' := by
  cases e with
  | getNumber r range baseId =>
    by_cases hr : w.leader = some r
    · simp only [idStep,hr,if_true,Option.some.injEq] at hs
      subst hs
      exact h.start hr range baseId
    · simp only [idStep,hr,if_false,Option.some.injEq] at hs
      exact hs ▸ h
  | resume t locked =>
    cases hc : w.calls t with
    | none => simp [idStep,hc] at hs
    | some c =>
      simp only [idStep,hc,Option.map_some,Option.some.injEq] at hs
      subst hs
      exact h.resume hc locked
  | commitLog =>
    cases hp : w.pending with
    | none => simp [idStep,hp] at hs
    | some p =>
      obtain ⟨a,e,n⟩ := p
      simp only [idStep,hp,Option.map_some,Option.some.injEq] at hs
      subst hs
      exact h.commitLog hp
  | dropLog =>
    cases hp : w.pending with
    | none => simp [idStep,hp] at hs
    | some p =>
      obtain ⟨a,e,n⟩ := p
      simp only [idStep,hp,Option.map_some,Option.some.injEq] at hs
      subst hs
      exact h.dropLog hp
  | submitCallback r =>
    cases ho : w.outcome r with
    | none => simp [idStep,ho] at hs
    | some b =>
      simp only [idStep,ho,Option.map_some,Option.some.injEq] at hs
      subst hs
      exact h.submitCallback ho
  | replay r =>
    by_cases hlead : w.leader = some r
    · simp [idStep,hlead] at hs
    · cases he : w.log[w.replayed r]? with
      | none => simp [idStep,hlead,he] at hs
      | some e =>
        cases hres : (w.replicas r).handleReplayResult e.1.lastId e.1.limitId (some e.2) with
        | error err => simp [idStep,hlead,he,hres,Except.toOption] at hs
        | ok s' =>
          simp only [idStep,hlead,if_false,he,Option.bind_some,hres,Except.toOption,
            Option.map_some,Option.some.injEq] at hs
          subst hs
          exact h.replay he hres
  | switchToLeader r =>
    by_cases hcond : w.leader = none ∧ w.pending = none ∧ w.replayed r = w.log.length
    · simp only [idStep,hcond,and_self,if_true,Option.some.injEq] at hs
      subst hs
      exact h.switchToLeader hcond.1 hcond.2.1 hcond.2.2
    · simp [idStep,hcond] at hs
  | switchToFollower =>
    by_cases hnone : w.leader = none
    · simp [idStep,hnone] at hs
    · simp only [idStep,hnone,if_false,Option.some.injEq] at hs
      subst hs
      exact h.switchToFollower hq
  | updateLimitedId r q =>
    simp only [idStep,Option.some.injEq] at hs
    subst hs
    exact h.updateLimitedId r q
  | flush r =>
    simp only [idStep,Option.some.injEq] at hs
    subst hs
    exact h.flush r

theorem idInv_of_run {serviceType : ServiceType} {preAllocatedRange : Int} {es : List IdEvent}
    (hrun : Lib.Run idStep QuietSwitch (IdWorld.init serviceType preAllocatedRange) es w) :
    IdInv w :=
  hrun.invariant IdInv (fun _ _ _ hi hq hs => hi.step hq hs) (idInv_init _ _)

theorem Apart.disjoint {a b : Int × Int} (h : Apart a b) : Disjoint (Set.Ico a.1 a.2) (Set.Ico b.1 b.2) := by
  rw [Set.Ico_disjoint_Ico]
  rcases h with h | h
  · exact (min_le_left _ _).trans (h.trans (le_max_right _ _))
  · exact (min_le_right _ _).trans (h.trans (le_max_left _ _))

theorem getNumber_ranges_of_quiet_run {serviceType : ServiceType} {preAllocatedRange : Int}
    {es : List IdEvent}
    (hrun : Lib.Run idStep QuietSwitch (IdWorld.init serviceType preAllocatedRange) es w) :
    (∀ x ∈ w.issued, x.startId < x.endId ∧ ∃ p ∈ w.log.take x.committed, x.endId ≤ p.1.limitId) ∧
      w.issued.Pairwise (fun x y => Disjoint (Set.Ico x.startId x.endId) (Set.Ico y.startId y.endId)) ∧
      ∀ x ∈ w.issued, ∀ y ∈ w.issued.take x.seen, y.endId ≤ x.startId := by
  have ha := (idInv_of_run hrun).alloc_inv
  refine ⟨?_,ha.issued_apart.imp fun hxy => hxy.disjoint,fun x hx => (ha.issued_ok x hx).2.2.2.2.2⟩
  intro x hx
  obtain ⟨h1,h2,-,h4,-⟩ := ha.issued_ok x hx
  exact ⟨h2,exists_limitId_of_le_committedLimit (by omega) h4⟩

/-- Replica 0 leads, raises the limit to 1000001 and hands out `[1, 11)`; it steps down with no
call in flight, replica 1 replays, takes over, raises the limit and hands out
`[1000001, 1000006)`. -/
def quietHandover : List IdEvent :=
  [.switchToLeader 0,.getNumber 0 1 0,.resume 0 false,.resume 0 true,.commitLog,.submitCallback 0,
   .getNumber 0 10 0,.resume 1 false,.resume 1 false,.resume 1 false,.resume 1 false,
   .switchToFollower,.replay 1,.switchToLeader 1,.getNumber 1 5 0,.resume 2 false,.resume 2 true,
   .commitLog,.submitCallback 1,.getNumber 1 5 0,.resume 3 false,.resume 3 false,.resume 3 false,
   .resume 3 false]

def quietHandoverWorld : IdWorld :=
  (Lib.Run.exec idStep QuietSwitch (IdWorld.init .transIdService transIdPreallocatedRange)
    quietHandover).getD (IdWorld.init .transIdService transIdPreallocatedRange)

theorem getNumber_ranges_quiet_handover :
    Lib.Run idStep QuietSwitch (IdWorld.init .transIdService transIdPreallocatedRange)
        quietHandover quietHandoverWorld ∧
      quietHandoverWorld.issued.map (fun x => (x.replica,x.startId,x.endId)) =
        [(0,1,11),(1,1000001,1000006)] ∧
      ((∀ x ∈ quietHandoverWorld.issued, x.startId < x.endId ∧
          ∃ p ∈ quietHandoverWorld.log.take x.committed, x.endId ≤ p.1.limitId) ∧
        quietHandoverWorld.issued.Pairwise
          (fun x y => Disjoint (Set.Ico x.startId x.endId) (Set.Ico y.startId y.endId)) ∧
        ∀ x ∈ quietHandoverWorld.issued, ∀ y ∈ quietHandoverWorld.issued.take x.seen,
          y.endId ≤ x.startId) :=
  have hrun : Lib.Run idStep QuietSwitch (IdWorld.init .transIdService transIdPreallocatedRange)
      quietHandover quietHandoverWorld := Lib.Run.of_exec_isSome (by decide +kernel)
  ⟨hrun,by decide +kernel,getNumber_ranges_of_quiet_run hrun⟩

end Runs

/-- The literal reading fails: replica 0 raises the limit to 1000001, and two of its calls size
their ranges and fetch-and-add `[1, 1000001)` and `[1000001, 2000001)`. Replica 0 steps down
with the second call in flight; replica 1 replays, takes over, raises the limit to 2000001 and
hands out `[1000001, 1000006)`. Replica 0 then replays both logs, which raise its limit to
2000001, and its late call loads that limit and hands out `[1000001, 2000001)`. -/
def staleCallRun : List IdEvent :=
  [.switchToLeader 0,.getNumber 0 1 0,.resume 0 false,.resume 0 true,.commitLog,.submitCallback 0,
   .getNumber 0 1000000 0,.getNumber 0 1000000 0,.resume 1 false,.resume 2 false,.resume 1 false,
   .resume 2 false,.switchToFollower,.replay 1,.switchToLeader 1,.getNumber 1 5 0,.resume 3 false,
   .resume 3 true,.commitLog,.submitCallback 1,.getNumber 1 5 0,.resume 4 false,.resume 4 false,
   .resume 4 false,.resume 4 false,.replay 0,.replay 0,.resume 2 false,.resume 2 false]

def staleCallWorld : IdWorld :=
  (Lib.Run.exec idStep (fun _ _ => True) (IdWorld.init .transIdService transIdPreallocatedRange)
    staleCallRun).getD (IdWorld.init .transIdService transIdPreallocatedRange)

theorem getNumber_overlap_after_switch :
    Lib.Run idStep (fun _ _ => True) (IdWorld.init .transIdService transIdPreallocatedRange)
        staleCallRun staleCallWorld ∧
      staleCallWorld.issued.map (fun x => (x.replica,x.startId,x.endId)) =
        [(1,1000001,1000006),(0,1000001,2000001)] ∧
      ¬ staleCallWorld.issued.Pairwise
        (fun x y => Disjoint (Set.Ico x.startId x.endId) (Set.Ico y.startId y.endId)) := by
  have hissued : staleCallWorld.issued.map (fun x => (x.replica,x.startId,x.endId)) =
      [(1,1000001,1000006),(0,1000001,2000001)] := by decide +kernel
  refine ⟨Lib.Run.of_exec_isSome (by decide +kernel),hissued,?_⟩
  obtain ⟨x,y,hxy,hx,hy⟩ : ∃ x y, staleCallWorld.issued = [x,y] ∧
      (x.startId,x.endId) = (1000001,1000006) ∧ (y.startId,y.endId) = (1000001,2000001) := by
    rcases h : staleCallWorld.issued with _ | ⟨x,_ | ⟨y,_ | _⟩⟩ <;> rw [h] at hissued <;>
      simp_all
  rw [hxy,List.pairwise_pair,Set.Ico_disjoint_Ico]
  simp only [Prod.mk.injEq] at hx hy
  rw [hx.1,hx.2,hy.1,hy.2]
  norm_num

end Transaction
end OceanBase
