import Mathlib
import OceanBase.Lib.Run
import OceanBase.Memtable.MvccRow

/-! One row of a leader's memtable under any interleaving of `ObMvccRow::mvcc_write` calls and of
the row callbacks (`ob_mvcc_row.cpp`, `ob_mvcc_trans_ctx.cpp`, `ob_tx_callback_list.cpp`).

A call of `mvcc_write` is cut where the source lets others in: each unlatched load of
`max_trans_version_` or `max_elr_trans_version_` is one step, and `mvcc_write_` and `mvcc_undo`
are one step each under the row latch. A callback runs whole under the latch. A transaction
writes the row one call at a time and runs its callbacks when it has no call going; its
callback list commits and aborts from the oldest callback on (`ObTxCallbackList::callback_`
walks forward), and a node that went in gets its callback when the call returns
(`register_row_commit_cb`). -/
namespace OceanBase.Memtable

open ObMvccTransNode

inductive WritePc
  /-- The first check read `max_trans_version_`; `max_elr_trans_version_` is next. -/
  | firstElrLoad
  /-- The first check passed; `mvcc_write_` takes the latch next. -/
  | latchedWrite
  /-- `mvcc_write_` let the writer in; the re-check reads `max_trans_version_` next. -/
  | secondTransLoad (res : ObMvccWriteResult)
  /-- The re-check read `max_trans_version_`; `max_elr_trans_version_` is next. -/
  | secondElrLoad (res : ObMvccWriteResult)
  /-- The re-check failed after the node went in: `mvcc_undo` takes the latch next. -/
  | undo (res : ObMvccWriteResult)
  deriving DecidableEq, Repr

/-- A call of `mvcc_write` in progress: the node it built, its arguments, and where it stands. -/
structure WriteCall where
  node : ObMvccTransNode
  writeFlag : ObWriteFlag
  snapshot : ObTxSnapshot
  pc : WritePc
  deriving DecidableEq, Repr

/-- What a call of `mvcc_write` returned, with the row's chain as it stood at that moment. -/
structure WriteReturn where
  txId : Nat
  addr : Nat
  snapshotVersion : Nat
  ret : Except ObErr ObMvccWriteResult
  listHead : List ObMvccTransNode

/-- The row, the node allocator, each transaction's call in progress and callbacks on the row
(oldest first), and every return of `mvcc_write` so far. -/
structure RowWorld where
  row : ObMvccRow
  nextAddr : Nat
  calls : Nat → Option WriteCall
  callbacks : Nat → List ObMvccRowCallback
  returns : List WriteReturn

namespace RowWorld

def init : RowWorld := ⟨ObMvccRow.init,0,fun _ => none,fun _ => [],[]⟩

def setPc (w : RowWorld) (txId : Nat) (c : WriteCall) (pc : WritePc) : RowWorld :=
  { w with calls := Function.update w.calls txId (some { c with pc := pc }) }

def registers : Except ObErr ObMvccWriteResult → Bool
  | .ok res => res.hasInsert
  | .error _ => false

def finish (w : RowWorld) (txId : Nat) (c : WriteCall) (ret : Except ObErr ObMvccWriteResult) :
    RowWorld where
  row := w.row
  nextAddr := w.nextAddr
  calls := Function.update w.calls txId none
  callbacks := if registers ret then
      Function.update w.callbacks txId (w.callbacks txId ++ [⟨c.node.addr,true⟩])
    else w.callbacks
  returns := w.returns ++ [⟨txId,c.node.addr,c.snapshot.version,ret,w.row.listHead⟩]

/-- The next atomic step of the call `c` of `txId`: the source of `ObMvccRow::mvcc_write` after
its first load. -/
def resume (w : RowWorld) (txId : Nat) (c : WriteCall) : RowWorld :=
  let sv := c.snapshot.version
  match c.pc with
  | .firstElrLoad =>
    if w.row.maxElrTransVersion > sv then w.finish txId c (.error .transactionSetViolation)
    else w.setPc txId c .latchedWrite
  | .latchedWrite =>
    match w.row.mvccWrite_ txId c.writeFlag c.node c.snapshot with
    | .error e => w.finish txId c (.error e)
    | .ok (row',res) =>
      if !res.canInsert then { w with row := row' }.finish txId c (.error .tryLockRowConflict)
      else { w with row := row' }.setPc txId c (.secondTransLoad res)
  | .secondTransLoad res =>
    if w.row.maxTransVersion > sv then
      if res.hasInsert then w.setPc txId c (.undo res)
      else w.finish txId c (.error .transactionSetViolation)
    else w.setPc txId c (.secondElrLoad res)
  | .secondElrLoad res =>
    if w.row.maxElrTransVersion > sv then
      if res.hasInsert then w.setPc txId c (.undo res)
      else w.finish txId c (.error .transactionSetViolation)
    else w.finish txId c (.ok res)
  | .undo _ => { w with row := w.row.mvccUndo }.finish txId c (.error .transactionSetViolation)

end RowWorld

inductive RowEvent
  /-- A transaction calls `mvcc_write`; the call's first step loads `max_trans_version_`. -/
  | mvccWrite (txId : Nat) (arg : ObTxNodeArg) (writeFlag : ObWriteFlag) (snapshot : ObTxSnapshot)
  /-- The call of a transaction takes its next step. -/
  | resume (txId : Nat)
  /-- `trans_commit` on the transaction's oldest callback. -/
  | transCommit (txId commitVersion : Nat)
  /-- `trans_abort` on the callback of the node at `addr`. -/
  | transAbort (txId addr : Nat)
  /-- `rollback_callback` on the callback of the node at `addr`. -/
  | rollbackCallback (txId addr : Nat)
  /-- `elr_trans_preparing` on one of the transaction's callbacks. -/
  | elrTransPreparing (txId elrCommitVersion : Nat)
  deriving DecidableEq, Repr

open RowWorld

def rowStep (w : RowWorld) : RowEvent → Option RowWorld
  | .mvccWrite txId arg writeFlag snapshot =>
    let c : WriteCall := ⟨buildTxNode w.nextAddr txId arg,writeFlag,snapshot,.firstElrLoad⟩
    let w' := { w with nextAddr := w.nextAddr + 1 }
    if w.row.maxTransVersion > snapshot.version then
      some (w'.finish txId c (.error .transactionSetViolation))
    else some (w'.setPc txId c .firstElrLoad)
  | .resume txId => (w.calls txId).map (w.resume txId)
  | .transCommit txId commitVersion =>
    match w.callbacks txId with
    | [] => none
    | cb :: rest =>
      let p := cb.transCommit w.row commitVersion
      match p.2.2 with
      | .ok () => some { w with row := p.2.1, callbacks := Function.update w.callbacks txId rest }
      | .error _ =>
        -- the walk stops at a callback that failed, which stays
        some { w with row := p.2.1, callbacks := Function.update w.callbacks txId (p.1 :: rest) }
  | .transAbort txId addr =>
    ((w.callbacks txId).find? (·.tnode == addr)).map fun cb =>
      { w with
        row := (cb.transAbort w.row).2
        callbacks := Function.update w.callbacks txId ((w.callbacks txId).filter (·.tnode != addr)) }
  | .rollbackCallback txId addr =>
    ((w.callbacks txId).find? (·.tnode == addr)).map fun cb =>
      { w with
        row := (cb.rollbackCallback w.row).2
        callbacks := Function.update w.callbacks txId ((w.callbacks txId).filter (·.tnode != addr)) }
  | .elrTransPreparing txId elrCommitVersion =>
    if w.callbacks txId = [] then none
    else some { w with row := (w.row.elr txId elrCommitVersion).1 }

/-- A transaction starts a call, or runs a callback, only while it has no call going. -/
def Admissible (w : RowWorld) : RowEvent → Prop
  | .resume _ => True
  | .mvccWrite txId .. | .transCommit txId _ | .transAbort txId _ | .rollbackCallback txId _
  | .elrTransPreparing txId _ => w.calls txId = none

instance (w : RowWorld) (e : RowEvent) : Decidable (Admissible w e) :=
  match e with
  | .resume _ => isTrue trivial
  | .mvccWrite txId .. | .transCommit txId _ | .transAbort txId _ | .rollbackCallback txId _
  | .elrTransPreparing txId _ => inferInstanceAs (Decidable (w.calls txId = none))

/-! ## The invariant

The undecided nodes of the chain stand on top of it and belong to one transaction; each is the
node of a callback of that transaction or of its call in progress, and a transaction's older
callback never has its node above a younger one's. -/

/-- The top node of the chain is the writer's undecided node: its own node when that went in,
else the one it wrote before. -/
def HoldsHead (l : List ObMvccTransNode) (txId : Nat) (c : WriteCall) (res : ObMvccWriteResult) :
    Prop :=
  ∃ h t, l = h :: t ∧ h.undecided = true ∧ h.txId = txId ∧
    if res.hasInsert then h = c.node else ∀ n ∈ l, n.addr ≠ c.node.addr

def WritePc.result : WritePc → Option ObMvccWriteResult
  | .firstElrLoad | .latchedWrite => none
  | .secondTransLoad res | .secondElrLoad res | .undo res => some res

/-- What a call's stage says of the chain: before `mvcc_write_` the call's node is not on it;
after, the writer holds the top, with its own node there when `mvcc_undo` is next. -/
def CallStage (l : List ObMvccTransNode) (txId : Nat) (c : WriteCall) : Prop :=
  match c.pc.result with
  | none => ∀ n ∈ l, n.addr ≠ c.node.addr
  | some res => res.canInsert = true ∧ HoldsHead l txId c res ∧
      (c.pc = .undo res → res.hasInsert = true)

/-- A call in progress: its node is as `build_tx_node_` made it, at an address no callback names,
and its stage holds. -/
structure CallInv (w : RowWorld) (txId : Nat) (c : WriteCall) : Prop where
  txId_eq : c.node.txId = txId
  undecided : c.node.undecided = true
  version_eq : c.node.transVersion = obMaxScnTsNs
  not_aborted : c.node.isAborted = false
  addr_lt : c.node.addr < w.nextAddr
  callbacks_ne : ∀ t, ∀ cb ∈ w.callbacks t, cb.tnode ≠ c.node.addr
  stage : CallStage w.row.listHead txId c

/-- What a return of `mvcc_write` says of the chain it left: after a success every node of
another transaction is decided and within the snapshot; after a failure the call's node is not
on the chain. -/
def ReturnOk (x : WriteReturn) : Prop :=
  match x.ret with
  | .ok _ => ∀ n ∈ x.listHead, n.txId ≠ x.txId →
      n.undecided = false ∧ n.transVersion ≤ x.snapshotVersion
  | .error _ => ∀ n ∈ x.listHead, n.addr ≠ x.addr

structure RowInv (w : RowWorld) : Prop where
  not_aborted : ∀ n ∈ w.row.listHead, n.isAborted = false
  version_le : ∀ n ∈ w.row.listHead, n.undecided = false →
    n.transVersion ≤ w.row.maxElrTransVersion
  undecided_version : ∀ n ∈ w.row.listHead, n.undecided = true → n.transVersion = obMaxScnTsNs
  undecided_top : w.row.listHead.Pairwise fun a b =>
    b.undecided = true → a.undecided = true ∧ a.txId = b.txId
  addr_nodup : (w.row.listHead.map (·.addr)).Nodup
  addr_lt : ∀ n ∈ w.row.listHead, n.addr < w.nextAddr
  callbacks_nodup : ∀ t, ((w.callbacks t).map (·.tnode)).Nodup
  callback_linked : ∀ t, ∀ cb ∈ w.callbacks t, cb.isLink = true ∧
    ∃ n ∈ w.row.listHead, n.addr = cb.tnode ∧ n.txId = t ∧ n.isCommitted = false
  callback_order : ∀ t, ((w.callbacks t).map (·.tnode)).Pairwise fun x y =>
    ¬ List.Sublist [x,y] (w.row.listHead.map (·.addr))
  undecided_owned : ∀ n ∈ w.row.listHead, n.undecided = true →
    (∃ cb ∈ w.callbacks n.txId, cb.tnode = n.addr) ∨ ∃ c, w.calls n.txId = some c ∧ c.node.addr = n.addr
  call_inv : ∀ t c, w.calls t = some c → CallInv w t c
  call_addr_ne : ∀ t t' c c', w.calls t = some c → w.calls t' = some c' → t ≠ t' →
    c.node.addr ≠ c'.node.addr
  returns_ok : ∀ x ∈ w.returns, ReturnOk x

theorem rowInv_init : RowInv RowWorld.init where
  not_aborted := by simp [RowWorld.init,ObMvccRow.init]
  version_le := by simp [RowWorld.init,ObMvccRow.init]
  undecided_version := by simp [RowWorld.init,ObMvccRow.init]
  undecided_top := by simp [RowWorld.init,ObMvccRow.init]
  addr_nodup := by simp [RowWorld.init,ObMvccRow.init]
  addr_lt := by simp [RowWorld.init,ObMvccRow.init]
  callbacks_nodup := by simp [RowWorld.init]
  callback_linked := by simp [RowWorld.init]
  callback_order := by simp [RowWorld.init]
  undecided_owned := by simp [RowWorld.init,ObMvccRow.init]
  call_inv := by simp [RowWorld.init]
  call_addr_ne := by simp [RowWorld.init]
  returns_ok := by simp [RowWorld.init]

theorem CallStage.transfer {l l' : List ObMvccTransNode} {t : Nat} {c : WriteCall}
    (h : CallStage l t c) (hpre : (∀ n ∈ l, n.addr ≠ c.node.addr) → ∀ n ∈ l', n.addr ≠ c.node.addr)
    (hpost : ∀ res, HoldsHead l t c res → HoldsHead l' t c res) : CallStage l' t c := by
  cases hr : c.pc.result with
  | none =>
    simp only [CallStage,hr] at h ⊢
    exact hpre h
  | some res =>
    simp only [CallStage,hr] at h ⊢
    exact ⟨h.1,hpost res h.2.1,h.2.2⟩

theorem owned_of_nodes {calls calls' : Nat → Option WriteCall}
    (h : ∀ u, (calls' u).map (·.node) = (calls u).map (·.node)) {u a : Nat}
    (ho : ∃ c, calls u = some c ∧ c.node.addr = a) : ∃ c, calls' u = some c ∧ c.node.addr = a := by
  obtain ⟨c,hc,ha⟩ := ho
  have hu := h u
  rw [hc,Option.map_some] at hu
  obtain ⟨c',hc',he⟩ := Option.map_eq_some_iff.mp hu
  exact ⟨c',hc',he ▸ ha⟩

theorem addr_ne_of_nodes {calls calls' : Nat → Option WriteCall}
    (h : ∀ u, (calls' u).map (·.node) = (calls u).map (·.node))
    (hne : ∀ t t' c c', calls t = some c → calls t' = some c' → t ≠ t' → c.node.addr ≠ c'.node.addr) :
    ∀ t t' c c', calls' t = some c → calls' t' = some c' → t ≠ t' → c.node.addr ≠ c'.node.addr := by
  intro t t' c₁ c₂ h₁ h₂ htt
  have e₁ := h t
  have e₂ := h t'
  rw [h₁,Option.map_some] at e₁
  rw [h₂,Option.map_some] at e₂
  obtain ⟨d₁,hd₁,he₁⟩ := Option.map_eq_some_iff.mp e₁.symm
  obtain ⟨d₂,hd₂,he₂⟩ := Option.map_eq_some_iff.mp e₂.symm
  rw [← he₁,← he₂]
  exact hne t t' d₁ d₂ hd₁ hd₂ htt

theorem RowWorld.setPc_calls_node {w : RowWorld} {T : Nat} {c : WriteCall} (hc : w.calls T = some c)
    (pc : WritePc) (u : Nat) : ((w.setPc T c pc).calls u).map (·.node) = (w.calls u).map (·.node) := by
  by_cases hu : u = T
  · subst hu
    simp [RowWorld.setPc,hc]
  · simp [RowWorld.setPc,hu]

section Frame

variable {w : RowWorld} {T : Nat} {c : WriteCall}

@[simp] theorem RowWorld.setPc_row (w : RowWorld) (T : Nat) (c : WriteCall) (pc : WritePc) :
    (w.setPc T c pc).row = w.row := rfl

@[simp] theorem RowWorld.setPc_callbacks (w : RowWorld) (T : Nat) (c : WriteCall) (pc : WritePc) :
    (w.setPc T c pc).callbacks = w.callbacks := rfl

@[simp] theorem RowWorld.finish_row (w : RowWorld) (T : Nat) (c : WriteCall)
    (r : Except ObErr ObMvccWriteResult) : (w.finish T c r).row = w.row := rfl

@[simp] theorem RowWorld.finish_calls (w : RowWorld) (T : Nat) (c : WriteCall)
    (r : Except ObErr ObMvccWriteResult) :
    (w.finish T c r).calls = Function.update w.calls T none := rfl

theorem CallInv.congr {w' : RowWorld} {t : Nat} {c' : WriteCall} (h : CallInv w t c')
    (hrow : w'.row.listHead = w.row.listHead) (hnext : w.nextAddr ≤ w'.nextAddr)
    (hcb : w'.callbacks = w.callbacks) : CallInv w' t c' where
  __ := h
  addr_lt := lt_of_lt_of_le h.addr_lt hnext
  callbacks_ne := hcb ▸ h.callbacks_ne
  stage := hrow ▸ h.stage

theorem CallInv.bump {t : Nat} {c' : WriteCall} (h : CallInv w t c') :
    CallInv { w with nextAddr := w.nextAddr + 1 } t c' :=
  h.congr rfl (Nat.le_succ _) rfl

theorem RowInv.bump (hinv : RowInv w) : RowInv { w with nextAddr := w.nextAddr + 1 } :=
  { hinv with
    addr_lt := fun n hn => Nat.lt_succ_of_lt (hinv.addr_lt n hn)
    call_inv := fun t c' hc => (hinv.call_inv t c' hc).bump }

theorem RowInv.setPc (hinv : RowInv w) (hc : w.calls T = some c) {pc : WritePc}
    (hstage : CallStage w.row.listHead T { c with pc := pc }) : RowInv (w.setPc T c pc) where
  __ := hinv
  undecided_owned := fun n hn hu =>
    (hinv.undecided_owned n hn hu).imp id (owned_of_nodes (RowWorld.setPc_calls_node hc pc))
  call_inv := by
    intro t c' hc'
    by_cases ht : t = T
    · subst ht
      simp only [RowWorld.setPc,Function.update_self,Option.some.injEq] at hc'
      subst hc'
      exact { hinv.call_inv t c hc with stage := hstage }
    · simp only [RowWorld.setPc,Function.update_of_ne ht] at hc'
      exact (hinv.call_inv t c' hc').congr rfl le_rfl rfl
  call_addr_ne := addr_ne_of_nodes (RowWorld.setPc_calls_node hc pc) hinv.call_addr_ne

theorem RowInv.finish_error (hinv : RowInv w) (hT : ∀ c', w.calls T = some c' → c'.node = c.node)
    (hfree : ∀ n ∈ w.row.listHead, n.addr ≠ c.node.addr) {e : ObErr} :
    RowInv (w.finish T c (.error e)) where
  __ := hinv
  undecided_owned := by
    intro n hn hu
    rcases hinv.undecided_owned n hn hu with h | ⟨c',hc',ha⟩
    · exact .inl h
    · by_cases ht : n.txId = T
      · rw [ht] at hc'
        exact absurd (ha.symm.trans (congrArg (·.addr) (hT c' hc'))) (hfree n hn)
      · exact .inr ⟨c',by simp [RowWorld.finish,ht,hc'],ha⟩
  call_inv := by
    intro t c' hc'
    by_cases ht : t = T
    · simp [RowWorld.finish,ht] at hc'
    · simp only [RowWorld.finish,Function.update_of_ne ht] at hc'
      exact (hinv.call_inv t c' hc').congr rfl le_rfl rfl
  call_addr_ne := by
    intro t t' c₁ c₂ h₁ h₂ hne
    by_cases ht : t = T
    · simp [RowWorld.finish,ht] at h₁
    by_cases ht' : t' = T
    · simp [RowWorld.finish,ht'] at h₂
    simp only [RowWorld.finish,Function.update_of_ne ht,Function.update_of_ne ht'] at h₁ h₂
    exact hinv.call_addr_ne t t' c₁ c₂ h₁ h₂ hne
  returns_ok := by
    intro x hx
    simp only [RowWorld.finish,List.mem_append,List.mem_singleton] at hx
    rcases hx with hx | rfl
    · exact hinv.returns_ok x hx
    · exact hfree

theorem RowInv.start (hinv : RowInv w) (hT : w.calls T = none) (arg : ObTxNodeArg)
    (writeFlag : ObWriteFlag) (snapshot : ObTxSnapshot) :
    RowInv ({ w with nextAddr := w.nextAddr + 1 }.setPc T
      ⟨buildTxNode w.nextAddr T arg,writeFlag,snapshot,.firstElrLoad⟩ .firstElrLoad) where
  __ := hinv.bump
  undecided_owned := by
    intro n hn hu
    rcases hinv.undecided_owned n hn hu with h | ⟨c',hc',ha⟩
    · exact .inl h
    · have ht : n.txId ≠ T := fun ht => by rw [ht,hT] at hc'; cases hc'
      exact .inr ⟨c',by simp [RowWorld.setPc,ht,hc'],ha⟩
  call_inv := by
    intro t c' hc'
    by_cases ht : t = T
    · subst ht
      simp only [RowWorld.setPc,Function.update_self,Option.some.injEq] at hc'
      subst hc'
      have hfresh : ∀ n ∈ w.row.listHead, n.addr ≠ w.nextAddr := fun n hn => (hinv.addr_lt n hn).ne
      exact {
        txId_eq := rfl
        undecided := rfl
        version_eq := rfl
        not_aborted := rfl
        addr_lt := Nat.lt_succ_self _
        callbacks_ne := fun t cb hcb => by
          obtain ⟨-,n,hn,ha,-⟩ := hinv.callback_linked t cb hcb
          exact ha ▸ hfresh n hn
        stage := hfresh }
    · simp only [RowWorld.setPc,Function.update_of_ne ht] at hc'
      exact (hinv.call_inv t c' hc').congr rfl (Nat.le_succ _) rfl
  call_addr_ne := by
    have hold : ∀ u c'', u ≠ T → ({ w with nextAddr := w.nextAddr + 1 }.setPc T
        ⟨buildTxNode w.nextAddr T arg,writeFlag,snapshot,.firstElrLoad⟩ .firstElrLoad).calls u = some c'' →
        c''.node.addr < w.nextAddr := by
      intro u c'' hu h
      simp only [RowWorld.setPc,Function.update_of_ne hu] at h
      exact (hinv.call_inv u c'' h).addr_lt
    intro t t' c₁ c₂ h₁ h₂ hne
    by_cases ht : t = T
    · subst ht
      simp only [RowWorld.setPc,Function.update_self,Option.some.injEq] at h₁
      subst h₁
      exact (hold t' c₂ (Ne.symm hne) h₂).ne'
    · by_cases ht' : t' = T
      · subst ht'
        simp only [RowWorld.setPc,Function.update_self,Option.some.injEq] at h₂
        subst h₂
        exact (hold t c₁ ht h₁).ne
      · simp only [RowWorld.setPc,Function.update_of_ne ht,Function.update_of_ne ht'] at h₁ h₂
        exact hinv.call_addr_ne t t' c₁ c₂ h₁ h₂ hne

end Frame

/-! ## The writer's own steps under the latch -/

section Writer

variable {w : RowWorld} {T : Nat} {c : WriteCall}

theorem txId_of_undecided {l : List ObMvccTransNode} {h : ObMvccTransNode} {t : List ObMvccTransNode}
    (htop : l.Pairwise fun a b => b.undecided = true → a.undecided = true ∧ a.txId = b.txId)
    (hl : l = h :: t) (hT : h.undecided = true → h.txId = T) {n : ObMvccTransNode} (hn : n ∈ l)
    (hu : n.undecided = true) : n.txId = T := by
  subst hl
  rcases List.mem_cons.mp hn with rfl | hnt
  · exact hT hu
  · obtain ⟨hhu,hid⟩ := (List.pairwise_cons.mp htop).1 n hnt hu
    exact hid ▸ hT hhu

theorem RowInv.insert (hinv : RowInv w) (hc : w.calls T = some c) (hpc : c.pc = .latchedWrite)
    (hhead : ∀ h ∈ w.row.listHead.head?, h.undecided = true → h.txId = T)
    {res : ObMvccWriteResult} (hins : res.hasInsert = true) :
    RowInv ({ w with row := { w.row with listHead := c.node :: w.row.listHead } }.setPc T c
      (.secondTransLoad res)) := by
  have hci := hinv.call_inv T c hc
  have hfree : ∀ n ∈ w.row.listHead, n.addr ≠ c.node.addr := by
    have := hci.stage
    simp only [CallStage,hpc,WritePc.result] at this
    exact this
  have hmine : ∀ n ∈ w.row.listHead, n.undecided = true → n.txId = T := by
    intro n hn hu
    cases hl : w.row.listHead with
    | nil => simp [hl] at hn
    | cons h t =>
      exact txId_of_undecided hinv.undecided_top hl (hhead h (by simp [hl])) hn hu
  have hcan : res.canInsert = true := by
    simp only [ObMvccWriteResult.hasInsert,Bool.and_eq_true] at hins
    exact hins.1
  exact {
    not_aborted := by
      simp only [RowWorld.setPc,List.forall_mem_cons]
      exact ⟨hci.not_aborted,hinv.not_aborted⟩
    version_le := by
      simp only [RowWorld.setPc,List.forall_mem_cons,hci.undecided]
      exact ⟨by simp,hinv.version_le⟩
    undecided_version := by
      simp only [RowWorld.setPc,List.forall_mem_cons]
      exact ⟨fun _ => hci.version_eq,hinv.undecided_version⟩
    undecided_top := by
      simp only [RowWorld.setPc,List.pairwise_cons]
      refine ⟨fun b hb hbu => ⟨hci.undecided,?_⟩,hinv.undecided_top⟩
      rw [hci.txId_eq,hmine b hb hbu]
    addr_nodup := by
      simp only [RowWorld.setPc,List.map_cons,List.nodup_cons,List.mem_map,not_exists,not_and]
      exact ⟨fun n hn ha => hfree n hn ha,hinv.addr_nodup⟩
    addr_lt := by
      simp only [RowWorld.setPc,List.forall_mem_cons]
      exact ⟨hci.addr_lt,hinv.addr_lt⟩
    callbacks_nodup := hinv.callbacks_nodup
    callback_linked := by
      intro t cb hcb
      obtain ⟨hl,n,hn,hrest⟩ := hinv.callback_linked t cb hcb
      exact ⟨hl,n,List.mem_cons_of_mem _ hn,hrest⟩
    callback_order := by
      intro t
      refine (hinv.callback_order t).imp_of_mem fun {x y} hx _ hxy hsub => hxy ?_
      simp only [RowWorld.setPc,List.map_cons,List.sublist_cons_iff] at hsub
      rcases hsub with hsub | ⟨r,hr,-⟩
      · exact hsub
      · obtain ⟨cb,hcb,rfl⟩ := List.mem_map.mp hx
        exact absurd (List.cons.inj hr).1 (hci.callbacks_ne t cb hcb)
    undecided_owned := by
      intro n hn hu
      simp only [RowWorld.setPc,List.mem_cons] at hn
      rcases hn with rfl | hn
      · exact .inr ⟨{ c with pc := .secondTransLoad res },by simp [RowWorld.setPc,hci.txId_eq],rfl⟩
      · exact (hinv.undecided_owned n hn hu).imp id
          (owned_of_nodes (RowWorld.setPc_calls_node hc _))
    call_inv := by
      intro t c' hc'
      by_cases ht : t = T
      · subst ht
        simp only [RowWorld.setPc,Function.update_self,Option.some.injEq] at hc'
        subst hc'
        refine { hci with stage := ?_ }
        simp only [CallStage,WritePc.result,HoldsHead,hins,if_true]
        exact ⟨hcan,⟨c.node,w.row.listHead,rfl,hci.undecided,hci.txId_eq,rfl⟩,fun h => by cases h⟩
      · simp only [RowWorld.setPc,Function.update_of_ne ht] at hc'
        have hci' := hinv.call_inv t c' hc'
        have hne : c.node.addr ≠ c'.node.addr := hinv.call_addr_ne T t c c' hc hc' (Ne.symm ht)
        refine { hci' with stage := hci'.stage.transfer ?_ ?_ }
        · intro hpre n hn
          simp only [RowWorld.setPc,List.mem_cons] at hn
          rcases hn with rfl | hn
          · exact hne
          · exact hpre n hn
        · rintro res' ⟨h,t',hl,hu,hid,-⟩
          exact absurd (hid.symm.trans (hhead h (by simp [hl]) hu)) ht
    call_addr_ne := addr_ne_of_nodes (RowWorld.setPc_calls_node hc _) hinv.call_addr_ne
    returns_ok := hinv.returns_ok }

theorem CallInv.top_of_undo (hci : CallInv w T c) {res : ObMvccWriteResult} (hpc : c.pc = .undo res) :
    ∃ t, w.row.listHead = c.node :: t := by
  have hst := hci.stage
  simp only [CallStage,hpc,WritePc.result,HoldsHead] at hst
  obtain ⟨-,⟨h,t,hl,-,-,hh⟩,hins⟩ := hst
  rw [if_pos (hins trivial)] at hh
  exact ⟨t,hh ▸ hl⟩

theorem RowInv.undo (hinv : RowInv w) (hc : w.calls T = some c) {res : ObMvccWriteResult}
    (hpc : c.pc = .undo res) :
    RowInv ({ w with row := w.row.mvccUndo }.finish T c (.error .transactionSetViolation)) := by
  have hci := hinv.call_inv T c hc
  obtain ⟨t,hl⟩ := hci.top_of_undo hpc
  have hrow : w.row.mvccUndo = { w.row with listHead := t } := by
    simp [ObMvccRow.mvccUndo,hl]
  have hL := hinv.addr_nodup
  rw [hl,List.map_cons,List.nodup_cons] at hL
  have hfree : ∀ n ∈ t, n.addr ≠ c.node.addr := fun n hn ha => hL.1 (ha ▸ List.mem_map_of_mem hn)
  have hsub : ∀ n ∈ t, n ∈ w.row.listHead := fun n hn => hl ▸ List.mem_cons_of_mem _ hn
  have htop := hinv.undecided_top
  rw [hl] at htop
  exact {
    not_aborted := by simpa [RowWorld.finish,hrow] using fun n hn => hinv.not_aborted n (hsub n hn)
    version_le := by simpa [RowWorld.finish,hrow] using fun n hn => hinv.version_le n (hsub n hn)
    undecided_version := by
      simpa [RowWorld.finish,hrow] using fun n hn => hinv.undecided_version n (hsub n hn)
    undecided_top := by
      simp only [RowWorld.finish,hrow]
      exact (List.pairwise_cons.mp htop).2
    addr_nodup := by
      simp only [RowWorld.finish,hrow]
      exact hL.2
    addr_lt := by simpa [RowWorld.finish,hrow] using fun n hn => hinv.addr_lt n (hsub n hn)
    callbacks_nodup := hinv.callbacks_nodup
    callback_linked := by
      intro u cb hcb
      obtain ⟨hlk,n,hn,ha,hrest⟩ := hinv.callback_linked u cb hcb
      refine ⟨hlk,n,?_,ha,hrest⟩
      simp only [RowWorld.finish,hrow]
      rw [hl] at hn
      rcases List.mem_cons.mp hn with rfl | hn
      · exact absurd ha.symm (hci.callbacks_ne u cb hcb)
      · exact hn
    callback_order := by
      intro u
      refine (hinv.callback_order u).imp fun hxy hsub' => hxy ?_
      simp only [RowWorld.finish,hrow] at hsub'
      rw [hl,List.map_cons]
      exact hsub'.cons _
    undecided_owned := by
      intro n hn hu
      rw [RowWorld.finish_row,hrow] at hn
      rcases hinv.undecided_owned n (hsub n hn) hu with h | ⟨c',hc',ha⟩
      · exact .inl h
      · by_cases ht : n.txId = T
        · rw [ht,hc] at hc'
          cases hc'
          exact absurd ha.symm (hfree n hn)
        · exact .inr ⟨c',by simp [RowWorld.finish,ht,hc'],ha⟩
    call_inv := by
      intro u c' hc'
      by_cases hu : u = T
      · simp [RowWorld.finish,hu] at hc'
      · simp only [RowWorld.finish,Function.update_of_ne hu] at hc'
        have hci' := hinv.call_inv u c' hc'
        refine { hci' with stage := hci'.stage.transfer ?_ ?_ }
        · intro hpre n hn
          rw [RowWorld.finish_row,hrow] at hn
          exact hpre n (hsub n hn)
        · rintro res' ⟨h,t',hl',-,hid,-⟩
          rw [hl] at hl'
          cases (List.cons.inj hl').1
          exact absurd (hid.symm.trans hci.txId_eq) hu
    call_addr_ne := by
      intro u u' c₁ c₂ h₁ h₂ hne
      by_cases hu : u = T
      · simp [RowWorld.finish,hu] at h₁
      by_cases hu' : u' = T
      · simp [RowWorld.finish,hu'] at h₂
      simp only [RowWorld.finish,Function.update_of_ne hu,Function.update_of_ne hu'] at h₁ h₂
      exact hinv.call_addr_ne u u' c₁ c₂ h₁ h₂ hne
    returns_ok := by
      intro x hx
      simp only [RowWorld.finish,List.mem_append,List.mem_singleton] at hx
      rcases hx with hx | rfl
      · exact hinv.returns_ok x hx
      · simp only [ReturnOk,hrow]
        exact hfree }

theorem decided_of_holds (htop : l.Pairwise fun a b => b.undecided = true → a.undecided = true ∧ a.txId = b.txId)
    {h : ObMvccTransNode} {t : List ObMvccTransNode} (hl : l = h :: t) (hT : h.txId = T)
    {n : ObMvccTransNode} (hn : n ∈ l) (hne : n.txId ≠ T) : n.undecided = false := by
  cases hu : n.undecided
  · rfl
  · exact absurd (txId_of_undecided htop hl (fun _ => hT) hn hu) hne

theorem RowInv.success (hinv : RowInv w) (hc : w.calls T = some c) {res : ObMvccWriteResult}
    (hpc : c.pc = .secondElrLoad res) (hsv : w.row.maxElrTransVersion ≤ c.snapshot.version) :
    RowInv (w.finish T c (.ok res)) := by
  have hci := hinv.call_inv T c hc
  have hst := hci.stage
  simp only [CallStage,hpc,WritePc.result] at hst
  obtain ⟨-,⟨h,t,hl,hu,hid,hh⟩,-⟩ := hst
  have hcbs : ∀ u, (w.finish T c (.ok res)).callbacks u =
      if u = T ∧ res.hasInsert = true then w.callbacks u ++ [⟨c.node.addr,true⟩] else w.callbacks u := by
    intro u
    by_cases hu : u = T
    · subst hu
      by_cases hi : res.hasInsert = true <;> simp [RowWorld.finish,RowWorld.registers,hi]
    · by_cases hi : res.hasInsert = true <;> simp [RowWorld.finish,RowWorld.registers,hi,hu]
  have hins : res.hasInsert = true → h = c.node := fun hi => by rw [if_pos hi] at hh; exact hh
  have hfree : res.hasInsert = false → ∀ n ∈ w.row.listHead, n.addr ≠ c.node.addr := fun hi => by
    rw [if_neg (by simp [hi])] at hh
    exact hh
  have hnd := hinv.addr_nodup
  exact {
    not_aborted := hinv.not_aborted
    version_le := hinv.version_le
    undecided_version := hinv.undecided_version
    undecided_top := hinv.undecided_top
    addr_nodup := hinv.addr_nodup
    addr_lt := hinv.addr_lt
    callbacks_nodup := by
      intro u
      rw [hcbs u]
      split_ifs with hu
      · rw [List.map_append,List.nodup_append]
        refine ⟨hinv.callbacks_nodup u,by simp,?_⟩
        simp only [List.map_cons,List.map_nil,List.mem_singleton,List.mem_map]
        rintro _ ⟨cb,hcb,rfl⟩ _ rfl
        exact hci.callbacks_ne u cb hcb
      · exact hinv.callbacks_nodup u
    callback_linked := by
      intro u cb hcb
      rw [hcbs u] at hcb
      split_ifs at hcb with hu
      · rcases List.mem_append.mp hcb with hcb | hcb
        · exact hinv.callback_linked u cb hcb
        · rw [List.mem_singleton] at hcb
          subst hcb
          refine ⟨rfl,h,by simp [hl],by rw [hins hu.2],?_,?_⟩
          · rw [hid,hu.1]
          · rw [hins hu.2]
            exact isCommitted_of_undecided hci.undecided
      · exact hinv.callback_linked u cb hcb
    callback_order := by
      intro u
      rw [hcbs u]
      split_ifs with hu
      · rw [List.map_append,List.pairwise_append]
        refine ⟨hinv.callback_order u,by simp,?_⟩
        simp only [List.map_cons,List.map_nil,List.mem_singleton,List.mem_map]
        rintro _ ⟨cb,hcb,rfl⟩ _ rfl hsub
        rw [RowWorld.finish_row,hl,List.map_cons,List.sublist_cons_iff] at hsub
        rcases hsub with hsub | ⟨r,hr,-⟩
        · have : c.node.addr ∈ t.map (·.addr) := List.singleton_sublist.mp ((List.sublist_cons_self _ _).trans hsub)
          rw [hl,List.map_cons,List.nodup_cons,hins hu.2] at hnd
          exact hnd.1 this
        · rw [hins hu.2] at hr
          exact hci.callbacks_ne u cb hcb (List.cons.inj hr).1
      · exact hinv.callback_order u
    undecided_owned := by
      intro n hn hun
      rcases hinv.undecided_owned n hn hun with ⟨cb,hcb,ha⟩ | ⟨c',hc',ha⟩
      · refine .inl ⟨cb,?_,ha⟩
        rw [hcbs]
        split_ifs
        · exact List.mem_append_left _ hcb
        · exact hcb
      · by_cases ht : n.txId = T
        · rw [ht,hc] at hc'
          cases hc'
          cases hi : res.hasInsert
          · exact absurd ha.symm (hfree hi n hn)
          · refine .inl ⟨⟨c.node.addr,true⟩,?_,ha⟩
            rw [hcbs,if_pos ⟨ht,hi⟩]
            simp
        · exact .inr ⟨c',by simp [RowWorld.finish,ht,hc'],ha⟩
    call_inv := by
      intro u c' hc'
      by_cases hu : u = T
      · simp [RowWorld.finish,hu] at hc'
      · simp only [RowWorld.finish,Function.update_of_ne hu] at hc'
        have hci' := hinv.call_inv u c' hc'
        have hne : c.node.addr ≠ c'.node.addr := hinv.call_addr_ne T u c c' hc hc' (Ne.symm hu)
        refine { hci' with callbacks_ne := ?_ }
        intro u' cb hcb
        rw [hcbs] at hcb
        split_ifs at hcb
        · rcases List.mem_append.mp hcb with hcb | hcb
          · exact hci'.callbacks_ne u' cb hcb
          · rw [List.mem_singleton] at hcb
            subst hcb
            exact hne
        · exact hci'.callbacks_ne u' cb hcb
    call_addr_ne := by
      intro u u' c₁ c₂ h₁ h₂ hne
      by_cases hu : u = T
      · simp [RowWorld.finish,hu] at h₁
      by_cases hu' : u' = T
      · simp [RowWorld.finish,hu'] at h₂
      simp only [RowWorld.finish,Function.update_of_ne hu,Function.update_of_ne hu'] at h₁ h₂
      exact hinv.call_addr_ne u u' c₁ c₂ h₁ h₂ hne
    returns_ok := by
      intro x hx
      simp only [RowWorld.finish,List.mem_append,List.mem_singleton] at hx
      rcases hx with hx | rfl
      · exact hinv.returns_ok x hx
      · intro n hn hne
        have hdec := decided_of_holds hinv.undecided_top hl hid hn hne
        exact ⟨hdec,(hinv.version_le n hn hdec).trans hsv⟩ }

end Writer

/-! ## The callbacks

A callback runs for a transaction with no call going: its node is on the chain, and the top is
held by no call unless that call's transaction owns the top node. -/

section Callbacks

variable {w : RowWorld} {T : Nat}

theorem addr_ne_of_txId_ne (hinv : RowInv w) {n m : ObMvccTransNode} (hn : n ∈ w.row.listHead)
    (hm : m ∈ w.row.listHead) (ht : m.txId ≠ n.txId) : m.addr ≠ n.addr := fun ha =>
  ht (congrArg (·.txId) (List.inj_on_of_nodup_map hinv.addr_nodup hm hn ha))

theorem RowInv.unlink (hinv : RowInv w) (hT : w.calls T = none) {n : ObMvccTransNode}
    (hn : n ∈ w.row.listHead) (hnT : n.txId = T) {cbs : List ObMvccRowCallback}
    (hsub : cbs.Sublist (w.callbacks T)) (hkeep : ∀ cb ∈ w.callbacks T, cb.tnode ≠ n.addr → cb ∈ cbs)
    (hgone : ∀ cb ∈ cbs, cb.tnode ≠ n.addr) (mt me : Nat) (hme : w.row.maxElrTransVersion ≤ me) :
    RowInv { w with
      row := ⟨w.row.listHead.filter (·.addr != n.addr),mt,me⟩
      callbacks := Function.update w.callbacks T cbs } := by
  have hmem : ∀ m ∈ w.row.listHead.filter (·.addr != n.addr), m ∈ w.row.listHead ∧ m.addr ≠ n.addr := by
    intro m hm
    simpa using hm
  have hfsub : (w.row.listHead.filter (·.addr != n.addr)).Sublist w.row.listHead := List.filter_sublist
  have hcbs : ∀ t, (Function.update w.callbacks T cbs t).Sublist (w.callbacks t) := by
    intro t
    by_cases ht : t = T
    · subst ht
      simpa using hsub
    · simp [ht]
  exact {
    not_aborted := fun m hm => hinv.not_aborted m (hmem m hm).1
    version_le := fun m hm hu => (hinv.version_le m (hmem m hm).1 hu).trans hme
    undecided_version := fun m hm => hinv.undecided_version m (hmem m hm).1
    undecided_top := hinv.undecided_top.sublist hfsub
    addr_nodup := hinv.addr_nodup.sublist (hfsub.map _)
    addr_lt := fun m hm => hinv.addr_lt m (hmem m hm).1
    callbacks_nodup := fun t => (hinv.callbacks_nodup t).sublist ((hcbs t).map _)
    callback_linked := by
      intro t cb hcb
      obtain ⟨hl,m,hm,ha,hmt,hc⟩ := hinv.callback_linked t cb ((hcbs t).subset hcb)
      refine ⟨hl,m,List.mem_filter.mpr ⟨hm,?_⟩,ha,hmt,hc⟩
      by_cases ht : t = T
      · subst ht
        simp only [Function.update_self] at hcb
        simpa [ha] using hgone cb hcb
      · simpa using addr_ne_of_txId_ne hinv hn hm (by rw [hmt,hnT]; exact ht)
    callback_order := fun t => ((hinv.callback_order t).sublist ((hcbs t).map _)).imp
      fun hxy hs => hxy (hs.trans (hfsub.map _))
    undecided_owned := by
      intro m hm hu
      obtain ⟨hmL,hma⟩ := hmem m hm
      rcases hinv.undecided_owned m hmL hu with ⟨cb,hcb,ha⟩ | hcall
      · refine .inl ⟨cb,?_,ha⟩
        by_cases ht : m.txId = T
        · rw [ht] at hcb ⊢
          simp only [Function.update_self]
          exact hkeep cb hcb (ha ▸ hma)
        · simpa [ht] using hcb
      · exact .inr hcall
    call_inv := by
      intro t c hc
      have hci := hinv.call_inv t c hc
      have htT : t ≠ T := fun h => by rw [h,hT] at hc; cases hc
      refine { hci with
        callbacks_ne := fun u cb hcb => hci.callbacks_ne u cb ((hcbs u).subset hcb)
        stage := hci.stage.transfer ?_ ?_ }
      · exact fun hpre m hm => hpre m (hmem m hm).1
      · rintro res ⟨h,t',hl,hu,hid,hh⟩
        have hh' : h.addr ≠ n.addr :=
          addr_ne_of_txId_ne hinv hn (by simp [hl]) (by rw [hid,hnT]; exact htT)
        refine ⟨h,t'.filter (·.addr != n.addr),by simp [hl,hh'],hu,hid,?_⟩
        split_ifs at hh ⊢
        · exact hh
        · exact fun m hm => hh m (hmem m hm).1
    call_addr_ne := hinv.call_addr_ne
    returns_ok := hinv.returns_ok }

theorem below_oldest_decided (hinv : RowInv w) (hT : w.calls T = none) {cb : ObMvccRowCallback}
    {rest : List ObMvccRowCallback} (hcbs : w.callbacks T = cb :: rest) {n : ObMvccTransNode}
    (ha : n.addr = cb.tnode) (hnT : n.txId = T) {pre post : List ObMvccTransNode}
    (hL : w.row.listHead = pre ++ n :: post) (hpost : ∀ m ∈ post, m.addr ≠ n.addr) :
    ∀ m ∈ post, m.undecided = false := by
  intro m hm
  cases hu : m.undecided
  · rfl
  exfalso
  have hnm : List.Sublist [n,m] w.row.listHead :=
    hL ▸ ((List.singleton_sublist.mpr hm).cons_cons n).trans (List.sublist_append_right pre _)
  obtain ⟨-,hid⟩ := hinv.undecided_top.forall_sublist hnm hu
  rcases hinv.undecided_owned m (hnm.subset (by simp)) hu with ⟨cb',hcb',ha'⟩ | ⟨c,hc,-⟩
  · rw [← hid,hnT,hcbs] at hcb'
    rcases List.mem_cons.mp hcb' with rfl | hcb'
    · exact hpost m hm (ha'.symm.trans ha.symm)
    · have hord := hinv.callback_order T
      rw [hcbs,List.map_cons,List.pairwise_cons] at hord
      exact hord.1 cb'.tnode (List.mem_map_of_mem hcb') (by rw [← ha,ha']; exact hnm.map _)
  · rw [← hid,hnT,hT] at hc
    cases hc

theorem RowInv.commit (hinv : RowInv w) (hT : w.calls T = none) {cb : ObMvccRowCallback}
    {rest : List ObMvccRowCallback} (hcbs : w.callbacks T = cb :: rest) {n : ObMvccTransNode}
    (hn : n ∈ w.row.listHead) (ha : n.addr = cb.tnode) (hnT : n.txId = T) (cv : Nat) :
    RowInv { w with
      row := ⟨setNode cb.tnode (·.transCommit cv) w.row.listHead,max w.row.maxTransVersion cv,
        max w.row.maxElrTransVersion cv⟩
      callbacks := Function.update w.callbacks T rest } := by
  obtain ⟨pre,post,hL,hpre,hpost⟩ := split_of_mem hinv.addr_nodup hn
  have hf : ∀ m : ObMvccTransNode, (m.transCommit cv).addr = m.addr := fun _ => rfl
  have hset : setNode cb.tnode (·.transCommit cv) w.row.listHead = pre ++ n.transCommit cv :: post := by
    rw [hL,← ha]
    exact setNode_split rfl hpre hpost
  have haddr := map_addr_setNode (a := cb.tnode) hf w.row.listHead
  have hbelow := below_oldest_decided hinv hT hcbs ha hnT hL hpost
  have hkept : ∀ m ∈ w.row.listHead, m.addr ≠ n.addr → m ∈ pre ++ n.transCommit cv :: post := by
    intro m hm hma
    rw [hL] at hm
    simp only [List.mem_append,List.mem_cons] at hm ⊢
    rcases hm with hm | rfl | hm
    · exact .inl hm
    · exact absurd rfl hma
    · exact .inr (.inr hm)
  have hback : ∀ m ∈ pre ++ n.transCommit cv :: post, m = n.transCommit cv ∨ (m ∈ w.row.listHead ∧ m.addr ≠ n.addr) := by
    intro m hm
    simp only [List.mem_append,List.mem_cons] at hm
    rcases hm with hm | rfl | hm
    · exact .inr ⟨hL ▸ List.mem_append_left _ hm,hpre m hm⟩
    · exact .inl rfl
    · exact .inr ⟨hL ▸ List.mem_append_right _ (List.mem_cons_of_mem _ hm),hpost m hm⟩
  have hnd := hinv.callbacks_nodup T
  rw [hcbs,List.map_cons,List.nodup_cons] at hnd
  have hcbs' : ∀ t, (Function.update w.callbacks T rest t).Sublist (w.callbacks t) := by
    intro t
    by_cases ht : t = T
    · subst ht
      simp [hcbs]
    · simp [ht]
  exact {
    not_aborted := by
      intro m hm
      rw [hset] at hm
      rcases hback m hm with rfl | ⟨hm,-⟩
      · exact hinv.not_aborted n hn
      · exact hinv.not_aborted m hm
    version_le := by
      intro m hm hu
      rw [hset] at hm
      rcases hback m hm with rfl | ⟨hm,-⟩
      · exact le_max_right _ _
      · exact (hinv.version_le m hm hu).trans (le_max_left _ _)
    undecided_version := by
      intro m hm hu
      rw [hset] at hm
      rcases hback m hm with rfl | ⟨hm,-⟩
      · simp at hu
      · exact hinv.undecided_version m hm hu
    undecided_top := by
      have htop := hinv.undecided_top
      rw [hL,List.pairwise_append,List.pairwise_cons] at htop
      show (setNode cb.tnode (·.transCommit cv) w.row.listHead).Pairwise _
      rw [hset,List.pairwise_append,List.pairwise_cons]
      refine ⟨htop.1,⟨fun b hb hbu => ?_,htop.2.1.2⟩,fun a ha' b hb hbu => ?_⟩
      · rw [hbelow b hb] at hbu
        cases hbu
      · rcases List.mem_cons.mp hb with rfl | hb
        · simp at hbu
        · exact htop.2.2 a ha' b (List.mem_cons_of_mem _ hb) hbu
    addr_nodup := by
      show (List.map _ (setNode _ _ _)).Nodup
      rw [haddr]
      exact hinv.addr_nodup
    addr_lt := by
      intro m hm
      rw [hset] at hm
      rcases hback m hm with rfl | ⟨hm,-⟩
      · exact hinv.addr_lt n hn
      · exact hinv.addr_lt m hm
    callbacks_nodup := fun t => (hinv.callbacks_nodup t).sublist ((hcbs' t).map _)
    callback_linked := by
      intro t cb' hcb'
      obtain ⟨hl,m,hm,ha',hmt,hc⟩ := hinv.callback_linked t cb' ((hcbs' t).subset hcb')
      have hma : m.addr ≠ n.addr := by
        by_cases ht : t = T
        · subst ht
          simp only [Function.update_self] at hcb'
          rw [ha',ha]
          exact fun h => hnd.1 (h ▸ List.mem_map_of_mem hcb')
        · exact addr_ne_of_txId_ne hinv hn hm (by rw [hmt,hnT]; exact ht)
      refine ⟨hl,m,?_,ha',hmt,hc⟩
      show m ∈ setNode _ _ _
      rw [hset]
      exact hkept m hm hma
    callback_order := by
      intro t
      refine ((hinv.callback_order t).sublist ((hcbs' t).map _)).imp fun hxy hs => hxy ?_
      have : List.map (·.addr) (setNode cb.tnode (·.transCommit cv) w.row.listHead) =
        w.row.listHead.map (·.addr) := haddr
      rw [← this]
      exact hs
    undecided_owned := by
      intro m hm hu
      rw [hset] at hm
      rcases hback m hm with rfl | ⟨hm,hma⟩
      · simp at hu
      · rcases hinv.undecided_owned m hm hu with ⟨cb',hcb',ha'⟩ | hcall
        · refine .inl ⟨cb',?_,ha'⟩
          by_cases ht : m.txId = T
          · rw [ht,hcbs] at hcb'
            rw [ht]
            simp only [Function.update_self]
            rcases List.mem_cons.mp hcb' with rfl | hcb'
            · exact absurd (ha'.symm.trans ha.symm) hma
            · exact hcb'
          · simpa [ht] using hcb'
        · exact .inr hcall
    call_inv := by
      intro t c hc
      have hci := hinv.call_inv t c hc
      have htT : t ≠ T := fun h => by rw [h,hT] at hc; cases hc
      refine { hci with
        callbacks_ne := fun u cb' hcb' => hci.callbacks_ne u cb' ((hcbs' u).subset hcb')
        stage := hci.stage.transfer ?_ ?_ }
      · intro hpre m hm
        rw [hset] at hm
        rcases hback m hm with rfl | ⟨hm,-⟩
        · exact hpre n hn
        · exact hpre m hm
      · rintro res ⟨h,t',hl,hu,hid,hh⟩
        have hh' : h.addr ≠ n.addr :=
          addr_ne_of_txId_ne hinv hn (by simp [hl]) (by rw [hid,hnT]; exact htT)
        refine ⟨h,setNode cb.tnode (·.transCommit cv) t',?_,hu,hid,?_⟩
        · show setNode _ _ _ = _
          rw [hl]
          simp [setNode,← ha,hh']
        · split_ifs at hh ⊢
          · exact hh
          · intro m hm
            rw [hset] at hm
            rcases hback m hm with rfl | ⟨hm,-⟩
            · exact hh n hn
            · exact hh m hm
    call_addr_ne := hinv.call_addr_ne
    returns_ok := hinv.returns_ok }

theorem RowInv.elr_owner (hinv : RowInv w) (hT : w.calls T = none) {h : ObMvccTransNode}
    {t : List ObMvccTransNode} (hl : w.row.listHead = h :: t) (hu : h.undecided = true)
    (hid : h.txId = T) (e : Nat) :
    RowInv { w with
      row := ⟨(elrLoop T e w.row.listHead).1,w.row.maxTransVersion,max w.row.maxElrTransVersion e⟩ } := by
  have hdec := elrLoop_decided (e := e) hinv.undecided_top hinv.undecided_version hl hu hid
  have haddr := map_addr_elrLoop T e w.row.listHead
  have hback : ∀ m ∈ (elrLoop T e w.row.listHead).1, ∃ m₀ ∈ w.row.listHead,
      (m = m₀ ∨ m = m₀.setElr e) := by
    intro m hm
    rcases mem_elrLoop hm with hm | ⟨m₀,hm₀,rfl⟩
    · exact ⟨m,hm,.inl rfl⟩
    · exact ⟨m₀,hm₀,.inr rfl⟩
  exact {
    not_aborted := by
      intro m hm
      obtain ⟨m₀,hm₀,rfl | rfl⟩ := hback m hm
      · exact hinv.not_aborted _ hm₀
      · exact hinv.not_aborted m₀ hm₀
    version_le := by
      intro m hm hmu
      obtain ⟨m₀,hm₀,rfl | rfl⟩ := hback m hm
      · exact (hinv.version_le _ hm₀ hmu).trans (le_max_left _ _)
      · exact le_max_right _ _
    undecided_version := fun m hm hmu => absurd hmu (by simp [hdec m hm])
    undecided_top := List.pairwise_of_forall_mem_list fun a _ b hb hbu => absurd hbu (by simp [hdec b hb])
    addr_nodup := by
      show List.Nodup (List.map _ (elrLoop _ _ _).1)
      rw [haddr]
      exact hinv.addr_nodup
    addr_lt := by
      intro m hm
      obtain ⟨m₀,hm₀,rfl | rfl⟩ := hback m hm
      · exact hinv.addr_lt _ hm₀
      · exact hinv.addr_lt m₀ hm₀
    callbacks_nodup := hinv.callbacks_nodup
    callback_linked := by
      intro u cb hcb
      obtain ⟨hlk,m,hm,ha,hmt,hc⟩ := hinv.callback_linked u cb hcb
      rcases elrLoop_covers T e hm with hm' | hm'
      · exact ⟨hlk,m,hm',ha,hmt,hc⟩
      · exact ⟨hlk,m.setElr e,hm',ha,hmt,hc⟩
    callback_order := by
      intro u
      refine (hinv.callback_order u).imp fun hxy hs => hxy ?_
      have : List.map (·.addr) (elrLoop T e w.row.listHead).1 = w.row.listHead.map (·.addr) := haddr
      rw [← this]
      exact hs
    undecided_owned := fun m hm hmu => absurd hmu (by simp [hdec m hm])
    call_inv := by
      intro u c hc
      have hci := hinv.call_inv u c hc
      have huT : u ≠ T := fun h => by rw [h,hT] at hc; cases hc
      refine { hci with stage := hci.stage.transfer ?_ ?_ }
      · intro hpre m hm
        obtain ⟨m₀,hm₀,rfl | rfl⟩ := hback m hm
        · exact hpre _ hm₀
        · exact hpre m₀ hm₀
      · rintro res ⟨h',t',hl',-,hid',-⟩
        rw [hl] at hl'
        cases (List.cons.inj hl').1
        exact absurd (hid'.symm.trans hid) huT
    call_addr_ne := hinv.call_addr_ne
    returns_ok := hinv.returns_ok }

theorem RowInv.raise_elr (hinv : RowInv w) (e : Nat) :
    RowInv { w with row := { w.row with maxElrTransVersion := max w.row.maxElrTransVersion e } } :=
  { hinv with
    version_le := fun m hm hu => (hinv.version_le m hm hu).trans (le_max_left _ _)
    call_inv := fun t c hc => (hinv.call_inv t c hc).congr rfl le_rfl rfl }

end Callbacks

/-! ## Every step keeps the invariant -/

section Step

variable {w : RowWorld} {T : Nat} {c : WriteCall}

theorem CallInv.free_of_pre (hci : CallInv w T c) (hpc : c.pc.result = none) :
    ∀ n ∈ w.row.listHead, n.addr ≠ c.node.addr := by
  have hst := hci.stage
  simp only [CallStage,hpc] at hst
  exact hst

theorem CallInv.held (hci : CallInv w T c) {res : ObMvccWriteResult} (hpc : c.pc.result = some res) :
    res.canInsert = true ∧ HoldsHead w.row.listHead T c res := by
  have hst := hci.stage
  simp only [CallStage,hpc] at hst
  exact ⟨hst.1,hst.2.1⟩

theorem HoldsHead.free {l : List ObMvccTransNode} {res : ObMvccWriteResult}
    (hh : HoldsHead l T c res) (hi : res.hasInsert = false) : ∀ n ∈ l, n.addr ≠ c.node.addr := by
  obtain ⟨h,t,-,-,-,hfree⟩ := hh
  rw [if_neg (by simp [hi])] at hfree
  exact hfree

theorem RowInv.recheck_fails (hinv : RowInv w) (hc : w.calls T = some c) {res : ObMvccWriteResult}
    (hpc : c.pc.result = some res) :
    RowInv (if res.hasInsert then w.setPc T c (.undo res)
      else w.finish T c (.error .transactionSetViolation)) := by
  obtain ⟨hcan,hh⟩ := (hinv.call_inv T c hc).held hpc
  by_cases hi : res.hasInsert = true
  · rw [if_pos hi]
    refine hinv.setPc hc ?_
    simp only [CallStage,WritePc.result]
    exact ⟨hcan,hh,fun _ => hi⟩
  · rw [if_neg hi]
    refine hinv.finish_error (fun c' h => by rw [hc] at h; cases h; rfl) (hh.free ?_)
    simpa using hi

theorem RowInv.recheck_passes (hinv : RowInv w) (hc : w.calls T = some c) {res : ObMvccWriteResult}
    (hpc : c.pc.result = some res) : RowInv (w.setPc T c (.secondElrLoad res)) := by
  obtain ⟨hcan,hh⟩ := (hinv.call_inv T c hc).held hpc
  refine hinv.setPc hc ?_
  simp only [CallStage,WritePc.result]
  exact ⟨hcan,hh,fun h => by cases h⟩

theorem RowInv.resume (hinv : RowInv w) (hc : w.calls T = some c) : RowInv (w.resume T c) := by
  have hci := hinv.call_inv T c hc
  have hT : ∀ c', w.calls T = some c' → c'.node = c.node := fun c' h => by
    rw [hc] at h
    cases h
    rfl
  cases hpc : c.pc with
  | firstElrLoad =>
    have hfree := hci.free_of_pre (by simp [hpc,WritePc.result])
    by_cases hv : w.row.maxElrTransVersion > c.snapshot.version
    · simp only [RowWorld.resume,hpc,if_pos hv]
      exact hinv.finish_error hT hfree
    · simp only [RowWorld.resume,hpc,if_neg hv]
      refine hinv.setPc hc ?_
      simp only [CallStage,WritePc.result]
      exact hfree
  | latchedWrite =>
    have hfree := hci.free_of_pre (by simp [hpc,WritePc.result])
    cases hw : w.row.mvccWrite_ T c.writeFlag c.node c.snapshot with
    | error e =>
      simp only [RowWorld.resume,hpc,hw]
      exact hinv.finish_error hT hfree
    | ok p =>
      obtain ⟨row',res⟩ := p
      obtain ⟨hcan,hneed,hrow⟩ := mvccWrite_eq_ok hw
      by_cases hin : res.canInsert = true
      · simp only [RowWorld.resume,hpc,hw,hin,Bool.not_true,Bool.false_eq_true,if_false]
        obtain ⟨hhead,hheld⟩ := writeLoop_spec hinv.not_aborted (hcan ▸ hin)
        by_cases hi : res.hasInsert = true
        · rw [if_pos hi] at hrow
          subst hrow
          exact hinv.insert hc hpc hhead hi
        · rw [if_neg hi] at hrow
          subst hrow
          have hi' : res.hasInsert = false := by simpa using hi
          obtain ⟨h,t,hl,hu⟩ := hheld (by
            rw [← hneed]
            simpa [ObMvccWriteResult.hasInsert,hin] using hi')
          refine hinv.setPc hc ?_
          simp only [CallStage,WritePc.result]
          refine ⟨hin,⟨h,t,hl,hu,hhead h (by simp [hl]) hu,?_⟩,fun h => by cases h⟩
          rw [if_neg (by simp [hi'])]
          exact hfree
      · simp only [Bool.not_eq_true] at hin
        simp only [RowWorld.resume,hpc,hw,hin,Bool.not_false,if_true]
        have hi : res.hasInsert = false := by simp [ObMvccWriteResult.hasInsert,hin]
        rw [if_neg (by simp [hi])] at hrow
        subst hrow
        exact hinv.finish_error hT hfree
  | secondTransLoad res =>
    have hres : c.pc.result = some res := by simp [hpc,WritePc.result]
    by_cases hv : w.row.maxTransVersion > c.snapshot.version
    · simp only [RowWorld.resume,hpc,if_pos hv]
      exact hinv.recheck_fails hc hres
    · simp only [RowWorld.resume,hpc,if_neg hv]
      exact hinv.recheck_passes hc hres
  | secondElrLoad res =>
    have hres : c.pc.result = some res := by simp [hpc,WritePc.result]
    by_cases hv : w.row.maxElrTransVersion > c.snapshot.version
    · simp only [RowWorld.resume,hpc,if_pos hv]
      exact hinv.recheck_fails hc hres
    · simp only [RowWorld.resume,hpc,if_neg hv]
      exact hinv.success hc hpc (not_lt.mp hv)
  | undo res =>
    simp only [RowWorld.resume,hpc]
    exact hinv.undo hc hpc

theorem RowInv.step (hinv : RowInv w) {e : RowEvent} (hadm : Admissible w e) {w' : RowWorld}
    (hstep : rowStep w e = some w') : RowInv w' := by
  cases e with
  | mvccWrite T arg writeFlag snapshot =>
    have hT : w.calls T = none := hadm
    simp only [rowStep] at hstep
    by_cases hv : w.row.maxTransVersion > snapshot.version
    · rw [if_pos hv,Option.some.injEq] at hstep
      subst hstep
      exact hinv.bump.finish_error (fun c' h => by simp [hT] at h)
        (fun n hn => (hinv.addr_lt n hn).ne)
    · rw [if_neg hv,Option.some.injEq] at hstep
      subst hstep
      exact hinv.start hT arg writeFlag snapshot
  | resume T =>
    cases hc : w.calls T with
    | none => simp [rowStep,hc] at hstep
    | some c =>
      simp only [rowStep,hc,Option.map_some,Option.some.injEq] at hstep
      subst hstep
      exact hinv.resume hc
  | transCommit T cv =>
    have hT : w.calls T = none := hadm
    cases hcbs : w.callbacks T with
    | nil => simp [rowStep,hcbs] at hstep
    | cons cb rest =>
      obtain ⟨hlk,n,hn,ha,hnT,-⟩ := hinv.callback_linked T cb (by simp [hcbs])
      by_cases hv : scnIsValid cv = true
      · have hres := ObMvccRowCallback.transCommit_of_valid hinv.addr_nodup hn ha hlk hv
        simp only [rowStep,hcbs,hres,Option.some.injEq] at hstep
        subst hstep
        have hnd := hinv.callbacks_nodup T
        rw [hcbs,List.map_cons,List.nodup_cons] at hnd
        by_cases hlock : n.dmlFlag = .lock
        · simp only [hlock,if_true]
          rw [← ha]
          refine hinv.unlink hT hn hnT (List.sublist_cons_self cb rest |>.trans (hcbs ▸ List.Sublist.refl _))
            ?_ ?_ _ _ (le_max_left _ _)
          · intro cb' hcb' hne
            rw [hcbs] at hcb'
            rcases List.mem_cons.mp hcb' with rfl | hcb'
            · exact absurd ha.symm hne
            · exact hcb'
          · intro cb' hcb' heq
            exact hnd.1 (ha ▸ heq ▸ List.mem_map_of_mem hcb')
        · simp only [hlock,if_false]
          exact hinv.commit hT hcbs hn ha hnT cv
      · have hres := ObMvccRowCallback.transCommit_of_invalid hinv.addr_nodup hn ha (by simpa using hv)
        simp only [rowStep,hcbs,hres,Option.some.injEq] at hstep
        subst hstep
        rw [← hcbs,Function.update_eq_self]
        exact hinv
  | transAbort T a =>
    have hT : w.calls T = none := hadm
    cases hf : (w.callbacks T).find? (·.tnode == a) with
    | none => simp [rowStep,hf] at hstep
    | some cb =>
      simp only [rowStep,hf,Option.map_some,Option.some.injEq] at hstep
      subst hstep
      have hca : cb.tnode = a := by simpa using List.find?_some hf
      subst hca
      obtain ⟨hlk,n,hn,ha,hnT,hnc⟩ := hinv.callback_linked T cb (List.mem_of_find?_eq_some hf)
      rw [ObMvccRowCallback.transAbort_eq hinv.addr_nodup hn ha hlk hnc (hinv.not_aborted n hn),← ha]
      exact hinv.unlink hT hn hnT List.filter_sublist (fun cb' hcb' hne => by simp [hcb',hne])
        (fun cb' hcb' => by simpa using (List.mem_filter.mp hcb').2) _ _ le_rfl
  | rollbackCallback T a =>
    have hT : w.calls T = none := hadm
    cases hf : (w.callbacks T).find? (·.tnode == a) with
    | none => simp [rowStep,hf] at hstep
    | some cb =>
      simp only [rowStep,hf,Option.map_some,Option.some.injEq] at hstep
      subst hstep
      have hca : cb.tnode = a := by simpa using List.find?_some hf
      subst hca
      obtain ⟨hlk,n,hn,ha,hnT,hnc⟩ := hinv.callback_linked T cb (List.mem_of_find?_eq_some hf)
      rw [ObMvccRowCallback.rollbackCallback_eq hinv.addr_nodup hn ha hlk hnc,← ha]
      exact hinv.unlink hT hn hnT List.filter_sublist (fun cb' hcb' hne => by simp [hcb',hne])
        (fun cb' hcb' => by simpa using (List.mem_filter.mp hcb').2) _ _ le_rfl
  | elrTransPreparing T e =>
    have hT : w.calls T = none := hadm
    by_cases he : w.callbacks T = []
    · simp [rowStep,he] at hstep
    simp only [rowStep,if_neg he,Option.some.injEq] at hstep
    subst hstep
    cases hl : w.row.listHead with
    | nil =>
      have : (w.row.elr T e).1 = w.row := by simp [ObMvccRow.elr,hl]
      rw [this]
      exact hinv
    | cons h t =>
      by_cases hu : h.undecided = true
      · by_cases hid : h.txId = T
        · have : (w.row.elr T e).1 =
              ⟨(elrLoop T e w.row.listHead).1,w.row.maxTransVersion,max w.row.maxElrTransVersion e⟩ := by
            simp [ObMvccRow.elr,hl,hu]
          rw [this]
          exact hinv.elr_owner hT hl hu hid e
        · have : (w.row.elr T e).1 = { w.row with maxElrTransVersion := max w.row.maxElrTransVersion e } := by
            simp [ObMvccRow.elr,hl,hu,elrLoop,Ne.symm hid]
          rw [this]
          exact hinv.raise_elr e
      · have : (w.row.elr T e).1 = w.row := by simp [ObMvccRow.elr,hl,hu]
        rw [this]
        exact hinv

theorem rowInv_of_run {es : List RowEvent} {w : RowWorld}
    (h : Lib.Run rowStep Admissible RowWorld.init es w) : RowInv w :=
  Lib.Run.invariant RowInv (fun _ _ _ hinv hadm hst => hinv.step hadm hst) h rowInv_init

end Step

/-! ## Write exclusion and first committer wins -/

theorem txId_eq_of_undecided {l : List ObMvccTransNode}
    (htop : l.Pairwise fun a b => b.undecided = true → a.undecided = true ∧ a.txId = b.txId) :
    ∀ a ∈ l, ∀ b ∈ l, a.undecided = true → b.undecided = true → a.txId = b.txId := by
  refine List.Pairwise.forall_of_forall_of_flip (fun _ _ _ _ => rfl) ?_ ?_
  · exact htop.imp fun hR _ hb => (hR hb).2
  · exact htop.imp fun hR hb _ => (hR hb).2.symm

/-- Every run of one row under any interleaving of `mvcc_write` calls, each cut at its unlatched
loads, and of the commit, abort, rollback and early-release callbacks: two transactions never
hold undecided nodes on the row at once; when a call returns `OB_SUCCESS`, every node of another
transaction on the row is decided and, committed or released early, has a version within the
call's snapshot; and when a call returns an error, its node is not on the row. -/
theorem mvccWrite_exclusion {es : List RowEvent} {w : RowWorld}
    (hrun : Lib.Run rowStep Admissible RowWorld.init es w) :
    (∀ a ∈ w.row.listHead, ∀ b ∈ w.row.listHead, a.undecided = true → b.undecided = true →
      a.txId = b.txId) ∧
      ∀ x ∈ w.returns,
        (∀ res, x.ret = .ok res → ∀ n ∈ x.listHead, n.txId ≠ x.txId →
          n.undecided = false ∧ (n.isCommitted = true ∨ n.isElr = true → n.transVersion ≤ x.snapshotVersion)) ∧
        (∀ e, x.ret = .error e → ∀ n ∈ x.listHead, n.addr ≠ x.addr) := by
  have hinv := rowInv_of_run hrun
  refine ⟨txId_eq_of_undecided hinv.undecided_top,fun x hx => ⟨?_,?_⟩⟩
  · intro res hres n hn hne
    have hok := hinv.returns_ok x hx
    simp only [ReturnOk,hres] at hok
    obtain ⟨hdec,hle⟩ := hok n hn hne
    exact ⟨hdec,fun _ => hle⟩
  · intro e he
    have hok := hinv.returns_ok x hx
    simp only [ReturnOk,he] at hok
    exact hok

/-- Two transactions write the row: the second meets the first's undecided node and gets
`OB_TRY_LOCK_ROW_CONFLICT`; after the first commits at version 15, the second, with snapshot 20,
gets in on top. -/
def twoWriters : List RowEvent :=
  [.mvccWrite 1 ⟨.update,1⟩ ⟨false,false,false,false⟩ ⟨10,0⟩,.resume 1,.resume 1,.resume 1,.resume 1,
    .mvccWrite 2 ⟨.update,1⟩ ⟨false,false,false,false⟩ ⟨20,0⟩,.resume 2,.resume 2,
    .transCommit 1 15,
    .mvccWrite 2 ⟨.update,2⟩ ⟨false,false,false,false⟩ ⟨20,0⟩,.resume 2,.resume 2,.resume 2,.resume 2]

def twoWritersWorld : RowWorld :=
  twoWriters.foldl (fun w e => (rowStep w e).getD w) RowWorld.init

theorem mvccWrite_exclusion_twoWriters :
    Lib.Run rowStep Admissible RowWorld.init twoWriters twoWritersWorld ∧
      twoWritersWorld.returns.map (fun x => (x.txId,x.ret.toBool)) = [(1,true),(2,false),(2,true)] ∧
      ((∀ a ∈ twoWritersWorld.row.listHead, ∀ b ∈ twoWritersWorld.row.listHead,
          a.undecided = true → b.undecided = true → a.txId = b.txId) ∧
        ∀ x ∈ twoWritersWorld.returns,
          (∀ res, x.ret = .ok res → ∀ n ∈ x.listHead, n.txId ≠ x.txId →
            n.undecided = false ∧
              (n.isCommitted = true ∨ n.isElr = true → n.transVersion ≤ x.snapshotVersion)) ∧
          (∀ e, x.ret = .error e → ∀ n ∈ x.listHead, n.addr ≠ x.addr)) :=
  have hrun : Lib.Run rowStep Admissible RowWorld.init twoWriters twoWritersWorld :=
    .cons (by decide) rfl (.cons trivial rfl (.cons trivial rfl (.cons trivial rfl (.cons trivial rfl
      (.cons (by decide) rfl (.cons trivial rfl (.cons trivial rfl (.cons (by decide) rfl
        (.cons (by decide) rfl (.cons trivial rfl (.cons trivial rfl (.cons trivial rfl
          (.cons trivial rfl (.nil _))))))))))))))
  ⟨hrun,by decide,mvccWrite_exclusion hrun⟩

end OceanBase.Memtable
