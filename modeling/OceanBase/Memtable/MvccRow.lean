import Mathlib
import OceanBase.Define

/-! The row of a memtable and its chain of transaction nodes (`ob_mvcc_row.cpp`,
`ob_mvcc_trans_ctx.cpp`, `ob_concurrent_control.cpp`): the latched part of
`ObMvccRow::mvcc_write`, early lock release, and the row callbacks that commit, abort and roll
back a node.

The chain `list_head_`, `prev_`, ... is a list, newest node first. A node is named by its
address: `unlink_trans_node` and a callback's `tnode_` reach it by that address. A node keeps
the fields that the write path and the callbacks read. -/
namespace OceanBase.Memtable

inductive ObDmlFlag
  | notExist | lock | update | insert | delete
  deriving DecidableEq, Repr

structure ObWriteFlag where
  isTableApi : Bool
  isDmlBatchOpt : Bool
  isInsertUp : Bool
  isWriteOnlyIndex : Bool
  deriving DecidableEq, Repr

/-- `concurrent_control::check_sequence_set_violation`: a write of a transaction onto a row whose
newest node it wrote itself, in a statement that has not moved past that node, passes only in
the listed cases. -/
def checkSequenceSetViolation (writeFlag : ObWriteFlag) (readerSeqNo : Int) (writerTxId : Nat)
    (writerDmlFlag : ObDmlFlag) (writerSeqNo : Int) (lockerTxId : Nat)
    (lockerDmlFlag : ObDmlFlag) (lockerSeqNo : Int) : Except ObErr Unit :=
  if writerTxId = lockerTxId then
    if readerSeqNo < lockerSeqNo then
      if writerDmlFlag = .insert ∧ lockerDmlFlag = .insert then .error .errPrimaryKeyDuplicate
      else if lockerDmlFlag = .lock then .ok ()
      else if writerDmlFlag = .insert ∧ lockerDmlFlag = .delete then .ok ()
      else if (writerDmlFlag = .update ∨ writerDmlFlag = .delete) ∧ lockerDmlFlag = .insert then
        .ok ()
      else if writeFlag.isTableApi then .ok ()
      else if writerDmlFlag = .delete ∧ lockerDmlFlag = .delete then .ok ()
      else if writeFlag.isDmlBatchOpt then .error .batchedMultiStmtRollback
      else if writeFlag.isInsertUp then .ok ()
      else if writeFlag.isWriteOnlyIndex then .error .errPrimaryKeyDuplicate
      else .error .errUnexpected
    else if writerSeqNo < lockerSeqNo then .error .errUnexpected
    else .ok ()
  else .ok ()

/-- `ObTxSnapshot`: the snapshot version and the reader's sequence number (`scn_`). -/
structure ObTxSnapshot where
  version : Nat
  scn : Int
  deriving DecidableEq, Repr

/-- The parts of `ObTxNodeArg` a new node takes: the DML flag of its data and its sequence
number. -/
structure ObTxNodeArg where
  dmlFlag : ObDmlFlag
  seqNo : Int
  deriving DecidableEq, Repr

/-- `ObMvccTransNode`, with the fields that the write path and the callbacks read. -/
structure ObMvccTransNode where
  /-- The node's address. -/
  addr : Nat
  txId : Nat
  transVersion : Nat
  seqNo : Int
  dmlFlag : ObDmlFlag
  isCommitted : Bool
  isElr : Bool
  isAborted : Bool
  deriving DecidableEq, Repr

namespace ObMvccTransNode

/-- Neither released early, committed nor aborted: the node's transaction still holds the row.
This is the test `ObMvccRow::elr` makes on the newest node. -/
def undecided (n : ObMvccTransNode) : Bool := !n.isElr && !n.isCommitted && !n.isAborted

/-- `ObMvccTransNode::trans_commit`: the commit version is filled before the committed flag. -/
def transCommit (n : ObMvccTransNode) (commitVersion : Nat) : ObMvccTransNode :=
  { n with transVersion := commitVersion, isCommitted := true }

def setAborted (n : ObMvccTransNode) : ObMvccTransNode := { n with isAborted := true }

/-- One turn of the loop of `ObMvccRow::elr`: the node takes the early commit version, then the
ELR flag. -/
def setElr (n : ObMvccTransNode) (elrCommitVersion : Nat) : ObMvccTransNode :=
  { n with transVersion := elrCommitVersion, isElr := true }

end ObMvccTransNode

open ObMvccTransNode

/-- `ObMvccEngine::build_tx_node_`: a node of the writing transaction with
`trans_version_ = SCN::max_scn()` and no flag set. -/
def buildTxNode (addr txId : Nat) (arg : ObTxNodeArg) : ObMvccTransNode where
  addr := addr
  txId := txId
  transVersion := obMaxScnTsNs
  seqNo := arg.seqNo
  dmlFlag := arg.dmlFlag
  isCommitted := false
  isElr := false
  isAborted := false

/-- `ObMvccRow`: the chain of nodes, newest first, and the two largest versions that commits and
early releases left on the row. -/
structure ObMvccRow where
  listHead : List ObMvccTransNode
  maxTransVersion : Nat
  maxElrTransVersion : Nat
  deriving Repr

def ObMvccRow.init : ObMvccRow := ⟨[],0,0⟩

def setNode (addr : Nat) (f : ObMvccTransNode → ObMvccTransNode) (l : List ObMvccTransNode) :
    List ObMvccTransNode :=
  l.map fun n => if n.addr = addr then f n else n

structure ObStoreRowLockState where
  isLocked : Bool := false
  lockTransId : Nat := 0
  lockDataSequence : Int := 0
  lockDmlFlag : ObDmlFlag := .notExist
  deriving DecidableEq, Repr

structure ObMvccWriteResult where
  canInsert : Bool
  needInsert : Bool
  isNewLocked : Bool
  lockState : ObStoreRowLockState
  txNode : Option Nat
  isChecked : Bool
  deriving DecidableEq, Repr

def ObMvccWriteResult.hasInsert (res : ObMvccWriteResult) : Bool := res.canInsert && res.needInsert

/-- The loop of `ObMvccRow::mvcc_write_`, from the newest node down past aborted ones; the cases
are the source's. -/
def writeLoop (writerTxId : Nat) (isLockNode : Bool) :
    List ObMvccTransNode → ObMvccWriteResult
  | [] => ⟨true,true,true,{},none,false⟩
  | n :: ns =>
    if n.isCommitted || n.isElr then ⟨true,true,true,{},none,false⟩
    else if n.isAborted then writeLoop writerTxId isLockNode ns
    else if n.txId = writerTxId then
      if isLockNode then ⟨true,false,false,{},none,false⟩ else ⟨true,true,false,{},none,false⟩
    else ⟨false,false,false,⟨true,n.txId,n.seqNo,n.dmlFlag⟩,none,false⟩

def checkDoubleInsert (snapshotVersion : Nat) (node : ObMvccTransNode) :
    Option ObMvccTransNode → Except ObErr Unit
  | none => .ok ()
  | some prev =>
    if node.dmlFlag = .insert ∧ prev.dmlFlag ≠ .delete ∧ prev.isCommitted = true ∧
        prev.transVersion ≤ snapshotVersion then .error .errPrimaryKeyDuplicate
    else .ok ()

/-- `ObMvccRow::mvcc_write_`, under the row latch: the loop decides whether the writer may go on
and whether its node goes in; an insert onto a node first passes the sequence check against that
node and the double-insert check. -/
def ObMvccRow.mvccWrite_ (row : ObMvccRow) (writerTxId : Nat) (writeFlag : ObWriteFlag)
    (writerNode : ObMvccTransNode) (snapshot : ObTxSnapshot) :
    Except ObErr (ObMvccRow × ObMvccWriteResult) :=
  let res := writeLoop writerTxId (writerNode.dmlFlag == .lock) row.listHead
  if res.canInsert && res.needInsert then
    match row.listHead with
    | [] => .ok ({ row with listHead := [writerNode] }, { res with txNode := some writerNode.addr })
    | head :: _ => do
      checkSequenceSetViolation writeFlag snapshot.scn writerTxId writerNode.dmlFlag
        writerNode.seqNo head.txId head.dmlFlag head.seqNo
      checkDoubleInsert snapshot.version writerNode (some head)
      pure ({ row with listHead := writerNode :: row.listHead },
        { res with txNode := some writerNode.addr, isChecked := true })
  else .ok (row,res)

/-- `ObMvccRow::mvcc_undo`: the newest node is marked aborted and leaves the chain. Nothing
reaches a node that `mvcc_undo` took off, so its flag is not kept. -/
def ObMvccRow.mvccUndo (row : ObMvccRow) : ObMvccRow :=
  match row.listHead with
  | [] => row
  | _ :: ns => { row with listHead := ns }

/-- The loop of `ObMvccRow::elr`: from the newest node down, the nodes of `txId` take the early
commit version and the ELR flag, until a node of another transaction, or a node already holding a
larger version, which is an error. -/
def elrLoop (txId elrCommitVersion : Nat) :
    List ObMvccTransNode → List ObMvccTransNode × Except ObErr Unit
  | [] => ([],.ok ())
  | n :: ns =>
    if txId ≠ n.txId then (n :: ns,.ok ())
    else if obMaxScnTsNs ≠ n.transVersion ∧ n.transVersion > elrCommitVersion then
      (n :: ns,.error .errUnexpected)
    else
      let p := elrLoop txId elrCommitVersion ns
      (n.setElr elrCommitVersion :: p.1,p.2)

/-- `ObMvccRow::elr`: when the newest node is undecided, the loop runs and
`max_elr_trans_version_` is raised to the early commit version, whatever the loop found. -/
def ObMvccRow.elr (row : ObMvccRow) (txId elrCommitVersion : Nat) :
    ObMvccRow × Except ObErr Unit :=
  match row.listHead with
  | n :: _ =>
    if n.undecided then
      let p := elrLoop txId elrCommitVersion row.listHead
      ({ row with
          listHead := p.1
          maxElrTransVersion := max row.maxElrTransVersion elrCommitVersion },p.2)
    else (row,.ok ())
  | [] => (row,.ok ())

/-- `ObMvccRow::trans_commit`: both largest versions rise to the commit version
(`update_max_trans_version`, `update_max_elr_trans_version`); the read-barrier check only logs. -/
def ObMvccRow.transCommit (row : ObMvccRow) (commitVersion : Nat) : Except ObErr ObMvccRow :=
  if !scnIsValid commitVersion then .error .invalidArgument
  else .ok { row with
    maxTransVersion := max row.maxTransVersion commitVersion
    maxElrTransVersion := max row.maxElrTransVersion commitVersion }

/-- `ObMvccRow::unlink_trans_node` as a server restarting runs it: the node leaves the chain
wherever it stands; a node off the chain is the `OB_ERR_UNEXPECTED` branch. -/
def ObMvccRow.unlinkTransNode (row : ObMvccRow) (addr : Nat) : Except ObErr ObMvccRow :=
  if row.listHead.any (·.addr == addr) then
    .ok { row with listHead := row.listHead.filter (·.addr != addr) }
  else .error .errUnexpected

structure ObMvccRowCallback where
  tnode : Nat
  isLink : Bool
  deriving DecidableEq, Repr

namespace ObMvccRowCallback

/-- The node a callback reaches through `tnode_`. A registered callback's node stays on the chain
until the callback unlinks it, so the node is looked up there. -/
def node (cb : ObMvccRowCallback) (row : ObMvccRow) : Option ObMvccTransNode :=
  row.listHead.find? (·.addr == cb.tnode)

/-- `ObMvccRowCallback::unlink_trans_node`: a committed node is unlinked only when it only locked
the row. -/
def unlinkTransNode (cb : ObMvccRowCallback) (row : ObMvccRow) : ObMvccRowCallback × ObMvccRow :=
  if cb.isLink then
    match cb.node row with
    | none => (cb,row)
    | some n =>
      if n.isCommitted && n.dmlFlag != .lock then (cb,row)
      else match row.unlinkTransNode n.addr with
        | .error _ => (cb,row)
        | .ok row' => ({ cb with isLink := false },row')
  else (cb,row)

/-- `ObMvccRowCallback::trans_commit`: the row's versions rise first, then the node commits; a
node that only locked the row is unlinked. -/
def transCommit (cb : ObMvccRowCallback) (row : ObMvccRow) (commitVersion : Nat) :
    ObMvccRowCallback × ObMvccRow × Except ObErr Unit :=
  match cb.node row with
  | none => (cb,row,.ok ())
  | some n =>
    match row.transCommit commitVersion with
    | .error e => (cb,row,.error e)
    | .ok row' =>
      let row'' := { row' with listHead := setNode n.addr (·.transCommit commitVersion) row'.listHead }
      if n.dmlFlag = .lock then
        let p := cb.unlinkTransNode row''
        (p.1,p.2,.ok ())
      else (cb,row'',.ok ())

/-- `ObMvccRowCallback::trans_abort`: an undecided node is marked aborted and unlinked. -/
def transAbort (cb : ObMvccRowCallback) (row : ObMvccRow) : ObMvccRowCallback × ObMvccRow :=
  match cb.node row with
  | none => (cb,row)
  | some n =>
    if !(n.isCommitted || n.isAborted) then
      cb.unlinkTransNode { row with listHead := setNode n.addr (·.setAborted) row.listHead }
    else (cb,row)

/-- `ObMvccRowCallback::rollback_callback`: the node is marked aborted and unlinked. -/
def rollbackCallback (cb : ObMvccRowCallback) (row : ObMvccRow) : ObMvccRowCallback × ObMvccRow :=
  match cb.node row with
  | none => (cb,row)
  | some n => cb.unlinkTransNode { row with listHead := setNode n.addr (·.setAborted) row.listHead }

end ObMvccRowCallback

/-! ## What each latched operation does to the chain -/

section Chain

variable {l : List ObMvccTransNode}

theorem isCommitted_of_undecided {n : ObMvccTransNode} (h : n.undecided = true) :
    n.isCommitted = false := by
  simp only [undecided,Bool.and_eq_true,Bool.not_eq_eq_eq_not,Bool.not_true] at h
  exact h.1.2

@[simp] theorem undecided_setElr (n : ObMvccTransNode) (e : Nat) : (n.setElr e).undecided = false := by
  simp [undecided,setElr]

@[simp] theorem undecided_transCommit (n : ObMvccTransNode) (v : Nat) :
    (n.transCommit v).undecided = false := by
  simp [undecided,transCommit]

theorem writeLoop_spec {txId : Nat} {isLockNode : Bool} (hl : ∀ n ∈ l, n.isAborted = false)
    (hc : (writeLoop txId isLockNode l).canInsert = true) :
    (∀ h ∈ l.head?, h.undecided = true → h.txId = txId) ∧
      ((writeLoop txId isLockNode l).needInsert = false → ∃ h t, l = h :: t ∧ h.undecided = true) := by
  cases l with
  | nil => simp [writeLoop]
  | cons n ns =>
    have hn : n.isAborted = false := hl n (by simp)
    by_cases hd : (n.isCommitted || n.isElr) = true
    · have hu : n.undecided = false := by
        simp only [Bool.or_eq_true] at hd
        rcases hd with hd | hd <;> simp [undecided,hd]
      simp [writeLoop,hd,hu]
    · have hu : n.undecided = true := by
        simp only [Bool.or_eq_true,not_or,Bool.not_eq_true] at hd
        simp [undecided,hd.1,hd.2,hn]
      by_cases ht : n.txId = txId
      · refine ⟨by simp [ht],fun _ => ⟨n,ns,rfl,hu⟩⟩
      · simp [writeLoop,hd,hn,ht] at hc

theorem mvccWrite_eq_ok {row row' : ObMvccRow} {txId : Nat} {writeFlag : ObWriteFlag}
    {node : ObMvccTransNode} {snapshot : ObTxSnapshot} {res : ObMvccWriteResult}
    (h : row.mvccWrite_ txId writeFlag node snapshot = .ok (row',res)) :
    res.canInsert = (writeLoop txId (node.dmlFlag == .lock) row.listHead).canInsert ∧
      res.needInsert = (writeLoop txId (node.dmlFlag == .lock) row.listHead).needInsert ∧
      row' = if res.hasInsert then { row with listHead := node :: row.listHead } else row := by
  unfold ObMvccRow.mvccWrite_ at h
  by_cases hi : ((writeLoop txId (node.dmlFlag == .lock) row.listHead).canInsert &&
      (writeLoop txId (node.dmlFlag == .lock) row.listHead).needInsert) = true
  · rw [if_pos hi] at h
    cases hl : row.listHead with
    | nil =>
      simp only [hl,Except.ok.injEq,Prod.mk.injEq] at h
      obtain ⟨rfl,rfl⟩ := h
      refine ⟨rfl,rfl,?_⟩
      rw [hl] at hi
      simp only [ObMvccWriteResult.hasInsert,hi,↓reduceIte]
    | cons head rest =>
      simp only [hl] at h
      cases hs : checkSequenceSetViolation writeFlag snapshot.scn txId node.dmlFlag node.seqNo
          head.txId head.dmlFlag head.seqNo with
      | error e => simp [hs,bind,Except.bind] at h
      | ok u =>
        cases hd : checkDoubleInsert snapshot.version node (some head) with
        | error e => simp [hs,hd,bind,Except.bind] at h
        | ok v =>
          simp only [hs,hd,bind,Except.bind,pure,Except.pure,Except.ok.injEq,Prod.mk.injEq] at h
          obtain ⟨rfl,rfl⟩ := h
          refine ⟨rfl,rfl,?_⟩
          rw [hl] at hi
          simp only [ObMvccWriteResult.hasInsert,hi,↓reduceIte]
  · rw [if_neg hi] at h
    simp only [Except.ok.injEq,Prod.mk.injEq] at h
    obtain ⟨rfl,rfl⟩ := h
    simp only [ObMvccWriteResult.hasInsert]
    simp only [Bool.not_eq_true] at hi
    simp [hi]

theorem elrLoop_spec (txId e : Nat) (l : List ObMvccTransNode) :
    ∃ k, (elrLoop txId e l).1 = (l.take k).map (·.setElr e) ++ l.drop k ∧
      ∀ h ∈ (l.drop k).head?, h.txId ≠ txId ∨ (h.transVersion ≠ obMaxScnTsNs ∧ e < h.transVersion) := by
  induction l with
  | nil => exact ⟨0,rfl,by simp⟩
  | cons n ns ih =>
    by_cases hid : txId ≠ n.txId
    · refine ⟨0,by simp [elrLoop,hid],fun h hh => ?_⟩
      simp only [List.drop_zero,List.head?_cons,Option.mem_def,Option.some.injEq] at hh
      subst hh
      exact .inl (Ne.symm hid)
    by_cases hv : obMaxScnTsNs ≠ n.transVersion ∧ n.transVersion > e
    · refine ⟨0,by simp [elrLoop,hid,hv],fun h hh => ?_⟩
      simp only [List.drop_zero,List.head?_cons,Option.mem_def,Option.some.injEq] at hh
      subst hh
      exact .inr ⟨Ne.symm hv.1,hv.2⟩
    · obtain ⟨k,hk,hstop⟩ := ih
      refine ⟨k + 1,?_,by simpa using hstop⟩
      simp only [elrLoop,hid,hv,if_false]
      simp [hk]

theorem map_addr_elrLoop (txId e : Nat) (l : List ObMvccTransNode) :
    (elrLoop txId e l).1.map (·.addr) = l.map (·.addr) := by
  obtain ⟨k,hk,-⟩ := elrLoop_spec txId e l
  rw [hk,List.map_append,List.map_map]
  conv_rhs => rw [← List.take_append_drop k l,List.map_append]
  rfl

theorem mem_elrLoop {txId e : Nat} {n' : ObMvccTransNode} (h : n' ∈ (elrLoop txId e l).1) :
    n' ∈ l ∨ ∃ n ∈ l, n' = n.setElr e := by
  obtain ⟨k,hk,-⟩ := elrLoop_spec txId e l
  rw [hk,List.mem_append,List.mem_map] at h
  rcases h with ⟨n,hn,rfl⟩ | h
  · exact .inr ⟨n,List.mem_of_mem_take hn,rfl⟩
  · exact .inl (List.mem_of_mem_drop h)

theorem elrLoop_covers (txId e : Nat) {n : ObMvccTransNode} (h : n ∈ l) :
    n ∈ (elrLoop txId e l).1 ∨ n.setElr e ∈ (elrLoop txId e l).1 := by
  obtain ⟨k,hk,-⟩ := elrLoop_spec txId e l
  rw [← List.take_append_drop k l,List.mem_append] at h
  simp only [hk,List.mem_append]
  rcases h with h | h
  · exact .inr (.inl (List.mem_map_of_mem h))
  · exact .inl (.inr h)

theorem elrLoop_decided {txId e : Nat}
    (htop : l.Pairwise fun a b => b.undecided = true → a.undecided = true ∧ a.txId = b.txId)
    (hver : ∀ n ∈ l, n.undecided = true → n.transVersion = obMaxScnTsNs)
    {h₀ : ObMvccTransNode} {t : List ObMvccTransNode} (hl : l = h₀ :: t) (hu : h₀.undecided = true)
    (ht : h₀.txId = txId) : ∀ n ∈ (elrLoop txId e l).1, n.undecided = false := by
  obtain ⟨k,hk,hstop⟩ := elrLoop_spec txId e l
  have hfirst : ∀ f ∈ (l.drop k).head?, f.undecided = false := by
    intro f hf
    have hfl : f ∈ l := List.mem_of_mem_drop (List.mem_of_mem_head? hf)
    cases hfu : f.undecided
    · rfl
    · exfalso
      rcases hstop f hf with hne | ⟨hne,-⟩
      · have : f.txId = txId := by
          rcases List.mem_cons.mp (hl ▸ hfl) with rfl | hft
          · exact ht
          · exact ht ▸ ((List.pairwise_cons.mp (hl ▸ htop)).1 f hft hfu).2.symm
        exact hne this
      · exact hne (hver f hfl hfu)
  intro n hn
  rw [hk,List.mem_append] at hn
  rcases hn with hn | hn
  · obtain ⟨m,-,rfl⟩ := List.mem_map.mp hn
    simp
  · cases hd : l.drop k with
    | nil => simp [hd] at hn
    | cons f rest =>
      rw [hd] at hn hfirst
      have hf : f.undecided = false := hfirst f rfl
      rcases List.mem_cons.mp hn with rfl | hr
      · exact hf
      · have hpw : (f :: rest).Pairwise fun a b => b.undecided = true → a.undecided = true ∧ a.txId = b.txId :=
          hd ▸ htop.sublist (List.drop_sublist k l)
        cases hnu : n.undecided
        · rfl
        · have := ((List.pairwise_cons.mp hpw).1 n hr hnu).1
          rw [hf] at this
          exact absurd this Bool.false_ne_true

theorem map_addr_setNode {a : Nat} {f : ObMvccTransNode → ObMvccTransNode}
    (hf : ∀ n, (f n).addr = n.addr) (l : List ObMvccTransNode) :
    (setNode a f l).map (·.addr) = l.map (·.addr) := by
  simp only [setNode,List.map_map]
  apply List.map_congr_left
  intro n _
  by_cases h : n.addr = a <;> simp [h,hf]

theorem filter_setNode {a : Nat} {f : ObMvccTransNode → ObMvccTransNode}
    (hf : ∀ n, (f n).addr = n.addr) (l : List ObMvccTransNode) :
    (setNode a f l).filter (·.addr != a) = l.filter (·.addr != a) := by
  induction l with
  | nil => rfl
  | cons n ns ih =>
    by_cases h : n.addr = a
    · simp [setNode,h,hf] at ih ⊢
      exact ih
    · simp [setNode,h] at ih ⊢
      exact ih

theorem split_of_mem {n : ObMvccTransNode} (hnd : (l.map (·.addr)).Nodup) (hn : n ∈ l) :
    ∃ pre post, l = pre ++ n :: post ∧ (∀ m ∈ pre, m.addr ≠ n.addr) ∧ ∀ m ∈ post, m.addr ≠ n.addr := by
  obtain ⟨pre,post,rfl⟩ := List.append_of_mem hn
  rw [List.map_append,List.map_cons,List.nodup_append,List.nodup_cons] at hnd
  obtain ⟨-,⟨hpost,-⟩,hpre⟩ := hnd
  refine ⟨pre,post,rfl,fun m hm ha => ?_,fun m hm ha => hpost (ha ▸ List.mem_map_of_mem hm)⟩
  exact hpre m.addr (List.mem_map_of_mem hm) n.addr (List.mem_cons_self ..) ha

theorem setNode_split {a : Nat} {f : ObMvccTransNode → ObMvccTransNode} {pre post : List ObMvccTransNode}
    {n : ObMvccTransNode} (hn : n.addr = a) (hpre : ∀ m ∈ pre, m.addr ≠ a) (hpost : ∀ m ∈ post, m.addr ≠ a) :
    setNode a f (pre ++ n :: post) = pre ++ f n :: post := by
  have hid : ∀ l : List ObMvccTransNode, (∀ m ∈ l, m.addr ≠ a) →
      l.map (fun m => if m.addr = a then f m else m) = l := by
    intro l hl
    conv_rhs => rw [← List.map_id l]
    exact List.map_congr_left fun m hm => if_neg (hl m hm)
  simp only [setNode,List.map_append,List.map_cons,hid pre hpre,hid post hpost,hn,if_true]

end Chain

/-! ## The callbacks on a linked node

A registered callback's node is on the chain, once: these lemmas say what each callback then
does. -/

namespace ObMvccRowCallback

section Linked

variable {cb : ObMvccRowCallback} {row : ObMvccRow} {n : ObMvccTransNode}
  (hnd : (row.listHead.map (·.addr)).Nodup) (hn : n ∈ row.listHead) (ha : n.addr = cb.tnode)
include hnd hn ha

theorem node_eq : cb.node row = some n := by
  obtain ⟨m,hm⟩ := Option.isSome_iff_exists.mp
    (List.find?_isSome.mpr ⟨n,hn,by simp [ha]⟩ : (row.listHead.find? (·.addr == cb.tnode)).isSome)
  have hma : m.addr = cb.tnode := by simpa using List.find?_some hm
  have : m = n := List.inj_on_of_nodup_map hnd (List.mem_of_find?_eq_some hm) hn (hma.trans ha.symm)
  exact this ▸ hm

theorem unlinkTransNode_eq (hl : cb.isLink = true) (hc : n.isCommitted = false ∨ n.dmlFlag = .lock) :
    cb.unlinkTransNode row =
      ({ cb with isLink := false },{ row with listHead := row.listHead.filter (·.addr != cb.tnode) }) := by
  have hex : ∃ x ∈ row.listHead, x.addr = cb.tnode := ⟨n,hn,ha⟩
  have hkeep : (n.isCommitted && n.dmlFlag != .lock) = false := by
    rcases hc with hc | hc <;> simp [hc]
  simp [unlinkTransNode,hl,node_eq hnd hn ha,hkeep,ObMvccRow.unlinkTransNode,hex,ha]

theorem setAborted_unlink (hl : cb.isLink = true) (hc : n.isCommitted = false) :
    (cb.unlinkTransNode { row with listHead := setNode n.addr (·.setAborted) row.listHead }).2 =
      { row with listHead := row.listHead.filter (·.addr != cb.tnode) } := by
  have hf : ∀ m : ObMvccTransNode, m.setAborted.addr = m.addr := fun _ => rfl
  have hnd' : ((setNode n.addr (·.setAborted) row.listHead).map (·.addr)).Nodup := by
    rw [map_addr_setNode hf]
    exact hnd
  have hn' : n.setAborted ∈ setNode n.addr (·.setAborted) row.listHead :=
    List.mem_map.mpr ⟨n,hn,by simp⟩
  rw [unlinkTransNode_eq (n := n.setAborted) hnd' hn' ha hl (.inl hc)]
  simp only [ha.symm,filter_setNode hf]

theorem transAbort_eq (hl : cb.isLink = true) (hc : n.isCommitted = false)
    (hab : n.isAborted = false) :
    (cb.transAbort row).2 = { row with listHead := row.listHead.filter (·.addr != cb.tnode) } := by
  simp only [transAbort,node_eq hnd hn ha,hc,hab,Bool.or_self,Bool.not_false,if_true]
  exact setAborted_unlink hnd hn ha hl hc

theorem rollbackCallback_eq (hl : cb.isLink = true) (hc : n.isCommitted = false) :
    (cb.rollbackCallback row).2 = { row with listHead := row.listHead.filter (·.addr != cb.tnode) } := by
  simp only [rollbackCallback,node_eq hnd hn ha]
  exact setAborted_unlink hnd hn ha hl hc

theorem transCommit_of_invalid {commitVersion : Nat} (hv : scnIsValid commitVersion = false) :
    cb.transCommit row commitVersion = (cb,row,.error .invalidArgument) := by
  simp [transCommit,node_eq hnd hn ha,ObMvccRow.transCommit,hv]

theorem transCommit_of_valid {commitVersion : Nat} (hl : cb.isLink = true)
    (hv : scnIsValid commitVersion = true) :
    (cb.transCommit row commitVersion).2 =
      ({ listHead := if n.dmlFlag = .lock then row.listHead.filter (·.addr != cb.tnode)
            else setNode cb.tnode (·.transCommit commitVersion) row.listHead,
         maxTransVersion := max row.maxTransVersion commitVersion,
         maxElrTransVersion := max row.maxElrTransVersion commitVersion },.ok ()) := by
  simp only [transCommit,node_eq hnd hn ha,ObMvccRow.transCommit,hv,Bool.not_true,
    Bool.false_eq_true,if_false]
  by_cases hlock : n.dmlFlag = .lock
  · have hf : ∀ m : ObMvccTransNode, (m.transCommit commitVersion).addr = m.addr := fun _ => rfl
    have hnd' : ((setNode n.addr (·.transCommit commitVersion) row.listHead).map (·.addr)).Nodup := by
      rw [map_addr_setNode hf]
      exact hnd
    have hn' : n.transCommit commitVersion ∈ setNode n.addr (·.transCommit commitVersion) row.listHead :=
      List.mem_map.mpr ⟨n,hn,by simp⟩
    rw [if_pos hlock,if_pos hlock,
      unlinkTransNode_eq (n := n.transCommit commitVersion) hnd' hn' ha hl (.inr hlock)]
    simp only [ha.symm,filter_setNode hf]
  · rw [if_neg hlock,if_neg hlock,ha]

end Linked

end ObMvccRowCallback

/-! ## `check_row_locked` and the write path -/

/-- The loop of `ObMvccRow::check_row_locked` from the newest node down past aborted ones, with the
row's largest version `get_max_trans_version()`: a decided node leaves the row unlocked at that
version, an undecided one locks it for its transaction, and the empty chain is unlocked at
`SCN::min_scn()`. The cleanout of a delayed-cleanout node is left out. -/
def checkRowLockedLoop (maxTransVersion : Nat) : List ObMvccTransNode → ObStoreRowLockState × Nat
  | [] => ({}, 0)
  | n :: ns =>
    if n.isCommitted || n.isElr then ({}, maxTransVersion)
    else if n.isAborted then checkRowLockedLoop maxTransVersion ns
    else (⟨true, n.txId, n.seqNo, n.dmlFlag⟩, 0)

def ObMvccRow.checkRowLocked (row : ObMvccRow) : ObStoreRowLockState × Nat :=
  checkRowLockedLoop (max row.maxElrTransVersion row.maxTransVersion) row.listHead

theorem writeLoop_conflict_iff (txId : Nat) (isLockNode : Bool) (v : Nat) (l : List ObMvccTransNode) :
    (writeLoop txId isLockNode l).canInsert = false ↔
      (checkRowLockedLoop v l).1.isLocked = true ∧ (checkRowLockedLoop v l).1.lockTransId ≠ txId := by
  induction l with
  | nil => simp [writeLoop, checkRowLockedLoop]
  | cons n ns ih =>
    by_cases hd : (n.isCommitted || n.isElr) = true
    · simp [writeLoop, checkRowLockedLoop, hd]
    · by_cases ha : n.isAborted = true
      · simpa [writeLoop, checkRowLockedLoop, hd, ha] using ih
      · by_cases ht : n.txId = txId
        · cases isLockNode <;> simp [writeLoop, checkRowLockedLoop, hd, ha, ht]
        · simp [writeLoop, checkRowLockedLoop, hd, ha, ht]

theorem writeLoop_lockState_of_conflict (txId : Nat) (isLockNode : Bool) (v : Nat)
    (l : List ObMvccTransNode) (h : (writeLoop txId isLockNode l).canInsert = false) :
    (writeLoop txId isLockNode l).lockState = (checkRowLockedLoop v l).1 := by
  induction l with
  | nil => simp [writeLoop] at h
  | cons n ns ih =>
    by_cases hd : (n.isCommitted || n.isElr) = true
    · simp [writeLoop, hd] at h
    · by_cases ha : n.isAborted = true
      · simp only [writeLoop, hd, ha, Bool.false_eq_true, if_false, if_true] at h ⊢
        simpa [checkRowLockedLoop, hd, ha] using ih h
      · by_cases ht : n.txId = txId
        · cases isLockNode <;> simp [writeLoop, hd, ha, ht] at h
        · simp [writeLoop, checkRowLockedLoop, hd, ha, ht]

/-- `mvcc_write_` returns a write-write conflict exactly when `check_row_locked` finds the row
locked by another transaction; a conflict leaves the row and reports the lock `check_row_locked`
finds. -/
theorem mvccWrite_conflict_iff_checkRowLocked (R : ObMvccRow) (txId : Nat) (writeFlag : ObWriteFlag)
    (node : ObMvccTransNode) (snapshot : ObTxSnapshot) :
    ((∃ R' res, R.mvccWrite_ txId writeFlag node snapshot = .ok (R', res) ∧ res.canInsert = false) ↔
      R.checkRowLocked.1.isLocked = true ∧ R.checkRowLocked.1.lockTransId ≠ txId) ∧
    ∀ R' res, R.mvccWrite_ txId writeFlag node snapshot = .ok (R', res) → res.canInsert = false →
      R' = R ∧ res.lockState = R.checkRowLocked.1 := by
  rw [ObMvccRow.checkRowLocked, ← writeLoop_conflict_iff txId (node.dmlFlag == .lock)]
  have hconf : (writeLoop txId (node.dmlFlag == .lock) R.listHead).canInsert = false →
      R.mvccWrite_ txId writeFlag node snapshot =
        .ok (R, writeLoop txId (node.dmlFlag == .lock) R.listHead) := by
    intro h
    simp [ObMvccRow.mvccWrite_, h]
  have hres : ∀ R' res, R.mvccWrite_ txId writeFlag node snapshot = .ok (R', res) →
      res.canInsert = false → R' = R ∧ res = writeLoop txId (node.dmlFlag == .lock) R.listHead := by
    intro R' res hw hc
    obtain ⟨hcan, -, -⟩ := mvccWrite_eq_ok hw
    rw [hconf (hcan ▸ hc)] at hw
    obtain ⟨rfl, rfl⟩ := Prod.mk.inj (Except.ok.inj hw)
    exact ⟨rfl, rfl⟩
  refine ⟨⟨fun ⟨R', res, hw, hc⟩ => ?_, fun hc => ⟨R, _, hconf hc, hc⟩⟩, fun R' res hw hc => ?_⟩
  · obtain ⟨-, rfl⟩ := hres R' res hw hc
    exact hc
  · obtain ⟨rfl, rfl⟩ := hres R' res hw hc
    exact ⟨rfl, writeLoop_lockState_of_conflict _ _ _ _ hc⟩

/-- A row whose newest node, an update of transaction 5, is undecided above an aborted insert of
transaction 4. -/
def lockedRow : ObMvccRow :=
  ⟨[⟨2, 5, obMaxScnTsNs, 3, .update, false, false, false⟩,
    ⟨1, 4, obMaxScnTsNs, 1, .insert, false, false, true⟩], 0, 0⟩

def updateBy (txId : Nat) : ObMvccTransNode := ⟨3, txId, obMaxScnTsNs, 5, .update, false, false, false⟩

/-- Transaction 6 conflicts on `lockedRow` with the lock of transaction 5, which writes again. -/
theorem mvccWrite_conflict_lockedRow :
    lockedRow.checkRowLocked.1 = ⟨true, 5, 3, .update⟩ ∧
      (∃ R' res, lockedRow.mvccWrite_ 6 ⟨false, false, false, false⟩ (updateBy 6) ⟨0, 0⟩ = .ok (R', res) ∧
        res.canInsert = false) ∧
      (∀ R' res, lockedRow.mvccWrite_ 6 ⟨false, false, false, false⟩ (updateBy 6) ⟨0, 0⟩ = .ok (R', res) →
        res.canInsert = false → R' = lockedRow ∧ res.lockState = ⟨true, 5, 3, .update⟩) ∧
      ¬∃ R' res, lockedRow.mvccWrite_ 5 ⟨false, false, false, false⟩ (updateBy 5) ⟨0, 0⟩ = .ok (R', res) ∧
        res.canInsert = false := by
  have hlock : lockedRow.checkRowLocked.1 = ⟨true, 5, 3, .update⟩ := rfl
  have h₆ := mvccWrite_conflict_iff_checkRowLocked lockedRow 6 ⟨false, false, false, false⟩ (updateBy 6) ⟨0, 0⟩
  have h₅ := mvccWrite_conflict_iff_checkRowLocked lockedRow 5 ⟨false, false, false, false⟩ (updateBy 5) ⟨0, 0⟩
  rw [hlock] at h₆ h₅
  exact ⟨hlock, h₆.1.2 ⟨rfl, by decide⟩, h₆.2, fun h => (h₅.1.1 h).2 rfl⟩

end OceanBase.Memtable
