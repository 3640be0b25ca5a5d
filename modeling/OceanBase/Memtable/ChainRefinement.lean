import Mathlib
import OceanBase.Memtable.MvccRow
import OceanBase.Memtable.ReplayChain

/-! The two models of an `ObMvccRow` chain. `ObMvccRow` keeps the chain as a list of nodes, newest
first; the write path and the row callbacks were verified on it. `RowChain` keeps it as the source
does, the links `prev_` and `next_` of the nodes from `list_head_`. The pointer chain lays out the list
when it is a well-formed chain of the list's addresses whose nodes carry the list's versions and
flags. Each operation of the list model is then done by the source's pointer writes: the link of the
writer's node in `mvcc_write_`, `mvcc_undo`, `unlink_trans_node`, and the commit and abort of a node.
The undo that `mvcc_write` makes after a late set violation restores every link of the row. -/
namespace OceanBase.Memtable

open RowChain

namespace RowChain

/-- The writes of `ObMvccRow::mvcc_write_` that put the writer's node `a` on top of the chain once
both checks passed: `a.prev_` is the head, `a.next_` NULL, the head's `next_` is `a`, `a` becomes the
head, and the count goes up. -/
def mvccWriteLink (row : RowChain) (a : Nat) : RowChain :=
  { row with
    prev := Function.update row.prev a row.listHead
    next := writeAt (Function.update row.next a none) row.listHead (some a)
    listHead := some a
    totalTransNodeCnt := row.totalTransNodeCnt + 1 }

theorem transCommit_node_isCommitted (row : RowChain) (a v x : Nat) :
    ((row.transCommit a v).node x).isCommitted = if x = a then true else (row.node x).isCommitted := by
  by_cases h : x = a <;> simp [transCommit, h]

variable {row : RowChain} {l : List Nat} {a : Nat}

theorem mvccWriteLink_wellFormed (hwf : WellFormed row l) (ha : a ∉ l)
    (hca : (row.node a).isCompact = false) (hscn : ∀ x ∈ l, (row.node x).scn ≤ (row.node a).scn) :
    WellFormed (row.mvccWriteLink a) (a :: l) := by
  have hlink := chain_link (show Lib.Chain _ _ _ ([] ++ l) from hwf.chain) ha
  rw [← hwf.chain.head_eq] at hlink
  refine (show WellFormed row ([] ++ l) from hwf).insert ha ?_ (fun _ _ => rfl) (by simp)
    (fun x hx => hscn x hx) hwf.index_mem.grow (by simp [mvccWriteLink, hca])
  simpa [mvccWriteLink] using hlink

/-- `mvcc_undo` after the writer's node went on top gives back every link of the chain; only the
dead node keeps its own links and is marked aborted. -/
theorem mvccUndo_mvccWriteLink (hwf : WellFormed row l) (ha : a ∉ l) :
    (row.mvccWriteLink a).mvccUndo =
      { row with
        prev := Function.update row.prev a row.listHead
        next := Function.update row.next a none
        aborted := Function.update row.aborted a true } := by
  have hhead : ∀ h ∈ row.listHead, row.next h = none := by
    rw [hwf.chain.head_eq]
    exact hwf.chain.seg.nxt_first
  have hne : ∀ h ∈ row.listHead, h ≠ a := by
    rw [hwf.chain.head_eq]
    exact fun h hh hha => ha (hha ▸ List.mem_of_mem_head? hh)
  simp only [mvccUndo, mvccWriteLink, Function.update_self, add_sub_cancel_right]
  congr 1
  funext x
  rw [writeAt_apply, writeAt_apply]
  by_cases hx : row.listHead = some x
  · rw [if_pos hx, Function.update_of_ne (hne x hx), hhead x hx]
  · rw [if_neg hx, if_neg hx]

/-- A write of the node 2 on top of the one-node chain of `slottedRow`, undone. -/
theorem mvccUndo_mvccWriteLink_slottedRow :
    (slottedRow.mvccWriteLink 2).mvccUndo =
      { slottedRow with
        prev := Function.update slottedRow.prev 2 (some 1)
        next := Function.update slottedRow.next 2 none
        aborted := Function.update slottedRow.aborted 2 true } :=
  mvccUndo_mvccWriteLink slottedRow_wellFormed (by decide)

end RowChain

/-- The pointer chain's copy of a node of the list model: its version, commit flag and aborted flag,
and a transaction node. -/
structure NodeAgrees (row : RowChain) (n : ObMvccTransNode) : Prop where
  version : (row.node n.addr).transVersion = n.transVersion
  committed : (row.node n.addr).isCommitted = n.isCommitted
  aborted : row.aborted n.addr = n.isAborted
  trans : (row.node n.addr).isCompact = false

/-- The pointer chain `row` lays out the list chain `R`: a well-formed chain of `R`'s addresses,
newest first, whose nodes agree with `R`'s. -/
structure LaysOut (row : RowChain) (R : ObMvccRow) : Prop where
  wf : WellFormed row (R.listHead.map (·.addr))
  agrees : ∀ n ∈ R.listHead, NodeAgrees row n

section Refinement

variable {row : RowChain} {R R' : ObMvccRow}

theorem NodeAgrees.frame {row' : RowChain} {n : ObMvccTransNode} (h : NodeAgrees row n)
    (hnode : row'.node = row.node) (haborted : row'.aborted n.addr = row.aborted n.addr) :
    NodeAgrees row' n :=
  ⟨hnode ▸ h.version, hnode ▸ h.committed, haborted.trans h.aborted, hnode ▸ h.trans⟩

theorem LaysOut.nodup (h : LaysOut row R) : (R.listHead.map (·.addr)).Nodup := h.wf.chain.nodup

theorem map_addr_filter_of_split {L : List ObMvccTransNode} {pre post : List Nat}
    (hnd : (L.map (·.addr)).Nodup) (hl : L.map (·.addr) = pre ++ a :: post) :
    (L.filter (·.addr != a)).map (·.addr) = pre ++ post := by
  have hnd' : (pre ++ a :: post).Nodup := hl ▸ hnd
  have ha := (List.nodup_cons.1 (List.nodup_middle.1 hnd')).1
  have hpre : a ∉ pre := fun h => ha (List.mem_append_left _ h)
  have hpost : a ∉ post := fun h => ha (List.mem_append_right _ h)
  have hmap : (L.filter (·.addr != a)).map (·.addr) = (L.map (·.addr)).filter (· != a) := by
    rw [List.filter_map]
    rfl
  rw [hmap, hl, List.filter_append, List.filter_cons_of_neg (by simp)]
  have hkeep : ∀ l : List Nat, a ∉ l → l.filter (· != a) = l := fun l hl =>
    List.filter_eq_self.2 fun x hx => by
      rw [bne_iff_ne]
      rintro rfl
      exact hl hx
  rw [hkeep pre hpre, hkeep post hpost]

theorem LaysOut.mvccWrite (h : LaysOut row R) {txId : Nat} {writeFlag : ObWriteFlag}
    {node : ObMvccTransNode} {snapshot : ObTxSnapshot} {res : ObMvccWriteResult}
    (hw : R.mvccWrite_ txId writeFlag node snapshot = .ok (R', res))
    (hfresh : node.addr ∉ R.listHead.map (·.addr)) (hnode : NodeAgrees row node)
    (hscn : ∀ n ∈ R.listHead, (row.node n.addr).scn ≤ (row.node node.addr).scn) :
    LaysOut (if res.hasInsert then row.mvccWriteLink node.addr else row) R' := by
  obtain ⟨-, -, hR'⟩ := mvccWrite_eq_ok hw
  subst hR'
  split_ifs with hins
  · refine ⟨mvccWriteLink_wellFormed h.wf hfresh hnode.trans ?_, ?_⟩
    · intro x hx
      obtain ⟨n, hn, rfl⟩ := List.mem_map.1 hx
      exact hscn n hn
    · intro n hn
      rcases List.mem_cons.1 hn with rfl | hn
      · exact hnode.frame rfl rfl
      · exact (h.agrees n hn).frame rfl rfl
  · exact h

theorem LaysOut.mvccUndo (h : LaysOut row R)
    (hslots : ∀ slots, row.index = some slots → ∀ n ∈ R.listHead.head?, ∀ i < replayTaskQueueSize,
      slots i ≠ some n.addr) :
    LaysOut row.mvccUndo R.mvccUndo := by
  cases hl : R.listHead with
  | nil =>
    have hhead : row.listHead = none := by
      rw [h.wf.chain.head_eq, hl]
      rfl
    simp only [ObMvccRow.mvccUndo, RowChain.mvccUndo, hl, hhead]
    exact h
  | cons n ns =>
    have hwf : WellFormed row (n.addr :: ns.map (·.addr)) := by
      rw [← List.map_cons, ← hl]
      exact h.wf
    have hhead : row.listHead = some n.addr := by rw [hwf.chain.head_eq]; rfl
    have hn : ∀ m ∈ ns, m.addr ≠ n.addr := fun m hm hmn =>
      (List.nodup_cons.1 hwf.chain.nodup).1 (hmn ▸ List.mem_map_of_mem hm)
    have hag : ∀ m ∈ R.listHead, NodeAgrees row m := h.agrees
    rw [hl] at hag hslots
    refine ⟨?_, fun m hm => ?_⟩
    · simp only [ObMvccRow.mvccUndo, hl]
      exact mvccUndo_wellFormed hwf (hag n (by simp)).trans fun slots hs i hi =>
        hslots slots hs n rfl i hi
    · simp only [ObMvccRow.mvccUndo, hl] at hm
      refine (hag m (List.mem_cons_of_mem _ hm)).frame (by simp [RowChain.mvccUndo, hhead]) ?_
      simp [RowChain.mvccUndo, hhead, hn m hm]

theorem LaysOut.unlinkTransNode (h : LaysOut row R) {a : Nat}
    (hu : R.unlinkTransNode a = .ok R') :
    (row.unlinkTransNode a).2 = .ok () ∧ LaysOut (row.unlinkTransNode a).1 R' := by
  unfold ObMvccRow.unlinkTransNode at hu
  split_ifs at hu with hmem
  cases hu
  obtain ⟨n, hn, hna⟩ := List.any_eq_true.1 hmem
  simp only [beq_iff_eq] at hna
  obtain ⟨pre, post, hsplit⟩ := List.append_of_mem (hna ▸ List.mem_map_of_mem hn :
    a ∈ R.listHead.map (·.addr))
  have hwf : WellFormed row (pre ++ a :: post) := hsplit ▸ h.wf
  have hca : (row.node a).isCompact = false := hna ▸ (h.agrees n hn).trans
  obtain ⟨hok, hwf'⟩ := unlinkTransNode_wellFormed hwf hca
  have hframe : (row.unlinkTransNode a).1.node = row.node ∧
      (row.unlinkTransNode a).1.aborted = row.aborted := by
    simp only [RowChain.unlinkTransNode]
    split <;> exact ⟨rfl, rfl⟩
  refine ⟨hok, ⟨?_, fun m hm => ?_⟩⟩
  · rw [map_addr_filter_of_split h.nodup hsplit]
    exact hwf'
  · exact (h.agrees m (List.mem_of_mem_filter hm)).frame hframe.1 (by rw [hframe.2])

theorem LaysOut.transCommit (h : LaysOut row R) {a v : Nat}
    (hR' : R'.listHead = setNode a (·.transCommit v) R.listHead) :
    LaysOut (row.transCommit a v) R' := by
  refine ⟨?_, fun m hm => ?_⟩
  · rw [hR', map_addr_setNode (fun _ => rfl : ∀ n : ObMvccTransNode, (n.transCommit v).addr = n.addr)]
    exact h.wf.of_node (fun _ _ => transCommit_node_scn ..) fun _ _ => transCommit_node_isCompact ..
  · rw [hR', setNode, List.mem_map] at hm
    obtain ⟨n, hn, rfl⟩ := hm
    have hag := h.agrees n hn
    have htrans : ((row.transCommit a v).node n.addr).isCompact = false := by
      rw [transCommit_node_isCompact]
      exact hag.trans
    split_ifs with hna
    · refine ⟨?_, ?_, hag.aborted, htrans⟩
      · show ((row.transCommit a v).node n.addr).transVersion = v
        rw [transCommit_node_transVersion, if_pos hna]
      · show ((row.transCommit a v).node n.addr).isCommitted = true
        rw [transCommit_node_isCommitted, if_pos hna]
    · refine ⟨?_, ?_, hag.aborted, htrans⟩
      · rw [transCommit_node_transVersion, if_neg hna]
        exact hag.version
      · rw [transCommit_node_isCommitted, if_neg hna]
        exact hag.committed

theorem LaysOut.setAborted (h : LaysOut row R) {a : Nat}
    (hR' : R'.listHead = setNode a (·.setAborted) R.listHead) :
    LaysOut (row.setAborted a) R' := by
  refine ⟨?_, fun m hm => ?_⟩
  · rw [hR', map_addr_setNode (fun _ => rfl : ∀ n : ObMvccTransNode, n.setAborted.addr = n.addr)]
    exact ⟨h.wf.chain, h.wf.sorted, h.wf.index_mem, h.wf.count_eq⟩
  · rw [hR', setNode, List.mem_map] at hm
    obtain ⟨n, hn, rfl⟩ := hm
    have hag := h.agrees n hn
    split_ifs with hna
    · refine ⟨hag.version, hag.committed, ?_, hag.trans⟩
      show Function.update row.aborted a true n.addr = true
      rw [hna, Function.update_self]
    · refine ⟨hag.version, hag.committed, ?_, hag.trans⟩
      show Function.update row.aborted a true n.addr = n.isAborted
      rw [Function.update_of_ne hna]
      exact hag.aborted

end Refinement

/-- The pointer chain implements the list model of the chain: on a chain that lays a list out, the
writes of `mvcc_write_` after its checks, `mvcc_undo` (of a head no slot holds),
`unlink_trans_node`, and the commit and abort of a node each lay out the list that the list model's
operation leaves, and `unlink_trans_node` of a node of the list returns `OB_SUCCESS`. -/
theorem rowChain_implements_list {row : RowChain} {R : ObMvccRow} (h : LaysOut row R) :
    (∀ (txId : Nat) (writeFlag : ObWriteFlag) (node : ObMvccTransNode) (snapshot : ObTxSnapshot)
        (R' : ObMvccRow) (res : ObMvccWriteResult),
      R.mvccWrite_ txId writeFlag node snapshot = .ok (R', res) →
      node.addr ∉ R.listHead.map (·.addr) → NodeAgrees row node →
      (∀ n ∈ R.listHead, (row.node n.addr).scn ≤ (row.node node.addr).scn) →
      LaysOut (if res.hasInsert then row.mvccWriteLink node.addr else row) R') ∧
    ((∀ slots, row.index = some slots → ∀ n ∈ R.listHead.head?, ∀ i < replayTaskQueueSize,
        slots i ≠ some n.addr) → LaysOut row.mvccUndo R.mvccUndo) ∧
    (∀ (a : Nat) (R' : ObMvccRow), R.unlinkTransNode a = .ok R' →
      (row.unlinkTransNode a).2 = .ok () ∧ LaysOut (row.unlinkTransNode a).1 R') ∧
    (∀ (a v : Nat) (R' : ObMvccRow), R'.listHead = setNode a (·.transCommit v) R.listHead →
      LaysOut (row.transCommit a v) R') ∧
    (∀ (a : Nat) (R' : ObMvccRow), R'.listHead = setNode a (·.setAborted) R.listHead →
      LaysOut (row.setAborted a) R') :=
  ⟨fun _ _ _ _ _ _ hw hfresh hnode hscn => h.mvccWrite hw hfresh hnode hscn, h.mvccUndo,
    fun _ _ hu => h.unlinkTransNode hu, fun _ _ _ hR' => h.transCommit hR',
    fun _ _ hR' => h.setAborted hR'⟩

/-- The committed insert at address `a` of transaction 7, at version `a`, as a node of the list
model. -/
def listNode (a : Nat) : ObMvccTransNode := ⟨a, 7, a, 0, .insert, true, false, false⟩

def threeNodeList : ObMvccRow := ⟨[listNode 3, listNode 2, listNode 1], 3, 0⟩

/-- On the chain 3, 2, 1, node 2 and then node 3 are unlinked, the head is undone, node 3 commits
again at version 9, and node 3 is aborted; each time both levels agree. -/
theorem rowChain_implements_list_threeNodes :
    LaysOut threeNodeRow threeNodeList ∧
      (threeNodeRow.unlinkTransNode 2).2 = .ok () ∧
      LaysOut (threeNodeRow.unlinkTransNode 2).1 ⟨[listNode 3, listNode 1], 3, 0⟩ ∧
      ((threeNodeRow.unlinkTransNode 2).1.unlinkTransNode 3).2 = .ok () ∧
      LaysOut ((threeNodeRow.unlinkTransNode 2).1.unlinkTransNode 3).1 ⟨[listNode 1], 3, 0⟩ ∧
      LaysOut threeNodeRow.mvccUndo ⟨[listNode 2, listNode 1], 3, 0⟩ ∧
      LaysOut (threeNodeRow.transCommit 3 9) ⟨[(listNode 3).transCommit 9, listNode 2, listNode 1], 3, 0⟩ ∧
      LaysOut (threeNodeRow.setAborted 3) ⟨[(listNode 3).setAborted, listNode 2, listNode 1], 3, 0⟩ := by
  have h : LaysOut threeNodeRow threeNodeList := by
    refine ⟨threeNodeRow_wellFormed, fun n hn => ?_⟩
    simp only [threeNodeList, List.mem_cons, List.not_mem_nil, or_false] at hn
    rcases hn with rfl | rfl | rfl <;> exact ⟨rfl, rfl, rfl, rfl⟩
  obtain ⟨hu₁, h₁⟩ := (rowChain_implements_list h).2.2.1 2 _ rfl
  obtain ⟨hu₂, h₂⟩ := (rowChain_implements_list h₁).2.2.1 3 _ rfl
  refine ⟨h, hu₁, h₁, hu₂, h₂, (rowChain_implements_list h).2.1 ?_,
    (rowChain_implements_list h).2.2.2.1 3 9 _ rfl, (rowChain_implements_list h).2.2.2.2 3 _ rfl⟩
  intro slots hs n hn i _
  cases hs
  simp only [threeNodeList, List.head?_cons, Option.mem_def, Option.some.injEq] at hn
  subst hn
  dsimp only
  split_ifs <;> simp [listNode]

end OceanBase.Memtable
