import Mathlib
import OceanBase.Lib.Run
import OceanBase.Memtable.RowChain

/-! Replay into one row (`ob_mvcc_row.cpp`, `ob_row_compactor.cpp`): the row's chain under any
sequence of `insert_trans_node` calls from replay threads and from other threads, unlinks of
transaction nodes, commits and aborts of nodes, and row compactions. When every replay queue inserts
its nodes in non-decreasing `scn_` order, each with `trans_version_` still max, a queue's slot never
holds a node newer than the queue's last one. So the replay-index path never takes its
`OB_ERR_UNEXPECTED`/`abort_unless` branch, and it puts the node where the walk from the head would,
up to the order among nodes of one `scn_`. -/
namespace OceanBase.Memtable

open ObMvccRowIndex

namespace RowChain

/-- `ObMvccTransNode::trans_commit(commit_version)` on the node `a`: the version, then the flag. -/
def transCommit (row : RowChain) (a commitVersion : Nat) : RowChain :=
  { row with
    node := Function.update row.node a
      { row.node a with transVersion := commitVersion, isCommitted := true } }

def setAborted (row : RowChain) (a : Nat) : RowChain :=
  { row with aborted := Function.update row.aborted a true }

@[simp] theorem transCommit_node_scn (row : RowChain) (a v x : Nat) :
    ((row.transCommit a v).node x).scn = (row.node x).scn := by
  by_cases h : x = a <;> simp [transCommit, h]

@[simp] theorem transCommit_node_isCompact (row : RowChain) (a v x : Nat) :
    ((row.transCommit a v).node x).isCompact = (row.node x).isCompact := by
  by_cases h : x = a <;> simp [transCommit, h]

theorem transCommit_node_transVersion (row : RowChain) (a v x : Nat) :
    ((row.transCommit a v).node x).transVersion = if x = a then v else (row.node x).transVersion := by
  by_cases h : x = a <;> simp [transCommit, h]

variable {row : RowChain} {l : List Nat}

theorem WellFormed.of_node (hwf : WellFormed row l) {node : Nat → ChainNode}
    (hscn : ∀ x ∈ l, (node x).scn = (row.node x).scn)
    (hcompact : ∀ x ∈ l, (node x).isCompact = (row.node x).isCompact) :
    WellFormed { row with node := node } l where
  chain := hwf.chain
  sorted := hwf.sorted.imp_of_mem fun hx hy h => by
    simp only
    rw [hscn _ hx, hscn _ hy]
    exact h
  index_mem := hwf.index_mem
  count_eq := by
    have h : (l.filter fun x => !(node x).isCompact) = l.filter fun x => !(row.node x).isCompact :=
      List.filter_congr fun x hx => by rw [hcompact x hx]
    show row.totalTransNodeCnt = ((l.filter fun x => !(node x).isCompact).length : Int)
    rw [h, hwf.count_eq]

theorem WellFormed.eq_nil_of_head (hwf : WellFormed row l)
    (hhead : row.listHead = none) : l = [] := by
  have h := hwf.chain.head_eq
  rw [hhead] at h
  exact List.head?_eq_none_iff.1 h.symm

theorem WellFormed.eq_of_walk (hwf : WellFormed row l) (fuel : Nat) (l' : List Nat)
    (hw : Lib.walk row.prev fuel row.listHead = some l') : l = l' :=
  hwf.chain.eq_of_walk hw

theorem mem_middle {pre post : List Nat} {a x : Nat} :
    x ∈ pre ++ a :: post ↔ x = a ∨ x ∈ pre ++ post := by
  rw [List.perm_middle.mem_iff, List.mem_cons]

theorem InsertsInto.exists_wellFormed {l : List Nat} {a : Nat}
    {res : RowChain × Except ObErr (Option Nat)}
    (h : InsertsInto l a res) :
    ∃ l', WellFormed res.1 l' ∧ (∀ x ∈ l', x = a ∨ x ∈ l) ∧ ∀ x ∈ l, x ∈ l' := by
  rcases hres : res.2 with e | r
  · exact ⟨l, h.2 e hres, fun x hx => .inr hx, fun x hx => hx⟩
  · obtain ⟨pre, post, rfl, hwf⟩ := h.1 r hres
    exact ⟨_, hwf, fun x hx => mem_middle.1 hx, fun x hx => mem_middle.2 (.inr hx)⟩

theorem SlotsSat.and {index : Option (Nat → Option Nat)} {P Q : Nat → Nat → Prop}
    (hP : SlotsSat index P) (hQ : SlotsSat index Q) : SlotsSat index fun i x => P i x ∧ Q i x :=
  fun slots hs i hi x hx => ⟨hP slots hs i hi x hx, hQ slots hs i hi x hx⟩

end RowChain

open RowChain

/-- The calls on one row: `insert_trans_node` of the node `a` from replay queue `q` (no valid queue
index for a thread that is no replay thread), an unlink of a node, a commit and an abort of a node,
and a row compaction that builds the compact node `tx` or none (`built`). -/
inductive ChainOp
  | insert (q : Int) (a : Nat) (allocOk : Bool) (fuel : Nat)
  | unlink (a : Nat)
  | commit (a commitVersion : Nat)
  | abort (a : Nat)
  | compact (snapshot tx : Nat) (built : Bool) (fuel : Nat)

/-- A row under replay, with the `scn_` of the last node each replay queue inserted. -/
structure ReplayRow where
  row : RowChain
  lastScn : Nat → Nat

def replayStep (s : ReplayRow) : ChainOp → Option ReplayRow
  | .insert q a allocOk fuel => some
      { row := (s.row.insertTransNode q a allocOk fuel).1
        lastScn := if isValidQueueIndex q then Function.update s.lastScn q.toNat (s.row.node a).scn
          else s.lastScn }
  | .unlink a => some { s with row := (s.row.unlinkTransNode a).1 }
  | .commit a commitVersion => some { s with row := s.row.transCommit a commitVersion }
  | .abort a => some { s with row := s.row.setAborted a }
  | .compact snapshot tx built fuel => some { s with row := s.row.compact snapshot tx built fuel }

/-- The calls a replay makes. A node inserted is a transaction node off the chain with a valid
version, and a replay queue's node is no older than the queue's last one and has `trans_version_`
max; the walks have fuel for the chain. A node unlinked is a transaction node on the chain (the
callback's `tnode_`). A commit version is a valid SCN. A compact node is off the chain. -/
def ReplayAdmissible (s : ReplayRow) : ChainOp → Prop
  | .insert q a _ fuel =>
    (∀ l, WellFormed s.row l → a ∉ l ∧ l.length < fuel) ∧ (s.row.node a).isCompact = false ∧
      (s.row.node a).transVersion ≤ obMaxScnTsNs ∧
      (isValidQueueIndex q → s.lastScn q.toNat ≤ (s.row.node a).scn ∧
        (s.row.node a).transVersion = obMaxScnTsNs)
  | .unlink a => (s.row.node a).isCompact = false ∧ ∀ l, WellFormed s.row l → a ∈ l
  | .commit _ commitVersion => commitVersion ≤ obMaxScnTsNs
  | .abort _ => True
  | .compact _ tx _ _ => ∀ l, WellFormed s.row l → tx ∉ l

/-- A row after `ObMvccRow::reset`: no node, no compact node, no index, a count of zero. -/
def ReplayInit (s : ReplayRow) : Prop :=
  s.row.listHead = none ∧ s.row.latestCompactNode = none ∧ s.row.index = none ∧
    s.row.totalTransNodeCnt = 0

/-- What holds of a row under replay, with the nodes `l` on its chain: the chain is well formed; a
slot holds no node newer than its queue's last one; every version is a valid SCN; the latest compact
node is a compact node of the chain, and no compact node is newer than it. -/
structure ReplayInv (s : ReplayRow) (l : List Nat) : Prop where
  wf : WellFormed s.row l
  slot_le : SlotsSat s.row.index fun i x => (s.row.node x).scn ≤ s.lastScn i
  version_le : ∀ x ∈ l, (s.row.node x).transVersion ≤ obMaxScnTsNs
  latest : ∀ c ∈ s.row.latestCompactNode, c ∈ l ∧ (s.row.node c).isCompact = true
  compact_le : ∀ x ∈ l, (s.row.node x).isCompact = true →
    ∃ c ∈ s.row.latestCompactNode, (s.row.node x).scn ≤ (s.row.node c).scn

section Steps

variable {s : ReplayRow} {l : List Nat}

theorem replayInv_init (h : ReplayInit s) : ReplayInv s [] where
  wf := ⟨⟨by simp [h.1], List.nodup_nil, trivial⟩, List.Pairwise.nil, by simp [IndexIn, h.2.2.1],
    by simp [h.2.2.2]⟩
  slot_le := by simp [h.2.2.1]
  version_le := by simp
  latest := by simp [h.2.1]
  compact_le := by simp

theorem replayInv_insert (hinv : ReplayInv s l) {q : Int} {a fuel : Nat} {allocOk : Bool}
    (hadm : ReplayAdmissible s (.insert q a allocOk fuel)) :
    ∃ l', ReplayInv
      { row := (s.row.insertTransNode q a allocOk fuel).1
        lastScn := if isValidQueueIndex q then Function.update s.lastScn q.toNat (s.row.node a).scn
          else s.lastScn } l' := by
  obtain ⟨hfresh, hca, htv, hreplay⟩ := hadm
  obtain ⟨ha, hfuel⟩ := hfresh l hinv.wf
  obtain ⟨hnode, hlatest⟩ : (s.row.insertTransNode q a allocOk fuel).1.node = s.row.node ∧
      (s.row.insertTransNode q a allocOk fuel).1.latestCompactNode = s.row.latestCompactNode :=
    insertTransNode_frame
  have hins : InsertsInto l a (s.row.insertTransNode q a allocOk fuel) :=
    insertTransNode_insertsInto hinv.wf ha hca hfuel
  obtain ⟨l', hwf', hnew, hold⟩ := hins.exists_wellFormed
  have hlast : ∀ i, s.lastScn i ≤ (if isValidQueueIndex q then
      Function.update s.lastScn q.toNat (s.row.node a).scn else s.lastScn) i := by
    intro i
    split_ifs with hq
    · rw [Function.update_apply]
      split_ifs with hi
      · exact hi ▸ (hreplay hq).1
      · exact le_rfl
    · exact le_rfl
  refine ⟨l', hwf', ?_, ?_, ?_, ?_⟩
  · dsimp only
    rw [hnode]
    refine insertTransNode_slotsSat (hinv.slot_le.mono fun i x h => le_trans h (hlast i)) ?_
    intro hq
    simp [hq]
  · intro x hx
    dsimp only
    rw [hnode]
    rcases hnew x hx with rfl | hx
    · exact htv
    · exact hinv.version_le x hx
  · intro c hc
    dsimp only at hc ⊢
    rw [hlatest] at hc
    rw [hnode]
    obtain ⟨hcl, hcc⟩ := hinv.latest c hc
    exact ⟨hold c hcl, hcc⟩
  · intro x hx hxc
    dsimp only at hxc ⊢
    rw [hnode, hlatest]
    rw [hnode] at hxc
    rcases hnew x hx with rfl | hx
    · rw [hca] at hxc
      cases hxc
    · exact hinv.compact_le x hx hxc

theorem replayInv_unlink (hinv : ReplayInv s l) {a : Nat} (hadm : ReplayAdmissible s (.unlink a)) :
    ∃ l', ReplayInv { s with row := (s.row.unlinkTransNode a).1 } l' := by
  obtain ⟨hca, hmem⟩ := hadm
  obtain ⟨pre, post, rfl⟩ := List.append_of_mem (hmem l hinv.wf)
  obtain ⟨hnode, hlatest⟩ : (s.row.unlinkTransNode a).1.node = s.row.node ∧
      (s.row.unlinkTransNode a).1.latestCompactNode = s.row.latestCompactNode :=
    unlinkTransNode_frame
  have hprev : s.row.prev a = post.head? := hinv.wf.chain.prv_eq
  have hsorted := (List.pairwise_cons.1 (List.pairwise_append.1 hinv.wf.sorted).2.1).1
  have hsub : ∀ x ∈ pre ++ post, x ∈ pre ++ a :: post := fun x hx => mem_middle.2 (.inr hx)
  refine ⟨pre ++ post, (unlinkTransNode_wellFormed hinv.wf hca).2, ?_, ?_, ?_, ?_⟩
  · dsimp only
    rw [hnode]
    refine unlinkTransNode_slotsSat hinv.slot_le fun i hi x hx => le_trans ?_ hi
    rw [hprev] at hx
    exact hsorted x (List.mem_of_mem_head? hx)
  · intro x hx
    dsimp only
    rw [hnode]
    exact hinv.version_le x (hsub x hx)
  · intro c hc
    dsimp only at hc ⊢
    rw [hlatest] at hc
    rw [hnode]
    obtain ⟨hcl, hcc⟩ := hinv.latest c hc
    have hca' : c ≠ a := fun h => by rw [h, hca] at hcc; cases hcc
    exact ⟨(mem_middle.1 hcl).resolve_left hca', hcc⟩
  · intro x hx hxc
    dsimp only at hxc ⊢
    rw [hnode, hlatest]
    rw [hnode] at hxc
    exact hinv.compact_le x (hsub x hx) hxc

theorem replayInv_commit (hinv : ReplayInv s l) {a v : Nat} (hv : v ≤ obMaxScnTsNs) :
    ReplayInv { s with row := s.row.transCommit a v } l where
  wf := hinv.wf.of_node (fun _ _ => transCommit_node_scn ..) fun _ _ => transCommit_node_isCompact ..
  slot_le := hinv.slot_le.mono fun i x h => by
    rw [transCommit_node_scn]
    exact h
  version_le := fun x hx => by
    rw [transCommit_node_transVersion]
    split_ifs
    · exact hv
    · exact hinv.version_le x hx
  latest := fun c hc => by
    rw [transCommit_node_isCompact]
    exact hinv.latest c hc
  compact_le := fun x hx hxc => by
    simp only [transCommit_node_scn]
    rw [transCommit_node_isCompact] at hxc
    exact hinv.compact_le x hx hxc

theorem replayInv_abort (hinv : ReplayInv s l) {a : Nat} :
    ReplayInv { s with row := s.row.setAborted a } l :=
  ⟨⟨hinv.wf.chain, hinv.wf.sorted, hinv.wf.index_mem, hinv.wf.count_eq⟩, hinv.slot_le,
    hinv.version_le, hinv.latest, hinv.compact_le⟩

theorem findStartPos_start (hinv : ReplayInv s l) {snapshot fuel start : Nat}
    (hstart : findStartPos s.row snapshot fuel (s.row.latestCompactNode.or s.row.listHead) = some start) :
    start ∈ l ∧ ∀ c ∈ s.row.latestCompactNode, (s.row.node c).scn ≤ (s.row.node start).scn := by
  cases hl : s.row.latestCompactNode with
  | none =>
    rw [hl, Option.none_or, hinv.wf.chain.head_eq] at hstart
    exact ⟨findStartPos_mem_of_none hinv.wf hl snapshot fuel [] l rfl start hstart, by simp⟩
  | some c =>
    rw [hl, Option.some_or] at hstart
    obtain ⟨A, B, hAB⟩ := List.append_of_mem (hinv.latest c hl).1
    obtain ⟨hst, hle⟩ := findStartPos_of_some hinv.wf hl snapshot fuel A c B hAB start hstart
    exact ⟨hst, fun c' hc' => Option.some.inj hc' ▸ hle⟩

theorem replayInv_compact (hinv : ReplayInv s l) {snapshot tx fuel : Nat} {built : Bool}
    (hadm : ReplayAdmissible s (.compact snapshot tx built fuel)) :
    ∃ l', ReplayInv { s with row := s.row.compact snapshot tx built fuel } l' := by
  rcases compact_cases s.row snapshot tx built fuel with h | ⟨start, hstart, h⟩
  · rw [h]
    exact ⟨l, hinv⟩
  have htx : tx ∉ l := hadm l hinv.wf
  obtain ⟨hst, hle⟩ := findStartPos_start hinv hstart
  set row₁ : RowChain :=
    { s.row with
      node := Function.update s.row.node tx { s.row.node start with isCompact := true }
      aborted := Function.update s.row.aborted tx (s.row.aborted start) } with hrow₁
  have hnode₁ : ∀ x ∈ l, row₁.node x = s.row.node x := fun x hx => by
    simp [hrow₁, show x ≠ tx from fun h => htx (h ▸ hx)]
  have htx₁ : row₁.node tx = { s.row.node start with isCompact := true } := by simp [hrow₁]
  have hwf₁ : WellFormed row₁ l := by
    have h' : WellFormed { s.row with node := row₁.node } l :=
      hinv.wf.of_node (fun x hx => by rw [hnode₁ x hx]) fun x hx => by rw [hnode₁ x hx]
    exact ⟨h'.chain, h'.sorted, h'.index_mem, h'.count_eq⟩
  obtain ⟨pre, post, rfl⟩ := List.append_of_mem hst
  have hwf₂ := insertCompactNode_wellFormed hwf₁ htx (by rw [htx₁]) (by rw [htx₁, hnode₁ start hst])
  rw [h]
  refine ⟨pre ++ tx :: start :: post, hwf₂, ?_, ?_, ?_, ?_⟩
  · refine (hinv.wf.index_mem.and hinv.slot_le).mono fun i x ⟨hx, hle⟩ => ?_
    show (row₁.node x).scn ≤ _
    rw [hnode₁ x hx]
    exact hle
  · intro x hx
    show (row₁.node x).transVersion ≤ _
    rcases mem_middle.1 hx with rfl | hx
    · rw [htx₁]
      exact hinv.version_le start hst
    · rw [hnode₁ x hx]
      exact hinv.version_le x hx
  · intro c hc
    rw [(Option.mem_some_iff.1 hc).symm]
    exact ⟨mem_middle.2 (.inl rfl), by show (row₁.node tx).isCompact = true; rw [htx₁]⟩
  · intro x hx hxc
    refine ⟨tx, rfl, ?_⟩
    show (row₁.node x).scn ≤ (row₁.node tx).scn
    rw [show (insertCompactNode row₁ tx start).node = row₁.node from rfl] at hxc
    rw [htx₁]
    rcases mem_middle.1 hx with rfl | hx
    · exact le_of_eq (by rw [htx₁])
    · rw [hnode₁ x hx] at hxc ⊢
      obtain ⟨c, hc, hxc'⟩ := hinv.compact_le x hx hxc
      exact le_trans hxc' (hle c hc)

theorem replayInv_step (hinv : ReplayInv s l) {op : ChainOp} (hadm : ReplayAdmissible s op)
    {t : ReplayRow} (ht : replayStep s op = some t) : ∃ l', ReplayInv t l' := by
  cases op with
  | insert q a allocOk fuel =>
    cases ht
    exact replayInv_insert hinv hadm
  | unlink a =>
    cases ht
    exact replayInv_unlink hinv hadm
  | commit a v =>
    cases ht
    exact ⟨l, replayInv_commit hinv hadm⟩
  | abort a =>
    cases ht
    exact ⟨l, replayInv_abort hinv⟩
  | compact snapshot tx built fuel =>
    cases ht
    exact replayInv_compact hinv hadm

theorem replayInv_of_run {s₀ : ReplayRow} {ops : List ChainOp} (h₀ : ReplayInit s₀)
    (hrun : Lib.Run replayStep ReplayAdmissible s₀ ops s) : ∃ l, ReplayInv s l :=
  hrun.invariant (fun s => ∃ l, ReplayInv s l) (fun _ _ _ ⟨_, hinv⟩ hadm ht => replayInv_step hinv hadm ht)
    ⟨[], replayInv_init h₀⟩

end Steps

/-! ## The replay-index path against the head walk -/

/-- The nodes of `l` with the node `a` linked in where the head walk puts it: below every node newer
than `a`. -/
def headWalkOrder (row : RowChain) (a : Nat) (l : List Nat) : List Nat :=
  l.takeWhile (fun x => (row.node a).scn < (row.node x).scn) ++
    a :: l.dropWhile fun x => (row.node a).scn < (row.node x).scn

/-- `insert_trans_node` of the node `a` from replay queue `q`, on the chain `l`, takes the
replay-index path from the slot's node `i`; that path returns and links `a` in at a split of `l`,
the head walk returns too, and the two chains have the same `scn_` from the head down. -/
def IndexPathAgrees (row : RowChain) (l : List Nat) (q : Int) (i a : Nat) (allocOk : Bool)
    (fuel : Nat) : Prop :=
  insertTransNode row q a allocOk fuel = insertByIndex row q i a fuel ∧
    ∃ pre post, l = pre ++ post ∧ (∃ r, (insertByIndex row q i a fuel).2 = .ok r) ∧
      WellFormed (insertByIndex row q i a fuel).1 (pre ++ a :: post) ∧
      (∃ r, (insertByHeadWalk row q a allocOk fuel).2 = .ok r) ∧
      WellFormed (insertByHeadWalk row q a allocOk fuel).1 (headWalkOrder row a l) ∧
      (pre ++ a :: post).map (fun x => (row.node x).scn) =
        (headWalkOrder row a l).map fun x => (row.node x).scn

section Agreement

variable {s : ReplayRow} {l : List Nat} {q : Int} {a fuel : Nat} {allocOk : Bool}

theorem compact_le_of_check (hinv : ReplayInv s l)
    (hcheck : (s.row.latestCompactNode.any fun c => (s.row.node a).scn ≤ (s.row.node c).scn) = false) :
    ∀ x ∈ l, (s.row.node x).isCompact = true → (s.row.node x).scn ≤ (s.row.node a).scn := by
  intro x hx hxc
  obtain ⟨c, hc, hxc'⟩ := hinv.compact_le x hx hxc
  rw [Option.mem_def] at hc
  simp only [hc, Option.any_some, decide_eq_false_iff_not, not_le] at hcheck
  omega

theorem indexPathAgrees_of_replayInv (hinv : ReplayInv s l)
    (hadm : ReplayAdmissible s (.insert q a allocOk fuel)) (hq : isValidQueueIndex q = true)
    (hcheck : (s.row.latestCompactNode.any fun c => (s.row.node a).scn ≤ (s.row.node c).scn) = false)
    {i : Nat} (hi : s.row.indexNode q = some i) (hab : s.row.aborted i = false) :
    IndexPathAgrees s.row l q i a allocOk fuel := by
  obtain ⟨hfresh, hca, -, hreplay⟩ := hadm
  obtain ⟨ha, hfuel⟩ := hfresh l hinv.wf
  obtain ⟨hlast, htvmax⟩ := hreplay hq
  have hil : i ∈ l := SlotsSat.indexNode hinv.wf.index_mem hi
  have hscn : (s.row.node i).scn ≤ (s.row.node a).scn :=
    le_trans (SlotsSat.indexNode hinv.slot_le hi) hlast
  have hpath : insertTransNode s.row q a allocOk fuel = insertByIndex s.row q i a fuel := by
    simp [insertTransNode, hcheck, insertPastCheck, hq, hi, hab]
  obtain ⟨r, hok⟩ := insertByIndex_ok hinv.wf hil hab hfuel hscn fun x hx =>
    htvmax ▸ hinv.version_le x hx
  obtain ⟨pre, post, hl, hpre, hpost, hwf⟩ := insertByIndex_wellFormed hinv.wf ha hca hil hfuel hok
  obtain ⟨r', hok'⟩ : ∃ r, (insertByHeadWalk s.row q a allocOk fuel).2 = .ok r :=
    insertByHeadWalk_ok hinv.wf hfuel (compact_le_of_check hinv hcheck)
  refine ⟨hpath, pre, post, hl, ⟨r, hok⟩, hwf, ⟨r', hok'⟩,
    insertByHeadWalk_wellFormed hinv.wf ha hca hfuel hok', ?_⟩
  refine Lib.map_insert_eq_of_between (hl.symm.trans List.takeWhile_append_dropWhile.symm) hpre
    hpost (fun x hx => ?_) (scn_le_of_mem_dropWhile hinv.wf.sorted _)
  have hnewer := List.mem_takeWhile_imp hx
  simp only [decide_eq_true_eq] at hnewer
  exact hnewer.le

theorem insertTransNode_ok_of_replayInv (hinv : ReplayInv s l)
    (hadm : ReplayAdmissible s (.insert q a allocOk fuel))
    (hcheck : (s.row.latestCompactNode.any fun c => (s.row.node a).scn ≤ (s.row.node c).scn) = false) :
    ∃ r, (s.row.insertTransNode q a allocOk fuel).2 = .ok r := by
  obtain ⟨hfresh, -, -, hreplay⟩ := hadm
  have hfuel := (hfresh l hinv.wf).2
  rw [insertTransNode, if_neg (by rw [hcheck]; decide)]
  rcases insertPastCheck_cases s.row q a allocOk fuel with ⟨index, hidx, heq⟩ | ⟨i, hq, hi, hab, heq⟩
  · rw [heq]
    exact insertByHeadWalk_ok (hinv.wf.of_index (hidx _ hinv.wf.index_mem)) hfuel
      (compact_le_of_check hinv hcheck)
  · rw [heq]
    obtain ⟨hlast, htvmax⟩ := hreplay hq
    exact insertByIndex_ok hinv.wf (SlotsSat.indexNode hinv.wf.index_mem hi) hab hfuel
      (le_trans (SlotsSat.indexNode hinv.slot_le hi) hlast) fun x hx => htvmax ▸ hinv.version_le x hx

end Agreement

/-- During a replay from a reset row, `insert_trans_node` of an admissible node fails only on its
check against the latest compact node: it returns `OB_SUCCESS` exactly when the node is newer than
that node, from a replay thread or another, through the index or the walk from the head. -/
theorem insertTransNode_ok_iff_of_run {s₀ s : ReplayRow} {ops : List ChainOp} (h₀ : ReplayInit s₀)
    (hrun : Lib.Run replayStep ReplayAdmissible s₀ ops s) {q : Int} {a fuel : Nat} {allocOk : Bool}
    (hadm : ReplayAdmissible s (.insert q a allocOk fuel)) :
    (∃ r, (s.row.insertTransNode q a allocOk fuel).2 = .ok r) ↔
      s.row.latestCompactNode.all fun c => (s.row.node c).scn < (s.row.node a).scn := by
  obtain ⟨l, hinv⟩ := replayInv_of_run h₀ hrun
  have hiff : (s.row.latestCompactNode.any fun c => (s.row.node a).scn ≤ (s.row.node c).scn) = false ↔
      s.row.latestCompactNode.all fun c => (s.row.node c).scn < (s.row.node a).scn := by
    cases s.row.latestCompactNode <;> simp
  constructor
  · rintro ⟨r, hr⟩
    refine hiff.1 (Bool.eq_false_iff.2 fun hc => ?_)
    simp [insertTransNode, hc] at hr
  · intro hall
    exact insertTransNode_ok_of_replayInv hinv hadm (hiff.2 hall)

/-- A row after `reset`, whose nodes off the chain are transaction nodes of `scn_` their address with
`trans_version_` max. -/
def resetRow : RowChain where
  prev := fun _ => none
  next := fun _ => none
  aborted := fun _ => false
  node := fun x => ⟨x, obMaxScnTsNs, false, false⟩
  listHead := none
  latestCompactNode := none
  index := none
  totalTransNodeCnt := 0

/-- Replay queue 0 inserts node 1, another thread node 2 above it, both commit, and a compaction
at snapshot 7 builds the compact node 10 from node 2. -/
def compactedReplay : List ChainOp :=
  [.insert 0 1 true 2,.insert (-1) 2 true 2,.commit 1 5,.commit 2 6,.compact 7 10 true 4]

theorem insertTransNode_ok_iff_after_compaction :
    ∃ s, ReplayInit ⟨resetRow, fun _ => 0⟩ ∧
      Lib.Run replayStep ReplayAdmissible ⟨resetRow, fun _ => 0⟩ compactedReplay s ∧
      s.row.latestCompactNode = some 10 ∧ (∃ r, (s.row.insertTransNode 0 3 true 4).2 = .ok r) ∧
      ¬∃ r, (s.row.insertTransNode (-1) 0 true 4).2 = .ok r := by
  have h₀ : ReplayInit ⟨resetRow, fun _ => 0⟩ := ⟨rfl, rfl, rfl, rfl⟩
  have hrun : Lib.Run replayStep ReplayAdmissible ⟨resetRow, fun _ => 0⟩ compactedReplay _ :=
    .cons ?_ rfl (.cons ?_ rfl (.cons (by decide : 5 ≤ obMaxScnTsNs) rfl
      (.cons (by decide : 6 ≤ obMaxScnTsNs) rfl (.cons ?_ rfl (.nil _)))))
  · refine ⟨_, h₀, hrun, rfl, (insertTransNode_ok_iff_of_run h₀ hrun ⟨fun l hwf => ?_, rfl, by decide,
      by decide⟩).2 (by decide), fun h => ?_⟩
    · obtain rfl := hwf.eq_of_walk 4 [10, 2, 1] (by decide)
      decide
    · refine absurd ((insertTransNode_ok_iff_of_run h₀ hrun ⟨fun l hwf => ?_, rfl, by decide,
        by decide⟩).1 h) (by decide)
      obtain rfl := hwf.eq_of_walk 4 [10, 2, 1] (by decide)
      decide
  · refine ⟨fun l hwf => ?_, rfl, le_rfl, fun _ => ⟨Nat.zero_le _, rfl⟩⟩
    obtain rfl := hwf.eq_nil_of_head rfl
    simp
  · refine ⟨fun l hwf => ?_, rfl, by decide, by decide⟩
    obtain rfl := hwf.eq_of_walk 2 [1] (by decide)
    decide
  · intro l hwf
    obtain rfl := hwf.eq_of_walk 3 [2, 1] (by decide)
    decide

/-! ## The chain's shape under each operation and under replay -/

/-- Each operation keeps a well-formed chain and changes its nodes by the one it affects: an insert
of a transaction node (on either path; an error leaves the nodes), an unlink of a transaction node,
`mvcc_undo` of a head that is a transaction node and that no slot holds, and `insert_compact_node_`
of a compact node with its start's `scn_`. Over a replay from a reset row in which each replay queue
inserts in `scn_` order with `trans_version_` max, an insert that reaches the replay-index path
returns and links the node in where the head walk would, up to the order among equal `scn_`. -/
theorem rowChain_shape :
    (∀ (row : RowChain) (l : List Nat) (q : Int) (a : Nat) (allocOk : Bool) (fuel : Nat),
      WellFormed row l → a ∉ l → (row.node a).isCompact = false → l.length < fuel →
      InsertsInto l a (row.insertTransNode q a allocOk fuel)) ∧
    (∀ (row : RowChain) (pre post : List Nat) (a : Nat), WellFormed row (pre ++ a :: post) →
      (row.node a).isCompact = false →
      (row.unlinkTransNode a).2 = .ok () ∧ WellFormed (row.unlinkTransNode a).1 (pre ++ post)) ∧
    (∀ (row : RowChain) (post : List Nat) (a : Nat), WellFormed row (a :: post) →
      (row.node a).isCompact = false →
      (∀ slots, row.index = some slots → ∀ i < replayTaskQueueSize, slots i ≠ some a) →
      WellFormed row.mvccUndo post) ∧
    (∀ (row : RowChain) (pre post : List Nat) (tx start : Nat),
      WellFormed row (pre ++ start :: post) → tx ∉ pre ++ start :: post →
      (row.node tx).isCompact = true → (row.node tx).scn = (row.node start).scn →
      WellFormed (row.insertCompactNode tx start) (pre ++ tx :: start :: post)) ∧
    (∀ (s₀ s : ReplayRow) (ops : List ChainOp), ReplayInit s₀ →
      Lib.Run replayStep ReplayAdmissible s₀ ops s →
      ∀ (q : Int) (a i : Nat) (allocOk : Bool) (fuel : Nat),
        ReplayAdmissible s (.insert q a allocOk fuel) → isValidQueueIndex q = true →
        (s.row.latestCompactNode.any fun c => (s.row.node a).scn ≤ (s.row.node c).scn) = false →
        s.row.indexNode q = some i → s.row.aborted i = false →
        ∃ l, WellFormed s.row l ∧ IndexPathAgrees s.row l q i a allocOk fuel) := by
  refine ⟨fun _ _ _ _ _ _ hwf ha hca hfuel => insertTransNode_insertsInto hwf ha hca hfuel,
    fun _ _ _ _ hwf hca => unlinkTransNode_wellFormed hwf hca,
    fun _ _ _ hwf hca hslots => mvccUndo_wellFormed hwf hca hslots,
    fun _ _ _ _ _ hwf htx hc hscn => insertCompactNode_wellFormed hwf htx hc hscn, ?_⟩
  intro s₀ s ops h₀ hrun q a i allocOk fuel hadm hq hcheck hi hab
  obtain ⟨l, hinv⟩ := replayInv_of_run h₀ hrun
  exact ⟨l, hinv.wf, indexPathAgrees_of_replayInv hinv hadm hq hcheck hi hab⟩

/-- A row whose one node `1`, a transaction node of `scn_` 1, is the node of replay queue 0. -/
def slottedRow : RowChain where
  prev := fun _ => none
  next := fun _ => none
  aborted := fun _ => false
  node := fun x => ⟨x, x, true, false⟩
  listHead := some 1
  latestCompactNode := none
  index := some fun i => if i = 0 then some 1 else none
  totalTransNodeCnt := 1

def compactedRow : RowChain where
  prev := fun _ => none
  next := fun _ => none
  aborted := fun _ => false
  node := fun x => ⟨x, x, true, true⟩
  listHead := some 1
  latestCompactNode := some 1
  index := none
  totalTransNodeCnt := 0

theorem indexIn_single {l : List Nat} {n : Nat} (hn : n ∈ l) :
    IndexIn (some fun i => if i = 0 then some n else none) l := by
  intro slots hs i _ x hx
  cases hs
  dsimp only at hx
  split_ifs at hx
  cases hx
  exact hn

theorem slottedRow_wellFormed : WellFormed slottedRow [1] where
  chain := ⟨rfl, List.nodup_singleton 1, ⟨rfl, rfl, trivial⟩⟩
  sorted := List.pairwise_singleton _ _
  index_mem := indexIn_single (List.mem_singleton_self 1)
  count_eq := rfl

/-- Without the conditions on the affected node a chain is lost. `mvcc_undo` of the node that replay
queue 0's slot holds empties the chain and leaves the slot on the undone node; `unlink_trans_node` of
a compact node empties the chain and lowers `total_trans_node_cnt_` to -1. -/
theorem mvccUndo_keeps_slot :
    WellFormed slottedRow [1] ∧ (∀ l, ¬WellFormed slottedRow.mvccUndo l) ∧
      WellFormed compactedRow [1] ∧ ∀ l, ¬WellFormed (compactedRow.unlinkTransNode 1).1 l := by
  refine ⟨slottedRow_wellFormed, fun l hwf => ?_, ⟨⟨rfl, List.nodup_singleton 1, ⟨rfl, rfl, trivial⟩⟩,
    List.pairwise_singleton _ _, by simp [compactedRow], rfl⟩, fun l hwf => ?_⟩
  · obtain rfl := hwf.eq_nil_of_head rfl
    have h := hwf.index_mem _ rfl 0 (by decide) 1 rfl
    simp at h
  · obtain rfl := hwf.eq_nil_of_head rfl
    have h := hwf.count_eq
    simp [unlinkTransNode, compactedRow] at h

/-- The chain 3, 2, 1 of committed transaction nodes of `scn_` their address, with node 2 in replay
queue 0's slot, and the compact node 9 of `scn_` 2 off the chain. -/
def threeNodeRow : RowChain where
  prev := fun x => if x = 3 then some 2 else if x = 2 then some 1 else none
  next := fun x => if x = 1 then some 2 else if x = 2 then some 3 else none
  aborted := fun _ => false
  node := fun x => if x = 9 then ⟨2, 2, true, true⟩ else ⟨x, x, true, false⟩
  listHead := some 3
  latestCompactNode := none
  index := some fun i => if i = 0 then some 2 else none
  totalTransNodeCnt := 3

theorem threeNodeRow_wellFormed : WellFormed threeNodeRow [3, 2, 1] where
  chain := ⟨rfl, by decide, ⟨rfl, rfl, rfl, rfl, rfl, rfl, trivial⟩⟩
  sorted := by decide
  index_mem := indexIn_single (by simp)
  count_eq := by decide

/-- On the chain 3, 2, 1: replay queue 0 inserts node 4 through its slot's node 2, node 2 leaves the
middle, the head is undone, and the compact node 9 goes in above node 2. The part on replays needs a
row with an index, which a replay from a reset row builds only once a walk has passed
`INDEX_TRIGGER_COUNT` nodes. -/
theorem rowChain_shape_threeNodes :
    WellFormed threeNodeRow [3, 2, 1] ∧
      ((threeNodeRow.insertTransNode 0 4 true 4).2 = .ok none ∧
        InsertsInto [3, 2, 1] 4 (threeNodeRow.insertTransNode 0 4 true 4)) ∧
      ((threeNodeRow.unlinkTransNode 2).2 = .ok () ∧
        WellFormed (threeNodeRow.unlinkTransNode 2).1 [3, 1]) ∧
      WellFormed threeNodeRow.mvccUndo [2, 1] ∧
      WellFormed (threeNodeRow.insertCompactNode 9 2) [3, 9, 2, 1] := by
  have hwf := threeNodeRow_wellFormed
  refine ⟨hwf, ⟨rfl, rowChain_shape.1 _ _ 0 4 true 4 hwf (by decide) rfl (by decide)⟩,
    rowChain_shape.2.1 _ [3] [1] 2 hwf rfl, rowChain_shape.2.2.1 _ [2, 1] 3 hwf rfl ?_,
    rowChain_shape.2.2.2.1 _ [3] [1] 9 2 hwf (by decide) rfl rfl⟩
  intro slots hs i _
  cases hs
  dsimp only
  split_ifs <;> simp

end OceanBase.Memtable
