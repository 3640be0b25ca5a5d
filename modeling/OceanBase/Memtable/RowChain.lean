import Mathlib
import OceanBase.Define
import OceanBase.Lib.LinkedChain

/-! The chain of an `ObMvccRow` as its pointers lay it out (`ob_mvcc_row.cpp`,
`ob_row_compactor.cpp`): `list_head_`, the links `prev_` (to the older node) and `next_` (to the
newer one) of the nodes, the replay index `index_`, `latest_compact_node_` and
`total_trans_node_cnt_`. The operations are `insert_trans_node` on both of its paths,
`unlink_trans_node`, `mvcc_undo`, and `find_start_pos_` and `insert_compact_node_` of the row
compactor. The heap of nodes is one map per field that the operations write. A walk along the
links takes fuel, and running out of it is `OB_ERR_UNEXPECTED`; the chain's length is enough. -/
namespace OceanBase.Memtable

def replayTaskQueueSize : Nat := 32

def indexTriggerCount : Nat := 500

/-- The fields of an `ObMvccTransNode` that the chain operations read and never write past its
creation: `scn_`, `trans_version_`, the committed flag, and whether `type_` is `NDT_COMPACT`. -/
structure ChainNode where
  scn : Nat
  transVersion : Nat
  isCommitted : Bool
  isCompact : Bool
  deriving DecidableEq, Repr

/-- The chain of an `ObMvccRow`: the links `prev_` and `next_` of every node (`none` for NULL), the
aborted flag and the other fields of every node, `list_head_`, `latest_compact_node_`, `index_` (NULL,
or the `replay_locations_` of its slots) and `total_trans_node_cnt_`. -/
structure RowChain where
  prev : Nat → Option Nat
  next : Nat → Option Nat
  aborted : Nat → Bool
  node : Nat → ChainNode
  listHead : Option Nat
  latestCompactNode : Option Nat
  index : Option (Nat → Option Nat)
  totalTransNodeCnt : Int

namespace ObMvccRowIndex

def isValidQueueIndex (q : Int) : Bool := 0 ≤ q && q < replayTaskQueueSize

def getIndexNode (slots : Nat → Option Nat) (q : Int) : Option Nat :=
  if isValidQueueIndex q then slots q.toNat else none

def setIndexNode (slots : Nat → Option Nat) (q : Int) (n : Option Nat) : Nat → Option Nat :=
  if isValidQueueIndex q then Function.update slots q.toNat n else slots

def reset : Nat → Option Nat := fun _ => none

end ObMvccRowIndex

namespace RowChain

open ObMvccRowIndex

/-- A write `p->f = v` to a link through a pointer `p` that the source tests for NULL first. -/
def writeAt (f : Nat → Option Nat) (p v : Option Nat) : Nat → Option Nat :=
  match p with
  | some x => Function.update f x v
  | none => f

@[simp] theorem writeAt_none (f : Nat → Option Nat) (v : Option Nat) : writeAt f none v = f := rfl

theorem writeAt_apply (f : Nat → Option Nat) (p v : Option Nat) (x : Nat) :
    writeAt f p v x = if p = some x then v else f x := by
  cases p with
  | none => simp [writeAt]
  | some y => simp [writeAt, Function.update_apply, eq_comm]

/-- The loop of the replay-index path of `insert_trans_node`: from `prev` up `next_` while the next
node's `scn_` is below `scn`. The result is `prev` and `next` where it stops. -/
def indexWalk (row : RowChain) (scn : Nat) : (fuel prev : Nat) → (next : Option Nat) →
    Except ObErr (Nat × Option Nat)
  | 0, _, _ => .error .errUnexpected
  | _ + 1, prev, none => .ok (prev, none)
  | f + 1, prev, some n =>
    if (row.node n).scn < scn then indexWalk row scn f n (row.next n) else .ok (prev, some n)

/-- The loop of the head-walk path of `insert_trans_node`: from `tmp` down `prev_` while the node's
`scn_` is above `scn`, `next_node` the last node passed and `search_steps` the nodes passed; a
compact node among them is `OB_ERR_UNEXPECTED`. The result is `tmp`, `next_node` and
`search_steps` where it stops. -/
def headWalk (row : RowChain) (scn : Nat) : (fuel : Nat) → (tmp nextNode : Option Nat) →
    (steps : Nat) → Except ObErr (Option Nat × Option Nat × Nat)
  | 0, _, _, _ => .error .errUnexpected
  | _ + 1, none, nextNode, steps => .ok (none, nextNode, steps)
  | f + 1, some t, nextNode, steps =>
    if scn < (row.node t).scn then
      if (row.node t).isCompact then .error .errUnexpected
      else headWalk row scn f (row.prev t) (some t) (steps + 1)
    else .ok (some t, nextNode, steps)

/-- The replay-index path of `insert_trans_node` for the node `a` from the slot's node `indexNode`:
past the walk the node goes in above `prev`, and becomes the slot's node. A `prev` above the node,
or of a larger `trans_version_`, is `OB_ERR_UNEXPECTED` (and `abort_unless(0)`). The result is
`next_node`. -/
def insertByIndex (row : RowChain) (q : Int) (indexNode a fuel : Nat) :
    RowChain × Except ObErr (Option Nat) :=
  -- the source tests the flag again here, after the caller dropped an aborted index node
  if row.aborted indexNode then (row, .error .errUnexpected)
  else
    match indexWalk row (row.node a).scn fuel indexNode (row.next indexNode) with
    | .error e => (row, .error e)
    | .ok (prev, next) =>
      if (row.node a).scn < (row.node prev).scn ∨
          (row.node a).transVersion < (row.node prev).transVersion then
        (row, .error .errUnexpected)
      else
        ({ row with
            next := Function.update (Function.update row.next a next) prev (some a)
            prev := writeAt (Function.update row.prev a (some prev)) next (some a)
            listHead := if some prev = row.listHead then some a else row.listHead
            aborted := Function.update row.aborted a false
            index := row.index.map (setIndexNode · q (some a))
            totalTransNodeCnt := row.totalTransNodeCnt + 1 }, .ok next)

/-- The head-walk path of `insert_trans_node` for the node `a`: past the walk the node goes in above
`tmp`; the pointer `prev` the walk leaves is `&list_head_` or `&next_node->prev_`. A replay thread
then makes the node its slot's node, when the row has an index or the walk passed more than
`INDEX_TRIGGER_COUNT` nodes; a missing index is allocated first, unless the allocation fails. -/
def insertByHeadWalk (row : RowChain) (q : Int) (a : Nat) (allocOk : Bool) (fuel : Nat) :
    RowChain × Except ObErr (Option Nat) :=
  match headWalk row (row.node a).scn fuel row.listHead none 0 with
  | .error e => (row, .error e)
  | .ok (tmp, nextNode, steps) =>
    let index :=
      if isValidQueueIndex q ∧ (row.index.isSome ∨ indexTriggerCount < steps) then
        (match row.index with
          | some slots => some slots
          | none => if allocOk then some reset else none).map (setIndexNode · q (some a))
      else row.index
    ({ row with
        prev := writeAt (Function.update row.prev a tmp) nextNode (some a)
        listHead := if nextNode = none then some a else row.listHead
        next := writeAt (Function.update row.next a nextNode) tmp (some a)
        aborted := Function.update row.aborted a false
        index := index
        totalTransNodeCnt := row.totalTransNodeCnt + 1 }, .ok nextNode)

/-- The slot of replay queue `q`: its node, when the thread is a replay thread and the row has an
index. -/
def indexNode (row : RowChain) (q : Int) : Option Nat := row.index.bind (getIndexNode · q)

/-- `insert_trans_node` past its check against `latest_compact_node_`: a thread that is no replay
thread empties the index; an aborted node in the replay thread's slot leaves the slot. The index path
runs when the slot holds a node, the head walk otherwise. -/
def insertPastCheck (row : RowChain) (q : Int) (a : Nat) (allocOk : Bool) (fuel : Nat) :
    RowChain × Except ObErr (Option Nat) :=
  let row := if !isValidQueueIndex q && row.index.isSome then { row with index := some reset } else row
  match row.indexNode q with
  | some i =>
    if row.aborted i then
      insertByHeadWalk { row with index := row.index.map (setIndexNode · q none) } q a allocOk fuel
    else insertByIndex row q i a fuel
  | none => insertByHeadWalk row q a allocOk fuel

/-- `ObMvccRow::insert_trans_node(ctx, node, allocator, next_node)` for the node `a` from replay queue
`q` (`get_replay_queue_index()`, no valid index outside a replay thread); a node no newer than the
latest compact node is `OB_ERR_UNEXPECTED`. -/
def insertTransNode (row : RowChain) (q : Int) (a : Nat) (allocOk : Bool) (fuel : Nat) :
    RowChain × Except ObErr (Option Nat) :=
  if row.latestCompactNode.any fun c => (row.node a).scn ≤ (row.node c).scn then
    (row, .error .errUnexpected)
  else insertPastCheck row q a allocOk fuel

/-- `ObMvccRow::unlink_trans_node(node)` as it runs (`is_server_serving` is `false`): the pointer
`prev` is `&list_head_` for the head and `&node.next_->prev_` otherwise, a node with no `next_` that
is not the head is `OB_ERR_UNEXPECTED`. The slots that held the node take its `prev_`. -/
def unlinkTransNode (row : RowChain) (a : Nat) : RowChain × Except ObErr Unit :=
  let slot : Except ObErr (Option Nat) :=
    if some a = row.listHead then .ok none
    else if row.next a = none ∨ row.listHead = none then .error .errUnexpected
    else .ok (row.next a)
  match slot with
  | .error e => (row, .error e)
  | .ok slot =>
    ({ row with
        listHead := if slot = none then row.prev a else row.listHead
        prev := writeAt row.prev slot (row.prev a)
        next := writeAt row.next (row.prev a) (row.next a)
        index := row.index.map fun slots i =>
          if i < replayTaskQueueSize ∧ slots i = some a then row.prev a else slots i
        totalTransNodeCnt := row.totalTransNodeCnt - 1 }, .ok ())

/-- `ObMvccRow::mvcc_undo`: the head is marked aborted and leaves the chain; with no node it only
logs. -/
def mvccUndo (row : RowChain) : RowChain :=
  match row.listHead with
  | none => row
  | some i =>
    { row with
      aborted := Function.update row.aborted i true
      listHead := row.prev i
      next := writeAt row.next (row.prev i) none
      totalTransNodeCnt := row.totalTransNodeCnt - 1 }

/-- `ObMemtableRowCompactor::insert_compact_node_(tx_node, start)`: the compact node goes in above
`start` and becomes `latest_compact_node_`. -/
def insertCompactNode (row : RowChain) (tx start : Nat) : RowChain :=
  { row with
    prev := writeAt (Function.update row.prev tx (some start)) (row.next start) (some tx)
    next := Function.update (Function.update row.next tx (row.next start)) start (some tx)
    listHead := if row.next start = none then some tx else row.listHead
    latestCompactNode := some tx }

/-- The loop of `ObMemtableRowCompactor::find_start_pos_`: with no compact node, down `prev_` from the
head past the nodes not committed at the snapshot; with one, up `next_` from it over the nodes
committed at the snapshot. Running out of fuel finds no start. -/
def findStartPos (row : RowChain) (snapshot : Nat) : (fuel : Nat) → (start : Option Nat) → Option Nat
  | 0, _ => none
  | _ + 1, none => none
  | f + 1, some s =>
    match row.latestCompactNode with
    | none =>
      if obMaxScnTsNs = (row.node s).transVersion ∨ snapshot < (row.node s).transVersion ∨
          (row.node s).isCommitted = false then findStartPos row snapshot f (row.prev s)
      else some s
    | some _ =>
      match row.next s with
      | some n =>
        if (row.node n).transVersion ≤ snapshot ∧ (row.node n).isCommitted = true ∧
            obMaxScnTsNs ≠ (row.node n).transVersion then findStartPos row snapshot f (some n)
        else some s
      | none => some s

/-- `ObMemtableRowCompactor::compact(snapshot_version, flag)` as far as the chain goes: past its
checks of the snapshot, `find_start_pos_` from `latest_compact_node_` or the head. When
`construct_compact_node_` builds the node `tx` from the start (`built`), it takes the start's `scn_`,
`trans_version_` and flags, and `insert_compact_node_` links it in. -/
def compact (row : RowChain) (snapshot tx : Nat) (built : Bool) (fuel : Nat) : RowChain :=
  if !scnIsValid snapshot || snapshot == obMaxScnTsNs then row
  else if row.latestCompactNode.any fun c => snapshot ≤ (row.node c).transVersion then row
  else
    match findStartPos row snapshot fuel (row.latestCompactNode.or row.listHead) with
    | none => row
    | some start =>
      if built then
        insertCompactNode
          { row with
            node := Function.update row.node tx { row.node start with isCompact := true }
            aborted := Function.update row.aborted tx (row.aborted start) } tx start
      else row

/-! ## Well-formed chains -/

/-- Every slot of the index, when there is one, is NULL or holds a node `x` with `P i x`, for `i`
the slot's replay queue. -/
def SlotsSat (index : Option (Nat → Option Nat)) (P : Nat → Nat → Prop) : Prop :=
  ∀ slots, index = some slots → ∀ i < replayTaskQueueSize, ∀ x, slots i = some x → P i x

/-- Every slot of the index, when there is one, is NULL or holds a node of `l`. -/
def IndexIn (index : Option (Nat → Option Nat)) (l : List Nat) : Prop :=
  SlotsSat index fun _ x => x ∈ l

section Slots

variable {index : Option (Nat → Option Nat)} {P P' : Nat → Nat → Prop} {l l' : List Nat}

@[simp] theorem slotsSat_none : SlotsSat none P := by
  simp [SlotsSat]

@[simp] theorem slotsSat_reset : SlotsSat (some reset) P := by
  simp [SlotsSat, reset]

@[simp] theorem indexIn_none : IndexIn none l := slotsSat_none

@[simp] theorem indexIn_reset : IndexIn (some reset) l := slotsSat_reset

theorem SlotsSat.mono (h : SlotsSat index P) (hP : ∀ i x, P i x → P' i x) : SlotsSat index P' :=
  fun slots hs i hi x hx => hP i x (h slots hs i hi x hx)

theorem SlotsSat.set (h : SlotsSat index P) {q : Int} {n : Option Nat}
    (hn : isValidQueueIndex q → ∀ x ∈ n, P q.toNat x) :
    SlotsSat (index.map (setIndexNode · q n)) P := by
  intro slots hs i hi x hx
  obtain ⟨slots₀, h₀, rfl⟩ := Option.map_eq_some_iff.1 hs
  unfold setIndexNode at hx
  split_ifs at hx with hq
  · rw [Function.update_apply] at hx
    split_ifs at hx with hiq
    · exact hiq ▸ hn hq x hx
    · exact h slots₀ h₀ i hi x hx
  · exact h slots₀ h₀ i hi x hx

theorem SlotsSat.repoint (h : SlotsSat index P) {a : Nat} {p : Option Nat}
    (hp : ∀ i, P i a → ∀ x ∈ p, P' i x) (hother : ∀ i x, P i x → x ≠ a → P' i x) :
    SlotsSat (index.map fun slots i => if i < replayTaskQueueSize ∧ slots i = some a then p else slots i)
      P' := by
  intro slots hs i hi x hx
  obtain ⟨slots₀, h₀, rfl⟩ := Option.map_eq_some_iff.1 hs
  dsimp only at hx
  split_ifs at hx with hc
  · exact hp i (h slots₀ h₀ i hi a hc.2) x hx
  · exact hother i x (h slots₀ h₀ i hi x hx) fun hxa => hc ⟨hi, hxa ▸ hx⟩

theorem IndexIn.mono (h : IndexIn index l) (hl : ∀ x ∈ l, x ∈ l') : IndexIn index l' :=
  SlotsSat.mono h fun _ x hx => hl x hx

theorem IndexIn.grow {pre post : List Nat} {a : Nat} (h : IndexIn index (pre ++ post)) :
    IndexIn index (pre ++ a :: post) :=
  h.mono fun _ hx => List.mem_append.2 ((List.mem_append.1 hx).imp id (List.mem_cons_of_mem _))

theorem IndexIn.repoint {pre post : List Nat} {a : Nat} (h : IndexIn index (pre ++ a :: post))
    {p : Option Nat} (hp : ∀ x ∈ p, x ∈ pre ++ post) :
    IndexIn (index.map fun slots i => if i < replayTaskQueueSize ∧ slots i = some a then p else slots i)
      (pre ++ post) :=
  SlotsSat.repoint h (fun _ _ x hx => hp x hx) fun _ x hx hxa => by
    simp only [List.mem_append, List.mem_cons] at hx ⊢
    tauto

theorem IndexIn.set (h : IndexIn index l) {q : Int} {n : Option Nat} (hn : ∀ x ∈ n, x ∈ l) :
    IndexIn (index.map (setIndexNode · q n)) l :=
  SlotsSat.set h fun _ => hn

end Slots

/-- A well-formed chain with the nodes `l`, newest first: linked both ways from `list_head_`, `scn_`
non-increasing along `prev_`, every slot of the index NULL or on the chain, and
`total_trans_node_cnt_` the number of nodes that are not compact. -/
structure WellFormed (row : RowChain) (l : List Nat) : Prop where
  chain : Lib.Chain row.prev row.next row.listHead l
  sorted : l.Pairwise fun x y => (row.node y).scn ≤ (row.node x).scn
  index_mem : IndexIn row.index l
  count_eq : row.totalTransNodeCnt = (l.filter fun x => !(row.node x).isCompact).length

section WellFormed

variable {row row' : RowChain} {l pre post : List Nat} {a : Nat}

theorem WellFormed.of_index (hwf : WellFormed row l) {index : Option (Nat → Option Nat)}
    (hindex : IndexIn index l) : WellFormed { row with index := index } l :=
  ⟨hwf.chain, hwf.sorted, hindex, hwf.count_eq⟩

theorem filter_compact_congr {node node' : Nat → ChainNode} (hnode : ∀ x ∈ l, node' x = node x) :
    (l.filter fun x => !(node' x).isCompact) = l.filter fun x => !(node x).isCompact :=
  List.filter_congr fun x hx => by rw [hnode x hx]

theorem WellFormed.insert (hwf : WellFormed row (pre ++ post)) (ha : a ∉ pre ++ post)
    (hchain : Lib.Chain row'.prev row'.next row'.listHead (pre ++ a :: post))
    (hnode : ∀ x ∈ pre ++ post, row'.node x = row.node x)
    (hpre : ∀ x ∈ pre, (row'.node a).scn ≤ (row.node x).scn)
    (hpost : ∀ x ∈ post, (row.node x).scn ≤ (row'.node a).scn)
    (hindex : IndexIn row'.index (pre ++ a :: post))
    (hcount : row'.totalTransNodeCnt = row.totalTransNodeCnt + if (row'.node a).isCompact then 0 else 1) :
    WellFormed row' (pre ++ a :: post) where
  chain := hchain
  sorted := by
    have hs := List.pairwise_append.1 hwf.sorted
    refine List.pairwise_append.2 ⟨?_, List.pairwise_cons.2 ⟨?_, ?_⟩, ?_⟩
    · exact hs.1.imp_of_mem fun hx hy h => by
        rwa [hnode _ (List.mem_append_left _ hx), hnode _ (List.mem_append_left _ hy)]
    · intro y hy
      rw [hnode y (List.mem_append_right _ hy)]
      exact hpost y hy
    · exact hs.2.1.imp_of_mem fun hx hy h => by
        rwa [hnode _ (List.mem_append_right _ hx), hnode _ (List.mem_append_right _ hy)]
    · intro x hx y hy
      rw [hnode x (List.mem_append_left _ hx)]
      rcases List.mem_cons.1 hy with rfl | hy
      · exact hpre x hx
      · rw [hnode y (List.mem_append_right _ hy)]
        exact hs.2.2 x hx y hy
  index_mem := hindex
  count_eq := by
    have hfpre := filter_compact_congr (l := pre) fun x hx => hnode x (List.mem_append_left _ hx)
    have hfpost := filter_compact_congr (l := post) fun x hx => hnode x (List.mem_append_right _ hx)
    rw [hcount, hwf.count_eq, List.filter_append, List.filter_append, List.filter_cons, hfpre, hfpost]
    cases (row'.node a).isCompact
    · simp
      omega
    · simp

theorem WellFormed.erase (hwf : WellFormed row (pre ++ a :: post))
    (hchain : Lib.Chain row'.prev row'.next row'.listHead (pre ++ post))
    (hnode : ∀ x ∈ pre ++ post, row'.node x = row.node x)
    (hindex : IndexIn row'.index (pre ++ post))
    (hcount : row'.totalTransNodeCnt = row.totalTransNodeCnt - if (row.node a).isCompact then 0 else 1) :
    WellFormed row' (pre ++ post) where
  chain := hchain
  sorted := by
    have hs : (pre ++ post).Pairwise fun x y => (row.node y).scn ≤ (row.node x).scn :=
      hwf.sorted.sublist ((List.sublist_cons_self a post).append_left pre)
    exact hs.imp_of_mem fun hx hy h => by rwa [hnode _ hx, hnode _ hy]
  index_mem := hindex
  count_eq := by
    rw [hcount, hwf.count_eq, filter_compact_congr hnode, List.filter_append, List.filter_append,
      List.filter_cons]
    cases (row.node a).isCompact
    · simp
      omega
    · simp

end WellFormed

/-! ## The walks -/

section Walks

variable {row : RowChain} {l : List Nat}

theorem headWalk_spec (h : Lib.Chain row.prev row.next row.listHead l) (s : Nat) :
    ∀ (B A : List Nat) (fuel steps : Nat), l = A ++ B → B.length < fuel →
      headWalk row s fuel B.head? A.getLast? steps =
        if (B.takeWhile fun x => s < (row.node x).scn).any fun x => (row.node x).isCompact then
          .error .errUnexpected
        else .ok ((B.dropWhile fun x => s < (row.node x).scn).head?,
          (A ++ B.takeWhile fun x => s < (row.node x).scn).getLast?,
          steps + (B.takeWhile fun x => s < (row.node x).scn).length) := by
  intro B
  induction B with
  | nil =>
    intro A fuel steps _ hf
    obtain ⟨f, rfl⟩ : ∃ f, fuel = f + 1 := ⟨fuel - 1, by simp at hf; omega⟩
    simp [headWalk]
  | cons b B ih =>
    intro A fuel steps hl hf
    obtain ⟨f, rfl⟩ : ∃ f, fuel = f + 1 := ⟨fuel - 1, by simp at hf; omega⟩
    by_cases hs : s < (row.node b).scn
    · by_cases hc : (row.node b).isCompact
      · simp [headWalk, hs, hc]
      · have hprev : row.prev b = B.head? := (show Lib.Chain _ _ _ (A ++ b :: B) from hl ▸ h).prv_eq
        have hnext := ih (A ++ [b]) f (steps + 1) (by simp [hl]) (by simp at hf; omega)
        rw [List.getLast?_concat] at hnext
        simp only [headWalk, List.head?_cons, hs, if_true, hc, Bool.false_eq_true, if_false, hprev,
          hnext, List.takeWhile_cons, List.dropWhile_cons, decide_true, List.any_cons, Bool.false_or]
        simp only [List.append_assoc, List.singleton_append, List.length_cons]
        rw [Nat.add_assoc, Nat.add_comm 1]
    · simp [headWalk, hs]

theorem indexWalk_spec (h : Lib.Chain row.prev row.next row.listHead l) (s : Nat) :
    ∀ (fuel : Nat) (A : List Nat) (p : Nat) (B : List Nat), l = A ++ p :: B → A.length < fuel →
      ∃ A₁ A₂, A = A₁ ++ A₂ ∧ (∀ x ∈ A₂, (row.node x).scn < s) ∧
        (∀ y ∈ A₁.getLast?, s ≤ (row.node y).scn) ∧
        indexWalk row s fuel p A.getLast? = .ok (A₂.head?.getD p, A₁.getLast?) := by
  intro fuel
  induction fuel with
  | zero => intro A p B _ hf; omega
  | succ f ih =>
    intro A p B hl hf
    rcases List.eq_nil_or_concat A with rfl | ⟨A', y, rfl⟩
    · exact ⟨[], [], rfl, by simp, by simp, by simp [indexWalk]⟩
    · rw [List.concat_eq_append] at hl hf ⊢
      by_cases hy : (row.node y).scn < s
      · have hl' : l = A' ++ y :: p :: B := by simp [hl]
        have hnext : row.next y = A'.getLast? := (show Lib.Chain _ _ _ (A' ++ y :: p :: B) from hl' ▸ h).nxt_eq
        obtain ⟨A₁, A₂, hA, hlt, hge, hw⟩ := ih A' y (p :: B) hl' (by simp at hf; omega)
        refine ⟨A₁, A₂ ++ [y], by simp [hA], ?_, hge, ?_⟩
        · intro x hx
          rcases List.mem_append.1 hx with hx | hx
          · exact hlt x hx
          · rw [List.mem_singleton.1 hx]
            exact hy
        · simp only [indexWalk, List.getLast?_concat, hy, if_true, hnext, hw]
          cases A₂ <;> rfl
      · refine ⟨A' ++ [y], [], by simp, by simp, ?_, by simp [indexWalk, hy]⟩
        simp only [List.getLast?_concat, Option.mem_def, Option.some.injEq, forall_eq']
        omega

end Walks

/-! ## Linking a node in and out -/

section Links

variable {prv nxt : Nat → Option Nat} {head : Option Nat} {pre post : List Nat} {a : Nat}

theorem chain_link (h : Lib.Chain prv nxt head (pre ++ post)) (ha : a ∉ pre ++ post) :
    Lib.Chain (writeAt (Function.update prv a post.head?) pre.getLast? (some a))
      (writeAt (Function.update nxt a pre.getLast?) post.head? (some a))
      (pre.head?.or (some a)) (pre ++ a :: post) := by
  have hne : ∀ x ∈ pre ++ post, x ≠ a := fun x hx hxa => ha (hxa ▸ hx)
  have hlast : pre.getLast? ≠ some a := fun hl =>
    ha (List.mem_append_left _ (List.mem_of_mem_getLast? hl))
  have hfirst : post.head? ≠ some a := fun hh =>
    ha (List.mem_append_right _ (List.mem_of_mem_head? hh))
  refine h.insert ha ?_ ?_ ?_ ?_ ?_ ?_ rfl
  · intro x hx hxl
    rw [writeAt_apply, if_neg (mt Option.mem_def.2 hxl), Function.update_of_ne (hne x hx)]
  · intro x hx
    rw [writeAt_apply, if_pos (Option.mem_def.1 hx)]
  · rw [writeAt_apply, if_neg hlast, Function.update_self]
  · intro x hx hxf
    rw [writeAt_apply, if_neg (mt Option.mem_def.2 hxf), Function.update_of_ne (hne x hx)]
  · intro x hx
    rw [writeAt_apply, if_pos (Option.mem_def.1 hx)]
  · rw [writeAt_apply, if_neg hfirst, Function.update_self]

theorem chain_unlink (h : Lib.Chain prv nxt head (pre ++ a :: post)) :
    Lib.Chain (writeAt prv pre.getLast? post.head?) (writeAt nxt post.head? pre.getLast?)
      (pre.head?.or post.head?) (pre ++ post) := by
  refine h.erase ?_ ?_ ?_ ?_ rfl
  · intro x _ hxl
    rw [writeAt_apply, if_neg (mt Option.mem_def.2 hxl)]
  · intro x hx
    rw [writeAt_apply, if_pos (Option.mem_def.1 hx)]
  · intro x _ hxf
    rw [writeAt_apply, if_neg (mt Option.mem_def.2 hxf)]
  · intro x hx
    rw [writeAt_apply, if_pos (Option.mem_def.1 hx)]

theorem head_of_link (h : Lib.Chain prv nxt head (pre ++ post)) :
    (if pre.getLast? = none then some a else head) = pre.head?.or (some a) := by
  cases pre with
  | nil => simp
  | cons b pre => simp [h.head_eq]

end Links

/-! ## `insert_trans_node` -/

section Insert

variable {row : RowChain} {l pre post : List Nat} {q : Int} {a fuel : Nat} {allocOk : Bool}

theorem scn_le_of_mem_dropWhile {node : Nat → ChainNode}
    (hs : l.Pairwise fun x y => (node y).scn ≤ (node x).scn) (s : Nat) :
    ∀ x ∈ l.dropWhile (fun x => s < (node x).scn), (node x).scn ≤ s := by
  induction l with
  | nil => simp
  | cons b l ih =>
    intro x hx
    obtain ⟨hb, hl⟩ := List.pairwise_cons.1 hs
    by_cases hsb : s < (node b).scn
    · simp only [List.dropWhile_cons, hsb, decide_true, if_true] at hx
      exact ih hl x hx
    · simp only [List.dropWhile_cons, hsb, decide_false, Bool.false_eq_true, if_false] at hx
      rcases List.mem_cons.1 hx with rfl | hx
      · omega
      · exact le_trans (hb x hx) (by omega)

theorem insertByHeadWalk_of_error {e : ObErr} (h : (insertByHeadWalk row q a allocOk fuel).2 = .error e) :
    (insertByHeadWalk row q a allocOk fuel).1 = row := by
  rcases hw : headWalk row (row.node a).scn fuel row.listHead none 0 with e' | ⟨tmp, nextNode, steps⟩
  · simp [insertByHeadWalk, hw]
  · simp [insertByHeadWalk, hw] at h

theorem insertByHeadWalk_wellFormed (hwf : WellFormed row l) (ha : a ∉ l)
    (hca : (row.node a).isCompact = false) (hfuel : l.length < fuel) {r : Option Nat}
    (hok : (insertByHeadWalk row q a allocOk fuel).2 = .ok r) :
    WellFormed (insertByHeadWalk row q a allocOk fuel).1
      (l.takeWhile (fun x => (row.node a).scn < (row.node x).scn) ++
        a :: l.dropWhile fun x => (row.node a).scn < (row.node x).scn) := by
  have hpre : ∀ x ∈ l.takeWhile (fun x => (row.node a).scn < (row.node x).scn),
      (row.node a).scn ≤ (row.node x).scn := fun x hx => by
    have := List.mem_takeWhile_imp hx
    simp only [decide_eq_true_eq] at this
    omega
  have hpost := scn_le_of_mem_dropWhile hwf.sorted (row.node a).scn
  have hwalk := headWalk_spec hwf.chain (row.node a).scn l [] fuel 0 (by simp) hfuel
  rw [← hwf.chain.head_eq, List.getLast?_nil, List.nil_append, Nat.zero_add] at hwalk
  have hl : l = l.takeWhile (fun x => (row.node a).scn < (row.node x).scn) ++
      l.dropWhile fun x => (row.node a).scn < (row.node x).scn := List.takeWhile_append_dropWhile.symm
  generalize (l.takeWhile fun x => (row.node a).scn < (row.node x).scn) = T at hpre hwalk hl ⊢
  generalize (l.dropWhile fun x => (row.node a).scn < (row.node x).scn) = D at hpost hwalk hl ⊢
  subst hl
  split_ifs at hwalk with hany
  · simp [insertByHeadWalk, hwalk] at hok
  · simp only [insertByHeadWalk, hwalk]
    refine hwf.insert ha ?_ (fun _ _ => rfl) hpre hpost ?_ (by simp [hca])
    · dsimp only
      rw [head_of_link hwf.chain]
      exact chain_link hwf.chain ha
    · dsimp only
      have hold : IndexIn row.index (T ++ a :: D) := hwf.index_mem.grow
      split
      · refine IndexIn.set ?_ (by simp)
        cases hri : row.index with
        | some slots =>
          rw [hri] at hold
          exact hold
        | none => cases allocOk <;> simp
      · exact hold

theorem scn_le_head {node : Nat → ChainNode} (hs : l.Pairwise fun x y => (node y).scn ≤ (node x).scn) :
    ∀ y ∈ l.head?, ∀ x ∈ l, (node x).scn ≤ (node y).scn := by
  cases l with
  | nil => simp
  | cons b l =>
    intro y hy x hx
    cases hy
    rcases List.mem_cons.1 hx with rfl | hx
    · exact le_rfl
    · exact (List.pairwise_cons.1 hs).1 x hx

theorem scn_last_le {node : Nat → ChainNode} (hs : l.Pairwise fun x y => (node y).scn ≤ (node x).scn) :
    ∀ y ∈ l.getLast?, ∀ x ∈ l, (node y).scn ≤ (node x).scn := by
  rcases List.eq_nil_or_concat l with rfl | ⟨l₀, b, rfl⟩
  · simp
  · intro y hy x hx
    rw [List.concat_eq_append, List.getLast?_concat] at hy
    cases hy
    rw [List.concat_eq_append] at hs hx
    rcases List.mem_append.1 hx with hx | hx
    · exact (List.pairwise_append.1 hs).2.2 x hx b (by simp)
    · rw [List.mem_singleton.1 hx]

theorem insertByIndex_of_error {i : Nat} {e : ObErr} (h : (insertByIndex row q i a fuel).2 = .error e) :
    (insertByIndex row q i a fuel).1 = row := by
  by_cases hab : row.aborted i
  · simp [insertByIndex, hab]
  · rcases hw : indexWalk row (row.node a).scn fuel i (row.next i) with e' | ⟨prev, next⟩
    · simp [insertByIndex, hab, hw]
    · by_cases hc : (row.node a).scn < (row.node prev).scn ∨
          (row.node a).transVersion < (row.node prev).transVersion
      · simp [insertByIndex, hab, hw, hc]
      · simp [insertByIndex, hab, hw, hc] at h

theorem indexWalk_split (hwf : WellFormed row l) {i : Nat} (hi : i ∈ l) (hfuel : l.length < fuel)
    (s : Nat) :
    ∃ pre post p, l = pre ++ post ∧ post.head? = some p ∧ (p = i ∨ (row.node p).scn < s) ∧
      (∀ x ∈ pre, s ≤ (row.node x).scn) ∧ (∀ x ∈ post, (row.node x).scn ≤ (row.node p).scn) ∧
      indexWalk row s fuel i (row.next i) = .ok (p, pre.getLast?) := by
  obtain ⟨A, B, hl⟩ := List.append_of_mem hi
  have hnext : row.next i = A.getLast? := (show Lib.Chain _ _ _ (A ++ i :: B) from hl ▸ hwf.chain).nxt_eq
  obtain ⟨A₁, A₂, rfl, hlt, hge, hwalk⟩ := indexWalk_spec hwf.chain s fuel A i B hl
    (by rw [hl] at hfuel; simp at hfuel; omega)
  have hl' : l = A₁ ++ (A₂ ++ i :: B) := by simp [hl]
  have hhead : (A₂ ++ i :: B).head? = some (A₂.head?.getD i) := by cases A₂ <;> rfl
  have hsorted := hwf.sorted
  rw [hl'] at hsorted
  refine ⟨A₁, A₂ ++ i :: B, A₂.head?.getD i, hl', hhead, ?_, ?_,
    scn_le_head (List.pairwise_append.1 hsorted).2.1 _ hhead, by rw [hnext]; exact hwalk⟩
  · cases A₂ with
    | nil => exact .inl rfl
    | cons y A₂ => exact .inr (hlt y (by simp))
  · intro x hx
    obtain ⟨y, hy⟩ := Option.isSome_iff_exists.1 (List.getLast?_isSome.2 (List.ne_nil_of_mem hx))
    exact le_trans (hge y hy) (scn_last_le (List.pairwise_append.1 hsorted).1 y hy x hx)

theorem insertByIndex_wellFormed (hwf : WellFormed row l) (ha : a ∉ l)
    (hca : (row.node a).isCompact = false) {i : Nat} (hi : i ∈ l) (hfuel : l.length < fuel)
    {r : Option Nat} (hok : (insertByIndex row q i a fuel).2 = .ok r) :
    ∃ pre post, l = pre ++ post ∧ (∀ x ∈ pre, (row.node a).scn ≤ (row.node x).scn) ∧
      (∀ x ∈ post, (row.node x).scn ≤ (row.node a).scn) ∧
      WellFormed (insertByIndex row q i a fuel).1 (pre ++ a :: post) := by
  obtain ⟨pre, post, p, hl, hhead, -, hpre, hpost, hwalk⟩ := indexWalk_split hwf hi hfuel (row.node a).scn
  have hab : row.aborted i = false := by
    cases hb : row.aborted i
    · rfl
    · simp [insertByIndex, hb] at hok
  have hcheck : ¬((row.node a).scn < (row.node p).scn ∨
      (row.node a).transVersion < (row.node p).transVersion) := by
    intro hc
    simp [insertByIndex, hab, hwalk, hc] at hok
  have hpost' : ∀ x ∈ post, (row.node x).scn ≤ (row.node a).scn := fun x hx =>
    le_trans (hpost x hx) (by omega)
  refine ⟨pre, post, hl, hpre, hpost', ?_⟩
  subst hl
  simp only [insertByIndex, hab, hwalk, hcheck, Bool.false_eq_true, if_false]
  refine hwf.insert ha ?_ (fun _ _ => rfl) hpre hpost' ?_ (by simp [hca])
  · have hlink := chain_link hwf.chain ha
    rw [hhead] at hlink
    have hlisthead : (if some p = row.listHead then some a else row.listHead) =
        pre.head?.or (some a) := by
      rw [hwf.chain.head_eq]
      cases pre with
      | nil => simp [hhead]
      | cons b pre =>
        have hb : b ≠ p := fun hb => (List.nodup_append.1 hwf.chain.nodup).2.2 b
          (by simp) _ (List.mem_of_mem_head? hhead) hb
        simp [Ne.symm hb]
    exact hlisthead ▸ hlink
  · exact hwf.index_mem.grow.set (by simp)

theorem insertByIndex_ok (hwf : WellFormed row l) {i : Nat} (hi : i ∈ l)
    (hab : row.aborted i = false) (hfuel : l.length < fuel)
    (hscn : (row.node i).scn ≤ (row.node a).scn)
    (htv : ∀ x ∈ l, (row.node x).transVersion ≤ (row.node a).transVersion) :
    ∃ r, (insertByIndex row q i a fuel).2 = .ok r := by
  obtain ⟨pre, post, p, hl, hhead, hp, -, -, hwalk⟩ := indexWalk_split hwf hi hfuel (row.node a).scn
  have hpl : p ∈ l := hl ▸ List.mem_append_right _ (List.mem_of_mem_head? hhead)
  have hcheck : ¬((row.node a).scn < (row.node p).scn ∨
      (row.node a).transVersion < (row.node p).transVersion) := by
    rintro (h | h)
    · rcases hp with hp | hp
      · rw [hp] at h
        omega
      · omega
    · have := htv p hpl
      omega
  exact ⟨pre.getLast?, by simp [insertByIndex, hab, hwalk, hcheck]⟩

theorem insertByHeadWalk_ok (hwf : WellFormed row l) (hfuel : l.length < fuel)
    (hcompact : ∀ x ∈ l, (row.node x).isCompact = true → (row.node x).scn ≤ (row.node a).scn) :
    ∃ r, (insertByHeadWalk row q a allocOk fuel).2 = .ok r := by
  have hwalk := headWalk_spec hwf.chain (row.node a).scn l [] fuel 0 (by simp) hfuel
  rw [← hwf.chain.head_eq, List.getLast?_nil, List.nil_append, Nat.zero_add] at hwalk
  have hany : ¬((l.takeWhile fun x => (row.node a).scn < (row.node x).scn).any
      fun x => (row.node x).isCompact) = true := by
    simp only [List.any_eq_true, not_exists, not_and]
    intro x hx hc
    have hnewer := List.mem_takeWhile_imp hx
    have hle := hcompact x ((List.takeWhile_sublist _).subset hx) hc
    simp only [decide_eq_true_eq] at hnewer
    omega
  rw [if_neg hany] at hwalk
  simp only [insertByHeadWalk, hwalk]
  exact ⟨_, rfl⟩

/-- What an insertion of the node `a` leaves of a well-formed chain with the nodes `l`: on success a
well-formed chain with `a` linked in, on an error a well-formed chain with the nodes `l`. -/
def InsertsInto (l : List Nat) (a : Nat) (res : RowChain × Except ObErr (Option Nat)) : Prop :=
  (∀ r, res.2 = .ok r → ∃ pre post, l = pre ++ post ∧ WellFormed res.1 (pre ++ a :: post)) ∧
    ∀ e, res.2 = .error e → WellFormed res.1 l

theorem insertByHeadWalk_insertsInto (hwf : WellFormed row l) (ha : a ∉ l)
    (hca : (row.node a).isCompact = false) (hfuel : l.length < fuel) :
    InsertsInto l a (insertByHeadWalk row q a allocOk fuel) := by
  refine ⟨fun r hok => ⟨_, _, List.takeWhile_append_dropWhile.symm,
    insertByHeadWalk_wellFormed hwf ha hca hfuel hok⟩, fun e he => ?_⟩
  rw [insertByHeadWalk_of_error he]
  exact hwf

theorem insertByIndex_insertsInto (hwf : WellFormed row l) (ha : a ∉ l)
    (hca : (row.node a).isCompact = false) {i : Nat} (hi : i ∈ l) (hfuel : l.length < fuel) :
    InsertsInto l a (insertByIndex row q i a fuel) := by
  refine ⟨fun r hok => ?_, fun e he => ?_⟩
  · obtain ⟨pre, post, hl, -, -, h⟩ := insertByIndex_wellFormed hwf ha hca hi hfuel hok
    exact ⟨pre, post, hl, h⟩
  · rw [insertByIndex_of_error he]
    exact hwf

theorem SlotsSat.indexNode {P : Nat → Nat → Prop} (h : SlotsSat row.index P) {i : Nat}
    (hi : row.indexNode q = some i) : P q.toNat i := by
  obtain ⟨slots, hs, hget⟩ := Option.bind_eq_some_iff.1 hi
  unfold getIndexNode at hget
  split_ifs at hget with hq
  simp only [isValidQueueIndex, Bool.and_eq_true, decide_eq_true_eq] at hq
  exact h slots hs q.toNat (by unfold replayTaskQueueSize at hq ⊢; omega) i hget

theorem insertPastCheck_cases (row : RowChain) (q : Int) (a : Nat) (allocOk : Bool) (fuel : Nat) :
    (∃ index : Option (Nat → Option Nat), (∀ P, SlotsSat row.index P → SlotsSat index P) ∧
      insertPastCheck row q a allocOk fuel = insertByHeadWalk { row with index := index } q a allocOk fuel) ∨
    (∃ i, isValidQueueIndex q = true ∧ row.indexNode q = some i ∧ row.aborted i = false ∧
      insertPastCheck row q a allocOk fuel = insertByIndex row q i a fuel) := by
  by_cases hq : isValidQueueIndex q = true
  · rcases hi : row.indexNode q with _ | i
    · refine .inl ⟨row.index, fun _ h => h, ?_⟩
      simp [insertPastCheck, hq, hi]
    · cases hab : row.aborted i
      · exact .inr ⟨i, hq, rfl, hab, by simp [insertPastCheck, hq, hi, hab]⟩
      · refine .inl ⟨row.index.map (setIndexNode · q none), fun _ h => h.set (by simp), ?_⟩
        simp [insertPastCheck, hq, hi, hab]
  · have hnone : ∀ index : Option (Nat → Option Nat), index.bind (getIndexNode · q) = none := by
      intro index
      cases index <;> simp [getIndexNode, hq]
    obtain ⟨prev, next, aborted, node, listHead, latest, index, cnt⟩ := row
    cases index with
    | none =>
      refine .inl ⟨none, fun _ _ => slotsSat_none, ?_⟩
      simp [insertPastCheck, indexNode, hnone]
    | some slots =>
      refine .inl ⟨some reset, fun _ _ => slotsSat_reset, ?_⟩
      simp [insertPastCheck, hq, indexNode, hnone]

theorem insertTransNode_insertsInto (hwf : WellFormed row l) (ha : a ∉ l)
    (hca : (row.node a).isCompact = false) (hfuel : l.length < fuel) :
    InsertsInto l a (insertTransNode row q a allocOk fuel) := by
  unfold insertTransNode
  split_ifs with hc
  · exact ⟨fun r h => by simp at h, fun _ _ => hwf⟩
  · rcases insertPastCheck_cases row q a allocOk fuel with ⟨index, hidx, heq⟩ | ⟨i, -, hi, -, heq⟩
    · rw [heq]
      exact insertByHeadWalk_insertsInto (hwf.of_index (hidx _ hwf.index_mem)) ha hca hfuel
    · rw [heq]
      exact insertByIndex_insertsInto hwf ha hca (SlotsSat.indexNode hwf.index_mem hi) hfuel

end Insert


/-! ## Unlinking, undo and the compact node -/

section Unlink

variable {row : RowChain} {pre post : List Nat} {a : Nat}

theorem unlinkTransNode_wellFormed (hwf : WellFormed row (pre ++ a :: post))
    (hca : (row.node a).isCompact = false) :
    (unlinkTransNode row a).2 = .ok () ∧ WellFormed (unlinkTransNode row a).1 (pre ++ post) := by
  have hprev : row.prev a = post.head? := hwf.chain.prv_eq
  have hnext : row.next a = pre.getLast? := hwf.chain.nxt_eq
  have hlink := chain_unlink hwf.chain
  have hslots := hwf.index_mem.repoint (p := row.prev a)
    fun x hx => List.mem_append_right _ (List.mem_of_mem_head? (hprev ▸ hx))
  cases pre with
  | nil =>
    have hhead : row.listHead = some a := by simp [hwf.chain.head_eq]
    simp only [unlinkTransNode, hhead, if_true]
    refine ⟨by trivial, hwf.erase ?_ (fun _ _ => rfl) hslots (by simp [hca])⟩
    simpa [hprev, hnext] using hlink
  | cons b pre =>
    have hba : b ≠ a := fun h => (List.nodup_cons.1 hwf.chain.nodup).1 (h ▸ by simp)
    have hhead : row.listHead = some b := by simp [hwf.chain.head_eq]
    have hnn : row.next a ≠ none := by
      rw [hnext]
      simp
    simp only [unlinkTransNode, hhead, Option.some.injEq, Ne.symm hba, if_false, hnn, reduceCtorEq,
      or_self]
    refine ⟨by trivial, hwf.erase ?_ (fun _ _ => rfl) hslots (by simp [hca])⟩
    rw [hnext, hprev]
    simpa using hlink

theorem mvccUndo_wellFormed (hwf : WellFormed row (a :: post)) (hca : (row.node a).isCompact = false)
    (hslots : ∀ slots, row.index = some slots → ∀ i < replayTaskQueueSize, slots i ≠ some a) :
    WellFormed (mvccUndo row) post := by
  have hprev : row.prev a = post.head? := (show Lib.Chain _ _ _ ([] ++ a :: post) from hwf.chain).prv_eq
  have hhead : row.listHead = some a := by simp [hwf.chain.head_eq]
  have hlink := chain_unlink (show Lib.Chain _ _ _ ([] ++ a :: post) from hwf.chain)
  simp only [mvccUndo, hhead]
  refine (show WellFormed row ([] ++ a :: post) from hwf).erase ?_ (fun _ _ => rfl) ?_ (by simp [hca])
  · simpa [hprev] using hlink
  · intro slots hs i hi x hx
    have hxa : x ≠ a := fun hxa => hslots slots hs i hi (hxa ▸ hx)
    simpa [hxa] using hwf.index_mem slots hs i hi x hx

theorem insertCompactNode_wellFormed {tx start : Nat} (hwf : WellFormed row (pre ++ start :: post))
    (htx : tx ∉ pre ++ start :: post) (hc : (row.node tx).isCompact = true)
    (hscn : (row.node tx).scn = (row.node start).scn) :
    WellFormed (insertCompactNode row tx start) (pre ++ tx :: start :: post) := by
  have hnext : row.next start = pre.getLast? := hwf.chain.nxt_eq
  have hsorted := List.pairwise_append.1 hwf.sorted
  refine hwf.insert htx ?_ (fun _ _ => rfl) ?_ ?_ hwf.index_mem.grow (by simp [insertCompactNode, hc])
  · have hlink := chain_link hwf.chain htx
    simp only [List.head?_cons] at hlink
    simp only [insertCompactNode, hnext, head_of_link hwf.chain]
    exact hlink
  · intro x hx
    show (row.node tx).scn ≤ _
    rw [hscn]
    exact hsorted.2.2 x hx start (by simp)
  · intro x hx
    show _ ≤ (row.node tx).scn
    rw [hscn]
    exact scn_le_head hsorted.2.1 start rfl x hx

end Unlink

/-! ## What the operations leave alone, and the slots they write -/

section Frames

variable {row : RowChain} {q : Int} {a fuel : Nat} {allocOk : Bool} {P : Nat → Nat → Prop}

theorem insertByHeadWalk_frame :
    (insertByHeadWalk row q a allocOk fuel).1.node = row.node ∧
      (insertByHeadWalk row q a allocOk fuel).1.latestCompactNode = row.latestCompactNode := by
  rcases hw : headWalk row (row.node a).scn fuel row.listHead none 0 with e | ⟨tmp, nextNode, steps⟩ <;>
    simp [insertByHeadWalk, hw]

theorem insertByIndex_frame {i : Nat} :
    (insertByIndex row q i a fuel).1.node = row.node ∧
      (insertByIndex row q i a fuel).1.latestCompactNode = row.latestCompactNode := by
  unfold insertByIndex
  split
  · simp
  · split
    · simp
    · split <;> simp

theorem insertByHeadWalk_slotsSat (h : SlotsSat row.index P) (ha : isValidQueueIndex q → P q.toNat a) :
    SlotsSat (insertByHeadWalk row q a allocOk fuel).1.index P := by
  rcases hw : headWalk row (row.node a).scn fuel row.listHead none 0 with e | ⟨tmp, nextNode, steps⟩
  · simpa [insertByHeadWalk, hw] using h
  · simp only [insertByHeadWalk, hw]
    split
    · refine SlotsSat.set ?_ fun hq x hx => Option.some.inj hx ▸ ha hq
      cases hri : row.index with
      | some slots =>
        rw [hri] at h
        exact h
      | none => cases allocOk <;> simp
    · exact h

theorem insertByIndex_slotsSat {i : Nat} (h : SlotsSat row.index P)
    (ha : isValidQueueIndex q → P q.toNat a) : SlotsSat (insertByIndex row q i a fuel).1.index P := by
  unfold insertByIndex
  split
  · exact h
  · split
    · exact h
    · split
      · exact h
      · exact SlotsSat.set h fun hq x hx => Option.some.inj hx ▸ ha hq

theorem insertTransNode_frame :
    (insertTransNode row q a allocOk fuel).1.node = row.node ∧
      (insertTransNode row q a allocOk fuel).1.latestCompactNode = row.latestCompactNode := by
  unfold insertTransNode
  split_ifs
  · exact ⟨rfl, rfl⟩
  · rcases insertPastCheck_cases row q a allocOk fuel with ⟨index, -, heq⟩ | ⟨i, -, -, -, heq⟩
    · rw [heq]
      exact insertByHeadWalk_frame
    · rw [heq]
      exact insertByIndex_frame

theorem insertTransNode_slotsSat (h : SlotsSat row.index P) (ha : isValidQueueIndex q → P q.toNat a) :
    SlotsSat (insertTransNode row q a allocOk fuel).1.index P := by
  unfold insertTransNode
  split_ifs
  · exact h
  · rcases insertPastCheck_cases row q a allocOk fuel with ⟨index, hidx, heq⟩ | ⟨i, -, -, -, heq⟩
    · rw [heq]
      exact insertByHeadWalk_slotsSat (hidx P h) ha
    · rw [heq]
      exact insertByIndex_slotsSat h ha

theorem unlinkTransNode_frame :
    (unlinkTransNode row a).1.node = row.node ∧
      (unlinkTransNode row a).1.latestCompactNode = row.latestCompactNode := by
  simp only [unlinkTransNode]
  split <;> simp

theorem unlinkTransNode_slotsSat (h : SlotsSat row.index P)
    (hp : ∀ i, P i a → ∀ x ∈ row.prev a, P i x) : SlotsSat (unlinkTransNode row a).1.index P := by
  simp only [unlinkTransNode]
  split
  · exact h
  · exact h.repoint hp fun _ _ hx _ => hx

end Frames

/-! ## The row compactor -/

section Compact

variable {row : RowChain} {l : List Nat}

theorem findStartPos_mem_of_none (hwf : WellFormed row l) (hlatest : row.latestCompactNode = none)
    (snapshot : Nat) : ∀ fuel (A B : List Nat), l = A ++ B → ∀ st,
      findStartPos row snapshot fuel B.head? = some st → st ∈ B := by
  intro fuel
  induction fuel with
  | zero => intro A B _ st h; simp [findStartPos] at h
  | succ f ih =>
    intro A B hl st h
    cases B with
    | nil => simp [findStartPos] at h
    | cons b B =>
      have hprev : row.prev b = B.head? :=
        (show Lib.Chain _ _ _ (A ++ b :: B) from hl ▸ hwf.chain).prv_eq
      simp only [findStartPos, List.head?_cons, hlatest] at h
      split_ifs at h
      · rw [hprev] at h
        exact List.mem_cons_of_mem _ (ih (A ++ [b]) B (by simp [hl]) st h)
      · obtain rfl := Option.some.inj h
        simp

theorem findStartPos_of_some (hwf : WellFormed row l) {c : Nat} (hlatest : row.latestCompactNode = some c)
    (snapshot : Nat) : ∀ fuel (A : List Nat) (x : Nat) (B : List Nat), l = A ++ x :: B → ∀ st,
      findStartPos row snapshot fuel (some x) = some st →
        st ∈ l ∧ (row.node x).scn ≤ (row.node st).scn := by
  intro fuel
  induction fuel with
  | zero => intro A x B _ st h; simp [findStartPos] at h
  | succ f ih =>
    intro A x B hl st h
    have hnext : row.next x = A.getLast? :=
      (show Lib.Chain _ _ _ (A ++ x :: B) from hl ▸ hwf.chain).nxt_eq
    have hx : x ∈ l := by simp [hl]
    simp only [findStartPos, hlatest, hnext] at h
    rcases List.eq_nil_or_concat A with rfl | ⟨A', n, rfl⟩
    · obtain rfl := Option.some.inj h
      exact ⟨hx, le_rfl⟩
    · rw [List.concat_eq_append, List.getLast?_concat] at h
      dsimp only at h
      split_ifs at h
      · have hl' : l = A' ++ n :: x :: B := by simp [hl]
        obtain ⟨hst, hle⟩ := ih A' n (x :: B) hl' st h
        have hsorted := hwf.sorted
        rw [hl'] at hsorted
        have hxn := (List.pairwise_cons.1 (List.pairwise_append.1 hsorted).2.1).1 x (by simp)
        exact ⟨hst, le_trans hxn hle⟩
      · obtain rfl := Option.some.inj h
        exact ⟨hx, le_rfl⟩

theorem compact_cases (row : RowChain) (snapshot tx : Nat) (built : Bool) (fuel : Nat) :
    compact row snapshot tx built fuel = row ∨
      ∃ start, findStartPos row snapshot fuel (row.latestCompactNode.or row.listHead) = some start ∧
        compact row snapshot tx built fuel =
          insertCompactNode
            { row with
              node := Function.update row.node tx { row.node start with isCompact := true }
              aborted := Function.update row.aborted tx (row.aborted start) } tx start := by
  unfold compact
  split_ifs
  · exact .inl rfl
  · exact .inl rfl
  · rcases findStartPos row snapshot fuel (row.latestCompactNode.or row.listHead) with _ | start
    · exact .inl rfl
    · exact .inr ⟨start, rfl, rfl⟩
  · rcases findStartPos row snapshot fuel (row.latestCompactNode.or row.listHead) with _ | start <;>
      exact .inl rfl

end Compact

end RowChain

end OceanBase.Memtable
