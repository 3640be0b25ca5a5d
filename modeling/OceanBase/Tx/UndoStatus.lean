import OceanBase.Define
import OceanBase.Lib.Run

/-! The undo status of a transaction (`ob_tx_data_define.cpp`, `ob_trans_define.h`): the
rolled-back ranges of sequence numbers, kept as `ObUndoAction`s in a list of nodes of at most
`TX_DATA_UNDO_ACT_MAX_NUM_PER_NODE` actions each, newest node first. `add_undo_action` first
merges the new action with the newest actions it contains or is contained in, dropping them, and
then appends it. `merge` only succeeds when the new action contains the old one, and its failure
is ignored, so an old action that strictly contains the new one is dropped and its range is lost. -/
namespace OceanBase

namespace Transaction

structure ObUndoAction where
  undoFrom : Int
  undoTo : Int
  deriving DecidableEq, Repr

namespace ObUndoAction

def isValid (a : ObUndoAction) : Bool := decide (0 < a.undoFrom ∧ 0 < a.undoTo ∧ a.undoTo < a.undoFrom)

def isContainSeq (a : ObUndoAction) (seqNo : Int) : Bool := decide (a.undoTo < seqNo ∧ seqNo ≤ a.undoFrom)

def isContain (a other : ObUndoAction) : Bool := decide (other.undoFrom ≤ a.undoFrom ∧ a.undoTo ≤ other.undoTo)

def merge (a other : ObUndoAction) : Except ObErr ObUndoAction :=
  if !a.isContain other then .error .invalidArgument
  else .ok ⟨max a.undoFrom other.undoFrom,min a.undoTo other.undoTo⟩

theorem isContainSeq_of_isContain {a b : ObUndoAction} (h : a.isContain b = true) {s : Int}
    (hs : b.isContainSeq s = true) : a.isContainSeq s = true := by
  simp only [isContain,isContainSeq,decide_eq_true_eq] at h hs ⊢
  omega

theorem merge_of_isContain {a b : ObUndoAction} (h : a.isContain b = true) : a.merge b = .ok a := by
  rw [merge,if_neg (by simp [h])]
  simp only [isContain,decide_eq_true_eq] at h
  obtain ⟨af,at'⟩ := a
  simp only at h ⊢
  congr 2
  · omega
  · omega

end ObUndoAction
end Transaction

namespace Storage

open Transaction

def txDataSliceSize : Nat := 128
def undoActionSize : Nat := 16
def txDataUndoActMaxNumPerNode : Nat := txDataSliceSize / undoActionSize - 1

/-- `ObUndoStatusNode`: `actions` lists `undo_actions_[size_ - 1]` down to `undo_actions_[0]`,
the last added first; `size_` is its length. -/
structure ObUndoStatusNode where
  actions : List ObUndoAction
  deriving DecidableEq, Repr

/-- `ObUndoStatusList`: the nodes from `head_` on, and the `int32_t` `undo_node_cnt_`. -/
structure ObUndoStatusList where
  head : List ObUndoStatusNode
  undoNodeCnt : Int32
  deriving DecidableEq, Repr

namespace ObUndoStatusList

/-- `is_contain_(seq_no)`: some action of some node contains it. `is_contain(seq_no, state)`
only adds a lock. -/
def isContain_ (l : ObUndoStatusList) (seqNo : Int) : Bool :=
  l.head.any fun n => n.actions.any fun a => a.isContainSeq seqNo

def allActions (l : ObUndoStatusList) : List ObUndoAction := l.head.flatMap (·.actions)

theorem isContain_iff_allActions (l : ObUndoStatusList) (seqNo : Int) :
    l.isContain_ seqNo = true ↔ ∃ a ∈ l.allActions, a.isContainSeq seqNo = true := by
  simp only [isContain_,allActions,List.any_eq_true,List.mem_flatMap]
  constructor
  · rintro ⟨n,hn,a,ha,hs⟩
    exact ⟨a,⟨n,hn,ha⟩,hs⟩
  · rintro ⟨a,⟨n,hn,ha⟩,hs⟩
    exact ⟨n,hn,a,ha,hs⟩

end ObUndoStatusList

namespace ObTxData

/-- The inner loop of `merge_undo_actions_` on one node: from the newest action back, drop the
actions that contain or are contained in `new`. `merge`'s error is ignored, so `new` only takes a
merge that succeeded. -/
def mergeNode (new : ObUndoAction) : List ObUndoAction → ObUndoAction × List ObUndoAction
  | [] => (new,[])
  | a :: as =>
    if new.isContain a || a.isContain new then
      let new := match new.merge a with
        | .ok m => m
        | .error _ => new
      mergeNode new as
    else (new,a :: as)

/-- `merge_undo_actions_`: the inner loop on the head node; a node left empty is freed and the
loop goes on with the next one. Returns the code, the new action, `undo_node_cnt_` and the
nodes from the new head on. -/
def mergeUndoActions_ (new : ObUndoAction) (cnt : Int32) :
    List ObUndoStatusNode → Except ObErr Unit × ObUndoAction × Int32 × List ObUndoStatusNode
  | [] => (.ok (),new,cnt,[])
  | n :: ns =>
    let r := mergeNode new n.actions
    if r.2 = [] then
      if cnt ≤ 0 then (.error .errUnexpected,r.1,cnt,ns)
      else mergeUndoActions_ r.1 (cnt - 1) ns
    else (.ok (),r.1,cnt,⟨r.2⟩ :: ns)

/-- `add_undo_action(tx_table, new_undo_action, undo_node)` on `undo_status_list_`: merge, then
append the action to the head node, or to a new node when there is none or it is full.
`allocOk` says whether a node is at hand (`undo_node`, or one `alloc_undo_status_node`
returns). The code of `merge_undo_actions_` is ignored, as the source ignores it. -/
def addUndoAction (l : ObUndoStatusList) (new : ObUndoAction) (allocOk : Bool) :
    Except ObErr Unit × ObUndoStatusList :=
  let r := mergeUndoActions_ new l.undoNodeCnt l.head
  let new := r.2.1
  let cnt := r.2.2.1
  match r.2.2.2 with
  | n :: ns =>
    if n.actions.length < txDataUndoActMaxNumPerNode then (.ok (),⟨⟨new :: n.actions⟩ :: ns,cnt⟩)
    else if allocOk then (.ok (),⟨⟨[new]⟩ :: n :: ns,cnt + 1⟩)
    else (.error .allocateMemoryFailed,⟨n :: ns,cnt⟩)
  | [] => if allocOk then (.ok (),⟨[⟨[new]⟩],cnt + 1⟩) else (.error .allocateMemoryFailed,⟨[],cnt⟩)

/-! ## A range that contains the new one is lost -/

/-- After rolling back `(1, 10]` and then `(3, 5]`, sequence number 8 is no longer reported as
rolled back: `(1, 10]` strictly contains `(3, 5]`, so `merge` refuses it, and the loop drops it
all the same. -/
theorem addUndoAction_inner_forgets :
    (addUndoAction ⟨[],0⟩ ⟨10,1⟩ true).2.isContain_ 8 = true ∧
      (addUndoAction (addUndoAction ⟨[],0⟩ ⟨10,1⟩ true).2 ⟨5,3⟩ true).2.isContain_ 8 = false ∧
      (addUndoAction (addUndoAction ⟨[],0⟩ ⟨10,1⟩ true).2 ⟨5,3⟩ true).2 = ⟨[⟨[⟨5,3⟩]⟩],1⟩ := by
  decide

/-! ## What `add_undo_action` does to the list -/

def Nested (new a : ObUndoAction) : Prop := new.isContain a = true ∨ a.isContain new = true

theorem merge_or_self (new a : ObUndoAction) :
    (match new.merge a with
      | .ok m => m
      | .error _ => new) = new := by
  cases h : new.isContain a
  · have : new.merge a = .error .invalidArgument := by simp [ObUndoAction.merge,h]
    rw [this]
  · rw [ObUndoAction.merge_of_isContain h]

theorem mergeNode_spec (new : ObUndoAction) :
    ∀ as : List ObUndoAction, ∃ k, mergeNode new as = (new,as.drop k) ∧ ∀ a ∈ as.take k, Nested new a
  | [] => ⟨0,rfl,by simp⟩
  | a :: as => by
    by_cases h : (new.isContain a || a.isContain new) = true
    · obtain ⟨k,hk,hnested⟩ := mergeNode_spec new as
      refine ⟨k + 1,?_,?_⟩
      · rw [mergeNode,if_pos h,merge_or_self,hk]
        rfl
      · intro b hb
        rcases List.mem_cons.mp (by simpa using hb) with rfl | hb
        · simpa [Nested] using h
        · exact hnested b hb
    · refine ⟨0,?_,by simp⟩
      rw [mergeNode,if_neg h]
      rfl

/-- The nodes of a well-formed list: each holds between 1 and
`TX_DATA_UNDO_ACT_MAX_NUM_PER_NODE` actions. -/
def NodesOk (nodes : List ObUndoStatusNode) : Prop :=
  ∀ n ∈ nodes, 0 < n.actions.length ∧ n.actions.length ≤ txDataUndoActMaxNumPerNode

theorem cnt_not_le_zero {c : Int32} {n : Nat} (h : c.toInt = n + 1) : ¬ c ≤ 0 := by
  rw [Int32.le_iff_toInt_le,h,Int32.toInt_zero]
  omega

theorem cnt_sub_one {c : Int32} {n : Nat} (h : c.toInt = n + 1) : (c - 1).toInt = n := by
  have hlt := Int32.toInt_lt c
  rw [Int32.toInt_sub,h,Int32.toInt_one,add_sub_cancel_right]
  apply Int.bmod_eq_of_le <;> omega

theorem cnt_add_one {c : Int32} {n : Nat} (h : c.toInt = n) (hn : n + 1 < 2 ^ 31) :
    (c + 1).toInt = n + 1 := by
  rw [Int32.toInt_add,h,Int32.toInt_one]
  apply Int.bmod_eq_of_le <;> omega

theorem mergeUndoActions_spec (new : ObUndoAction) :
    ∀ (nodes : List ObUndoStatusNode) (cnt : Int32), cnt.toInt = nodes.length → NodesOk nodes →
      ∃ removed cnt' nodes', mergeUndoActions_ new cnt nodes = (.ok (),new,cnt',nodes') ∧
        cnt'.toInt = nodes'.length ∧ nodes'.length ≤ nodes.length ∧ NodesOk nodes' ∧
        nodes.flatMap (·.actions) = removed ++ nodes'.flatMap (·.actions) ∧
        ∀ a ∈ removed, Nested new a
  | [], cnt, hcnt, _ => ⟨[],cnt,[],rfl,hcnt,le_rfl,by simp [NodesOk],rfl,by simp⟩
  | n :: ns, cnt, hcnt, hok => by
    obtain ⟨k,hk,hnested⟩ := mergeNode_spec new n.actions
    have hn := hok n (by simp)
    have hns : NodesOk ns := fun m hm => hok m (by simp [hm])
    rw [List.length_cons,Nat.cast_succ] at hcnt
    by_cases hempty : n.actions.drop k = []
    · obtain ⟨removed,cnt',nodes',hmerge,hcnt',hle,hok',hflat,hrem⟩ :=
        mergeUndoActions_spec new ns (cnt - 1) (cnt_sub_one hcnt) hns
      have htake : n.actions.take k = n.actions := by
        rw [← List.take_append_drop k n.actions,hempty,List.append_nil,List.take_take,Nat.min_self]
      refine ⟨n.actions ++ removed,cnt',nodes',?_,hcnt',by simp; omega,hok',?_,?_⟩
      · rw [mergeUndoActions_,hk]
        dsimp only
        rw [if_pos hempty,if_neg (cnt_not_le_zero hcnt),hmerge]
      · rw [List.flatMap_cons,hflat,List.append_assoc]
      · intro a ha
        rcases List.mem_append.mp ha with ha | ha
        · exact hnested a (by rw [htake]; exact ha)
        · exact hrem a ha
    · refine ⟨n.actions.take k,cnt,⟨n.actions.drop k⟩ :: ns,?_,by simpa using hcnt,le_rfl,?_,?_,
        hnested⟩
      · rw [mergeUndoActions_,hk]
        dsimp only
        rw [if_neg hempty]
      · intro m hm
        rcases List.mem_cons.mp hm with rfl | hm
        · simp only [List.length_drop]
          exact ⟨by simpa using (List.length_pos_iff.mpr hempty),by omega⟩
        · exact hns m hm
      · simp only [List.flatMap_cons,← List.append_assoc,List.take_append_drop]

/-- `undo_node_cnt_` counts the nodes, and each holds between 1 and
`TX_DATA_UNDO_ACT_MAX_NUM_PER_NODE` actions. -/
structure ListOk (l : ObUndoStatusList) : Prop where
  cnt_eq : l.undoNodeCnt.toInt = l.head.length
  nodes : NodesOk l.head

theorem addUndoAction_spec {l : ObUndoStatusList} (hl : ListOk l)
    (hroom : l.head.length + 1 < 2 ^ 31) (new : ObUndoAction) :
    ∃ removed rest, (addUndoAction l new true).1 = .ok () ∧ ListOk (addUndoAction l new true).2 ∧
      (addUndoAction l new true).2.head.length ≤ l.head.length + 1 ∧
      l.allActions = removed ++ rest ∧ (addUndoAction l new true).2.allActions = new :: rest ∧
      ∀ a ∈ removed, Nested new a := by
  obtain ⟨removed,cnt',nodes',hmerge,hcnt',hle,hok',hflat,hrem⟩ :=
    mergeUndoActions_spec new l.head l.undoNodeCnt hl.cnt_eq hl.nodes
  refine ⟨removed,nodes'.flatMap (·.actions),?_⟩
  have hall : l.allActions = removed ++ nodes'.flatMap (·.actions) := hflat
  have hsucc : (cnt' + 1).toInt = nodes'.length + 1 := cnt_add_one hcnt' (by omega)
  have h7 : txDataUndoActMaxNumPerNode = 7 := rfl
  unfold addUndoAction
  rw [hmerge]
  dsimp only
  cases nodes' with
  | nil =>
    refine ⟨rfl,⟨by simpa using hsucc,by simp [NodesOk,h7]⟩,by simp,hall,rfl,hrem⟩
  | cons n ns =>
    have hns : NodesOk ns := fun m hm => hok' m (by simp [hm])
    simp only [List.length_cons] at hle hsucc
    dsimp only
    by_cases hfull : n.actions.length < txDataUndoActMaxNumPerNode
    · rw [if_pos hfull]
      refine ⟨rfl,⟨by simpa using hcnt',?_⟩,by simp; omega,hall,rfl,hrem⟩
      intro m hm
      rcases List.mem_cons.mp hm with rfl | hm
      · simp only [List.length_cons]
        omega
      · exact hns m hm
    · rw [if_neg hfull,if_pos rfl]
      refine ⟨rfl,⟨by simpa using hsucc,?_⟩,by simp; omega,hall,rfl,hrem⟩
      intro m hm
      rcases List.mem_cons.mp hm with rfl | hm
      · simp [h7]
      · exact hok' m hm

/-! ## Runs of `add_undo_action` -/

/-- The undo status list with a ghost: the actions added so far, the last first. -/
structure Undone where
  list : ObUndoStatusList
  added : List ObUndoAction
  deriving DecidableEq, Repr

/-- One `add_undo_action` whose node allocation succeeds, recorded in the ghost. -/
def undoStep (x : Undone) (a : ObUndoAction) : Option Undone :=
  some ⟨(addUndoAction x.list a true).2,a :: x.added⟩

def ValidAction (_ : Undone) (a : ObUndoAction) : Prop := a.isValid = true

/-- The actions of a run in which no action added earlier strictly contains a new one. -/
def NotInsideEarlier (x : Undone) (a : ObUndoAction) : Prop :=
  a.isValid = true ∧ ∀ b ∈ x.added, b.isContain a = true → a.isContain b = true

/-- A list built by adding the actions of the ghost: well formed, with no more nodes than
actions added, and holding only added actions. -/
structure Built (x : Undone) : Prop where
  ok : ListOk x.list
  length_le : x.list.head.length ≤ x.added.length
  mem : ∀ a ∈ x.list.allActions, a ∈ x.added

theorem built_empty : Built ⟨⟨[],0⟩,[]⟩ :=
  ⟨⟨rfl,by simp [NodesOk]⟩,le_rfl,by simp [ObUndoStatusList.allActions]⟩

theorem Built.room {x : Undone} (hx : Built x) (h : x.added.length + 1 < 2 ^ 31) :
    x.list.head.length + 1 < 2 ^ 31 := by
  have := hx.length_le
  omega

theorem Built.step {x : Undone} (hx : Built x) (hroom : x.added.length + 1 < 2 ^ 31)
    (a : ObUndoAction) : Built ⟨(addUndoAction x.list a true).2,a :: x.added⟩ := by
  have hle := hx.length_le
  obtain ⟨removed,rest,-,hok',hlen,hall,hall',-⟩ := addUndoAction_spec hx.ok (hx.room hroom) a
  refine ⟨hok',by simp only [List.length_cons]; omega,fun b hb => ?_⟩
  rw [hall'] at hb
  rcases List.mem_cons.mp hb with rfl | hb
  · exact List.mem_cons_self
  · exact List.mem_cons_of_mem _ (hx.mem b (by rw [hall]; exact List.mem_append_right _ hb))

theorem undoStep_added_length {adm : Undone → ObUndoAction → Prop} {s x : Undone}
    {ops : List ObUndoAction} (hrun : Lib.Run undoStep adm s ops x) :
    x.added.length = s.added.length + ops.length :=
  Lib.Run.eq_add_length (fun x => x.added.length) (fun _ _ _ _ h => by cases h; rfl) hrun

theorem built_invariant {adm : Undone → ObUndoAction → Prop} (P : Undone → Prop)
    (hstep : ∀ x a, Built x → x.added.length + 1 < 2 ^ 31 - 1 → adm x a → P x →
      P ⟨(addUndoAction x.list a true).2,a :: x.added⟩)
    (h0 : P ⟨⟨[],0⟩,[]⟩) {ops : List ObUndoAction} {x : Undone}
    (hrun : Lib.Run undoStep adm ⟨⟨[],0⟩,[]⟩ ops x) (hops : ops.length < 2 ^ 31 - 1) :
    Built x ∧ P x := by
  have hlen : x.added.length = ops.length := by simpa using undoStep_added_length hrun
  refine hrun.invariant (fun x => x.added.length < 2 ^ 31 - 1 → Built x ∧ P x) ?_
    (fun _ => ⟨built_empty,h0⟩) (by omega)
  rintro x a y hx ha hxy hy
  obtain rfl := Option.some.inj hxy
  have hlt : x.added.length + 1 < 2 ^ 31 - 1 := by simpa using hy
  obtain ⟨hb,hp⟩ := hx (by omega)
  exact ⟨hb.step (by omega) a,hstep x a hb hlt ha hp⟩

/-- Every run of `add_undo_action` with valid actions, from the empty list, each call finding a
node and fewer than `2 ^ 31 - 1` calls: every call succeeds, `undo_node_cnt_` is the number of
nodes, every node holds between 1 and `TX_DATA_UNDO_ACT_MAX_NUM_PER_NODE` actions, and every
action in the list is one that was added, so `is_contain` reports only rolled-back sequence
numbers. -/
theorem addUndoAction_sound_of_run {ops : List ObUndoAction} {x : Undone}
    (hrun : Lib.Run undoStep ValidAction ⟨⟨[],0⟩,[]⟩ ops x) (hops : ops.length < 2 ^ 31 - 1) :
    ListOk x.list ∧ (∀ a ∈ x.list.allActions, a ∈ x.added) ∧
      (∀ s, x.list.isContain_ s = true → ∃ a ∈ x.added, a.isContainSeq s = true) ∧
      ∀ a, (addUndoAction x.list a true).1 = .ok () := by
  have hx : Built x := (built_invariant (fun _ => True) (fun _ _ _ _ _ _ => trivial) trivial hrun hops).1
  have hlen : x.added.length = ops.length := by simpa using undoStep_added_length hrun
  have hroom : x.list.head.length + 1 < 2 ^ 31 := hx.room (by omega)
  refine ⟨hx.ok,hx.mem,fun s hs => ?_,fun a => ?_⟩
  · obtain ⟨a,ha,hc⟩ := (ObUndoStatusList.isContain_iff_allActions _ _).mp hs
    exact ⟨a,hx.mem a ha,hc⟩
  · obtain ⟨_,_,hok,-⟩ := addUndoAction_spec hx.ok hroom a
    exact hok

/-- The run of the lost range: adding `(1, 10]` and then `(3, 5]` leaves one node of one action,
and the list reports only what `(3, 5]` rolled back. -/
theorem addUndoAction_sound_inner :
    Lib.Run undoStep ValidAction ⟨⟨[],0⟩,[]⟩ [⟨10,1⟩,⟨5,3⟩] ⟨⟨[⟨[⟨5,3⟩]⟩],1⟩,[⟨5,3⟩,⟨10,1⟩]⟩ ∧
      ListOk ⟨[⟨[⟨5,3⟩]⟩],1⟩ ∧
      ∀ s, ObUndoStatusList.isContain_ ⟨[⟨[⟨5,3⟩]⟩],1⟩ s = true →
        ∃ a ∈ [(⟨5,3⟩ : ObUndoAction),⟨10,1⟩], a.isContainSeq s = true :=
  have hrun : Lib.Run undoStep ValidAction ⟨⟨[],0⟩,[]⟩ [⟨10,1⟩,⟨5,3⟩]
      ⟨⟨[⟨[⟨5,3⟩]⟩],1⟩,[⟨5,3⟩,⟨10,1⟩]⟩ :=
    .cons (by unfold ValidAction; decide) rfl (.cons (by unfold ValidAction; decide) rfl (.nil _))
  ⟨hrun,(addUndoAction_sound_of_run hrun (by decide)).1,
    (addUndoAction_sound_of_run hrun (by decide)).2.2.1⟩

/-- Every run of `add_undo_action` from the empty list in which no action strictly contains one
added after it, with fewer than `2 ^ 31 - 1` calls: `is_contain` reports every sequence number
some added action rolled back. -/
theorem addUndoAction_complete_of_run {ops : List ObUndoAction} {x : Undone}
    (hrun : Lib.Run undoStep NotInsideEarlier ⟨⟨[],0⟩,[]⟩ ops x) (hops : ops.length < 2 ^ 31 - 1) :
    ∀ s, (∃ a ∈ x.added, a.isContainSeq s = true) → x.list.isContain_ s = true := by
  refine (built_invariant (fun x => ∀ s, (∃ a ∈ x.added, a.isContainSeq s = true) →
    x.list.isContain_ s = true) ?_ (by simp) hrun hops).2
  rintro x a hx hlt ⟨-,hnot⟩ hcov s ⟨b,hb,hs⟩
  obtain ⟨removed,rest,-,-,-,hall,hall',hrem⟩ := addUndoAction_spec hx.ok (hx.room (by omega)) a
  rw [ObUndoStatusList.isContain_iff_allActions,hall']
  rcases List.mem_cons.mp hb with rfl | hb
  · exact ⟨b,List.mem_cons_self,hs⟩
  · obtain ⟨c,hc,hcs⟩ := (ObUndoStatusList.isContain_iff_allActions _ _).mp (hcov s ⟨b,hb,hs⟩)
    rw [hall] at hc
    rcases List.mem_append.mp hc with hc | hc
    · have hin : a.isContain c = true := by
        rcases hrem c hc with h | h
        · exact h
        · exact hnot c (hx.mem c (by rw [hall]; exact List.mem_append_left _ hc)) h
      exact ⟨a,List.mem_cons_self,ObUndoAction.isContainSeq_of_isContain hin hcs⟩
    · exact ⟨c,List.mem_cons_of_mem _ hc,hcs⟩

/-- Adding `(3, 5]` and then `(1, 10]`: the wider range replaces the narrower one, and sequence
number 4 is still reported. -/
theorem addUndoAction_complete_outer :
    Lib.Run undoStep NotInsideEarlier ⟨⟨[],0⟩,[]⟩ [⟨5,3⟩,⟨10,1⟩] ⟨⟨[⟨[⟨10,1⟩]⟩],1⟩,[⟨10,1⟩,⟨5,3⟩]⟩ ∧
      ObUndoStatusList.isContain_ ⟨[⟨[⟨10,1⟩]⟩],1⟩ 4 = true :=
  have hrun : Lib.Run undoStep NotInsideEarlier ⟨⟨[],0⟩,[]⟩ [⟨5,3⟩,⟨10,1⟩]
      ⟨⟨[⟨[⟨10,1⟩]⟩],1⟩,[⟨10,1⟩,⟨5,3⟩]⟩ :=
    .cons (by unfold NotInsideEarlier; decide) rfl (.cons (by unfold NotInsideEarlier; decide) rfl (.nil _))
  ⟨hrun,addUndoAction_complete_of_run hrun (by decide) 4 ⟨⟨5,3⟩,by simp,by decide⟩⟩

end ObTxData
end Storage
end OceanBase
