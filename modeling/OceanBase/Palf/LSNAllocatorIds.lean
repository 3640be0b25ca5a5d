import OceanBase.Palf.LSNAllocator

/-! The log ids and SCNs `alloc_lsn_scn` hands out. A successful call takes its log id and SCN
from the maxima the meta word records, one past them for a new group log, and a padding group
log takes one more of each. The leader's calls never lower the largest SCN, so the SCNs handed
out rise strictly over every run of them. -/
namespace OceanBase
namespace Palf
namespace LSNAllocator

/-! ## One pass -/

/-- What a pass that writes back placement `p` does to the ids and SCNs: the deltas grow by
what the placement takes, measured from the maxima before, and stay inside their bit-fields. -/
structure WritesIds (s : LSNAllocator) (baseScn : Nat) (p : Placement) (t : LSNAllocator) : Prop where
  logIdBase_eq : t.logIdBase = s.logIdBase
  scnBase_eq : t.scnBase = s.scnBase
  isInited_eq : t.isInited = s.isInited
  logIdDelta_eq : t.lsnTsMeta.logIdDelta =
    s.lsnTsMeta.logIdDelta + p.isNewGroupLog.toNat + p.needGenPaddingEntry.toNat
  scnDelta_eq : s.scnBase + t.lsnTsMeta.scnDelta =
    max baseScn (s.scnBase + s.lsnTsMeta.scnDelta + 1) + p.needGenPaddingEntry.toNat
  logIdDelta_lt : t.lsnTsMeta.logIdDelta < logIdDeltaUpperBound
  scnDelta_lt : t.lsnTsMeta.scnDelta < logTsDeltaUpperBound

structure ReportsIds (s : LSNAllocator) (baseScn : Nat) (p : Placement) (out : AllocOut) : Prop where
  lsn_eq : out.lsn = s.lsnTsMeta.lsnVal
  new_eq : out.isNewGroupLog = p.isNewGroupLog
  padding_eq : out.needGenPaddingEntry = p.needGenPaddingEntry
  logId_eq : out.logId = s.logIdBase + s.lsnTsMeta.logIdDelta + p.isNewGroupLog.toNat
  scn_eq : out.scn = max baseScn (s.scnBase + s.lsnTsMeta.scnDelta + 1)

theorem allocPass_ids {s t : LSNAllocator} {baseScn size : Nat} {logIdUpperBound : Int}
    {lsnUpperBound : Nat} {r : Except ObErr AllocOut}
    (h : allocPass s baseScn size logIdUpperBound lsnUpperBound = .done r t) :
    (t = s ∧ ∀ out, r ≠ .ok out) ∨
      ∃ p, WritesIds s baseScn p t ∧ ∀ out, r = .ok out → ReportsIds s baseScn p out := by
  dsimp only [allocPass] at h
  split at h
  · exact absurd h nofun
  next hfit =>
  rw [logTsDeltaUpperBound_eq,logIdDeltaUpperBound_eq] at hfit
  have hpad := Bool.toNat_le (placeEntry s.lsnTsMeta size).2.needGenPaddingEntry
  have hnew := Bool.toNat_le (placeEntry s.lsnTsMeta size).2.isNewGroupLog
  have hw : WritesIds s baseScn (placeEntry s.lsnTsMeta size).2 { s with lsnTsMeta := ⟨
      (placeEntry s.lsnTsMeta size).2.isNextNeedCut,
      (s.lsnTsMeta.logIdDelta + (placeEntry s.lsnTsMeta size).2.isNewGroupLog.toNat +
        (placeEntry s.lsnTsMeta size).2.needGenPaddingEntry.toNat) % 2 ^ logIdDeltaBitCnt,
      (max baseScn (s.scnBase + s.lsnTsMeta.scnDelta + 1) - s.scnBase +
        (placeEntry s.lsnTsMeta size).2.needGenPaddingEntry.toNat) % 2 ^ logTsDeltaBitCnt,
      (placeEntry s.lsnTsMeta size).2.nextBlockId * palfBlockSize +
        (placeEntry s.lsnTsMeta size).2.nextBlockOffset⟩ } := by
    refine ⟨rfl,rfl,rfl,?_,?_,?_,?_⟩ <;>
      simp only [logIdDeltaBitCnt,logTsDeltaBitCnt,logTsDeltaUpperBound_eq,logIdDeltaUpperBound_eq] <;>
      omega
  split at h
  · obtain ⟨rfl,rfl⟩ := AllocPass.done.inj h
    exact .inl ⟨rfl,nofun⟩
  split at h
  · obtain ⟨rfl,rfl⟩ := AllocPass.done.inj h
    exact .inr ⟨_,hw,nofun⟩
  · obtain ⟨rfl,rfl⟩ := AllocPass.done.inj h
    refine .inr ⟨_,hw,fun out hout => ?_⟩
    obtain rfl := Except.ok.inj hout
    exact ⟨rfl,rfl,rfl,rfl,by simp only; omega⟩

/-! ## The rebase -/

@[simp] theorem updateBase_isInited (s : LSNAllocator) (b : Nat) :
    (updateBase s b).isInited = s.isInited := rfl

theorem getMaxLogId_updateBase (s : LSNAllocator) (b : Nat) :
    getMaxLogId (updateBase s b) = getMaxLogId s := by
  simp [getMaxLogId,updateBase]

theorem getMaxScn_updateBase (s : LSNAllocator) (b : Nat) :
    getMaxScn (updateBase s b) = (getMaxScn s).map (max b) := by
  cases hi : s.isInited <;> simp [getMaxScn,updateBase,hi]

/-! ## One call -/

/-- What a successful `alloc_lsn_scn` hands out, against the maxima before and after it. -/
structure AllocIds (s : LSNAllocator) (baseScn : Nat) (out : AllocOut) (t : LSNAllocator) : Prop where
  lsn_eq : out.lsn = s.lsnTsMeta.lsnVal
  logId_eq : out.logId = getMaxLogId s + out.isNewGroupLog.toNat
  maxLogId_eq : getMaxLogId t = out.logId + out.needGenPaddingEntry.toNat
  base_le : baseScn ≤ out.scn
  scn_gt : ∀ m, getMaxScn s = some m → m < out.scn
  maxScn_eq : getMaxScn t = some (out.scn + out.needGenPaddingEntry.toNat)
  logIdDelta_lt : t.lsnTsMeta.logIdDelta < logIdDeltaUpperBound
  scnDelta_lt : t.lsnTsMeta.scnDelta < logTsDeltaUpperBound

theorem AllocIds.of_pass {s s' t : LSNAllocator} {baseScn : Nat} {p : Placement} {out : AllocOut}
    (hi : s.isInited = true) (hi' : s'.isInited = true) (hlsn : s'.lsnTsMeta.lsnVal = s.lsnTsMeta.lsnVal)
    (hid : getMaxLogId s' = getMaxLogId s)
    (hscn : s.scnBase + s.lsnTsMeta.scnDelta ≤ s'.scnBase + s'.lsnTsMeta.scnDelta)
    (hw : WritesIds s' baseScn p t) (ho : ReportsIds s' baseScn p out) : AllocIds s baseScn out t := by
  have hti : t.isInited = true := hw.isInited_eq.trans hi'
  simp only [getMaxLogId,hi,hi',Bool.not_true,Bool.false_eq_true,if_false] at hid
  refine ⟨ho.lsn_eq.trans hlsn,?_,?_,?_,fun m hm => ?_,?_,hw.logIdDelta_lt,hw.scnDelta_lt⟩
  · simp only [getMaxLogId,hi,Bool.not_true,Bool.false_eq_true,if_false,ho.logId_eq,hid,ho.new_eq]
  · simp only [getMaxLogId,hti,Bool.not_true,Bool.false_eq_true,if_false,hw.logIdDelta_eq,hw.logIdBase_eq,
      ho.logId_eq,ho.padding_eq]
    push_cast
    ring
  · rw [ho.scn_eq]
    exact le_max_left _ _
  · simp only [getMaxScn,hi,Bool.not_true,Bool.false_eq_true,if_false,Option.some.injEq] at hm
    rw [ho.scn_eq]
    omega
  · simp only [getMaxScn,hti,Bool.not_true,Bool.false_eq_true,if_false,hw.scnBase_eq,hw.scnDelta_eq,ho.scn_eq,
      ho.padding_eq]

theorem allocLsnScn_cases {s t : LSNAllocator} {baseScn : Nat} {size logIdUpperBound : Int}
    {lsnUpperBound : Nat} {r : Except ObErr AllocOut}
    (h : allocLsnScn s baseScn size logIdUpperBound lsnUpperBound = some (r,t)) :
    (t = s ∧ ∀ out, r ≠ .ok out) ∨
      (s.isInited = true ∧ allocPass s baseScn size.toNat logIdUpperBound lsnUpperBound = .done r t) ∨
      (s.isInited = true ∧ allocPass s baseScn size.toNat logIdUpperBound lsnUpperBound = .needUpdateBase ∧
        allocPass (updateBase s baseScn) baseScn size.toNat logIdUpperBound lsnUpperBound = .done r t) := by
  unfold allocLsnScn at h
  cases hi : s.isInited
  · rw [hi] at h
    obtain ⟨rfl,rfl⟩ := Prod.mk.inj (Option.some.inj h)
    exact .inl ⟨rfl,fun _ => nofun⟩
  rw [hi] at h
  by_cases harg : size ≤ 0 ∨ !scnIsValid baseScn ∨ logIdUpperBound ≤ 0 ∨ !lsnIsValid lsnUpperBound
  · rw [if_neg (by simp),if_pos harg] at h
    obtain ⟨rfl,rfl⟩ := Prod.mk.inj (Option.some.inj h)
    exact .inl ⟨rfl,fun _ => nofun⟩
  rw [if_neg (by simp),if_neg harg] at h
  cases hp : allocPass s baseScn size.toNat logIdUpperBound lsnUpperBound with
  | done r' t' =>
    rw [hp] at h
    obtain ⟨rfl,rfl⟩ := Prod.mk.inj (Option.some.inj h)
    exact .inr (.inl ⟨rfl,rfl⟩)
  | needUpdateBase =>
    rw [hp] at h
    cases hp' : allocPass (updateBase s baseScn) baseScn size.toNat logIdUpperBound lsnUpperBound with
    | done r' t' =>
      rw [hp'] at h
      obtain ⟨rfl,rfl⟩ := Prod.mk.inj (Option.some.inj h)
      exact .inr (.inr ⟨rfl,rfl,rfl⟩)
    | needUpdateBase =>
      rw [hp'] at h
      exact absurd h nofun

theorem allocLsnScn_ids {s t : LSNAllocator} {baseScn : Nat} {size logIdUpperBound : Int}
    {lsnUpperBound : Nat} {out : AllocOut}
    (h : allocLsnScn s baseScn size logIdUpperBound lsnUpperBound = some (.ok out,t)) :
    AllocIds s baseScn out t := by
  rcases allocLsnScn_cases h with ⟨-,hr⟩ | ⟨hi,hpass⟩ | ⟨hi,-,hpass⟩
  · exact absurd rfl (hr out)
  · rcases allocPass_ids hpass with ⟨-,hr⟩ | ⟨p,hw,ho⟩
    · exact absurd rfl (hr out)
    · exact AllocIds.of_pass hi hi rfl rfl le_rfl hw (ho out rfl)
  · rcases allocPass_ids hpass with ⟨-,hr⟩ | ⟨p,hw,ho⟩
    · exact absurd rfl (hr out)
    · refine AllocIds.of_pass hi (by exact hi) (by rfl) (getMaxLogId_updateBase s baseScn) ?_ hw (ho out rfl)
      simp only [updateBase]
      omega

theorem allocLsnScn_maxScn_le {s t : LSNAllocator} {baseScn : Nat} {size logIdUpperBound : Int}
    {lsnUpperBound : Nat} {r : Except ObErr AllocOut}
    (h : allocLsnScn s baseScn size logIdUpperBound lsnUpperBound = some (r,t)) {m : Nat}
    (hm : getMaxScn s = some m) : ∃ m', getMaxScn t = some m' ∧ m ≤ m' := by
  have hi : s.isInited = true := by
    cases hi : s.isInited
    · simp [getMaxScn,hi] at hm
    · rfl
  have hm' : m = s.scnBase + s.lsnTsMeta.scnDelta := by
    simp only [getMaxScn,hi,Bool.not_true,Bool.false_eq_true,if_false,Option.some.injEq] at hm
    exact hm.symm
  have hpass : ∀ {s' t' : LSNAllocator} {r' : Except ObErr AllocOut}, s'.isInited = true →
      s.scnBase + s.lsnTsMeta.scnDelta ≤ s'.scnBase + s'.lsnTsMeta.scnDelta →
      allocPass s' baseScn size.toNat logIdUpperBound lsnUpperBound = .done r' t' →
      ∃ m', getMaxScn t' = some m' ∧ m ≤ m' := by
    intro s' t' r' hi' hle hp
    rcases allocPass_ids hp with ⟨rfl,-⟩ | ⟨p,hw,-⟩
    · exact ⟨t'.scnBase + t'.lsnTsMeta.scnDelta,by simp [getMaxScn,hi'],by omega⟩
    · refine ⟨t'.scnBase + t'.lsnTsMeta.scnDelta,by simp [getMaxScn,hw.isInited_eq,hi'],?_⟩
      rw [hw.scnBase_eq,hw.scnDelta_eq]
      omega
  rcases allocLsnScn_cases h with ⟨rfl,-⟩ | ⟨-,hp⟩ | ⟨-,-,hp⟩
  · exact ⟨m,hm,le_rfl⟩
  · exact hpass hi le_rfl hp
  · exact hpass (by exact hi) (by simp only [updateBase]; omega) hp

/-! ## Runs of the allocator -/

/-- The allocator together with a ghost: the SCNs handed out, and those set by
`inc_update_scn_base`, since `init`, `truncate` or `inc_update_last_log_info` last installed
the maxima. -/
structure Issued where
  alloc : LSNAllocator
  scns : List Nat
  deriving DecidableEq, Repr

/-- After a call that installs new maxima when it succeeds, the ghost starts afresh. -/
def Issued.install (x : Issued) : Except ObErr LSNAllocator → Issued
  | .ok t => ⟨t,[]⟩
  | .error _ => x

/-- A call with the ghost kept up to date. A successful allocation hands out its SCN, to the
padding group log when there is one, and the next SCN to the real group log behind it. -/
def issuedStep (x : Issued) (op : Op) : Option Issued :=
  match op with
  | .init logId scn lsn => some (x.install (init x.alloc logId scn lsn))
  | .truncate lsn logId scn => some (x.install (truncate x.alloc lsn logId scn))
  | .incUpdateLastLogInfo lsn logId scn => some (x.install (incUpdateLastLogInfo x.alloc lsn logId scn))
  | .allocLsnScn baseScn size lub sub =>
    (allocLsnScn x.alloc baseScn size lub sub).map fun rt =>
      match rt.1 with
      | .ok out => ⟨rt.2,out.scn :: (out.scn + out.needGenPaddingEntry.toNat) :: x.scns⟩
      | .error _ => ⟨rt.2,x.scns⟩
  | .incUpdateScnBase refScn =>
    match incUpdateScnBase x.alloc refScn with
    | .ok t => some ⟨t,refScn :: x.scns⟩
    | .error _ => some x
  | .tryFreeze => some ⟨(tryFreeze x.alloc).2,x.scns⟩
  | .tryFreezeByTime => some ⟨(tryFreezeByTime x.alloc).2,x.scns⟩

/-- The invariant of runs: the largest SCN is at least every SCN in the ghost. -/
def Issued.Inv (x : Issued) : Prop :=
  ∀ v ∈ x.scns, ∃ m, getMaxScn x.alloc = some m ∧ v ≤ m

theorem Issued.Inv.of_le {x : Issued} {t : LSNAllocator} (hx : x.Inv)
    (hle : ∀ m, getMaxScn x.alloc = some m → ∃ m', getMaxScn t = some m' ∧ m ≤ m') :
    Issued.Inv ⟨t,x.scns⟩ := by
  intro v hv
  obtain ⟨m,hm,hvm⟩ := hx v hv
  obtain ⟨m',hm',hle'⟩ := hle m hm
  exact ⟨m',hm',by omega⟩

theorem freezeWith_getMaxScn (s : LSNAllocator) (cutCode : Option ObErr) :
    getMaxScn (freezeWith cutCode s).2 = getMaxScn s := by
  simp only [freezeWith]
  split_ifs
  · rfl
  · cases cutCode <;> rfl
  · rfl

theorem incUpdateScnBase_getMaxScn {s t : LSNAllocator} {refScn : Nat}
    (h : incUpdateScnBase s refScn = .ok t) :
    ∃ m', getMaxScn t = some m' ∧ refScn ≤ m' ∧ ∀ m, getMaxScn s = some m → m ≤ m' := by
  simp only [incUpdateScnBase] at h
  split_ifs at h with hi hv hlt
  obtain rfl := Except.ok.inj h
  · simp only [Bool.not_eq_true',Bool.not_eq_false] at hi
    refine ⟨s.scnBase + s.lsnTsMeta.scnDelta,by simp [getMaxScn,hi],by omega,fun m hm => ?_⟩
    simp [getMaxScn,hi] at hm
    omega
  · obtain rfl := Except.ok.inj h
    simp only [Bool.not_eq_true',Bool.not_eq_false] at hi
    refine ⟨refScn,by simp [getMaxScn,hi],le_rfl,fun m hm => ?_⟩
    simp [getMaxScn,hi] at hm
    omega

theorem Issued.Inv.install {x : Issued} (hx : x.Inv) (r : Except ObErr LSNAllocator) :
    (x.install r).Inv := by
  cases r with
  | ok t => exact nofun
  | error e => exact hx

theorem Issued.Inv.step {x y : Issued} {op : Op} (hx : x.Inv) (h : issuedStep x op = some y) :
    y.Inv := by
  cases op with
  | allocLsnScn baseScn size lub sub =>
    obtain ⟨⟨r,t⟩,hrt,rfl⟩ := Option.map_eq_some_iff.mp h
    have hmono : ∀ m, getMaxScn x.alloc = some m → ∃ m', getMaxScn t = some m' ∧ m ≤ m' :=
      fun m hm => allocLsnScn_maxScn_le hrt hm
    cases r with
    | error e => exact hx.of_le hmono
    | ok out =>
      have hids := allocLsnScn_ids hrt
      intro v hv
      simp only [List.mem_cons] at hv
      rcases hv with rfl | rfl | hv
      · exact ⟨_,hids.maxScn_eq,by omega⟩
      · exact ⟨_,hids.maxScn_eq,le_rfl⟩
      · exact hx.of_le hmono v hv
  | incUpdateScnBase refScn =>
    simp only [issuedStep] at h
    split at h
    · next t ht =>
      obtain rfl := Option.some.inj h
      obtain ⟨m',hm',href,hle⟩ := incUpdateScnBase_getMaxScn ht
      intro v hv
      simp only [List.mem_cons] at hv
      rcases hv with rfl | hv
      · exact ⟨m',hm',href⟩
      · exact hx.of_le (fun m hm => ⟨m',hm',hle m hm⟩) v hv
    · obtain rfl := Option.some.inj h
      exact hx
  | tryFreeze =>
    obtain rfl := Option.some.inj h
    exact hx.of_le (fun m hm => ⟨m,(freezeWith_getMaxScn _ _).trans hm,le_rfl⟩)
  | tryFreezeByTime =>
    obtain rfl := Option.some.inj h
    exact hx.of_le (fun m hm => ⟨m,(freezeWith_getMaxScn _ _).trans hm,le_rfl⟩)
  | init logId scn lsn =>
    obtain rfl := Option.some.inj h
    exact hx.install _
  | truncate lsn logId scn =>
    obtain rfl := Option.some.inj h
    exact hx.install _
  | incUpdateLastLogInfo lsn logId scn =>
    obtain rfl := Option.some.inj h
    exact hx.install _

/-- The ids and SCNs of `alloc_lsn_scn` over every run of the allocator's calls from its
constructed state. A rebase keeps the largest log id and raises the largest SCN to `base_scn`. A
successful call returns the end LSN before it, the largest log id, one past it for a new group
log, and an SCN at least `base_scn` above every SCN handed out or set since the maxima were last
installed; afterwards the maxima are the ids and SCNs it handed out, with the deltas inside their
bit-fields. -/
theorem allocLsnScn_ids_of_run {ops : List Op} {x : Issued}
    (hrun : Lib.Run issuedStep (fun _ _ => True) ⟨reset,[]⟩ ops x) :
    (∀ b, getMaxLogId (updateBase x.alloc b) = getMaxLogId x.alloc ∧
      getMaxScn (updateBase x.alloc b) = (getMaxScn x.alloc).map (max b)) ∧
    ∀ (baseScn : Nat) (size logIdUpperBound : Int) (lsnUpperBound : Nat) out t,
      allocLsnScn x.alloc baseScn size logIdUpperBound lsnUpperBound = some (.ok out,t) →
      AllocIds x.alloc baseScn out t ∧ ∀ v ∈ x.scns, v < out.scn := by
  have hx : x.Inv := hrun.invariant Issued.Inv (fun _ _ _ hx _ h => hx.step h) nofun
  refine ⟨fun b => ⟨getMaxLogId_updateBase _ b,getMaxScn_updateBase _ b⟩,
    fun baseScn size lub sub out t h => ⟨allocLsnScn_ids h,fun v hv => ?_⟩⟩
  obtain ⟨m,hm,hvm⟩ := hx v hv
  have := (allocLsnScn_ids h).scn_gt m hm
  omega

/-- `init`, a new group log, a rebase of the SCN to 50, an entry appended behind it, a freeze,
and an allocation that asks for `base_scn = 2 ^ 35` and so for a rebase. -/
def idsRun : List Op :=
  [.init 1 1 0,.allocLsnScn 2 100 1000 (2 ^ 40),.incUpdateScnBase 50,.allocLsnScn 3 100 1000 (2 ^ 40),
    .tryFreeze,.allocLsnScn (2 ^ 35) 100 1000 (2 ^ 40)]

def idsRunEnd : Issued := (Lib.Run.exec issuedStep (fun _ _ => True) ⟨reset,[]⟩ idsRun).getD ⟨reset,[]⟩

theorem allocLsnScn_ids_after_rebase :
    Lib.Run issuedStep (fun _ _ => True) ⟨reset,[]⟩ idsRun idsRunEnd ∧
      idsRunEnd.scns = [2 ^ 35 + 1,2 ^ 35 + 1,51,51,50,2,2] ∧
      (∀ b, getMaxLogId (updateBase idsRunEnd.alloc b) = getMaxLogId idsRunEnd.alloc ∧
        getMaxScn (updateBase idsRunEnd.alloc b) = (getMaxScn idsRunEnd.alloc).map (max b)) ∧
      ∀ (baseScn : Nat) (size logIdUpperBound : Int) (lsnUpperBound : Nat) out t,
        allocLsnScn idsRunEnd.alloc baseScn size logIdUpperBound lsnUpperBound = some (.ok out,t) →
        AllocIds idsRunEnd.alloc baseScn out t ∧ ∀ v ∈ idsRunEnd.scns, v < out.scn :=
  have hrun : Lib.Run issuedStep (fun _ _ => True) ⟨reset,[]⟩ idsRun idsRunEnd :=
    Lib.Run.of_exec_isSome (by decide +kernel)
  ⟨hrun,by decide +kernel,allocLsnScn_ids_of_run hrun⟩

/-- The rebase does not keep the SCN sum: after `init(1, 1, 0)` the largest SCN is 1, an
allocation with `base_scn = 2 ^ 35` asks for a rebase, and the rebase moves the sum to
`2 ^ 35`. -/
theorem allocPass_rebase_raises_scn :
    getMaxScn ⟨cutMetaAt 0,1,1,true⟩ = some 1 ∧
      allocPass ⟨cutMetaAt 0,1,1,true⟩ (2 ^ 35) 100 1 (2 ^ 30) = .needUpdateBase ∧
      getMaxScn (updateBase ⟨cutMetaAt 0,1,1,true⟩ (2 ^ 35)) = some (2 ^ 35) :=
  ⟨rfl,rfl,rfl⟩

end LSNAllocator
end Palf
end OceanBase
