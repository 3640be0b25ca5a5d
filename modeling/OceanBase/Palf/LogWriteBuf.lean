import OceanBase.Define
import OceanBase.Lib.Mem

/-! `LogWriteBuf` (`log_writer_utils.h`): the scatter list a group log is written from. Each
segment's `buf_` points into one memory, the group buffer's `data_buf_`; the model keeps the
segment's address in that memory and reads bytes through a memory function. -/
namespace OceanBase
namespace Palf

structure InnerStruct where
  buf : Nat
  bufLen : Nat
  deriving DecidableEq, Repr

structure LogWriteBuf where
  writeBuf : List InnerStruct
  deriving DecidableEq, Repr

namespace LogWriteBuf

def segs (w : LogWriteBuf) : List (Nat × Nat) := w.writeBuf.map fun s => (s.buf,s.bufLen)

/-- The loop of `push_back`: cut what remains of `buf_len` bytes at `buf` into segments of at
most `step` bytes. Every round cuts at least one byte, so `buf_len` rounds of fuel suffice. -/
def pushBackLoop (buf bufLen step : Nat) : Nat → Nat → List InnerStruct
  | 0, _ => []
  | fuel + 1, remain =>
    if remain > 0 then
      let limitBufLen := min remain step
      ⟨buf + bufLen - remain,limitBufLen⟩ :: pushBackLoop buf bufLen step fuel (remain - limitBufLen)
    else []

def pushBack (w : LogWriteBuf) (buf bufLen : Nat) : Except ObErr LogWriteBuf :=
  if bufLen = 0 then .error .invalidArgument
  else .ok ⟨w.writeBuf ++ pushBackLoop buf bufLen maxLogBufferSize bufLen bufLen⟩

def isValid (w : LogWriteBuf) : Bool := 0 < w.writeBuf.length

def getTotalSize (w : LogWriteBuf) : Nat := (w.writeBuf.map InnerStruct.bufLen).sum

def getBufCount (w : LogWriteBuf) : Nat := w.writeBuf.length

def getWriteBuf (w : LogWriteBuf) (idx : Nat) : Except ObErr (Nat × Nat) :=
  match w.writeBuf[idx]? with
  | some s => .ok (s.buf,s.bufLen)
  | none => .error .arrayOutOfRange

/-- `LogWriteBuf::check_memory_is_continous`: every segment ends where the next one begins. -/
def checkMemoryIsContinous (w : LogWriteBuf) : Bool :=
  (w.writeBuf.zip w.writeBuf.tail).all fun (s,t) => s.buf + s.bufLen == t.buf

/-- `LogWriteBuf::memcpy_to_continous_memory`: the segments' bytes of `mem`, one after another,
copied into `destBuf`. -/
def memcpyToContinousMemory (w : LogWriteBuf) (mem destBuf : Nat → UInt8) : Nat → UInt8 :=
  Lib.copySegs destBuf 0 mem w.segs

@[simp] theorem memcpyToContinousMemory_empty (mem destBuf : Nat → UInt8) :
    (⟨[]⟩ : LogWriteBuf).memcpyToContinousMemory mem destBuf = destBuf := rfl

@[simp] theorem getTotalSize_empty : (⟨[]⟩ : LogWriteBuf).getTotalSize = 0 := rfl

theorem memcpyToContinousMemory_of_lt_first {w : LogWriteBuf} {a : InnerStruct}
    {rest : List InnerStruct} (hw : w.writeBuf = a :: rest) (mem destBuf : Nat → UInt8) {p : Nat}
    (hp : p < a.bufLen) : w.memcpyToContinousMemory mem destBuf p = mem (a.buf + p) := by
  simp only [memcpyToContinousMemory,segs,hw,List.map_cons,Lib.copySegs_cons]
  rw [Lib.copySegs_apply_of_lt _ _ (by omega)]
  simpa using Lib.memcpy_apply_add destBuf 0 mem a.buf hp

theorem memcpyToContinousMemory_of_second {w : LogWriteBuf} {a b : InnerStruct}
    (hw : w.writeBuf = [a,b]) (mem destBuf : Nat → UInt8) {p : Nat} (h₁ : a.bufLen ≤ p)
    (h₂ : p < a.bufLen + b.bufLen) :
    w.memcpyToContinousMemory mem destBuf p = mem (b.buf + (p - a.bufLen)) := by
  obtain ⟨i,rfl⟩ : ∃ i, p = a.bufLen + i := ⟨p - a.bufLen,by omega⟩
  simp only [memcpyToContinousMemory,segs,hw,List.map_cons,List.map_nil,Lib.copySegs_cons,
    Lib.copySegs_nil,Nat.zero_add]
  rw [Lib.memcpy_apply_add _ _ _ _ (by omega),Nat.add_sub_cancel_left]

theorem segsLen_segs (w : LogWriteBuf) : Lib.segsLen w.segs = w.getTotalSize := by
  simp [Lib.segsLen,segs,getTotalSize,Function.comp_def]

theorem copySegs_pushBackLoop (dst mem : Nat → UInt8) {buf bufLen step : Nat} (hstep : 0 < step) :
    ∀ fuel remain d, remain ≤ bufLen → remain ≤ fuel →
      Lib.copySegs dst d mem ((pushBackLoop buf bufLen step fuel remain).map fun s => (s.buf,s.bufLen)) =
        Lib.memcpy dst d mem (buf + bufLen - remain) remain := by
  intro fuel
  induction fuel generalizing dst with
  | zero =>
    intro remain d _ hfuel
    obtain rfl : remain = 0 := by omega
    funext p
    simp [pushBackLoop,Lib.memcpy]
  | succ fuel ih =>
    intro remain d hbuf hfuel
    by_cases hrem : remain > 0
    · have hlim : 0 < min remain step := by omega
      simp only [pushBackLoop,if_pos hrem,List.map_cons,Lib.copySegs_cons]
      rw [ih _ _ _ (by omega) (by omega)]
      have hb : buf + bufLen - remain + min remain step = buf + bufLen - (remain - min remain step) := by
        omega
      rw [← hb,Lib.memcpy_memcpy_adjacent]
      congr 1
      omega
    · obtain rfl : remain = 0 := by omega
      funext p
      simp [pushBackLoop,Lib.memcpy]

theorem pushBackLoop_sum {buf bufLen step : Nat} (hstep : 0 < step) :
    ∀ fuel remain, remain ≤ fuel →
      ((pushBackLoop buf bufLen step fuel remain).map InnerStruct.bufLen).sum = remain := by
  intro fuel
  induction fuel with
  | zero =>
    intro remain hfuel
    simp only [pushBackLoop,List.map_nil,List.sum_nil]
    omega
  | succ fuel ih =>
    intro remain hfuel
    by_cases hrem : remain > 0
    · simp only [pushBackLoop,if_pos hrem,List.map_cons,List.sum_cons]
      rw [ih _ (by omega)]
      omega
    · simp only [pushBackLoop,if_neg hrem,List.map_nil,List.sum_nil]
      omega

theorem pushBackLoop_length_le_one (buf bufLen step fuel : Nat) {remain : Nat} (h : remain ≤ step) :
    (pushBackLoop buf bufLen step fuel remain).length ≤ 1 := by
  cases fuel with
  | zero => simp [pushBackLoop]
  | succ fuel =>
    cases fuel <;> simp only [pushBackLoop] <;> split <;> simp [Nat.min_eq_left h]

theorem pushBackLoop_length_pos (buf bufLen step : Nat) {fuel remain : Nat} (hrem : 0 < remain)
    (hfuel : 0 < fuel) : 0 < (pushBackLoop buf bufLen step fuel remain).length := by
  obtain ⟨fuel,rfl⟩ : ∃ f, fuel = f + 1 := ⟨fuel - 1,by omega⟩
  simp [pushBackLoop,hrem]

theorem memcpyToContinousMemory_pushBack {w w' : LogWriteBuf} {buf bufLen : Nat}
    (h : w.pushBack buf bufLen = .ok w') (mem destBuf : Nat → UInt8) :
    w'.memcpyToContinousMemory mem destBuf =
      Lib.memcpy (w.memcpyToContinousMemory mem destBuf) w.getTotalSize mem buf bufLen := by
  simp only [pushBack] at h
  split at h
  · cases h
  · cases h
    have hstep : 0 < maxLogBufferSize := by decide
    simp only [memcpyToContinousMemory,segs,List.map_append,Lib.copySegs_append]
    rw [copySegs_pushBackLoop _ _ hstep _ _ _ le_rfl le_rfl,Nat.add_sub_cancel,Nat.zero_add]
    rw [show Lib.segsLen (w.writeBuf.map fun s => (s.buf,s.bufLen)) = w.getTotalSize from
      segsLen_segs w]

theorem getTotalSize_pushBack {w w' : LogWriteBuf} {buf bufLen : Nat}
    (h : w.pushBack buf bufLen = .ok w') : w'.getTotalSize = w.getTotalSize + bufLen := by
  simp only [pushBack] at h
  split at h
  · cases h
  · cases h
    have hstep : 0 < maxLogBufferSize := by decide
    simp only [getTotalSize,List.map_append,List.sum_append]
    rw [pushBackLoop_sum hstep _ _ le_rfl]

theorem getBufCount_pushBack {w w' : LogWriteBuf} {buf bufLen : Nat}
    (h : w.pushBack buf bufLen = .ok w') (hlen : bufLen ≤ maxLogBufferSize) :
    w'.getBufCount = w.getBufCount + 1 := by
  simp only [pushBack] at h
  split at h
  · cases h
  · cases h
    have hpos : 0 < bufLen := Nat.pos_of_ne_zero ‹_›
    have h₁ := pushBackLoop_length_le_one buf bufLen _ bufLen hlen
    have h₂ := pushBackLoop_length_pos buf bufLen maxLogBufferSize hpos hpos
    simp only [getBufCount,List.length_append]
    omega

end LogWriteBuf
end Palf
end OceanBase
