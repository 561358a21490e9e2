import LinuxOs2022.Syscall.PhyAddr
import LinuxOs2022.Syscall.Segment

/-!
# Kernel heap use over sequences of calls

Any processes make the two calls in any order. Page tables, tasks and user memory may
change between two calls; the heap is what one call leaves to the next.
-/

namespace LinuxOs2022.Syscall

open Library PageTable

/-- The state at one call apart from the heap. -/
structure Context where
  user : UserMem
  mem : PhysMem
  pgd : Frame
  l5 : Bool
  task : BitVec 32 → Option TaskRef
  dmesg : List (String × List Word)

/-- The state at a call. -/
def Context.withHeap (c : Context) (h : Heap (List Byte)) : KState :=
  ⟨h, c.user, c.mem, c.pgd, c.l5, c.task, c.dmesg⟩

/-- One of the two system calls with its arguments and all that it meets. -/
inductive Call
  | myOtherGetPhyAddr (c : Context) (env : PhyAddrEnv) (initial result : Word)
  | myGetSegment (c : Context) (env : SegmentEnv) (userThreadSeg : Word)

/-- The call on a heap. -/
def Call.run (h : Heap (List Byte)) : Call → EStateM.Result Oops KState Word
  | .myOtherGetPhyAddr c env initial result =>
      (Syscall.myOtherGetPhyAddr env initial result).run (c.withHeap h)
  | .myGetSegment c env userThreadSeg =>
      (Syscall.myGetSegment env userThreadSeg).run (c.withHeap h)

/-- The heap after the call, also after an oops. -/
def Call.heapAfter (h : Heap (List Byte)) (c : Call) : Heap (List Byte) :=
  (finalState (c.run h)).heap

/-- The call uses no NULL pointer and no dead block, and frees no block twice. -/
def Call.Returns (h : Heap (List Byte)) (c : Call) : Prop := ∃ r k, c.run h = .ok r k

/-- The heap after a sequence of calls. -/
def heapAfter (h : Heap (List Byte)) (cs : List Call) : Heap (List Byte) :=
  cs.foldl Call.heapAfter h

/-- Every call of a sequence returns. -/
def AllReturn : Heap (List Byte) → List Call → Prop
  | _, [] => True
  | h, c :: cs => c.Returns h ∧ AllReturn (c.heapAfter h) cs

/-- A sequence of calls that misuses no block and leaves the live blocks as they were. -/
def HeapClean (h : Heap (List Byte)) (cs : List Call) : Prop :=
  AllReturn h cs ∧ (heapAfter h cs).live = h.live

/-- A walk with both its blocks allocated. -/
def Call.Balanced : Call → Prop
  | .myOtherGetPhyAddr _ env _ _ => env.Allocates
  | .myGetSegment _ _ _ => False

variable {h : Heap (List Byte)}

theorem Call.Balanced.returns {c : Call} (hb : c.Balanced) : c.Returns h := by
  cases c with
  | myOtherGetPhyAddr c env initial result =>
      obtain ⟨_, _, -, hr⟩ := run_myOtherGetPhyAddr hb (c.withHeap h) initial result
      exact ⟨_, _, hr⟩
  | myGetSegment c env userThreadSeg => exact hb.elim

theorem Call.Balanced.live {c : Call} (hb : c.Balanced) : (c.heapAfter h).live = h.live := by
  cases c with
  | myOtherGetPhyAddr c env initial result =>
      obtain ⟨h', log, hl, hr⟩ := run_myOtherGetPhyAddr hb (c.withHeap h) initial result
      rw [Call.heapAfter, Call.run, hr]
      exact hl
  | myGetSegment c env userThreadSeg => exact hb.elim

/-- A call that returns never makes a live block of the heap before it dead. Unless it is
balanced, it leaves a new one. -/
theorem Call.live_of_returns {c : Call} (hr : c.Returns h) (hb : ¬ c.Balanced) :
    (c.heapAfter h).live = insert h.fresh h.live := by
  obtain ⟨r, k, hr⟩ := hr
  cases c with
  | myOtherGetPhyAddr c env initial result =>
      obtain ⟨k', he⟩ := run_myOtherGetPhyAddr_null hb (c.withHeap h) initial result
      rw [Call.run, he] at hr
      cases hr
  | myGetSegment c env userThreadSeg =>
      cases hf : env.found with
      | none =>
          rw [Call.run, run_myGetSegment_null hf] at hr
          cases hr
      | some found => exact live_myGetSegment env hf (c.withHeap h) userThreadSeg

theorem Call.live_subset {c : Call} (hr : c.Returns h) : h.live ⊆ (c.heapAfter h).live := by
  by_cases hb : c.Balanced
  · exact hb.live.ge
  · rw [live_of_returns hr hb]
    exact Set.subset_insert _ _

theorem live_subset_heapAfter {cs : List Call} (hr : AllReturn h cs) :
    h.live ⊆ (heapAfter h cs).live := by
  induction cs generalizing h with
  | nil => exact subset_rfl
  | cons c cs ih => exact (Call.live_subset hr.1).trans (ih hr.2)

/-- A context without tasks. -/
def idleContext : Context := ⟨fun _ => 0, fun _ _ => 0, 1, false, fun _ => none, []⟩

end LinuxOs2022.Syscall
