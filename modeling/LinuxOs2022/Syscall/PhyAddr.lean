import LinuxOs2022.Syscall.Kernel

/-!
# `my_other_get_phy_addr`

The system call copies an address in, walks the page tables of its caller, joins the last
entry with the page offset and copies the sum out. It prints what it meets on the way and
returns 0.

## Implementation notes

The buffer `vir_adds` belongs to the call alone, so its word is loaded once. The five levels
print the same three lines; `traceLevel` is that block of statements.
-/

namespace LinuxOs2022.Syscall

open Library PageTable

/-- What the environment of one call decides: the two allocations and where the two copies
stop. -/
structure PhyAddrEnv where
  virFound : Option (ℕ → Byte)
  phyFound : Option (ℕ → Byte)
  copiedIn : ℕ
  copiedOut : ℕ

/-- Both allocations of the call succeed. -/
def PhyAddrEnv.Allocates (env : PhyAddrEnv) : Prop :=
  env.virFound.isSome ∧ env.phyFound.isSome

/-- Both allocations succeed and both copies are complete. -/
def PhyAddrEnv.Complete (env : PhyAddrEnv) : Prop :=
  env.Allocates ∧ 8 ≤ env.copiedIn ∧ 8 ≤ env.copiedOut

instance (env : PhyAddrEnv) : Decidable env.Allocates :=
  inferInstanceAs (Decidable (_ ∧ _))

instance (env : PhyAddrEnv) : Decidable env.Complete :=
  inferInstanceAs (Decidable (_ ∧ _ ∧ _))

/-- The lines printed about one entry; an empty entry is reported and nothing else is done
about it. -/
def traceLevel (val index unmapped : String) (e : Word) (i : Index) (none : Bool) :
    Kernel Unit := do
  printk val [e]
  printk index [i.setWidth 64]
  if none then printk unmapped []

/-- The walk of the system call through the tables of `current->mm`, down to `*pte`. -/
def walk (v : Word) : Kernel Word := do
  let k ← get
  let pgd := pgdOffset k.l5 k.pgd v
  traceLevel "pgd_val = 0x%lx\n" "pgd_index = %lu\n" "not mapped in pgdn"
    (k.mem.read pgd) (pgdIndex k.l5 v) (pgdNone k.l5 (k.mem.read pgd))
  let p4d := p4dOffset k.l5 k.mem pgd v
  traceLevel "p4d_val = 0x%lx\n" "p4d_index = %lu\n" "not mapped in p4d"
    (k.mem.read p4d) (p4dIndex k.l5 v) (p4dNone (k.mem.read p4d))
  let pud := pudOffset k.mem p4d v
  traceLevel "pud_val = 0x%lx\n" "pud_index = %lu\n" "not mapped in pudn"
    (k.mem.read pud) (pudIndex v) (entryNone (k.mem.read pud))
  let pmd := pmdOffset k.mem pud v
  traceLevel "pmd_val = 0x%lx\n" "pmd_index = %lu\n" "not mapped in pmdn"
    (k.mem.read pmd) (pmdIndex v) (entryNone (k.mem.read pmd))
  let pte := pteOffsetKernel k.mem pmd v
  traceLevel "pte_val = 0x%lx\n" "pte_index = %lu\n" "not mapped in pten"
    (k.mem.read pte) (pteIndex v) (entryNone (k.mem.read pte))
  pure (k.mem.read pte)

/-- `my_other_get_phy_addr(initial, result)`. -/
def myOtherGetPhyAddr (env : PhyAddrEnv) (initial result : Word) : Kernel Word := do
  let virAdds ← kmalloc 8 env.virFound
  let phyAdds ← kmalloc 8 env.phyFound
  let a ← copyFromUser virAdds initial 8 env.copiedIn
  printk "%lu" [a]
  let buffer ← readBlock virAdds
  let v := wordOf fun i => buffer.getD i 0
  let pte ← walk v
  let pageAddr := pte &&& pageMask
  let pageOffset := v &&& ~~~ pageMask
  writeBlock phyAdds (bytesOf (pageAddr ||| pageOffset))
  printk "page_addr = %lx\n" [pageAddr]
  printk "page_offset = %lx\n" [pageOffset]
  printk "vaddr =%lx, paddr = %lx\n" [v, pageAddr ||| pageOffset]
  -- the count of bytes not copied is dropped
  let _ ← copyToUser result phyAdds 8 env.copiedOut
  kfree virAdds
  kfree phyAdds
  pure 0

/-- The address the call works on: the bytes that were copied, zeros above them. -/
def addressRead (env : PhyAddrEnv) (u : UserMem) (initial : Word) : Word :=
  wordOf fun i => if i < env.copiedIn then u (initial + BitVec.ofNat 64 i) else 0

/-- The value the call computes. -/
def valueComputed (env : PhyAddrEnv) (k : KState) (initial : Word) : Word :=
  let v := addressRead env k.user initial
  joinPage (pteWord k.l5 k.mem k.pgd v) v

theorem addressRead_of_le {env : PhyAddrEnv} (h : 8 ≤ env.copiedIn) (u : UserMem)
    (initial : Word) : addressRead env u initial = u.word initial := by
  apply wordOf_congr
  intro i hi
  rw [if_pos (by omega)]

/-- A computation that returns `r` and only prints. -/
def Prints {α : Type} (x : Kernel α) (r : α) : Prop :=
  ∀ k, ∃ lines, x.run k = .ok r { k with dmesg := k.dmesg ++ lines }

theorem Prints.printk (fmt : String) (args : List Word) : Prints (printk fmt args) () :=
  fun _ => ⟨[(fmt, args)], rfl⟩

theorem Prints.pure {α : Type} (r : α) : Prints (pure r : Kernel α) r :=
  fun k => ⟨[], by simp only [List.append_nil]; rfl⟩

theorem Prints.bind {α β : Type} {x : Kernel α} {f : α → Kernel β} {r : α} {r' : β}
    (hx : Prints x r) (hf : Prints (f r) r') : Prints (x >>= f) r' := by
  intro k
  obtain ⟨l, hl⟩ := hx k
  obtain ⟨l', hl'⟩ := hf { k with dmesg := k.dmesg ++ l }
  refine ⟨l ++ l', ?_⟩
  rw [run_bind_ok hl, hl', List.append_assoc]

/-- The printed lines are the only trace of one level, whether its entry is empty or not. -/
theorem Prints.traceLevel (val index unmapped : String) (e : Word) (i : Index)
    (none : Bool) : Prints (traceLevel val index unmapped e i none) () := by
  refine .bind (.printk _ _) (.bind (.printk _ _) ?_)
  cases none
  · exact .pure ()
  · exact .printk _ _

/-- The walk never stops early: it ends at the entry of the chain of calls, whatever the
entries before it are. -/
theorem run_walk (v : Word) (k : KState) :
    ∃ lines, (walk v).run k =
      .ok (pteWord k.l5 k.mem k.pgd v) { k with dmesg := k.dmesg ++ lines } := by
  rw [walk, run_bind_ok run_get]
  refine Prints.bind (.traceLevel _ _ _ _ _ _) ?_ k
  refine .bind (.traceLevel _ _ _ _ _ _) ?_
  refine .bind (.traceLevel _ _ _ _ _ _) ?_
  refine .bind (.traceLevel _ _ _ _ _ _) ?_
  exact .bind (.traceLevel _ _ _ _ _ _) (.pure _)

/-- The word in the buffer after the copy is the address the call works on. -/
theorem wordOf_copiedBuffer (env : PhyAddrEnv) (u : UserMem) (initial : Word) :
    wordOf (fun i => (copiedBuffer u initial 8 env.copiedIn).getD i 0) =
      addressRead env u initial := by
  apply wordOf_congr
  intro i hi
  simp [copiedBuffer, hi, List.getD_eq_getElem?_getD]

/-- With both blocks allocated the call runs to its end, whatever it finds in the tables. -/
theorem run_myOtherGetPhyAddr {env : PhyAddrEnv} (ha : env.Allocates) (k : KState)
    (initial result : Word) :
    ∃ h log, h.live = k.heap.live ∧
      (myOtherGetPhyAddr env initial result).run k =
        .ok 0 { k with
          heap := h
          user := k.user.write result
            ((bytesOf (valueComputed env k initial)).take env.copiedOut)
          dmesg := log } := by
  obtain ⟨⟨vir, hvir⟩, ⟨phy, hphy⟩⟩ :=
    And.imp Option.isSome_iff_exists.mp Option.isSome_iff_exists.mp ha
  let buf := copiedBuffer k.user initial 8 env.copiedIn
  let out := bytesOf (valueComputed env k initial)
  let i := k.heap.fresh
  let j := k.heap.fresh + 1
  have hij : i ≠ j := (Nat.lt_succ_self _).ne
  -- the heap after the allocations, after the copy in, after the walk, after the first free
  let h₂ := (k.heap.alloc ((List.range 8).map vir)).alloc ((List.range 8).map phy)
  let h₃ := h₂.write i buf
  let h₄ := h₃.write j out
  have hi₂ : h₂.block i = some ((List.range 8).map vir) := by
    rw [Heap.block_alloc_of_ne _ _ hij, Heap.block_alloc_self]
  have hj₂ : h₂.block j = some ((List.range 8).map phy) := Heap.block_alloc_self _ _
  have hi₃ : h₃.block i = some buf := Heap.block_write_self hi₂ buf
  have hj₃ : h₃.block j = some ((List.range 8).map phy) := by
    rw [Heap.block_write_of_ne _ _ hij.symm, hj₂]
  have hi₄ : h₄.block i = some buf := by rw [Heap.block_write_of_ne _ _ hij, hi₃]
  have hj₄ : h₄.block j = some out := Heap.block_write_self hj₃ out
  have hj₅ : (h₄.free i).block j = some out := by
    rw [Heap.block_free_of_ne _ hij.symm, hj₄]
  have hlive : ((h₄.free i).free j).live = k.heap.live := by
    simp only [h₄, h₃, Heap.live_free, Heap.live_write]
    exact k.heap.live_alloc_alloc_diff _ _
  rw [myOtherGetPhyAddr, hvir, hphy, run_bind_ok (run_kmalloc_some _ _),
    run_bind_ok (run_kmalloc_some _ _), run_bind_ok (run_copyFromUser hi₂ _ _ _),
    run_bind_ok (run_printk _ _), run_bind_ok (run_readBlock hi₃)]
  dsimp only
  rw [wordOf_copiedBuffer]
  obtain ⟨l, hl⟩ := run_walk (addressRead env k.user initial) _
  rw [run_bind_ok hl, run_bind_ok (run_writeBlock hj₃ _), run_bind_ok (run_printk _ _),
    run_bind_ok (run_printk _ _), run_bind_ok (run_printk _ _),
    run_bind_ok (run_copyToUser hj₄ _ _ _), run_bind_ok (run_kfree hi₄),
    run_bind_ok (run_kfree hj₅)]
  exact ⟨_, _, hlive, rfl⟩

/-- A failed allocation is not tested: the first use of the NULL pointer stops the call. -/
theorem run_myOtherGetPhyAddr_null {env : PhyAddrEnv} (ha : ¬ env.Allocates) (k : KState)
    (initial result : Word) :
    ∃ k', (myOtherGetPhyAddr env initial result).run k = .error .nullDereference k' := by
  rw [myOtherGetPhyAddr]
  cases hvir : env.virFound with
  | none =>
      cases hphy : env.phyFound with
      | none =>
          rw [run_bind_ok (run_kmalloc_none _), run_bind_ok (run_kmalloc_none _)]
          exact ⟨_, run_bind_error (run_copyFromUser_null _ _ _)⟩
      | some phy =>
          rw [run_bind_ok (run_kmalloc_none _), run_bind_ok (run_kmalloc_some _ _)]
          exact ⟨_, run_bind_error (run_copyFromUser_null _ _ _)⟩
  | some vir =>
      cases hphy : env.phyFound with
      | none =>
          have hi := k.heap.block_alloc_self ((List.range 8).map vir)
          rw [run_bind_ok (run_kmalloc_some _ _), run_bind_ok (run_kmalloc_none _),
            run_bind_ok (run_copyFromUser hi _ _ _), run_bind_ok (run_printk _ _),
            run_bind_ok (run_readBlock (Heap.block_write_self hi _))]
          dsimp only
          obtain ⟨l, hl⟩ := run_walk (wordOf fun i =>
            (copiedBuffer k.user initial 8 env.copiedIn).getD i 0) _
          rw [run_bind_ok hl]
          exact ⟨_, run_bind_error (run_writeBlock_null _)⟩
      | some phy =>
          exact absurd ⟨by simp [hvir], by simp [hphy]⟩ ha

/-! ## A process image

One table of each level; the PTEs 0 and 1 map the same frame, the first writable with NX,
the second read-only and executable. -/

/-- The tables of the image in frames 1 to 4. -/
def imageTables : PhysMem := fun f i =>
  if f = 1 ∧ i = 0 then 0x2067
  else if f = 2 ∧ i = 0 then 0x3067
  else if f = 3 ∧ i = 2 then 0x4067
  else if f = 4 ∧ i = 0 then 0x8000000000005067
  else if f = 4 ∧ i = 1 then 0x5025
  else 0

/-- The image with the address `a` stored at 0x7000. -/
def imageState (a : Word) : KState where
  heap := .empty
  user := UserMem.write (fun _ => 0) 0x7000 (bytesOf a)
  mem := imageTables
  pgd := 1
  l5 := false
  task := fun _ => none
  dmesg := []

/-- A call in which nothing fails. -/
def quietEnv : PhyAddrEnv := ⟨some fun _ => 0, some fun _ => 0, 8, 8⟩

theorem quietEnv_complete : quietEnv.Complete := by decide

theorem imageState_mem (a b : Word) : (imageState a).mem = (imageState b).mem := rfl

theorem imageState_l5 (a b : Word) : (imageState a).l5 = (imageState b).l5 := rfl

theorem imageState_word (a : Word) : (imageState a).user.word 0x7000 = a :=
  UserMem.word_write _ _ _

end LinuxOs2022.Syscall
