import LinuxOs2022.Syscall.Sharing

/-!
# What the call reveals about kernel mappings

No check stands between the address copied in and the walk: the index of the top level is
just bits 39..47 of the number. Where the entries down to the PMD are present table entries
of the user half, the walk reads nothing but that half. A number of the kernel half, an entry
that is not present and a 1 GB leaf all take it elsewhere.

## Implementation notes

The kernel half is the half of a four-level tree, so the results are about four levels.
-/

namespace LinuxOs2022.Syscall

open Library PageTable

/-- The tables and pages below the user half of the root, with the level of a table: 3 for
tables of PUD entries down to 1 for tables of PTEs, and 0 for the frames of a page. -/
inductive UserNode (m : PhysMem) (root : Frame) : ℕ → Frame → Prop
  | top (i : Index) (hi : i.toNat < 256) (hp : present (m root i)) :
      UserNode m root 3 (frame (m root i))
  | next {n : ℕ} {f : Frame} (hf : UserNode m root (n + 1) f) (i : Index)
      (hp : present (m f i)) (hn : n = 0 ∨ ¬ pse (m f i)) : UserNode m root n (frame (m f i))
  | huge {n : ℕ} {f : Frame} (hf : UserNode m root (n + 2) f) (i : Index)
      (hp : present (m f i)) (hl : pse (m f i)) (g : Frame)
      (hg : g >>> (9 * (n + 1)) = frame (m f i) >>> (9 * (n + 1))) : UserNode m root 0 g

/-- Two memories with the same user half: the top-level entries below 256, the tables below
them and the pages those map. -/
def SameUserHalf (m m' : PhysMem) (root : Frame) : Prop :=
  (∀ i : Index, i.toNat < 256 → m' root i = m root i) ∧
    ∀ n f, UserNode m root n f → m' f = m f

/-- Bit 47 of the address is clear, the entries above the PTE are present and the PUD entry
is no 1 GB leaf. -/
def WalksUserHalf (m : PhysMem) (root : Frame) (a : Word) : Prop :=
  let e4 := m root (field 39 a)
  let e3 := m (frame e4) (field 30 a)
  let e2 := m (frame e3) (field 21 a)
  (field 39 a).toNat < 256 ∧ present e4 ∧ present e3 ∧ ¬ pse e3 ∧ present e2

instance (m : PhysMem) (root : Frame) (a : Word) : Decidable (WalksUserHalf m root a) :=
  inferInstanceAs (Decidable (_ ∧ _ ∧ _ ∧ _ ∧ _))

/-- What the caller sees of a call: the return value and its memory, nothing after an
oops. -/
def observe : EStateM.Result Oops KState Word → Option (Word × UserMem)
  | .ok r k => some (r, k.user)
  | .error _ _ => none

/-- A walk through the user half reads the same words in both memories. -/
theorem pteWord_congr {m m' : PhysMem} {root : Frame} (hs : SameUserHalf m m' root)
    {a : Word} (ha : WalksUserHalf m root a) :
    pteWord false m' root a = pteWord false m root a := by
  obtain ⟨hi, hp4, hp3, hn3, hp2⟩ := ha
  have n3 := UserNode.top _ hi hp4
  have n2 := n3.next _ hp3 (.inr hn3)
  have hread : ∀ p ∈ Radix.trail m root (⟨field 39 a, frame⟩ :: hops4 a),
      m'.read p = m.read p := by
    simp only [hops4, Radix.trail, List.forall_mem_cons, pudFrame, if_neg hn3]
    refine ⟨hs.1 _ hi, congrFun (hs.2 _ _ n3) _, congrFun (hs.2 _ _ n2) _, ?_, by simp⟩
    by_cases hl : pse (m (frame (m (frame (m root (field 39 a))) (field 30 a))) (field 21 a))
    · have n0 := n2.huge _ hp2 hl _ (leafFrame_shift 1 _)
      simp only [pmdFrame, if_pos hl]
      exact congrFun (hs.2 _ _ n0) _
    · have n1 := n2.next _ hp2 (.inr hl)
      simp only [pmdFrame, if_neg hl]
      exact congrFun (hs.2 _ _ n1) _
  rw [pteWord, pteWord, ptePtr_eq_arrive, ptePtr_eq_arrive]
  simp only [tableP4d, Bool.false_eq_true, if_false]
  rw [Radix.arrive_congr hread]
  exact hread _ (Radix.arrive_mem_trail _ _ _ _)

/-- For an address whose walk stays in the user half the caller sees the same in both
machines, whatever becomes of the allocations and the copies. -/
theorem observe_eq_of_sameUserHalf (env : PhyAddrEnv) (k k' : KState) (hl : k.l5 = false)
    (hl' : k'.l5 = false) (hp : k'.pgd = k.pgd) (hu : k'.user = k.user)
    (hs : SameUserHalf k.mem k'.mem k.pgd) {initial : Word}
    (hw : WalksUserHalf k.mem k.pgd (addressRead env k.user initial)) (result : Word) :
    observe ((myOtherGetPhyAddr env initial result).run k') =
      observe ((myOtherGetPhyAddr env initial result).run k) := by
  by_cases ha : env.Allocates
  · obtain ⟨_, _, -, hr⟩ := run_myOtherGetPhyAddr ha k initial result
    obtain ⟨_, _, -, hr'⟩ := run_myOtherGetPhyAddr ha k' initial result
    have hv : valueComputed env k' initial = valueComputed env k initial := by
      simp only [valueComputed, hl, hl', hp, hu]
      rw [pteWord_congr hs hw]
    rw [hr, hr']
    simp only [observe, hv, hu]
  · obtain ⟨_, hr⟩ := run_myOtherGetPhyAddr_null ha k initial result
    obtain ⟨_, hr'⟩ := run_myOtherGetPhyAddr_null ha k' initial result
    rw [hr, hr']
    rfl

/-! ## A machine with a kernel half

The kernel tables are frames 2, 3 and 4, with one PTE in frame 4. In the user half PMD entry
0 of frame 9 is not present but holds the bits of frame 4, PMD entry 1 leads to a table of
PTEs, and PUD entry 1 is a 1 GB leaf whose page starts with a word for frame 4. -/

/-- The memory of the machine with the given kernel PTE. -/
def machineTables (kernelPte : Word) : PhysMem := fun f i =>
  if f = 1 ∧ i = 256 then 0x2063
  else if f = 2 ∧ i = 0 then 0x3063
  else if f = 3 ∧ i = 0 then 0x4063
  else if f = 4 ∧ i = 0 then kernelPte
  else if f = 1 ∧ i = 0 then 0x8067
  else if f = 8 ∧ i = 0 then 0x9067
  else if f = 8 ∧ i = 1 then 0x400000e7
  else if f = 9 ∧ i = 0 then 0x4000
  else if f = 9 ∧ i = 1 then 0xa067
  else if f = 0x40000 ∧ i = 0 then 0x4007
  else 0

/-- The process on that machine, with the address `a` stored at 0x7000. -/
def machineState (kernelPte a : Word) : KState :=
  { imageState a with mem := machineTables kernelPte }

section Machine

variable (x y : Word)

theorem machineTables_root {i : Index} (hi : i.toNat < 256) :
    machineTables x 1 i = if i = 0 then 0x8067 else 0 := by
  have h : ¬ i = 256#9 := by
    rintro rfl
    exact absurd hi (by decide)
  simp [machineTables, h]

theorem machineTables_pud (i : Index) :
    machineTables x 8 i = if i = 0 then 0x9067 else if i = 1 then 0x400000e7 else 0 := by
  simp [machineTables]

theorem machineTables_pmd (i : Index) :
    machineTables x 9 i = if i = 0 then 0x4000 else if i = 1 then 0xa067 else 0 := by
  simp [machineTables]

theorem machineTables_pte (i : Index) : machineTables x 0xa i = 0 := by
  simp [machineTables]

/-- The tables and pages of the user half of the machine. -/
theorem userNode_machine {n : ℕ} {f : Frame} (h : UserNode (machineTables x) 1 n f) :
    (n = 3 ∧ f = 8) ∨ (n = 2 ∧ f = 9) ∨ (n = 1 ∧ f = 0xa) ∨ (n = 0 ∧ f >>> 18 = 1) := by
  induction h with
  | top i hi hp =>
      rw [machineTables_root x hi] at hp ⊢
      split at hp
      next h0 => rw [if_pos h0]; decide
      next => exact absurd hp (by decide)
  | @next n f hf i hp hn ih =>
      obtain ⟨h3, rfl⟩ | ⟨h2, rfl⟩ | ⟨h1, rfl⟩ | ⟨h0, -⟩ := ih
      · obtain rfl : n = 2 := by omega
        rw [machineTables_pud] at hp hn ⊢
        split at hp
        next h0 => rw [if_pos h0]; decide
        next h0 =>
          split at hp
          next h1 => rw [if_neg h0, if_pos h1] at hn; exact absurd hn (by decide)
          next => exact absurd hp (by decide)
      · obtain rfl : n = 1 := by omega
        rw [machineTables_pmd] at hp ⊢
        split at hp
        next => exact absurd hp (by decide)
        next h0 =>
          split at hp
          next h1 => rw [if_neg h0, if_pos h1]; decide
          next => exact absurd hp (by decide)
      · rw [machineTables_pte] at hp
        exact absurd hp (by decide)
      · omega
  | @huge n f hf i hp hl g hg ih =>
      obtain ⟨h3, rfl⟩ | ⟨h2, rfl⟩ | ⟨h1, rfl⟩ | ⟨h0, -⟩ := ih
      · obtain rfl : n = 1 := by omega
        rw [machineTables_pud] at hp hl hg
        split at hp
        next h0 => rw [if_pos h0] at hl; exact absurd hl (by decide)
        next h0 =>
          split at hp
          next h1 =>
            rw [if_neg h0, if_pos h1] at hg
            exact .inr (.inr (.inr ⟨rfl, hg.trans (by decide)⟩))
          next => exact absurd hp (by decide)
      · rw [machineTables_pmd] at hp hl
        split at hp
        next => exact absurd hp (by decide)
        next h0 =>
          split at hp
          next h1 => rw [if_neg h0, if_pos h1] at hl; exact absurd hl (by decide)
          next => exact absurd hp (by decide)
      · omega
      · omega

/-- Machines that differ in the kernel PTE have the same user half. -/
theorem sameUserHalf_machine : SameUserHalf (machineTables x) (machineTables y) 1 := by
  constructor
  · intro i hi
    rw [machineTables_root x hi, machineTables_root y hi]
  · intro n f hf
    have h4 : ¬ f = 4#40 := by
      rintro rfl
      exact absurd (userNode_machine x hf) (by simp)
    funext i
    simp [machineTables, h4]

end Machine

/-- Address 0x201000 of the machine is walked inside the user half. -/
theorem observe_eq_machine :
    observe ((myOtherGetPhyAddr quietEnv 0x7000 0x7008).run (machineState 0x6063 0x201000)) =
      observe ((myOtherGetPhyAddr quietEnv 0x7000 0x7008).run
        (machineState 0x5063 0x201000)) :=
  observe_eq_of_sameUserHalf quietEnv (machineState 0x5063 0x201000)
    (machineState 0x6063 0x201000) rfl rfl rfl rfl (sameUserHalf_machine 0x5063 0x6063)
    (by
      have h : addressRead quietEnv (machineState 0x5063 0x201000).user 0x7000 = 0x201000 :=
        (addressRead_of_le (by decide) _ _).trans (imageState_word _)
      rw [h]
      decide) 0x7008

/-- What a call with complete copies stores is the joined last word of its walk. -/
theorem observe_ne_of_pteWord (k k' : KState) (hu : k'.user = k.user) (initial result : Word)
    (h : joinPage (pteWord k'.l5 k'.mem k'.pgd (k.user.word initial)) (k.user.word initial) ≠
      joinPage (pteWord k.l5 k.mem k.pgd (k.user.word initial)) (k.user.word initial)) :
    observe ((myOtherGetPhyAddr quietEnv initial result).run k') ≠
      observe ((myOtherGetPhyAddr quietEnv initial result).run k) := by
  obtain ⟨s, hr, hw⟩ := stored_word quietEnv_complete k initial result
  obtain ⟨s', hr', hw'⟩ := stored_word quietEnv_complete k' initial result
  rw [hr, hr']
  intro he
  have hs : s'.user = s.user := congrArg Prod.snd (Option.some.inj he)
  rw [← hw, ← hs, hw', hu] at h
  exact h rfl

/-- The caller can tell machines with the same user half apart: by the number
0xffff800000000000 of the kernel half, by address 0, below an entry that is not present, and
by address 0x40000000, below a 1 GB leaf. -/
theorem observe_ne_machine :
    SameUserHalf (machineTables 0x5063) (machineTables 0x6063) 1 ∧
      ∀ a ∈ [0xffff800000000000, 0, 0x40000000],
        observe ((myOtherGetPhyAddr quietEnv 0x7000 0x7008).run (machineState 0x6063 a)) ≠
          observe ((myOtherGetPhyAddr quietEnv 0x7000 0x7008).run (machineState 0x5063 a)) := by
  refine ⟨sameUserHalf_machine _ _, ?_⟩
  intro a ha
  refine observe_ne_of_pteWord (machineState 0x5063 a) (machineState 0x6063 a) rfl
    0x7000 0x7008 ?_
  have hw : (machineState 0x5063 a).user.word 0x7000 = a := imageState_word a
  rw [hw]
  simp only [List.mem_cons, List.not_mem_nil, or_false] at ha
  obtain rfl | rfl | rfl := ha <;> decide

end LinuxOs2022.Syscall
