import LinuxOs2022.Library.Heap
import LinuxOs2022.Library.Runs

/-!
# Reading an object through a pointer that is loaded anew for each field

A reader collects the fields of an object. For each field it loads a shared pointer and then
reads through what it loaded, without a reference and without a test. Meanwhile the owner may
clear the pointer, let it point to a new object and release an object that the pointer does
not name. The reader is safe, and reads one object only, exactly when the owner leaves the
pointer alone from the first load to the last and the object until the last read.

## Implementation notes

Objects are blocks of a heap whose numbers are never used twice, so two objects are told
apart even after one of them was released.
-/

namespace LinuxOs2022.Library.Reload

universe u v

/-- What the reader does next. `stopped p` is a read through `p` that went wrong. -/
inductive Phase
  | load
  | field (p : Option ℕ)
  | stopped (p : Option ℕ)
  deriving DecidableEq

/-- The shared objects with the pointer to them, and the reader: its phase and the fields it
has read, each with the object that it was read from. -/
structure State (V : Type u) (β : Type v) where
  heap : Heap V
  ptr : Option ℕ
  phase : Phase
  values : List (ℕ × β)

/-- What the reader and the owner do. -/
inductive Event (V : Type u)
  | load
  | read
  | clear
  | replace (v : V)
  | release (i : ℕ)

variable {V : Type u} {β : Type v} {fields : List (V → β)} {s s₀ s' : State V β}
  {e : Event V} {es : List (Event V)}

/-- The steps of a reader of `fields` and of the owner. -/
inductive Step (fields : List (V → β)) : State V β → Event V → State V β → Prop
  | load (s : State V β) (hp : s.phase = .load) (hn : s.values.length < fields.length) :
      Step fields s .load { s with phase := .field s.ptr }
  | read (s : State V β) (i : ℕ) (v : V) (f : V → β) (hp : s.phase = .field (some i))
      (hf : fields[s.values.length]? = some f) (hb : s.heap.block i = some v) :
      Step fields s .read { s with phase := .load, values := s.values ++ [(i, f v)] }
  | fault (s : State V β) (p : Option ℕ) (hp : s.phase = .field p)
      (hb : p.bind s.heap.block = none) : Step fields s .read { s with phase := .stopped p }
  | clear (s : State V β) : Step fields s .clear { s with ptr := none }
  | replace (s : State V β) (v : V) :
      Step fields s (.replace v) { s with ptr := some s.heap.fresh, heap := s.heap.alloc v }
  | release (s : State V β) (i : ℕ) (hi : s.ptr ≠ some i) :
      Step fields s (.release i) { s with heap := s.heap.free i }

/-- The reader has not begun, and the pointer names a live object or none. -/
structure Ready (s : State V β) : Prop where
  phase : s.phase = .load
  values : s.values = []
  live : ∀ i, s.ptr = some i → (s.heap.block i).isSome

/-- The reader has read all fields or has stopped. -/
def Ended (fields : List (V → β)) (s : State V β) : Prop :=
  (s.phase = .load ∧ s.values.length = fields.length) ∨ ∃ p, s.phase = .stopped p

/-- All fields so far are those of the object `v` with number `i`. -/
def Fetched (fields : List (V → β)) (s : State V β) (i : ℕ) (v : V) : Prop :=
  s.values = (fields.take s.values.length).map fun f => (i, f v)

/-- No read went wrong and all fields so far come from one object. -/
structure Consistent (fields : List (V → β)) (s : State V β) : Prop where
  noFault : ∀ p, s.phase ≠ .stopped p
  oneObject : s.values ≠ [] → ∃ i v, Fetched fields s i v

/-- The reader is between the first and the last load of the pointer. -/
def Between (fields : List (V → β)) (s : State V β) : Prop :=
  match s.phase with
  | .load => s.values ≠ [] ∧ s.values.length < fields.length
  | .field _ => s.values.length + 1 < fields.length
  | .stopped _ => False

/-- The reader loads no NULL, and the owner neither changes the pointer between the first and
the last load nor releases what the reader holds. -/
def Undisturbed (fields : List (V → β)) (s : State V β) : Event V → Prop
  | .load => s.ptr.isSome
  | .read => True
  | .clear => ¬ Between fields s
  | .replace _ => ¬ Between fields s
  | .release i => s.phase ≠ .field (some i)

/-- The steps in which the owner does not get in the way. -/
def QuietStep (fields : List (V → β)) (s : State V β) (e : Event V) (s' : State V β) : Prop :=
  Step fields s e s' ∧ Undisturbed fields s e

/-! ## Undisturbed runs -/

/-- Where an undisturbed reader is. -/
inductive Good (fields : List (V → β)) (s : State V β) : Prop
  | start (hp : s.phase = .load) (hv : s.values = [])
  | between (i : ℕ) (v : V) (hp : s.phase = .load) (hv : s.values ≠ [])
      (hf : Fetched fields s i v)
      (hn : s.values.length < fields.length → s.ptr = some i ∧ s.heap.block i = some v)
  | holding (i : ℕ) (v : V) (hp : s.phase = .field (some i)) (hf : Fetched fields s i v)
      (hb : s.heap.block i = some v) (hn : s.values.length + 1 < fields.length → s.ptr = some i)

/-- The pointer names a live object or none. -/
def Live (s : State V β) : Prop := ∀ i, s.ptr = some i → (s.heap.block i).isSome

theorem Step.live (h : Step fields s e s') (hs : Live s) : Live s' := by
  cases h with
  | load | read | fault => exact hs
  | clear => exact fun i hi => nomatch hi
  | replace v =>
      rintro i hi
      obtain rfl := Option.some.inj hi
      exact Option.isSome_iff_exists.mpr ⟨v, Heap.block_alloc_self _ _⟩
  | release i hi =>
      intro j hj
      have hne : j ≠ i := fun hji => hi (hji ▸ hj)
      simpa only [Heap.block_free_of_ne _ hne] using hs j hj

/-- A live block has a number that was handed out. -/
theorem lt_fresh {h : Heap V} {i : ℕ} {v : V} (hb : h.block i = some v) : i < h.fresh := by
  by_contra hlt
  rw [h.bounded i (not_lt.mp hlt)] at hb
  cases hb

theorem Fetched.append {i : ℕ} {v : V} {f : V → β} (h : Fetched fields s i v)
    (hf : fields[s.values.length]? = some f) :
    s.values ++ [(i, f v)] =
      (fields.take (s.values ++ [(i, f v)]).length).map fun f => (i, f v) := by
  rw [List.length_append, List.length_singleton, List.take_add_one, hf, List.map_append, ← h]
  rfl

theorem between_load (hp : s.phase = .load) :
    Between fields s ↔ s.values ≠ [] ∧ s.values.length < fields.length := by
  rw [Between, hp]

theorem between_field {p : Option ℕ} (hp : s.phase = .field p) :
    Between fields s ↔ s.values.length + 1 < fields.length := by
  rw [Between, hp]

/-- What an undisturbed reader holds between a load and its read is live. -/
theorem Good.holds (hg : Good fields s) {p : Option ℕ} (hp : s.phase = .field p) :
    ∃ i v, p = some i ∧ Fetched fields s i v ∧ s.heap.block i = some v ∧
      (s.values.length + 1 < fields.length → s.ptr = some i) := by
  cases hg with
  | start hp' => rw [hp] at hp'; cases hp'
  | between _ _ hp' => rw [hp] at hp'; cases hp'
  | holding i v hp' hf hb hn =>
      rw [hp] at hp'
      exact ⟨i, v, Phase.field.inj hp', hf, hb, hn⟩

/-- The owner changes the pointer outside the loads, or nothing that the reader needs. -/
theorem Good.owner (hg : Good fields s) (hp : s'.phase = s.phase) (hv : s'.values = s.values)
    (hptr : Between fields s → s'.ptr = s.ptr)
    (hb : ∀ i v, s.heap.block i = some v → s.phase = .field (some i) ∨ s.ptr = some i →
      s'.heap.block i = some v) : Good fields s' := by
  cases hg with
  | start hp₀ hv₀ => exact .start (hp.trans hp₀) (hv.trans hv₀)
  | between i v hp₀ hv₀ hf hn =>
      refine .between i v (hp.trans hp₀) (hv ▸ hv₀) ?_ ?_
      · rwa [Fetched, hv]
      · intro hlt
        rw [hv] at hlt
        obtain ⟨hi, hbi⟩ := hn hlt
        have hbet : Between fields s := (between_load hp₀).mpr ⟨hv₀, hlt⟩
        exact ⟨(hptr hbet).trans hi, hb i v hbi (.inr hi)⟩
  | holding i v hp₀ hf hbi hn =>
      refine .holding i v (hp.trans hp₀) ?_ (hb i v hbi (.inl hp₀)) ?_
      · rwa [Fetched, hv]
      · intro hlt
        rw [hv] at hlt
        exact (hptr ((between_field hp₀).mpr hlt)).trans (hn hlt)

/-- One step of an undisturbed run. -/
theorem Good.step (hg : Good fields s) (hl : Live s) (h : Step fields s e s')
    (hu : Undisturbed fields s e) : Good fields s' := by
  cases h with
  | load hp hn =>
      cases hg with
      | start _ hv =>
          obtain ⟨i, hi⟩ := Option.isSome_iff_exists.mp hu
          obtain ⟨v, hb⟩ := Option.isSome_iff_exists.mp (hl i hi)
          refine .holding i v (congrArg Phase.field hi) ?_ hb fun _ => hi
          simp [Fetched, hv]
      | between i v _ _ hf hrest =>
          obtain ⟨hi, hb⟩ := hrest hn
          exact .holding i v (congrArg Phase.field hi) hf hb fun _ => hi
      | holding i v hp' => rw [hp] at hp'; cases hp'
  | read i v f hp hf hb =>
      obtain ⟨j, w, hij, hfet, hb', hn⟩ := hg.holds hp
      obtain rfl : i = j := Option.some.inj hij
      obtain rfl : v = w := Option.some.inj (hb.symm.trans hb')
      refine .between i v rfl (by simp) (hfet.append hf) ?_
      intro hlt
      exact ⟨hn (by simpa using hlt), hb⟩
  | fault p hp hb =>
      obtain ⟨i, v, rfl, -, hb', -⟩ := hg.holds hp
      rw [Option.bind_some, hb'] at hb
      cases hb
  | clear => exact hg.owner rfl rfl (fun h => absurd h hu) fun _ _ hb _ => hb
  | replace w =>
      refine hg.owner rfl rfl (fun h => absurd h hu) ?_
      intro i v hb _
      rwa [Heap.block_alloc_of_ne _ _ (lt_fresh hb).ne]
  | release j hj =>
      refine hg.owner rfl rfl (fun _ => rfl) ?_
      intro i v hb hi
      have hne : i ≠ j := by
        rintro rfl
        exact hi.elim hu hj
      rwa [Heap.block_free_of_ne _ hne]

theorem Good.consistent (hg : Good fields s) : Consistent fields s := by
  cases hg with
  | start hp hv => exact ⟨fun p h => (nomatch hp.symm.trans h), fun h => absurd hv h⟩
  | between i v hp hv hf hn => exact ⟨fun p h => (nomatch hp.symm.trans h), fun _ => ⟨i, v, hf⟩⟩
  | holding i v hp hf hb hn => exact ⟨fun p h => (nomatch hp.symm.trans h), fun _ => ⟨i, v, hf⟩⟩

/-- An undisturbed reader is somewhere in its loop over one live object. -/
theorem good_of_quiet (h : Run (QuietStep fields) s es s') (hl : Live s) (hg : Good fields s) :
    Good fields s' := by
  induction h with
  | nil s => exact hg
  | cons hstep _ ih => exact ih (hstep.1.live hl) (hg.step hl hstep.1 hstep.2)

/-- Before its first step a reader is undisturbed. -/
theorem Ready.good (h : Ready s) : Good fields s := .start h.phase h.values

/-! ## Disturbed runs -/

/-- The reader has taken up object `i`. -/
def Took (s : State V β) (i : ℕ) : Prop :=
  (∃ a ∈ s.values, a.1 = i) ∨ s.phase = .field (some i)

/-- Something went wrong that no later step can repair. -/
inductive Doomed (fields : List (V → β)) (s : State V β) : Prop
  | stopped (p : Option ℕ) (hp : s.phase = .stopped p)
  | mixed (a b : ℕ × β) (ha : a ∈ s.values) (hb : b ∈ s.values) (hne : a.1 ≠ b.1)
  | dangling (p : Option ℕ) (hp : s.phase = .field p) (hb : p.bind s.heap.block = none)
      (hlt : ∀ i, p = some i → i < s.heap.fresh)
  | mixing (i : ℕ) (a : ℕ × β) (hp : s.phase = .field (some i)) (ha : a ∈ s.values)
      (hne : a.1 ≠ i)
  | moved (i : ℕ) (hbet : Between fields s) (hi : Took s i) (hlt : i < s.heap.fresh)
      (hptr : s.ptr ≠ some i)

/-- What the owner does repairs nothing. -/
theorem Doomed.owner (hd : Doomed fields s) (hp : s'.phase = s.phase)
    (hv : s'.values = s.values) (hfresh : s.heap.fresh ≤ s'.heap.fresh)
    (hptr : ∀ i, i < s.heap.fresh → s.ptr ≠ some i → s'.ptr ≠ some i)
    (hb : ∀ i, i < s.heap.fresh → s.heap.block i = none → s'.heap.block i = none) :
    Doomed fields s' := by
  cases hd with
  | stopped p hp₀ => exact .stopped p (hp.trans hp₀)
  | mixed a b ha hb₀ hne => exact .mixed a b (hv ▸ ha) (hv ▸ hb₀) hne
  | dangling p hp₀ hb₀ hlt =>
      refine .dangling p (hp.trans hp₀) ?_ fun i hi => (hlt i hi).trans_le hfresh
      cases p with
      | none => rfl
      | some i => exact hb i (hlt i rfl) hb₀
  | mixing i a hp₀ ha hne => exact .mixing i a (hp.trans hp₀) (hv ▸ ha) hne
  | moved i hbet hi hlt hptr₀ =>
      refine .moved i ?_ ?_ (hlt.trans_le hfresh) (hptr i hlt hptr₀)
      · rwa [Between, hp, hv]
      · rwa [Took, hp, hv]

/-- A doomed reader stays doomed. -/
theorem Doomed.step (hd : Doomed fields s) (h : Step fields s e s') : Doomed fields s' := by
  cases h with
  | load hp hn =>
      cases hd with
      | stopped p hp' => rw [hp] at hp'; cases hp'
      | mixed a b ha hb hne => exact .mixed a b ha hb hne
      | dangling p hp' => rw [hp] at hp'; cases hp'
      | mixing i a hp' => rw [hp] at hp'; cases hp'
      | moved i hbet hi hlt hptr =>
          obtain ⟨a, ha, rfl⟩ | hi := hi
          · cases hptr' : s.ptr with
            | none => exact .dangling none rfl rfl fun i hi => nomatch hi
            | some j => exact .mixing j a rfl ha fun hj => hptr (hj ▸ hptr')
          · rw [hp] at hi; cases hi
  | read i v f hp hf hb =>
      cases hd with
      | stopped p hp' => rw [hp] at hp'; cases hp'
      | mixed a b ha hb' hne =>
          exact .mixed a b (List.mem_append_left _ ha) (List.mem_append_left _ hb') hne
      | dangling p hp' hb' =>
          rw [hp] at hp'
          cases hp'
          rw [Option.bind_some, hb] at hb'
          cases hb'
      | mixing j a hp' ha hne =>
          rw [hp] at hp'
          cases hp'
          exact .mixed a (i, f v) (List.mem_append_left _ ha)
            (List.mem_append_right _ List.mem_cons_self) hne
      | moved j hbet hj hlt hptr =>
          refine .moved j ((between_load rfl).mpr ⟨by simp, ?_⟩) (.inl ?_) hlt hptr
          · simpa using (between_field hp).mp hbet
          · obtain ⟨a, ha, rfl⟩ | hj := hj
            · exact ⟨a, List.mem_append_left _ ha, rfl⟩
            · rw [hp] at hj
              cases hj
              exact ⟨(i, f v), List.mem_append_right _ List.mem_cons_self, rfl⟩
  | fault p hp hb => exact .stopped p rfl
  | clear => exact hd.owner rfl rfl le_rfl (fun _ _ _ h => nomatch h) fun _ _ hb => hb
  | replace w =>
      refine hd.owner rfl rfl (Nat.le_succ _) ?_ ?_
      · intro i hlt _ h
        exact hlt.ne (Option.some.inj h).symm
      · intro i hlt hb
        rwa [Heap.block_alloc_of_ne _ _ hlt.ne]
  | release j hj =>
      refine hd.owner rfl rfl le_rfl (fun _ _ h => h) ?_
      intro i _ hb
      by_cases hi : i = j
      · simp [Heap.free, hi]
      · rwa [Heap.block_free_of_ne _ hi]

theorem Fetched.fst_eq {i : ℕ} {v : V} (h : Fetched fields s i v) {a : ℕ × β}
    (ha : a ∈ s.values) : a.1 = i := by
  rw [h] at ha
  obtain ⟨f, -, rfl⟩ := List.mem_map.mp ha
  rfl

/-- Between its loads the reader has taken up an object. -/
theorem Good.took (hg : Good fields s) (hbet : Between fields s) :
    ∃ i, Took s i ∧ i < s.heap.fresh := by
  cases hg with
  | start hp hv => exact absurd hv ((between_load hp).mp hbet).1
  | between i v hp hv hf hn =>
      obtain ⟨a, ha⟩ := List.exists_mem_of_ne_nil _ hv
      exact ⟨i, .inl ⟨a, ha, hf.fst_eq ha⟩, lt_fresh (hn ((between_load hp).mp hbet).2).2⟩
  | holding i v hp hf hb hn => exact ⟨i, .inr hp, lt_fresh hb⟩

/-- A step that disturbs an undisturbed reader dooms it. -/
theorem Good.doomed (hg : Good fields s) (h : Step fields s e s') (hu : ¬ Undisturbed fields s e) :
    Doomed fields s' := by
  cases h with
  | load hp hn =>
      have hnone : s.ptr = none := by simpa [Undisturbed] using hu
      exact .dangling none (congrArg Phase.field hnone) rfl fun i hi => nomatch hi
  | read => exact absurd trivial hu
  | fault => exact absurd trivial hu
  | clear =>
      obtain ⟨i, hi, hlt⟩ := hg.took (not_not.mp hu)
      exact .moved i (not_not.mp hu) hi hlt fun h => nomatch h
  | replace w =>
      obtain ⟨i, hi, hlt⟩ := hg.took (not_not.mp hu)
      refine .moved i (not_not.mp hu) hi (hlt.trans (Nat.lt_succ_self _)) ?_
      intro h
      exact hlt.ne (Option.some.inj h).symm
  | release i hi =>
      have hp := not_not.mp hu
      obtain ⟨j, v, hij, -, hb, -⟩ := hg.holds hp
      refine .dangling (some i) hp (by simp [Heap.free]) ?_
      intro k hk
      obtain rfl : k = j := Option.some.inj (hk.symm.trans hij)
      have hlt : k < s.heap.fresh := lt_fresh hb
      exact hlt

/-- A doomed reader does not end consistent. -/
theorem Doomed.not_consistent (hd : Doomed fields s) (he : Ended fields s) :
    ¬ Consistent fields s := by
  intro hc
  obtain ⟨hp, hlen⟩ | ⟨p, hp⟩ := he
  · cases hd with
    | stopped p hp' => exact hc.noFault p hp'
    | mixed a b ha hb hne =>
        obtain ⟨i, v, hf⟩ := hc.oneObject (List.ne_nil_of_mem ha)
        exact hne ((hf.fst_eq ha).trans (hf.fst_eq hb).symm)
    | dangling p hp' => rw [hp] at hp'; cases hp'
    | mixing i a hp' => rw [hp] at hp'; cases hp'
    | moved i hbet =>
        have hlt := ((between_load hp).mp hbet).2
        omega
  · exact hc.noFault p hp

theorem quiet_or_doomed (h : Run (Step fields) s₀ es s) (hl : Live s₀) (hg : Good fields s₀) :
    Run (QuietStep fields) s₀ es s ∨ Doomed fields s := by
  induction h with
  | nil s => exact .inl (.nil s)
  | @cons s t r e es hstep tail ih =>
      by_cases hu : Undisturbed fields s e
      · exact (ih (hstep.live hl) (hg.step hl hstep hu)).imp_left (.cons ⟨hstep, hu⟩)
      · exact .inr (tail.invariant (fun _ _ _ hd hs => hd.step hs) (hg.doomed hstep hu))

/-- A run to the end of the reader is consistent exactly when it is undisturbed. -/
theorem consistent_iff_quiet (h : Run (Step fields) s₀ es s) (h₀ : Ready s₀)
    (he : Ended fields s) : Consistent fields s ↔ Run (QuietStep fields) s₀ es s := by
  constructor
  · intro hc
    obtain hq | hd := quiet_or_doomed h h₀.live h₀.good
    · exact hq
    · exact absurd hc (hd.not_consistent he)
  · exact fun hq => (good_of_quiet hq h₀.live h₀.good).consistent

/-! ## Reading on -/

/-- The events of a reader that reads `k` fields. -/
def readEvents : ℕ → List (Event V)
  | 0 => []
  | k + 1 => .load :: .read :: readEvents k

/-- Left alone with a live object, a reader reads the fields it has not read yet. -/
theorem run_readEvents {i : ℕ} {v : V} (hp : s.phase = .load) (hptr : s.ptr = some i)
    (hb : s.heap.block i = some v) {k : ℕ} (hk : s.values.length + k = fields.length) :
    ∃ s', Run (Step fields) s (readEvents k) s' ∧ s'.phase = .load ∧
      s'.values = s.values ++ (fields.drop s.values.length).map fun f => (i, f v) := by
  induction k generalizing s with
  | zero =>
      refine ⟨s, .nil s, hp, ?_⟩
      rw [List.drop_of_length_le (by omega), List.map_nil, List.append_nil]
  | succ k ih =>
      have hlt : s.values.length < fields.length := by omega
      have hf := List.getElem?_eq_getElem hlt
      let s₁ : State V β := { s with phase := .field s.ptr }
      let s₂ : State V β :=
        { s₁ with phase := .load, values := s.values ++ [(i, fields[s.values.length] v)] }
      have h₁ : Step fields s .load s₁ := .load s hp hlt
      have h₂ : Step fields s₁ .read s₂ := .read s₁ i v _ (congrArg Phase.field hptr) hf hb
      obtain ⟨s', hrun, hp', hv'⟩ := ih (s := s₂) rfl hptr hb (by simp [s₂]; omega)
      refine ⟨s', .cons h₁ (.cons h₂ hrun), hp', ?_⟩
      have hlen : s₂.values.length = s.values.length + 1 := by simp [s₂]
      rw [hv', hlen, List.drop_eq_getElem_cons hlt, List.map_cons]
      exact List.append_assoc _ _ _

end LinuxOs2022.Library.Reload
