import Mathlib

/-!
# Radix trees kept as tables in a flat memory

A memory assigns a word to every slot of every node. A path is a list of levels; each
level names the index to read, which words are absent, which words end the descent, and
the node a word points to. The checked descent stops at absent words and at leaves. The
unchecked walk reads the same indices and follows every word it meets.

## Implementation notes

Nothing forbids two nodes to share storage or a word to point back to an ancestor, so the
results hold for every memory, not only for memories that spell a tree.
-/

namespace LinuxOs2022.Library.Radix

universe u v w

variable {Node : Type u} {Index : Type v} {Word : Type w}

/-- The word stored in each slot of each node. -/
abbrev Tables (Node : Type u) (Index : Type v) (Word : Type w) := Node → Index → Word

/-- A position in a table. -/
abbrev Slot (Node : Type u) (Index : Type v) := Node × Index

/-- The word in a slot. -/
def Tables.read (m : Tables Node Index Word) (p : Slot Node Index) : Word := m p.1 p.2

/-- One level of a path: the index to read and how the word found there is classified. -/
structure Level (Node : Type u) (Index : Type v) (Word : Type w) where
  index : Index
  present : Word → Bool
  leaf : Word → Bool
  next : Word → Node

/-- The checked descent: the slot of the leaf and the levels left below it. -/
def descend (m : Tables Node Index Word) (n : Node) :
    List (Level Node Index Word) → Option (Slot Node Index × List (Level Node Index Word))
  | [] => none
  | l :: ls =>
      if l.present (m n l.index) then
        if l.leaf (m n l.index) then some ((n, l.index), ls)
        else descend m (l.next (m n l.index)) ls
      else none

/-- One step of an unchecked walk: the index to read and the node that is followed. -/
structure Hop (Node : Type u) (Index : Type v) (Word : Type w) where
  index : Index
  next : Word → Node

/-- The slots that the unchecked walk reads, in order. -/
def trail (m : Tables Node Index Word) (n : Node) :
    List (Hop Node Index Word) → List (Slot Node Index)
  | [] => []
  | h :: hs => (n, h.index) :: trail m (h.next (m n h.index)) hs

/-- The slot at which the unchecked walk along `h :: hs` ends. -/
def arrive (m : Tables Node Index Word) (n : Node) (h : Hop Node Index Word) :
    List (Hop Node Index Word) → Slot Node Index
  | [] => (n, h.index)
  | h' :: hs => arrive m (h.next (m n h.index)) h' hs

@[simp] theorem arrive_nil (m : Tables Node Index Word) (n : Node)
    (h : Hop Node Index Word) : arrive m n h [] = (n, h.index) := rfl

@[simp] theorem arrive_cons (m : Tables Node Index Word) (n : Node)
    (h h' : Hop Node Index Word) (hs : List (Hop Node Index Word)) :
    arrive m n h (h' :: hs) = arrive m (h.next (m n h.index)) h' hs := rfl

theorem arrive_mem_trail (m : Tables Node Index Word) (n : Node)
    (h : Hop Node Index Word) (hs : List (Hop Node Index Word)) :
    arrive m n h hs ∈ trail m n (h :: hs) := by
  induction hs generalizing n h with
  | nil => simp [trail]
  | cons h' hs ih =>
      have ht := ih (h.next (m n h.index)) h'
      rw [arrive_cons, trail]
      exact List.mem_cons_of_mem _ ht

/-- A hop follows the same nodes as a level on every word the level passes through. -/
def Hop.Matches (h : Hop Node Index Word) (l : Level Node Index Word) : Prop :=
  h.index = l.index ∧ ∀ w, l.present w → ¬ l.leaf w → h.next w = l.next w

/-- The checked descent to the last level of a path: the slot that is read there. The words
above it are neither absent nor leaves. -/
def locate (m : Tables Node Index Word) (n : Node) :
    List (Level Node Index Word) → Option (Slot Node Index)
  | [] => none
  | [l] => some (n, l.index)
  | l :: l' :: ls =>
      if l.present (m n l.index) ∧ ¬ l.leaf (m n l.index) then
        locate m (l.next (m n l.index)) (l' :: ls)
      else none

/-- A descent that uses up the whole path ends at the last level. -/
theorem locate_of_descend {m : Tables Node Index Word} {n : Node}
    {ls : List (Level Node Index Word)} {p : Slot Node Index}
    (hd : descend m n ls = some (p, [])) : locate m n ls = some p := by
  fun_induction locate m n ls with
  | case1 n => cases hd
  | case2 n l =>
      simp only [descend] at hd
      split at hd
      · split at hd
        · exact congrArg (Option.map Prod.fst) hd
        · cases hd
      · cases hd
  | case3 n l l' ls hpass ih =>
      rw [descend, if_pos hpass.1, if_neg hpass.2] at hd
      exact ih hd
  | case4 n l l' ls hpass =>
      rw [descend] at hd
      split at hd
      next hp =>
        rw [if_pos (not_not.mp (not_and.mp hpass hp))] at hd
        cases hd
      next => cases hd

/-- Where the checked descent reaches the last level, the unchecked walk ends in the same
slot. -/
theorem arrive_of_locate {m : Tables Node Index Word} {n : Node}
    {h : Hop Node Index Word} {hs : List (Hop Node Index Word)}
    {ls : List (Level Node Index Word)} {p : Slot Node Index}
    (hm : List.Forall₂ Hop.Matches (h :: hs) ls)
    (hl : locate m n ls = some p) : arrive m n h hs = p := by
  induction hs generalizing n h ls with
  | nil =>
      obtain ⟨l, ls, hl', hn, rfl⟩ := List.forall₂_cons_left_iff.mp hm
      obtain rfl := List.forall₂_nil_left_iff.mp hn
      rw [arrive_nil, hl'.1]
      exact Option.some.inj hl
  | cons h' hs ih =>
      obtain ⟨l, ls, hl', hrest, rfl⟩ := List.forall₂_cons_left_iff.mp hm
      obtain ⟨l', ls', -, -, rfl⟩ := List.forall₂_cons_left_iff.mp hrest
      rw [locate] at hl
      split at hl
      next hpass =>
        rw [arrive_cons, hl'.1, hl'.2 _ hpass.1 hpass.2]
        exact ih hrest hl
      next => cases hl

/-- Where the checked descent uses up the whole path, the unchecked walk ends in the
same slot. -/
theorem arrive_of_descend {m : Tables Node Index Word} {n : Node}
    {h : Hop Node Index Word} {hs : List (Hop Node Index Word)}
    {ls : List (Level Node Index Word)} {p : Slot Node Index}
    (hm : List.Forall₂ Hop.Matches (h :: hs) ls)
    (hd : descend m n ls = some (p, [])) : arrive m n h hs = p :=
  arrive_of_locate hm (locate_of_descend hd)

/-- Two memories that agree on the slots a walk reads take it to the same slot. -/
theorem arrive_congr {m m' : Tables Node Index Word} {n : Node}
    {h : Hop Node Index Word} {hs : List (Hop Node Index Word)}
    (ha : ∀ p ∈ trail m n (h :: hs), m'.read p = m.read p) :
    arrive m' n h hs = arrive m n h hs := by
  induction hs generalizing n h with
  | nil => rfl
  | cons h' hs ih =>
      have hw : m' n h.index = m n h.index := ha (n, h.index) (by simp [trail])
      simp only [arrive_cons, hw]
      exact ih fun p hp => ha p (List.mem_cons_of_mem _ hp)

end LinuxOs2022.Library.Radix
