import Mathlib

/-!
# Ordered forests

A forest is given by first children and next siblings. It is visited recursively, with one
function on entry and one on exit, until one of them fails. Values that descendants must not
exceed are handed down on such a visit.
-/

namespace LinuxOs2022.Library

universe u v w

/-- The first tree of a forest has the root `a` and the children `kids`. -/
inductive Forest (α : Type u)
  | nil
  | cons (a : α) (kids sibs : Forest α)

namespace Forest

variable {α : Type u}

/-- The root of the first tree. -/
def head : Forest α → Option α
  | nil => none
  | cons a _ _ => some a

/-- `x` is in the forest. -/
def Mem (x : α) : Forest α → Prop
  | nil => False
  | cons a kids sibs => x = a ∨ Mem x kids ∨ Mem x sibs

/-- The number of nodes. -/
def size : Forest α → ℕ
  | nil => 0
  | cons _ kids sibs => kids.size + sibs.size + 1

/-- Nobody is in two places. -/
def Apart : Forest α → Prop
  | nil => True
  | cons a kids sibs =>
      ¬ Mem a kids ∧ ¬ Mem a sibs ∧ (∀ x, Mem x kids → ¬ Mem x sibs) ∧ Apart kids ∧ Apart sibs

/-- `d` is below `a`. -/
def Above (a d : α) : Forest α → Prop
  | nil => False
  | cons b kids sibs => (a = b ∧ Mem d kids) ∨ Above a d kids ∨ Above a d sibs

/-! ## Visits -/

section Walk

variable {σ : Type v} {ε : Type w} [DecidableEq ε] [Zero ε]

/-- Go on unless there is an error. -/
def andThen (r : ε × σ) (next : σ → ε × σ) : ε × σ :=
  if r.1 = 0 then next r.2 else r

theorem andThen_of_eq {r : ε × σ} (h : r.1 = 0) (next : σ → ε × σ) :
    andThen r next = next r.2 := if_pos h

theorem andThen_of_ne {r : ε × σ} (h : r.1 ≠ 0) (next : σ → ε × σ) :
    andThen r next = r := if_neg h

/-- Call `down` on entry of every tree and `up` on exit, until one of them fails. -/
def walk (down up : α → σ → ε × σ) : Forest α → σ → ε × σ
  | nil, s => (0, s)
  | cons a kids sibs, s =>
      andThen (down a s) fun s =>
        andThen (walk down up kids s) fun s =>
          andThen (up a s) fun s => walk down up sibs s

/-- What every call keeps is kept by the visit. -/
theorem walk_keeps {down up : α → σ → ε × σ} {f : Forest α} {I : σ → Prop}
    (hdown : ∀ a, Mem a f → ∀ s, I s → I (down a s).2)
    (hup : ∀ a, Mem a f → ∀ s, I s → I (up a s).2) {s : σ} (hs : I s) :
    I (walk down up f s).2 := by
  induction f generalizing s with
  | nil => exact hs
  | cons a kids sibs ihk ihs =>
      have hkeep {r : ε × σ} {next : σ → ε × σ} (hr : I r.2) (hnext : ∀ s, I s → I (next s).2) :
          I (andThen r next).2 := by
        unfold andThen
        split
        · exact hnext _ hr
        · exact hr
      apply hkeep (hdown a (.inl rfl) s hs)
      intro s hs
      apply hkeep
      · exact ihk (fun x hx => hdown x (.inr (.inl hx))) (fun x hx => hup x (.inr (.inl hx))) hs
      intro s hs
      apply hkeep (hup a (.inl rfl) s hs)
      intro s hs
      exact ihs (fun x hx => hdown x (.inr (.inr hx))) (fun x hx => hup x (.inr (.inr hx))) hs

end Walk

/-! ## Links -/

/-- The links between the nodes of a forest. -/
structure Links (α : Type u) where
  firstChild : α → Option α
  nextSibling : α → Option α
  parent : α → Option α

/-- The links are those of a forest with this parent. -/
def Linked (l : Links α) : Option α → Forest α → Prop
  | _, nil => True
  | p, cons a kids sibs =>
      l.firstChild a = kids.head ∧ l.nextSibling a = sibs.head ∧ l.parent a = p ∧
        Linked l (some a) kids ∧ Linked l p sibs

/-! ## Values that are handed down -/

section Bounds

variable {β : Type v} [LinearOrder β] {q h : α → β} {b : β}

/-- Everyone holds the least value from above and its own. -/
def Inherits (q h : α → β) : β → Forest α → Prop
  | _, nil => True
  | b, cons a kids sibs =>
      h a = min (q a) b ∧ Inherits q h (min (q a) b) kids ∧ Inherits q h b sibs

namespace Inherits

variable {f : Forest α} {a d : α}

theorem congr {h' : α → β} (hf : Inherits q h b f) (hh : ∀ x, Mem x f → h' x = h x) :
    Inherits q h' b f := by
  induction f generalizing b with
  | nil => trivial
  | cons a kids sibs ihk ihs =>
      obtain ⟨ha, hk, hs⟩ := hf
      exact ⟨(hh a (.inl rfl)).trans ha, ihk hk fun x hx => hh x (.inr (.inl hx)),
        ihs hs fun x hx => hh x (.inr (.inr hx))⟩

theorem le_bound (hf : Inherits q h b f) (hd : Mem d f) : h d ≤ b ∧ h d ≤ q d := by
  induction f generalizing b with
  | nil => exact hd.elim
  | cons a kids sibs ihk ihs =>
      obtain ⟨ha, hk, hs⟩ := hf
      obtain rfl | hd | hd := hd
      · rw [ha]
        exact ⟨min_le_right _ _, min_le_left _ _⟩
      · obtain ⟨hle, hown⟩ := ihk hk hd
        exact ⟨hle.trans (min_le_right _ _), hown⟩
      · exact ihs hs hd

theorem le_above (hf : Inherits q h b f) (hd : Above a d f) : h d ≤ q a := by
  induction f generalizing b with
  | nil => exact hd.elim
  | cons x kids sibs ihk ihs =>
      obtain ⟨-, hk, hs⟩ := hf
      obtain ⟨rfl, hd⟩ | hd | hd := hd
      · exact (le_bound hk hd).1.trans (min_le_left _ _)
      · exact ihk hk hd
      · exact ihs hs hd

/-- What is held is what somebody above has. -/
theorem attained (hf : Inherits q h b f) (hd : Mem d f) :
    h d = b ∨ h d = q d ∨ ∃ a, Above a d f ∧ h d = q a := by
  induction f generalizing b with
  | nil => exact hd.elim
  | cons x kids sibs ihk ihs =>
      obtain ⟨hx, hk, hs⟩ := hf
      obtain rfl | hd | hd := hd
      · rw [hx]
        obtain hle | hle := le_total (q d) b
        · exact .inr (.inl (min_eq_left hle))
        · exact .inl (min_eq_right hle)
      · obtain heq | heq | ⟨a, habove, heq⟩ := ihk hk hd
        · obtain hle | hle := le_total (q x) b
          · rw [min_eq_left hle] at heq
            exact .inr (.inr ⟨x, .inl ⟨rfl, hd⟩, heq⟩)
          · rw [min_eq_right hle] at heq
            exact .inl heq
        · exact .inr (.inl heq)
        · exact .inr (.inr ⟨a, .inr (.inl habove), heq⟩)
      · obtain heq | heq | ⟨a, habove, heq⟩ := ihs hs hd
        · exact .inl heq
        · exact .inr (.inl heq)
        · exact .inr (.inr ⟨a, .inr (.inr habove), heq⟩)

/-- With the value of the root as the bound, everyone holds the least of its own value and those
above. -/
theorem isLeast {root : α} {kids : Forest α} (hf : Inherits q h (q root) (cons root kids nil))
    (hd : Mem d (cons root kids nil)) :
    IsLeast {v | v = q d ∨ ∃ a, Above a d (cons root kids nil) ∧ v = q a} (h d) := by
  constructor
  · obtain heq | heq | ⟨a, ha, heq⟩ := hf.attained hd
    · obtain rfl | hd | hd := hd
      · exact .inl heq
      · exact .inr ⟨root, .inl ⟨rfl, hd⟩, heq⟩
      · exact hd.elim
    · exact .inl heq
    · exact .inr ⟨a, ha, heq⟩
  · rintro v (rfl | ⟨a, ha, rfl⟩)
    · exact (hf.le_bound hd).2
    · exact hf.le_above ha

end Inherits

variable [OrderTop β]

/-- With no bound from above, everyone holds the greatest lower bound of its own value and those
above. -/
theorem Inherits.isGLB {f : Forest α} {d : α} (hf : Inherits q h ⊤ f) (hd : Mem d f) :
    IsGLB {c | c = q d ∨ ∃ a, Above a d f ∧ c = q a} (h d) := by
  constructor
  · rintro c (rfl | ⟨a, ha, rfl⟩)
    · exact (hf.le_bound hd).2
    · exact hf.le_above ha
  · intro c hc
    obtain htop | hown | ⟨a, ha, heq⟩ := hf.attained hd
    · exact htop ▸ le_top
    · exact hown ▸ hc (.inl rfl)
    · exact heq ▸ hc (.inr ⟨a, ha, rfl⟩)

/-- Nobody with a value of its own exceeds the bound from above. -/
def Fits (q : α → β) : β → Forest α → Prop
  | _, nil => True
  | b, cons a kids sibs =>
      (q a = ⊤ ∨ q a ≤ b) ∧ Fits q (min (q a) b) kids ∧ Fits q b sibs

/-- The bounds are kept when no descendant exceeds any of its ancestors. -/
theorem fits_iff (f : Forest α) :
    Fits q b f ↔ (∀ d, Mem d f → q d = ⊤ ∨ q d ≤ b) ∧
      ∀ a d, Above a d f → q d = ⊤ ∨ q d ≤ q a := by
  induction f generalizing b with
  | nil => exact iff_of_true trivial ⟨fun _ hd => hd.elim, fun _ _ hd => hd.elim⟩
  | cons a kids sibs ihk ihs =>
      rw [Fits, ihk, ihs]
      constructor
      · rintro ⟨ha, ⟨hk, hak⟩, hs, has⟩
        constructor
        · rintro d (rfl | hd | hd)
          · exact ha
          · exact (hk d hd).imp_right fun hle => hle.trans (min_le_right _ _)
          · exact hs d hd
        · rintro x d (⟨rfl, hd⟩ | hd | hd)
          · exact (hk d hd).imp_right fun hle => hle.trans (min_le_left _ _)
          · exact hak x d hd
          · exact has x d hd
      · rintro ⟨hb, habove⟩
        refine ⟨hb a (.inl rfl), ⟨fun d hd => ?_, fun x d hd => habove x d (.inr (.inl hd))⟩,
          fun d hd => hb d (.inr (.inr hd)), fun x d hd => habove x d (.inr (.inr hd))⟩
        obtain htop | hle := hb d (.inr (.inl hd))
        · exact .inl htop
        · exact (habove a d (.inl ⟨rfl, hd⟩)).imp_right fun hle' => le_min hle' hle

end Bounds

end Forest

end LinuxOs2022.Library
