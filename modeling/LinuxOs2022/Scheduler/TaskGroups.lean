import LinuxOs2022.Library.Forests

/-!
# The tree of task groups

`walk_tg_tree_from` visits a tree of task groups without recursion: it follows the links down,
and on its way up finds the place in the list of siblings again from the child it has left.
-/

namespace LinuxOs2022.Scheduler

open Library

universe u v

variable {Tg : Type u} [DecidableEq Tg] {σ : Type v}

/-- The labels of `walk_tg_tree_from`; behind the loop over the children is a place, too. -/
inductive WalkLabel (Tg : Type u)
  | down (parent : Tg)
  | afterLoop (parent : Tg)

/-- `walk_tg_tree_from(from, down, up, data)` from a label on, in at most so many rounds. -/
def walkTgTreeFrom (links : Forest.Links Tg) (root : Tg) (down up : Tg → σ → ℤ × σ) :
    ℕ → WalkLabel Tg → σ → Option (ℤ × σ)
  | 0, _, _ => none
  | fuel + 1, .down parent, s =>
      let (ret, s) := down parent s
      if ret ≠ 0 then some (ret, s)
      else
        match links.firstChild parent with
        | some child => walkTgTreeFrom links root down up fuel (.down child) s
        | none => walkTgTreeFrom links root down up fuel (.afterLoop parent) s
  | fuel + 1, .afterLoop parent, s =>
      let (ret, s) := up parent s
      if ret ≠ 0 ∨ parent = root then some (ret, s)
      else
        match links.parent parent with
        | none => some (ret, s)
        | some grandparent =>
            match links.nextSibling parent with
            | some child => walkTgTreeFrom links root down up fuel (.down child) s
            | none => walkTgTreeFrom links root down up fuel (.afterLoop grandparent) s

/-- `tg_nop(tg, data)`. -/
def tgNop (_ : Tg) (s : σ) : ℤ × σ := (0, s)

section Walk

variable {links : Forest.Links Tg} {root p : Tg} {down up : Tg → σ → ℤ × σ}

/-- Where the loop over the children of `p` goes on. -/
def resume (p : Tg) : Option Tg → WalkLabel Tg
  | some child => .down child
  | none => .afterLoop p

variable {a : Tg} {s : σ} {fuel : ℕ}

theorem walkTgTreeFrom_down_of_ne (h : (down a s).1 ≠ 0) :
    walkTgTreeFrom links root down up (fuel + 1) (.down a) s = some (down a s) := by
  rw [walkTgTreeFrom]
  exact if_pos h

theorem walkTgTreeFrom_down (h : (down a s).1 = 0) :
    walkTgTreeFrom links root down up (fuel + 1) (.down a) s =
      walkTgTreeFrom links root down up fuel (resume a (links.firstChild a)) (down a s).2 := by
  rw [walkTgTreeFrom]
  dsimp only
  rw [if_neg (not_not.mpr h)]
  cases links.firstChild a with
  | none => rfl
  | some child => rfl

theorem walkTgTreeFrom_up_of_ne (h : (up a s).1 ≠ 0 ∨ a = root) :
    walkTgTreeFrom links root down up (fuel + 1) (.afterLoop a) s = some (up a s) := by
  rw [walkTgTreeFrom]
  exact if_pos h

theorem walkTgTreeFrom_up (h : (up a s).1 = 0) (ha : a ≠ root) (hp : links.parent a = some p) :
    walkTgTreeFrom links root down up (fuel + 1) (.afterLoop a) s =
      walkTgTreeFrom links root down up fuel (resume p (links.nextSibling a)) (up a s).2 := by
  rw [walkTgTreeFrom]
  dsimp only
  rw [if_neg (not_or.mpr ⟨not_not.mpr h, ha⟩), hp]
  cases links.nextSibling a with
  | none => rfl
  | some child => rfl

/-- The loop visits the trees of a forest and comes back to its parent, or stops. -/
theorem walkTgTreeFrom_forest (down up : Tg → σ → ℤ × σ) {f : Forest Tg}
    (hf : Forest.Linked links (some p) f) (hroot : ¬ Forest.Mem root f) (s : σ) :
    ∃ rounds ≤ 2 * f.size, ∀ fuel,
      walkTgTreeFrom links root down up (rounds + fuel) (resume p f.head) s =
      if (f.walk down up s).1 = 0 then
        walkTgTreeFrom links root down up fuel (.afterLoop p) (f.walk down up s).2
      else some (f.walk down up s) := by
  induction f generalizing p s with
  | nil =>
      refine ⟨0, le_rfl, fun fuel => ?_⟩
      rw [Nat.zero_add]
      exact (if_pos rfl).symm
  | cons a kids sibs ihk ihs =>
      obtain ⟨hfirst, hnext, hparent, hkids, hsibs⟩ := hf
      obtain ⟨ha, hrootk, hroots⟩ := not_or.mp hroot |>.imp id not_or.mp
      rw [Forest.walk, Forest.size]
      by_cases hdown : (down a s).1 = 0
      · rw [Forest.andThen_of_eq hdown]
        obtain ⟨nk, hnk, hk⟩ := ihk hkids hrootk (down a s).2
        by_cases hwalk : (kids.walk down up (down a s).2).1 = 0
        · rw [Forest.andThen_of_eq hwalk]
          generalize hs₁ : (kids.walk down up (down a s).2).2 = s₁
          rw [hs₁] at hk
          by_cases hup : (up a s₁).1 = 0
          · rw [Forest.andThen_of_eq hup]
            obtain ⟨ns, hns, hs⟩ := ihs hsibs hroots (up a s₁).2
            refine ⟨nk + (ns + 1) + 1, by omega, fun fuel => ?_⟩
            calc walkTgTreeFrom links root down up (nk + (ns + 1) + 1 + fuel) (.down a) s
                = walkTgTreeFrom links root down up (nk + (ns + fuel + 1) + 1) (.down a) s := by
                  congr 1
                  omega
              _ = walkTgTreeFrom links root down up (nk + (ns + fuel + 1))
                    (resume a kids.head) (down a s).2 := by
                  rw [walkTgTreeFrom_down hdown, hfirst]
              _ = walkTgTreeFrom links root down up (ns + fuel + 1) (.afterLoop a) s₁ := by
                  rw [hk, if_pos hwalk]
              _ = walkTgTreeFrom links root down up (ns + fuel) (resume p sibs.head)
                    (up a s₁).2 := by
                  rw [walkTgTreeFrom_up hup (Ne.symm ha) hparent, hnext]
              _ = _ := hs fuel
          · rw [Forest.andThen_of_ne hup]
            refine ⟨nk + 1 + 1, by omega, fun fuel => ?_⟩
            rw [if_neg hup]
            calc walkTgTreeFrom links root down up (nk + 1 + 1 + fuel) (.down a) s
                = walkTgTreeFrom links root down up (nk + (fuel + 1) + 1) (.down a) s := by
                  congr 1
                  omega
              _ = walkTgTreeFrom links root down up (fuel + 1) (.afterLoop a) s₁ := by
                  rw [walkTgTreeFrom_down hdown, hfirst, hk, if_pos hwalk]
              _ = some (up a s₁) := walkTgTreeFrom_up_of_ne (.inl hup)
        · rw [Forest.andThen_of_ne hwalk]
          refine ⟨nk + 1, by omega, fun fuel => ?_⟩
          rw [if_neg hwalk, Nat.add_right_comm]
          exact (walkTgTreeFrom_down hdown).trans (by rw [hfirst, hk, if_neg hwalk])
      · rw [Forest.andThen_of_ne hdown]
        refine ⟨1, by omega, fun fuel => ?_⟩
        rw [if_neg hdown, Nat.add_comm]
        exact walkTgTreeFrom_down_of_ne hdown

omit [DecidableEq Tg] in
theorem andThen_nil (r : ℤ × σ) :
    Forest.andThen r (fun s => Forest.walk down up .nil s) = r := by
  obtain ⟨ret, s⟩ := r
  unfold Forest.andThen
  split
  next hret => exact Prod.ext (Eq.symm hret) rfl
  next => rfl

theorem walkTgTreeFrom_eq_walk {kids : Forest Tg} {q : Option Tg}
    (hf : Forest.Linked links q (.cons root kids .nil)) (hroot : ¬ Forest.Mem root kids) (s : σ)
    (hfuel : 2 * Forest.size (.cons root kids .nil) ≤ fuel) :
    walkTgTreeFrom links root down up fuel (.down root) s =
      some (Forest.walk down up (.cons root kids .nil) s) := by
  obtain ⟨hfirst, -, -, hkids, -⟩ := hf
  obtain ⟨n, hn, hwalk⟩ := walkTgTreeFrom_forest down up hkids hroot (down root s).2
  rw [Forest.size, Forest.size] at hfuel
  obtain ⟨k, rfl⟩ : ∃ k, fuel = n + (k + 1) + 1 := ⟨fuel - n - 2, by omega⟩
  rw [Forest.walk]
  by_cases hdown : (down root s).1 = 0
  · rw [Forest.andThen_of_eq hdown, walkTgTreeFrom_down hdown, hfirst, hwalk]
    split
    next hkids =>
      rw [Forest.andThen_of_eq hkids, walkTgTreeFrom_up_of_ne (.inr rfl)]
      exact congrArg some (andThen_nil _).symm
    next hkids => rw [Forest.andThen_of_ne hkids]
  · rw [Forest.andThen_of_ne hdown]
    exact walkTgTreeFrom_down_of_ne hdown

end Walk

/-! ## The tree -/

/-- The task groups of the system. -/
structure TaskGroups (Tg : Type u) where
  links : Forest.Links Tg
  root : Tg
  kids : Forest Tg
  linked : Forest.Linked links none (.cons root kids .nil)
  apart : Forest.Apart (.cons root kids .nil)

namespace TaskGroups

variable (g : TaskGroups Tg)

omit [DecidableEq Tg] in
/-- All groups. -/
def tree : Forest Tg := .cons g.root g.kids .nil

/-- `walk_tg_tree(down, up, data)`, with rounds enough for every tree. -/
def walkTgTree (down up : Tg → σ → ℤ × σ) (s : σ) : Option (ℤ × σ) :=
  walkTgTreeFrom g.links g.root down up (2 * g.tree.size) (.down g.root) s

/-- The loop does what the recursive visit does, whatever the functions are. -/
theorem walkTgTreeFrom_tree (down up : Tg → σ → ℤ × σ) (s : σ) (fuel : ℕ) :
    walkTgTreeFrom g.links g.root down up (2 * g.tree.size + fuel) (.down g.root) s =
      some (g.tree.walk down up s) :=
  walkTgTreeFrom_eq_walk g.linked g.apart.1 s (Nat.le_add_right _ _)

theorem walkTgTree_eq (down up : Tg → σ → ℤ × σ) (s : σ) :
    g.walkTgTree down up s = some (g.tree.walk down up s) :=
  walkTgTreeFrom_eq_walk g.linked g.apart.1 s le_rfl

end TaskGroups

/-- Group 1 below the root 0, and group 2 below group 1. -/
def chain : TaskGroups ℕ where
  links := ⟨fun x => if x = 0 then some 1 else if x = 1 then some 2 else none, fun _ => none,
    fun x => if x = 1 then some 0 else if x = 2 then some 1 else none⟩
  root := 0
  kids := .cons 1 (.cons 2 .nil .nil) .nil
  linked := ⟨rfl, rfl, rfl, ⟨rfl, rfl, rfl, ⟨rfl, rfl, rfl, trivial, trivial⟩, trivial⟩, trivial⟩
  apart := by simp [Forest.Apart, Forest.Mem]

end LinuxOs2022.Scheduler
