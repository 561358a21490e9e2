import LinuxOs2022.Library.Forests

/-!
# Values that are brought up to date below a change

Every node of a forest is right or wrong with respect to its parent. After a change at one
node, its subtree is visited from the top; below a node whose visit changes nothing the visit
goes no further. When all other nodes were right before, all nodes are right after it.
-/

namespace LinuxOs2022.Library

namespace Forest

universe u v

variable {α : Type u} {σ : Type v}

/-- Visit a forest, but not what is below a node where nothing has changed. -/
def refresh (visit : α → σ → Bool × σ) : Forest α → σ → σ
  | nil, s => s
  | cons a kids sibs, s =>
      let r := visit a s
      refresh visit sibs (if r.1 then refresh visit kids r.2 else r.2)

/-- The tree below `x`, with `x`; nothing when `x` is not in the forest. -/
def subtree [DecidableEq α] (x : α) : Forest α → Forest α
  | nil => nil
  | cons a kids sibs =>
      if a = x then cons a kids nil
      else
        match subtree x kids with
        | nil => subtree x sibs
        | t => t

theorem subtree_of_notMem [DecidableEq α] {x : α} {f : Forest α} (hx : ¬ Mem x f) :
    subtree x f = nil := by
  induction f with
  | nil => rfl
  | cons a kids sibs ihk ihs =>
      obtain ⟨ha, hk, hs⟩ := not_or.mp hx |>.imp id not_or.mp
      rw [subtree, if_neg (Ne.symm ha), ihk hk, ihs hs]

theorem subtree_of_mem [DecidableEq α] {x : α} {f : Forest α} (hx : Mem x f) :
    ∃ kids, subtree x f = cons x kids nil := by
  induction f with
  | nil => exact hx.elim
  | cons a kids sibs ihk ihs =>
      rw [subtree]
      by_cases ha : a = x
      · exact ⟨kids, by rw [if_pos ha, ha]⟩
      · rw [if_neg ha]
        by_cases hk : Mem x kids
        · obtain ⟨t, ht⟩ := ihk hk
          exact ⟨t, by rw [ht]⟩
        · obtain ⟨t, ht⟩ := ihs ((hx.resolve_left (Ne.symm ha)).resolve_left hk)
          exact ⟨t, by rw [subtree_of_notMem hk, ht]⟩

theorem mem_of_mem_subtree [DecidableEq α] {x y : α} {f : Forest α} (hy : Mem y (subtree x f)) :
    Mem y f := by
  induction f with
  | nil => exact hy
  | cons a kids sibs ihk ihs =>
      rw [subtree] at hy
      split at hy
      · obtain hy | hy | hy := hy
        · exact .inl hy
        · exact .inr (.inl hy)
        · exact hy.elim
      split at hy
      · exact .inr (.inr (ihs hy))
      · exact .inr (.inl (ihk hy))

variable {visit : α → σ → Bool × σ}

/-- What every visit keeps is kept. -/
theorem refresh_keeps {f : Forest α} {I : σ → Prop}
    (hvisit : ∀ a, Mem a f → ∀ s, I s → I (visit a s).2) {s : σ} (hs : I s) :
    I (refresh visit f s) := by
  induction f generalizing s with
  | nil => exact hs
  | cons a kids sibs ihk ihs =>
      rw [refresh]
      apply ihs fun x hx => hvisit x (.inr (.inr hx))
      have ha := hvisit a (.inl rfl) s hs
      split
      · exact ihk (fun x hx => hvisit x (.inr (.inl hx))) ha
      · exact ha

/-! ## Right and wrong nodes -/

/-- The parents of the nodes are those of a forest with this parent. -/
def Parented (parent : α → Option α) : Option α → Forest α → Prop
  | _, nil => True
  | p, cons a kids sibs =>
      parent a = p ∧ Parented parent (some a) kids ∧ Parented parent p sibs

theorem Linked.parented {l : Links α} {p : Option α} {f : Forest α} (h : Linked l p f) :
    Parented l.parent p f := by
  induction f generalizing p with
  | nil => trivial
  | cons a kids sibs ihk ihs =>
      obtain ⟨-, -, hparent, hkids, hsibs⟩ := h
      exact ⟨hparent, ihk hkids, ihs hsibs⟩

/-- A visit makes its node right, keeps the others right but for the children, and these too
when it changes nothing. -/
structure Refreshes (parent : α → Option α) (Ok : α → σ → Prop) (visit : α → σ → Bool × σ) :
    Prop where
  self : ∀ a s, parent a ≠ some a → Ok a (visit a s).2
  other : ∀ a b s, b ≠ a → parent b ≠ some a → Ok b s → Ok b (visit a s).2
  unchanged : ∀ a b s, b ≠ a → (visit a s).1 = false → Ok b s → Ok b (visit a s).2

variable {parent : α → Option α} {Ok : α → σ → Prop} {p : Option α} {f : Forest α} {a : α}

theorem Parented.parent_eq (hf : Parented parent p f) (ha : Mem a f) :
    parent a = p ∨ ∃ b, Mem b f ∧ parent a = some b := by
  induction f generalizing p with
  | nil => exact ha.elim
  | cons c kids sibs ihk ihs =>
      obtain ⟨hparent, hk, hs⟩ := hf
      obtain rfl | ha | ha := ha
      · exact .inl hparent
      · obtain h | ⟨b, hb, h⟩ := ihk hk ha
        · exact .inr ⟨c, .inl rfl, h⟩
        · exact .inr ⟨b, .inr (.inl hb), h⟩
      · obtain h | ⟨b, hb, h⟩ := ihs hs ha
        · exact .inl h
        · exact .inr ⟨b, .inr (.inr hb), h⟩

/-- The nodes of the forest have their parents outside `g`. -/
theorem Parented.parent_notMem {g : Forest α} (hf : Parented parent p f)
    (hp : ∀ b, p = some b → ¬ Mem b g) (hfg : ∀ b, Mem b f → ¬ Mem b g) (ha : Mem a f) {c : α}
    (hc : Mem c g) : parent a ≠ some c := by
  intro hac
  obtain h | ⟨b, hb, h⟩ := hf.parent_eq ha
  · exact hp c (h.symm.trans hac) hc
  · exact hfg b hb (Option.some.inj (h.symm.trans hac) ▸ hc)

namespace Refreshes

/-- The visit of `g` keeps a node right that neither is there nor has its parent there. -/
theorem keeps (h : Refreshes parent Ok visit) {g : Forest α} (ha : ¬ Mem a g)
    (hparent : ∀ c, Mem c g → parent a ≠ some c) {s : σ} (hs : Ok a s) :
    Ok a (refresh visit g s) := by
  apply refresh_keeps _ hs
  intro c hc s hs
  exact h.other c a s (fun hac => ha (hac ▸ hc)) (hparent c hc) hs

/-- All nodes but the roots are right. -/
def BelowOk (Ok : α → σ → Prop) (s : σ) : Forest α → Prop
  | nil => True
  | cons _ kids sibs => (∀ x, Mem x kids → Ok x s) ∧ BelowOk Ok s sibs

theorem BelowOk.of_all {s : σ} (hall : ∀ x, Mem x f → Ok x s) : BelowOk Ok s f := by
  induction f with
  | nil => trivial
  | cons a kids sibs _ ihs =>
      exact ⟨fun x hx => hall x (.inr (.inl hx)), ihs fun x hx => hall x (.inr (.inr hx))⟩

theorem BelowOk.imp {s s' : σ} (hf : BelowOk Ok s f)
    (himp : ∀ b x, Mem b f → Mem x f → parent x = some b → Ok x s → Ok x s')
    (hparented : Parented parent p f) : BelowOk Ok s' f := by
  induction f generalizing p with
  | nil => trivial
  | cons a kids sibs _ ihs =>
      obtain ⟨-, hk, hs⟩ := hparented
      refine ⟨fun x hx => ?_, ihs hf.2 (fun b x hb hx => himp b x (.inr (.inr hb))
        (.inr (.inr hx))) hs⟩
      obtain hpar | ⟨b, hb, hpar⟩ := hk.parent_eq hx
      · exact himp a x (.inl rfl) (.inr (.inl hx)) hpar (hf.1 x hx)
      · exact himp b x (.inr (.inl hb)) (.inr (.inl hx)) hpar (hf.1 x hx)

/-- The visit makes the roots right and keeps the other nodes right. -/
theorem refresh_ok (h : Refreshes parent Ok visit) (hf : Parented parent p f) (hapart : Apart f)
    (hp : ∀ b, p = some b → ¬ Mem b f) {s : σ} (hbelow : BelowOk Ok s f) :
    ∀ x, Mem x f → Ok x (refresh visit f s) := by
  induction f generalizing p s with
  | nil => exact fun _ hx => hx.elim
  | cons a kids sibs ihk ihs =>
      obtain ⟨hparent, hkids, hsibs⟩ := hf
      obtain ⟨hak, has, hks, hapartk, haparts⟩ := hapart
      have hpa (b : α) (hb : p = some b) : b ≠ a := fun hba => hp b hb (.inl hba)
      have hpk (b : α) (hb : p = some b) : ¬ Mem b kids := fun hk => hp b hb (.inr (.inl hk))
      have hps (b : α) (hb : p = some b) : ¬ Mem b sibs := fun hs => hp b hb (.inr (.inr hs))
      have hparenta : parent a ≠ some a := fun haa => hpa a (hparent.symm.trans haa) rfl
      rw [refresh]
      generalize hs₁ : (if (visit a s).1 then refresh visit kids (visit a s).2
        else (visit a s).2) = s₁
      -- what is right before the siblings are visited
      have hself : Ok a s₁ := by
        rw [← hs₁]
        split
        · apply h.keeps hak _ (h.self a s hparenta)
          exact fun c hc hac => hpk c (hparent.symm.trans hac) hc
        · exact h.self a s hparenta
      have hbelowk : ∀ x, Mem x kids → Ok x s₁ := by
        rw [← hs₁]
        split
        next hchanged =>
          apply ihk hkids hapartk (fun b hb => Option.some.inj hb ▸ hak)
          apply BelowOk.imp (BelowOk.of_all hbelow.1) _ hkids
          intro b x hb hx hpar hx'
          exact h.other a x s (fun hxa => hak (hxa ▸ hx))
            (fun hxa => hak (Option.some.inj (hpar.symm.trans hxa) ▸ hb)) hx'
        next hchanged =>
          intro x hx
          exact h.unchanged a x s (fun hxa => hak (hxa ▸ hx)) (by simpa using hchanged)
            (hbelow.1 x hx)
      have hbelows : BelowOk Ok s₁ sibs := by
        apply BelowOk.imp hbelow.2 _ hsibs
        intro b x hb hx hpar hx'
        have hvisit : Ok x (visit a s).2 := h.other a x s (fun hxa => has (hxa ▸ hx))
          (fun hxa => has (Option.some.inj (hpar.symm.trans hxa) ▸ hb)) hx'
        rw [← hs₁]
        split
        · apply h.keeps (fun hk => hks x hk hx) _ hvisit
          exact fun c hc hxc => hks c hc (Option.some.inj (hpar.symm.trans hxc) ▸ hb)
        · exact hvisit
      rintro x (rfl | hx | hx)
      · apply h.keeps has _ hself
        exact fun c hc hxc => hps c (hparent.symm.trans hxc) hc
      · apply h.keeps (hks x hx) _ (hbelowk x hx)
        intro c hc
        apply hkids.parent_notMem _ hks hx hc
        exact fun b hb => Option.some.inj hb ▸ has
      · exact ihs hsibs haparts hps hbelows x hx

/-- When only `x` is wrong, the visit of its subtree makes the forest right. -/
theorem refresh_subtree [DecidableEq α] (h : Refreshes parent Ok visit) (hf : Parented parent p f)
    (hapart : Apart f) (hp : ∀ b, p = some b → ¬ Mem b f) {x : α} {s : σ}
    (hbut : ∀ a, Mem a f → a ≠ x → Ok a s) :
    ∀ a, Mem a f → Ok a (refresh visit (subtree x f) s) := by
  induction f generalizing p with
  | nil => exact fun _ ha => ha.elim
  | cons c kids sibs ihk ihs =>
      obtain ⟨hparent, hkids, hsibs⟩ := hf
      obtain ⟨hck, hcs, hks, hapartk, haparts⟩ := hapart
      have hpc (b : α) (hb : p = some b) : b ≠ c := fun hbc => hp b hb (.inl hbc)
      have hpk (b : α) (hb : p = some b) : ¬ Mem b kids := fun hk => hp b hb (.inr (.inl hk))
      have hps (b : α) (hb : p = some b) : ¬ Mem b sibs := fun hs => hp b hb (.inr (.inr hs))
      rw [subtree]
      by_cases hcx : c = x
      · obtain rfl := hcx
        rw [if_pos rfl]
        have hbelow : BelowOk Ok s (cons c kids nil) :=
          ⟨fun y hy => hbut y (.inr (.inl hy)) fun hyc => hck (hyc ▸ hy), trivial⟩
        have hnew : ∀ y, Mem y (cons c kids nil) → Ok y (refresh visit (cons c kids nil) s) := by
          have hparented : Parented parent p (cons c kids nil) := ⟨hparent, hkids, trivial⟩
          have hsingle : Apart (cons c kids nil) := ⟨hck, id, fun _ _ => id, hapartk, trivial⟩
          apply h.refresh_ok hparented hsingle _ hbelow
          rintro b hb (hbc | hbk | hbn)
          · exact hpc b hb hbc
          · exact hpk b hb hbk
          · exact hbn
        rintro a (rfl | ha | ha)
        · exact hnew a (.inl rfl)
        · exact hnew a (.inr (.inl ha))
        · apply h.keeps
          · rintro (hac | hak | hn)
            · exact hcs (hac ▸ ha)
            · exact hks a hak ha
            · exact hn
          · rintro b (rfl | hb | hb)
            · exact hsibs.parent_notMem (g := cons b nil nil)
                (fun d hd hdb => hdb.elim (hpc d hd) (Or.elim · id id))
                (fun d hd hdb => hdb.elim (fun hdb => hcs (hdb ▸ hd)) (Or.elim · id id))
                ha (.inl rfl)
            · exact hsibs.parent_notMem hpk (fun d hd hdk => hks d hdk hd) ha hb
            · exact hb.elim
          · exact hbut a (.inr (.inr ha)) fun hac => hcs (hac ▸ ha)
      · rw [if_neg hcx]
        by_cases hxk : Mem x kids
        · obtain ⟨t, ht⟩ := subtree_of_mem hxk
          have hin (y : α) (hy : Mem y (subtree x kids)) : Mem y kids := mem_of_mem_subtree hy
          have hnew := ihk hkids hapartk (fun b hb => Option.some.inj hb ▸ hck)
            fun a ha => hbut a (.inr (.inl ha))
          rw [ht] at hin hnew ⊢
          dsimp only
          rintro a (rfl | ha | ha)
          · apply h.keeps (fun hy => hck (hin _ hy)) _ (hbut a (.inl rfl) hcx)
            exact fun b hb hab => hpk b (hparent.symm.trans hab) (hin b hb)
          · exact hnew a ha
          · apply h.keeps (fun hy => hks a (hin a hy) ha) _
              (hbut a (.inr (.inr ha)) fun hax => hks x hxk (hax ▸ ha))
            exact fun b hb => hsibs.parent_notMem hpk (fun d hd hdk => hks d hdk hd) ha (hin b hb)
        · have hin (y : α) (hy : Mem y (subtree x sibs)) : Mem y sibs := mem_of_mem_subtree hy
          rw [subtree_of_notMem hxk]
          dsimp only
          rintro a (rfl | ha | ha)
          · apply h.keeps (fun hy => hcs (hin _ hy)) _ (hbut a (.inl rfl) hcx)
            exact fun b hb hab => hps b (hparent.symm.trans hab) (hin b hb)
          · apply h.keeps (fun hy => hks a ha (hin a hy)) _
              (hbut a (.inr (.inl ha)) fun hax => hxk (hax ▸ ha))
            intro b hb
            apply hkids.parent_notMem _ hks ha (hin b hb)
            exact fun d hd => Option.some.inj hd ▸ hcs
          · exact ihs hsibs haparts hps (fun a ha => hbut a (.inr (.inr ha))) a ha

end Refreshes

end Forest

end LinuxOs2022.Library
