import Mathlib.Data.Finset.Card
import Mathlib.Logic.Relation

/-!
# Forests kept as parent links and lists of children

A forest is two maps that have to agree: the parent of a node, and the ordered children of a node.
The walks recurse on the children with a bound on the depth and end with `none` when it is too small.

* `IsForest` : the two maps agree and nothing is above itself;
* `IsForest.attach` : a root may be attached to any node outside its own subtree;
* `contains`, `walk` : the search and the preorder walk of a subtree;
* `IsForest.shallow` : a finite forest is no deeper than it has nodes;
* `IsForest.walk_spec` : the walk visits the subtree, each node once, in preorder.
-/

namespace Chattice.Forest

open Relation

variable {α β : Type}

/-- The parent of the first node is the second. -/
def Up (parent : α → Option α) (c p : α) : Prop := parent c = some p

/-- The node `b` is `a` or below it. -/
abbrev Below (parent : α → Option α) (a b : α) : Prop := ReflTransGen (Up parent) b a

structure IsForest (parent : α → Option α) (children : α → List α) : Prop where
  agree : ∀ p c, c ∈ children p ↔ parent c = some p
  nodup : ∀ p, (children p).Nodup
  acyclic : ∀ a, ¬ TransGen (Up parent) a a

/-- The nodes from the first down to the second. -/
inductive Path (children : α → List α) : α → α → List α → Prop where
  | here (a : α) : Path children a a [a]
  | down {a c b : α} {path : List α} (hc : c ∈ children a) (hpath : Path children c b path) :
      Path children a b (a :: path)

/-- Preorder: a node comes before what is below it, and the subtree of a child before the subtree of
a later child. -/
def Precedes (parent : α → Option α) (children : α → List α) (a b : α) : Prop :=
  TransGen (Up parent) b a ∨
    ∃ p c₁ c₂, [c₁, c₂].Sublist (children p) ∧ Below parent c₁ a ∧ Below parent c₂ b

/-! ## The walks -/

/-- Whether `candidate` is in the subtree of the node. -/
def contains [DecidableEq α] (children : α → List α) (candidate : α) : Nat → α → Option Bool
  | 0, _ => none
  | fuel + 1, a =>
    if a = candidate then some true else (children a).anyM (contains children candidate fuel)

/-- The nodes of the subtree, each with what `extend` makes of the path down to it. -/
def walk (children : α → List α) (extend : β → α → β) : Nat → β → α → Option (List (α × β))
  | 0, _, _ => none
  | fuel + 1, inherited, a => do
    let below ← (children a).mapM (walk children extend fuel (extend inherited a))
    return (a, extend inherited a) :: below.flatten

/-- No path down from the node is longer than the bound. -/
def Shallow (children : α → List α) : Nat → α → Prop
  | 0, _ => False
  | fuel + 1, a => ∀ c ∈ children a, Shallow children fuel c

section Options

variable {f : α → Option β} {p : α → Option Bool} {l : List α}

theorem mapM_eq_some {bs : List β} (h : l.mapM f = some bs) : l.map f = bs.map some := by
  induction l generalizing bs with
  | nil =>
    cases h
    rfl
  | cons a l ih =>
    rw [List.mapM_cons] at h
    obtain ⟨b, hb, hrest⟩ := Option.bind_eq_some_iff.mp h
    obtain ⟨bs', hbs', hdone⟩ := Option.bind_eq_some_iff.mp hrest
    cases hdone
    rw [List.map_cons, List.map_cons, hb, ih hbs']

theorem exists_mapM (h : ∀ a ∈ l, ∃ b, f a = some b) : ∃ bs, l.mapM f = some bs := by
  induction l with
  | nil => exact ⟨[], rfl⟩
  | cons a l ih =>
    obtain ⟨b, hb⟩ := h a (.head _)
    obtain ⟨bs, hbs⟩ := ih fun a' ha' => h a' (.tail _ ha')
    exact ⟨b :: bs, by rw [List.mapM_cons, hb, hbs]; rfl⟩

theorem anyM_eq_some {b : Bool} (h : l.anyM p = some b) :
    (b = true → ∃ a ∈ l, p a = some true) ∧ (b = false → ∀ a ∈ l, p a = some false) := by
  induction l with
  | nil =>
    cases h
    exact ⟨nofun, fun _ => nofun⟩
  | cons a l ih =>
    rw [List.anyM_cons] at h
    obtain ⟨first, hfirst, hrest⟩ := Option.bind_eq_some_iff.mp h
    cases first with
    | true =>
      cases hrest
      exact ⟨fun _ => ⟨a, .head _, hfirst⟩, nofun⟩
    | false =>
      obtain ⟨hsome, hnone⟩ := ih hrest
      constructor
      · intro hb
        obtain ⟨a', ha', htrue⟩ := hsome hb
        exact ⟨a', .tail _ ha', htrue⟩
      · intro hb
        exact List.forall_mem_cons.mpr ⟨hfirst, hnone hb⟩

theorem exists_anyM (h : ∀ a ∈ l, ∃ b, p a = some b) : ∃ b, l.anyM p = some b := by
  induction l with
  | nil => exact ⟨false, rfl⟩
  | cons a l ih =>
    obtain ⟨first, hfirst⟩ := h a (.head _)
    obtain ⟨b, hb⟩ := ih fun a' ha' => h a' (.tail _ ha')
    cases first with
    | true => exact ⟨true, by rw [List.anyM_cons, hfirst]; rfl⟩
    | false => exact ⟨b, by rw [List.anyM_cons, hfirst]; exact hb⟩

end Options

variable {parent : α → Option α} {children : α → List α} {extend : β → α → β}

theorem contains_of_shallow [DecidableEq α] (candidate : α) {fuel : Nat} {a : α}
    (h : Shallow children fuel a) : ∃ b, contains children candidate fuel a = some b := by
  induction fuel generalizing a with
  | zero => exact absurd h id
  | succ fuel ih =>
    rw [contains]
    split
    · exact ⟨true, rfl⟩
    · exact exists_anyM fun c hc => ih (h c hc)

theorem walk_of_shallow (inherited : β) {fuel : Nat} {a : α} (h : Shallow children fuel a) :
    ∃ xs, walk children extend fuel inherited a = some xs := by
  induction fuel generalizing a inherited with
  | zero => exact absurd h id
  | succ fuel ih =>
    obtain ⟨below, hbelow⟩ := exists_mapM fun c hc => ih (extend inherited a) (h c hc)
    exact ⟨_, by rw [walk, hbelow]; rfl⟩

theorem walk_succ {fuel : Nat} {inherited : β} {a : α} {xs : List (α × β)}
    (h : walk children extend (fuel + 1) inherited a = some xs) :
    ∃ sub : α → List (α × β),
      (∀ c ∈ children a, walk children extend fuel (extend inherited a) c = some (sub c)) ∧
      xs = (a, extend inherited a) :: (children a).flatMap sub := by
  rw [walk] at h
  obtain ⟨below, hbelow, hxs⟩ := Option.bind_eq_some_iff.mp h
  have hparts := mapM_eq_some hbelow
  let sub : α → List (α × β) := fun c =>
    (walk children extend fuel (extend inherited a) c).getD []
  have hsub : below = (children a).map sub := by
    have hgetD := congrArg (List.map fun part => Option.getD part []) hparts
    rw [List.map_map, List.map_map] at hgetD
    exact (List.map_id below).symm.trans hgetD.symm
  refine ⟨sub, fun c hc => ?_, ?_⟩
  · have hmem : walk children extend fuel (extend inherited a) c ∈ below.map some :=
      hparts ▸ List.mem_map_of_mem hc
    obtain ⟨part, -, hpart⟩ := List.mem_map.mp hmem
    show _ = some ((walk children extend fuel (extend inherited a) c).getD [])
    rw [← hpart, Option.getD_some]
  · rw [← Option.some.inj hxs, hsub, List.flatMap_def]

/-- What a walk lists: every node of the subtree with what `extend` makes of the path to it. -/
theorem mem_walk {fuel : Nat} {inherited : β} {a : α}
    {xs : List (α × β)} (hwalk : walk children extend fuel inherited a = some xs) {b : α} {v : β} :
    (b, v) ∈ xs ↔ ∃ path, Path children a b path ∧ path.foldl extend inherited = v := by
  induction fuel generalizing inherited a xs with
  | zero => cases hwalk
  | succ fuel ih =>
    obtain ⟨sub, hsub, rfl⟩ := walk_succ hwalk
    rw [List.mem_cons, List.mem_flatMap]
    constructor
    · rintro (heq | ⟨c, hc, hmem⟩)
      · cases heq
        exact ⟨[b], .here b, rfl⟩
      · obtain ⟨path, hpath, hv⟩ := (ih (hsub c hc)).mp hmem
        exact ⟨a :: path, .down hc hpath, hv⟩
    · rintro ⟨path, hpath, hv⟩
      cases hpath with
      | here => exact .inl (by rw [← hv]; rfl)
      | down hc hpath => exact .inr ⟨_, hc, (ih (hsub _ hc)).mpr ⟨_, hpath, hv⟩⟩

namespace IsForest

/-! ## Attaching a root -/

/-- A path that may use one new link uses it or does not. -/
theorem transGen_update [DecidableEq α] {parent : α → Option α} {child self : α}
    (hroot : parent child = none) {a b : α}
    (h : TransGen (Up (Function.update parent child (some self))) a b) :
    TransGen (Up parent) a b ∨
      ReflTransGen (Up parent) a child ∧ ReflTransGen (Up parent) self b := by
  have hlink : ∀ {c p}, Up (Function.update parent child (some self)) c p →
      Up parent c p ∨ c = child ∧ p = self := by
    intro c p hup
    by_cases hc : c = child
    · subst hc
      rw [Up, Function.update_self] at hup
      exact .inr ⟨rfl, (Option.some.inj hup).symm⟩
    · rw [Up, Function.update_of_ne hc] at hup
      exact .inl hup
  induction h with
  | single hup =>
    obtain hup | ⟨rfl, rfl⟩ := hlink hup
    · exact .inl (.single hup)
    · exact .inr ⟨.refl, .refl⟩
  | tail _ hup ih =>
    obtain hold | ⟨hbefore, hafter⟩ := ih <;> obtain hup | ⟨rfl, rfl⟩ := hlink hup
    · exact .inl (hold.tail hup)
    · exact .inr ⟨hold.to_reflTransGen, .refl⟩
    · exact .inr ⟨hbefore, hafter.tail hup⟩
    · exact .inr ⟨hbefore, .refl⟩

/-- A root is attached below a node that is not in its subtree. -/
theorem attach [DecidableEq α] (h : IsForest parent children) {child self : α}
    (hroot : parent child = none) (hbelow : ¬ Below parent child self) :
    IsForest (Function.update parent child (some self))
      (Function.update children self (children self ++ [child])) := by
  have hfresh : child ∉ children self := fun hmem => by
    have hparent := (h.agree self child).mp hmem
    rw [hroot] at hparent
    cases hparent
  refine ⟨fun p c => ?_, fun p => ?_, fun a hcycle => ?_⟩
  · by_cases hp : p = self <;> by_cases hc : c = child
    · subst hp hc
      simp
    · subst hp
      rw [Function.update_self, Function.update_of_ne hc, List.mem_append, List.mem_singleton,
        or_iff_left hc]
      exact h.agree p c
    · subst hc
      rw [Function.update_of_ne hp, Function.update_self, Option.some.injEq, h.agree, hroot]
      exact iff_of_false nofun fun heq => hp heq.symm
    · rw [Function.update_of_ne hp, Function.update_of_ne hc]
      exact h.agree p c
  · by_cases hp : p = self
    · subst hp
      rw [Function.update_self]
      exact List.nodup_append.mpr ⟨h.nodup p, List.nodup_singleton _, fun a ha b hb heq =>
        hfresh (List.mem_singleton.mp hb ▸ heq ▸ ha)⟩
    · rw [Function.update_of_ne hp]
      exact h.nodup p
  · -- a cycle through the new link would put `self` into the subtree of `child`
    obtain hold | ⟨hbefore, hafter⟩ := transGen_update hroot hcycle
    · exact h.acyclic a hold
    · exact hbelow (hafter.trans hbefore)

/-! ## The subtree of a node -/

theorem contains_sound [DecidableEq α] (h : IsForest parent children) {candidate : α} {fuel : Nat}
    {a : α} {b : Bool} (hb : contains children candidate fuel a = some b) :
    b = true ↔ Below parent a candidate := by
  induction fuel generalizing a b with
  | zero => cases hb
  | succ fuel ih =>
    rw [contains] at hb
    split at hb
    next heq =>
      cases hb
      exact iff_of_true rfl (heq ▸ .refl)
    next hne =>
      obtain ⟨htrue, hfalse⟩ := anyM_eq_some hb
      constructor
      · intro hb
        obtain ⟨c, hc, hsome⟩ := htrue hb
        exact ((ih hsome).mp rfl).tail ((h.agree a c).mp hc)
      · intro hbelow
        by_contra hb
        obtain rfl | ⟨c, hc, hup⟩ := hbelow.cases_tail
        · exact hne rfl
        · have hsome := hfalse (Bool.eq_false_of_not_eq_true hb) c ((h.agree a c).mpr hup)
          exact absurd ((ih hsome).mpr hc) (by decide)

/-- A finite forest is no deeper than it has nodes. -/
theorem shallow (h : IsForest parent children) (nodes : Finset α)
    (hnodes : ∀ p c, c ∈ children p → c ∈ nodes) {a : α} (ha : a ∈ nodes) {fuel : Nat}
    (hfuel : nodes.card ≤ fuel) : Shallow children fuel a := by
  classical
  -- the nodes above `a` are distinct and `a` is none of them
  have hdepth : ∀ fuel (above : Finset α) a, a ∈ nodes → above ⊆ nodes →
      (∀ x ∈ above, TransGen (Up parent) a x) → nodes.card ≤ fuel + above.card →
      Shallow children fuel a := by
    intro fuel
    induction fuel with
    | zero =>
      intro above a ha hsub hup hcard
      have hnew : a ∉ above := fun hmem => h.acyclic a (hup a hmem)
      have hle := Finset.card_le_card (Finset.insert_subset ha hsub)
      rw [Finset.card_insert_of_notMem hnew] at hle
      omega
    | succ fuel ih =>
      intro above a ha hsub hup hcard c hc
      have hnew : a ∉ above := fun hmem => h.acyclic a (hup a hmem)
      have hparent : Up parent c a := (h.agree a c).mp hc
      refine ih (insert a above) c (hnodes a c hc) (Finset.insert_subset ha hsub) ?_ ?_
      · intro x hx
        obtain rfl | hx := Finset.mem_insert.mp hx
        · exact .single hparent
        · exact .head hparent (hup x hx)
      · rw [Finset.card_insert_of_notMem hnew]
        omega
  exact hdepth fuel ∅ a ha (Finset.empty_subset _) (by simp) (by simpa using hfuel)

theorem below_of_path (h : IsForest parent children) {a b : α} {path : List α}
    (hpath : Path children a b path) : Below parent a b := by
  induction hpath with
  | here a => exact .refl
  | down hc _ ih => exact ih.tail ((h.agree _ _).mp hc)

theorem exists_path (h : IsForest parent children) {a b : α} (hbelow : Below parent a b) :
    ∃ path, Path children a b path := by
  induction hbelow with
  | refl => exact ⟨_, .here b⟩
  | tail _ hup ih =>
    obtain ⟨path, hpath⟩ := ih
    exact ⟨_, .down ((h.agree _ _).mpr hup) hpath⟩

/-- Two nodes with a common node below them are one below the other. -/
theorem below_total {a b c : α} (ha : Below parent a c) (hb : Below parent b c) :
    Below parent b a ∨ Below parent a b :=
  ReflTransGen.total_of_right_unique (fun _ _ _ h h' => Option.some.inj (h.symm.trans h')) ha hb

/-- The subtrees of two children of a node are disjoint. -/
theorem eq_of_below (h : IsForest parent children) {p c₁ c₂ a : α} (h₁ : c₁ ∈ children p)
    (h₂ : c₂ ∈ children p) (ha₁ : Below parent c₁ a) (ha₂ : Below parent c₂ a) : c₁ = c₂ := by
  have hup : ∀ {c c'}, c ∈ children p → c' ∈ children p → Below parent c' c → c = c' := by
    intro c c' hc hc' hbelow
    obtain rfl | ⟨d, hd, hdown⟩ := hbelow.cases_head
    · rfl
    · -- the parent of `c` is `p`, so `p` would be below its own child
      rw [Up, (h.agree p c).mp hc] at hd
      cases hd
      have hlink : Up parent c' p := (h.agree p c').mp hc'
      exact absurd (TransGen.head' hlink hdown) (h.acyclic c')
  obtain hbelow | hbelow := below_total ha₁ ha₂
  · exact hup h₁ h₂ hbelow
  · exact (hup h₂ h₁ hbelow).symm

theorem precedes_irrefl (h : IsForest parent children) (a : α) :
    ¬ Precedes parent children a a := by
  rintro (hcycle | ⟨p, c₁, c₂, hsub, h₁, h₂⟩)
  · exact h.acyclic a hcycle
  · have hmem : ∀ c ∈ [c₁, c₂], c ∈ children p := fun c hc => hsub.subset hc
    have heq := h.eq_of_below (hmem c₁ (by simp)) (hmem c₂ (by simp)) h₁ h₂
    have hnodup := (h.nodup p).sublist hsub
    rw [heq] at hnodup
    simp at hnodup

theorem below_of_mem_walk (h : IsForest parent children) {fuel : Nat} {inherited : β} {a : α}
    {xs : List (α × β)} (hwalk : walk children extend fuel inherited a = some xs) {x : α × β}
    (hx : x ∈ xs) : Below parent a x.1 := by
  obtain ⟨path, hpath, -⟩ := (mem_walk hwalk).mp hx
  exact h.below_of_path hpath

theorem pairwise_walk (h : IsForest parent children) {fuel : Nat} {inherited : β} {a : α}
    {xs : List (α × β)} (hwalk : walk children extend fuel inherited a = some xs) :
    xs.Pairwise fun x y => Precedes parent children x.1 y.1 := by
  induction fuel generalizing inherited a xs with
  | zero => cases hwalk
  | succ fuel ih =>
    obtain ⟨sub, hsub, rfl⟩ := walk_succ hwalk
    refine List.pairwise_cons.mpr ⟨fun y hy => ?_, List.pairwise_flatMap.mpr ⟨fun c hc => ?_, ?_⟩⟩
    · obtain ⟨c, hc, hy⟩ := List.mem_flatMap.mp hy
      exact .inl (.tail' (h.below_of_mem_walk (hsub c hc) hy) ((h.agree a c).mp hc))
    · exact ih (hsub c hc)
    · refine List.pairwise_iff_forall_sublist.mpr fun {c₁ c₂} hpair x hx y hy => ?_
      have hmem : ∀ c ∈ [c₁, c₂], c ∈ children a := fun c hc => hpair.subset hc
      exact .inr ⟨a, c₁, c₂, hpair, h.below_of_mem_walk (hsub c₁ (hmem c₁ (by simp))) hx,
        h.below_of_mem_walk (hsub c₂ (hmem c₂ (by simp))) hy⟩

/-- A walk lists every node of the subtree exactly once, in preorder, each with what `extend` makes
of the path down to it. -/
theorem walk_spec (h : IsForest parent children) {fuel : Nat} {inherited : β} {a : α}
    {xs : List (α × β)} (hwalk : walk children extend fuel inherited a = some xs) :
    (∀ b, b ∈ xs.map Prod.fst ↔ Below parent a b) ∧ (xs.map Prod.fst).Nodup ∧
      (xs.map Prod.fst).Pairwise (Precedes parent children) ∧
      ∀ b v, (b, v) ∈ xs → ∃ path, Path children a b path ∧ path.foldl extend inherited = v := by
  have hpairwise : (xs.map Prod.fst).Pairwise (Precedes parent children) :=
    List.pairwise_map.mpr (h.pairwise_walk hwalk)
  refine ⟨fun b => ?_, ?_, hpairwise, fun b v => (mem_walk hwalk).mp⟩
  · constructor
    · intro hb
      obtain ⟨x, hx, rfl⟩ := List.mem_map.mp hb
      exact h.below_of_mem_walk hwalk hx
    · intro hbelow
      obtain ⟨path, hpath⟩ := h.exists_path hbelow
      exact List.mem_map.mpr ⟨_, (mem_walk hwalk).mpr ⟨path, hpath, rfl⟩, rfl⟩
  · refine hpairwise.imp fun {a b} hprecedes heq => ?_
    exact h.precedes_irrefl a (heq ▸ hprecedes)

end IsForest

end Chattice.Forest
