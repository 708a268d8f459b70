import Mathlib.Data.List.Forall2

/-!
# Computations that raise

When a sequence, or a loop over a list, of steps that may raise ends with a value, and which
exceptions it may raise (`RaisesOnly`).
-/

namespace Except

variable {ε α β : Type}

@[simp]
theorem ok_bind (a : α) (f : α → Except ε β) : Except.ok a >>= f = f a := rfl

theorem bind_eq_ok {x : Except ε α} {f : α → Except ε β} {b : β} :
    x >>= f = .ok b ↔ ∃ a, x = .ok a ∧ f a = .ok b := by
  cases x with
  | error e =>
    constructor
    · intro h
      cases h
    · rintro ⟨a, h, -⟩
      cases h
  | ok a =>
    constructor
    · intro h
      exact ⟨a, rfl, h⟩
    · rintro ⟨a', h, hf⟩
      cases h
      exact hf

theorem pure_eq_ok {a b : α} : (pure a : Except ε α) = .ok b ↔ a = b := by
  show Except.ok a = Except.ok b ↔ a = b
  rw [Except.ok.injEq]

/-- A check that raises lets the rest run when it finds nothing. -/
theorem ite_error_eq_ok {c : Prop} [Decidable c] {e : ε} {x : Except ε α} {a : α} :
    (if c then .error e else x) = .ok a ↔ ¬ c ∧ x = .ok a := by
  split
  next hc => exact iff_of_false nofun fun h => h.1 hc
  next hc => exact (and_iff_right hc).symm

/-- A loop ends with the list of the values of its passes. -/
theorem mapM_eq_ok {f : α → Except ε β} {l : List α} {bs : List β} :
    l.mapM f = .ok bs ↔ List.Forall₂ (fun a b => f a = .ok b) l bs := by
  induction l generalizing bs with
  | nil => rw [List.mapM_nil, pure_eq_ok, List.forall₂_nil_left_iff, eq_comm]
  | cons a l ih =>
    rw [List.mapM_cons, List.forall₂_cons_left_iff, bind_eq_ok]
    constructor
    · rintro ⟨b, hb, hrest⟩
      obtain ⟨bs', hbs', hdone⟩ := bind_eq_ok.mp hrest
      exact ⟨b, bs', hb, ih.mp hbs', (pure_eq_ok.mp hdone).symm⟩
    · rintro ⟨b, bs', hb, hbs', rfl⟩
      exact ⟨b, hb, bind_eq_ok.mpr ⟨bs', ih.mpr hbs', rfl⟩⟩

/-- A loop ends with a value when every pass does. -/
theorem exists_mapM_eq_ok {f : α → Except ε β} {l : List α} :
    (∃ bs, l.mapM f = .ok bs) ↔ ∀ a ∈ l, ∃ b, f a = .ok b := by
  simp only [mapM_eq_ok]
  induction l with
  | nil => exact iff_of_true ⟨[], .nil⟩ fun a ha => absurd ha List.not_mem_nil
  | cons a l ih =>
    rw [List.forall_mem_cons, ← ih]
    constructor
    · rintro ⟨_, hcons⟩
      obtain ⟨b, bs, hb, hbs, rfl⟩ := List.forall₂_cons_left_iff.mp hcons
      exact ⟨⟨b, hb⟩, bs, hbs⟩
    · rintro ⟨⟨b, hb⟩, bs, hbs⟩
      exact ⟨b :: bs, .cons hb hbs⟩

theorem exists_of_mem_mapM {f : α → Except ε β} {l : List α} {bs : List β} (h : l.mapM f = .ok bs)
    {b : β} (hb : b ∈ bs) : ∃ a ∈ l, f a = .ok b := by
  have hall := mapM_eq_ok.mp h
  clear h
  induction hall with
  | nil => cases hb
  | cons hhead _ ih =>
    cases hb with
    | head => exact ⟨_, .head _, hhead⟩
    | tail _ hb =>
      obtain ⟨a, ha, hab⟩ := ih hb
      exact ⟨a, .tail _ ha, hab⟩

theorem exists_mem_of_mapM {f : α → Except ε β} {l : List α} {bs : List β} (h : l.mapM f = .ok bs)
    {a : α} (ha : a ∈ l) : ∃ b ∈ bs, f a = .ok b := by
  have hall := mapM_eq_ok.mp h
  clear h
  induction hall with
  | nil => cases ha
  | cons hb _ ih =>
    obtain rfl | ha := List.mem_cons.mp ha
    · exact ⟨_, .head _, hb⟩
    · obtain ⟨b, hmem, hfb⟩ := ih ha
      exact ⟨b, .tail _ hmem, hfb⟩

/-- Whatever the computation raises satisfies `P`. -/
def RaisesOnly (P : ε → Prop) (x : Except ε α) : Prop := ∀ e, x = .error e → P e

section RaisesOnly

variable {P : ε → Prop}

theorem raisesOnly_ok (a : α) : RaisesOnly P (.ok a) := nofun

theorem raisesOnly_error {e : ε} : RaisesOnly P (.error e : Except ε α) ↔ P e := by
  constructor
  · intro h
    exact h e rfl
  · intro h e' he'
    cases he'
    exact h

theorem raisesOnly_bind {x : Except ε α} {f : α → Except ε β} :
    RaisesOnly P (x >>= f) ↔ RaisesOnly P x ∧ ∀ a, x = .ok a → RaisesOnly P (f a) := by
  cases x with
  | error e =>
    constructor
    · intro h
      exact ⟨raisesOnly_error.mpr (h e rfl), nofun⟩
    · rintro ⟨h, -⟩
      exact raisesOnly_error.mpr (raisesOnly_error.mp h)
  | ok a =>
    constructor
    · intro h
      refine ⟨raisesOnly_ok a, fun a' ha' => ?_⟩
      cases ha'
      exact h
    · rintro ⟨-, h⟩
      exact h a rfl

/-- The second part keeps to the family whatever the first part ends with. -/
theorem raisesOnly_bind_left {x : Except ε α} {f : α → Except ε β}
    (hf : ∀ a, x = .ok a → RaisesOnly P (f a)) : RaisesOnly P (x >>= f) ↔ RaisesOnly P x :=
  raisesOnly_bind.trans (and_iff_left hf)

theorem raisesOnly_bind_right {x : Except ε α} {f : α → Except ε β} (hx : RaisesOnly P x) :
    RaisesOnly P (x >>= f) ↔ ∀ a, x = .ok a → RaisesOnly P (f a) :=
  raisesOnly_bind.trans (and_iff_right hx)

/-- A loop raises in the first pass that does. -/
theorem raisesOnly_mapM {f : α → Except ε β} {l : List α} :
    RaisesOnly P (l.mapM f) ↔ ∀ before a after, l = before ++ a :: after →
      (∀ a' ∈ before, ∃ b, f a' = .ok b) → RaisesOnly P (f a) := by
  induction l with
  | nil =>
    refine iff_of_true (raisesOnly_ok []) fun before a after h => ?_
    exact absurd h.symm (List.append_ne_nil_of_right_ne_nil before (List.cons_ne_nil a after))
  | cons first l ih =>
    rw [List.mapM_cons, raisesOnly_bind]
    constructor
    · rintro ⟨hfirst, hrest⟩ before a after hsplit hbefore
      obtain ⟨rfl, h⟩ | ⟨rest, rfl, hl⟩ := List.cons_eq_append_iff.mp hsplit
      · cases h
        exact hfirst
      · obtain ⟨b, hb⟩ := hbefore first (.head _)
        have htail := (raisesOnly_bind.mp (hrest b hb)).1
        exact ih.mp htail rest a after hl fun a' ha' => hbefore a' (.tail _ ha')
    · intro h
      refine ⟨h [] first l rfl fun a' ha' => absurd ha' List.not_mem_nil, fun b hb => ?_⟩
      refine raisesOnly_bind.mpr ⟨ih.mpr fun before a after hsplit hbefore => ?_, fun bs _ =>
        raisesOnly_ok _⟩
      refine h (first :: before) a after (by rw [hsplit, List.cons_append]) fun a' ha' => ?_
      obtain rfl | htail := List.mem_cons.mp ha'
      · exact ⟨b, hb⟩
      · exact hbefore a' htail

theorem raisesOnly_foldlM {f : β → α → Except ε β} {l : List α}
    (hf : ∀ b, ∀ a ∈ l, RaisesOnly P (f b a)) (b : β) : RaisesOnly P (l.foldlM f b) := by
  induction l generalizing b with
  | nil => exact raisesOnly_ok b
  | cons a l ih =>
    rw [List.foldlM_cons, raisesOnly_bind]
    exact ⟨hf b a (.head _), fun b' _ => ih (fun b a' ha' => hf b a' (.tail _ ha')) b'⟩

end RaisesOnly

end Except
