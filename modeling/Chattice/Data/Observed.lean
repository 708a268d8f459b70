import Mathlib.Control.Basic

/-!
# Computations that look the same

An observer sees the results of computations through a function `u`. Two computations look the same
(`SeenAs`) when they are equal once `u` has been applied to their results.
-/

namespace Observed

variable {m : Type → Type} [Monad m] {α β : Type}

/-- The two computations are the same through `u`. -/
def SeenAs (u : α → α) (x y : m α) : Prop := u <$> x = u <$> y

theorem SeenAs.refl (u : α → α) (x : m α) : SeenAs u x x := rfl

variable [LawfulMonad m] {u : α → α} {w : β → β} {x y : m α} {f g : α → m β}

theorem seenAs_pure {a b : α} (h : u a = u b) : SeenAs u (pure a : m α) (pure b) := by
  rw [SeenAs, map_pure, map_pure, h]

theorem SeenAs.bind_left (x : m α) (h : ∀ a, SeenAs w (f a) (g a)) :
    SeenAs w (x >>= f) (x >>= g) := by
  rw [SeenAs, map_bind, map_bind]
  exact bind_congr h

/-- Computations that look the same, gone on with in ways that look the same on results that do. -/
theorem SeenAs.bind (hu : ∀ a, u (u a) = u a) (hx : SeenAs u x y)
    (hfg : ∀ a b, u a = u b → SeenAs w (f a) (g b)) : SeenAs w (x >>= f) (y >>= g) := by
  have hf : ∀ a, w <$> f a = w <$> g (u a) := fun a => hfg a (u a) (hu a).symm
  have hg : ∀ b, w <$> g b = w <$> g (u b) := fun b => (hfg b b rfl).symm.trans (hf b)
  calc w <$> (x >>= f)
      = (u <$> x) >>= fun a => w <$> g a := by
        rw [map_bind, bind_map_left]
        exact bind_congr hf
    _ = (u <$> y) >>= fun a => w <$> g a := by rw [hx]
    _ = w <$> (y >>= g) := by
        rw [map_bind, bind_map_left]
        exact bind_congr fun b => (hg b).symm

end Observed
