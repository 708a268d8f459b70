import Mathlib.Data.List.Basic

/-!
# Lists of numbered entries

The entries of a list that only grows at its end and whose entries are replaced, and how many of them have
a property.
-/

namespace List

variable {α : Type}

theorem getElem?_snoc_eq_some {l : List α} {a b : α} {i : Nat} :
    (l ++ [a])[i]? = some b ↔ l[i]? = some b ∨ i = l.length ∧ a = b := by
  rcases Nat.lt_trichotomy i l.length with hlt | rfl | hgt
  · rw [getElem?_append_left hlt]
    exact (or_iff_left fun h => absurd h.1 (Nat.ne_of_lt hlt)).symm
  · rw [getElem?_concat_length, getElem?_eq_none (Nat.le_refl _), Option.some_inj]
    exact ⟨fun h => .inr ⟨rfl, h⟩, fun h => h.elim nofun And.right⟩
  · rw [getElem?_eq_none (Nat.le_of_lt hgt), getElem?_eq_none]
    · exact iff_of_false nofun fun h => h.elim nofun fun h => absurd h.1 (Nat.ne_of_gt hgt)
    · rw [length_append]
      exact hgt

theorem getElem?_set_eq_some {l : List α} {a a' b : α} {i j : Nat} (hi : l[i]? = some a') :
    (l.set i a)[j]? = some b ↔ j = i ∧ a = b ∨ j ≠ i ∧ l[j]? = some b := by
  obtain ⟨hlt, -⟩ := getElem?_eq_some_iff.mp hi
  by_cases hij : j = i
  · subst hij
    rw [getElem?_set_self hlt, Option.some_inj]
    exact ⟨fun h => .inl ⟨rfl, h⟩, fun h => h.elim And.right fun h => absurd rfl h.1⟩
  · rw [getElem?_set_ne (Ne.symm hij)]
    exact ⟨fun h => .inr ⟨hij, h⟩, fun h => h.elim (fun h => absurd h.1 hij) And.right⟩

theorem countP_set_add {l : List α} {a a' : α} {i : Nat} (hi : l[i]? = some a') (p : α → Bool) :
    (l.set i a).countP p + (if p a' = true then 1 else 0) =
      l.countP p + if p a = true then 1 else 0 := by
  induction l generalizing i with
  | nil => cases hi
  | cons first l ih =>
    cases i with
    | zero =>
      obtain rfl : first = a' := Option.some_inj.mp hi
      rw [set_cons_zero, countP_cons, countP_cons]
      omega
    | succ i =>
      have hrest := ih hi
      rw [set_cons_succ, countP_cons, countP_cons]
      omega

end List
