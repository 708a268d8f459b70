import Chattice.Data.Keyed

/-!
# Isolated keys

A store on which calls are made one after the other, each on a key.

* `Isolated` : leaving out every call on one key changes no result on another;
* `isolated_of_view` : it is enough that the results on the key come from a part of the store that
  calls on the other key leave alone, and that every call changes as that part tells it to;
* `Keyed.isolated` : a store that keeps its entries under a text of the key isolates keys with
  different texts.
-/

namespace Chattice

variable {S K C R V : Type} [DecidableEq K]

/-- The results of the calls on `key`. -/
def resultsOn (exec : S → K → C → S × R) (key : K) (s : S) : List (K × C) → List R
  | [] => []
  | (k, c) :: calls =>
    if k = key then (exec s k c).2 :: resultsOn exec key (exec s k c).1 calls
    else resultsOn exec key (exec s k c).1 calls

/-- No call on `other` changes the result of a later call on `key`, whatever calls are made besides:
leaving all of them out changes nothing. -/
def Isolated (exec : S → K → C → S × R) (other key : K) : Prop :=
  ∀ (s : S) (calls : List (K × C)),
    resultsOn exec key s calls = resultsOn exec key s (calls.filter fun call => call.1 ≠ other)

variable {exec : S → K → C → S × R} {view : S → V} {other key : K}

theorem resultsOn_eq_of_view (hne : other ≠ key)
    (hresult : ∀ s t c, view s = view t → (exec s key c).2 = (exec t key c).2)
    (hstep : ∀ s t k c, view s = view t → view (exec s k c).1 = view (exec t k c).1)
    (hother : ∀ s c, view (exec s other c).1 = view s) (calls : List (K × C)) {s t : S}
    (h : view s = view t) :
    resultsOn exec key s calls =
      resultsOn exec key t (calls.filter fun call => call.1 ≠ other) := by
  induction calls generalizing s t with
  | nil => rfl
  | cons call calls ih =>
    obtain ⟨k, c⟩ := call
    by_cases hk : k = other
    · subst hk
      have hskip : view (exec s k c).1 = view t := (hother s c).trans h
      rw [List.filter_cons_of_neg (by simp), resultsOn, if_neg hne]
      exact ih hskip
    · rw [List.filter_cons_of_pos (by simpa using hk), resultsOn, resultsOn]
      have hrest := ih (hstep s t k c h)
      split
      · next hsame =>
        subst hsame
        rw [hresult s t c h, hrest]
      · exact hrest

/-- A part of the store that calls on `other` leave alone tells the results on `key`. -/
theorem isolated_of_view (view : S → V) (hne : other ≠ key)
    (hresult : ∀ s t c, view s = view t → (exec s key c).2 = (exec t key c).2)
    (hstep : ∀ s t k c, view s = view t → view (exec s k c).1 = view (exec t k c).1)
    (hother : ∀ s c, view (exec s other c).1 = view s) : Isolated exec other key :=
  fun _ calls => resultsOn_eq_of_view hne hresult hstep hother calls rfl

/-- Two calls that tell a run from the one without the first: the keys are not isolated. -/
theorem not_isolated_of_pair (hne : other ≠ key) (s : S) (c c' : C)
    (h : (exec (exec s other c).1 key c').2 ≠ (exec s key c').2) : ¬ Isolated exec other key := by
  intro hisolated
  have hrun := hisolated s [(other, c), (key, c')]
  rw [List.filter_cons_of_neg (by simp), List.filter_cons_of_pos (by simpa using Ne.symm hne),
    List.filter_nil] at hrun
  simp only [resultsOn, if_neg hne, if_true, List.cons.injEq, and_true] at hrun
  exact h hrun

/-- A store that keeps its entries under a text of the key. -/
theorem Keyed.isolated {σ T : Type} [DecidableEq T] (step : σ → C → σ × R) (text : K → T)
    (h : text other ≠ text key) :
    Isolated (fun store k c => Keyed.call step store (text k) c) other key := by
  have hne : other ≠ key := fun heq => h (congrArg text heq)
  refine isolated_of_view (fun store => store (text key)) hne ?_ ?_ ?_
  · intro s t c hview
    simp only [Keyed.call, hview]
  · intro s t k c hview
    by_cases hk : text k = text key
    · simp only [Keyed.call, hk, Function.update_self, hview]
    · simp only [Keyed.call, Function.update_of_ne (Ne.symm hk), hview]
  · intro s c
    exact Function.update_of_ne (Ne.symm h) _ _

end Chattice
