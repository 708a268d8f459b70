import Chattice.Python.Str
import Mathlib.Data.List.DropRight

/-!
# POSIX paths

What `pathlib` reads off a text: the pieces between the slashes, without the empty ones and the dots.

* `pathParts_append` : the parts of a directory and of what lies in it;
* `pathName_eq_iff` : which texts are names of files.
-/

namespace Chattice.Python

/-- The parts of `Path(s)` after its root. -/
def pathParts (s : List Char) : List (List Char) :=
  (s.splitOn '/').filter fun piece => piece ≠ [] && piece ≠ ['.']

/-- `Path(s).name` -/
def pathName (s : List Char) : List Char := (pathParts s).getLastD []

/-- `s.rstrip('/')` -/
def rstripSlashes (s : List Char) : List Char := s.rdropWhile (· == '/')

theorem pathParts_append (l m : List Char) : pathParts (l ++ '/' :: m) = pathParts l ++ pathParts m := by
  rw [pathParts, List.splitOn_append_cons_self, List.filter_append]
  rfl

theorem pathParts_of_no_slash {s : List Char} (h : '/' ∉ s) (hnil : s ≠ []) (hdot : s ≠ ['.']) :
    pathParts s = [s] := by
  rw [pathParts, List.splitOn_eq_singleton h, List.filter_cons_of_pos (by simp [hnil, hdot]),
    List.filter_nil]

theorem slash_notMem_part {s part : List Char} (h : part ∈ pathParts s) : '/' ∉ part := by
  replace h := (List.mem_filter.mp h).1
  induction s generalizing part with
  | nil =>
    rw [List.splitOn_nil, List.mem_singleton] at h
    rw [h]
    exact List.not_mem_nil
  | cons c s ih =>
    rw [List.splitOn_cons_eq_if_modifyHead] at h
    split at h
    · obtain rfl | hrest := List.mem_cons.mp h
      · exact List.not_mem_nil
      · exact ih hrest
    · next hc =>
      cases hs : s.splitOn '/' with
      | nil =>
        rw [hs] at h
        cases h
      | cons first rest =>
        rw [hs] at h ih
        obtain rfl | hrest := List.mem_cons.mp h
        · rw [List.mem_cons, not_or]
          refine ⟨?_, ih List.mem_cons_self⟩
          rintro rfl
          exact hc (beq_self_eq_true _)
        · exact ih (List.mem_cons_of_mem _ hrest)

theorem pathParts_slashes {s : List Char} (h : ∀ c ∈ s, c = '/') : pathParts s = [] := by
  induction s with
  | nil => rfl
  | cons c s ih =>
    obtain ⟨rfl, hs⟩ := List.forall_mem_cons.mp h
    have happend := pathParts_append [] s
    rw [List.nil_append, ih hs] at happend
    exact happend

theorem rstripSlashes_append (s : List Char) : ∃ t, s = rstripSlashes s ++ t ∧ ∀ c ∈ t, c = '/' := by
  refine ⟨s.rtakeWhile (· == '/'), ?_, fun c hc => ?_⟩
  · rw [rstripSlashes, List.rdropWhile, List.rtakeWhile, ← List.reverse_append,
      List.takeWhile_append_dropWhile, List.reverse_reverse]
  · rw [List.rtakeWhile, List.mem_reverse] at hc
    have hslash := List.mem_takeWhile_imp hc
    exact eq_of_beq hslash

theorem pathParts_rstripSlashes (s : List Char) : pathParts (rstripSlashes s) = pathParts s := by
  obtain ⟨t, hs, ht⟩ := rstripSlashes_append s
  generalize rstripSlashes s = r at *
  cases t with
  | nil => rw [hs, List.append_nil]
  | cons c t =>
    obtain ⟨rfl, hrest⟩ := List.forall_mem_cons.mp ht
    rw [hs, pathParts_append, pathParts_slashes hrest, List.append_nil]

/-- A text is the name of its own path when it is no dot and has no slash. -/
theorem pathName_eq_iff {s : List Char} (hnil : s ≠ []) : pathName s = s ↔ '/' ∉ s ∧ s ≠ ['.'] := by
  constructor
  · intro h
    have hparts : pathParts s ≠ [] := by
      intro hempty
      rw [pathName, hempty] at h
      exact hnil h.symm
    have hmem : s ∈ pathParts s := by
      rw [pathName, List.getLastD_eq_getLast?, List.getLast?_eq_some_getLast hparts, Option.getD_some] at h
      have hlast := List.getLast_mem hparts
      rw [h] at hlast
      exact hlast
    refine ⟨slash_notMem_part hmem, fun hdot => ?_⟩
    rw [hdot] at hmem
    exact absurd hmem (by decide)
  · rintro ⟨hslash, hdot⟩
    rw [pathName, pathParts_of_no_slash hslash hnil hdot]
    rfl

end Chattice.Python
