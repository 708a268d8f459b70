import Chattice.Python.Str
import Mathlib.Data.List.TakeWhile

/-!
# The parts of a URL that `urlsplit` finds

Only the scheme and the network location are needed.
-/

namespace Chattice.Python

/-- `urlsplit` drops leading control characters and blanks, and every tab and line break. -/
def cleanUrl (url : String) : List Char :=
  (url.toList.dropWhile fun c => c.toNat ≤ 32).filter
    fun c => c != '\t' && c != '\r' && c != '\n'

def isSchemeChar (c : Char) : Bool :=
  c.isAlphanum || c == '+' || c == '-' || c == '.'

/-- The scheme in lower case, and what follows its colon; no scheme where there is none. -/
def splitScheme (url : List Char) : List Char × List Char :=
  let scheme := url.takeWhile (· != ':')
  match scheme, url.dropWhile (· != ':') with
  | first :: _, _ :: rest =>
    if first.isAlpha && scheme.all isSchemeChar then (scheme.map Char.toLower, rest)
    else ([], url)
  | _, _ => ([], url)

/-- The network location of what follows the scheme. -/
def netloc : List Char → List Char
  | '/' :: '/' :: rest => rest.takeWhile fun c => c != '/' && c != '?' && c != '#'
  | _ => []

/-- `urlsplit` does not raise for this network location. -/
def netlocValid (special : String → Bool) (location : List Char) : Bool :=
  if location.contains '[' != location.contains ']' then false
  else if location.contains '[' || location.any fun c => 128 ≤ c.toNat then
    special (.ofList location)
  else true

/-- `urlparse(url)` returns, with scheme `https` and a network location. -/
def isHttpsUrl (special : String → Bool) (url : String) : Bool :=
  let (scheme, rest) := splitScheme (cleanUrl url)
  scheme == "https".toList && !(netloc rest).isEmpty && netlocValid special (netloc rest)

/-! ## A longer path -/

variable {r s rest : List Char}

theorem takeWhile_append_slash {p : Char → Bool} (hp : p '/' = false) (l m : List Char) :
    (l ++ '/' :: m).takeWhile p = l.takeWhile p := by
  rw [List.takeWhile_append, List.takeWhile_cons, hp]
  split
  · next h =>
    rw [if_neg Bool.false_ne_true, List.append_nil]
    exact ((List.takeWhile_prefix p).eq_of_length h).symm
  · rfl

theorem takeWhile_slashes {p : Char → Bool} (hp : p '/' = false) (hs : ∀ c ∈ s, c = '/') (l : List Char) :
    (l ++ s).takeWhile p = l.takeWhile p := by
  cases s with
  | nil => rw [List.append_nil]
  | cons c s =>
    rw [hs c List.mem_cons_self]
    exact takeWhile_append_slash hp l s

theorem splitScheme_append (h : ':' ∈ r) (m : List Char) :
    splitScheme (r ++ m) = ((splitScheme r).1, (splitScheme r).2 ++ m) := by
  obtain ⟨scheme, rest, rfl, hscheme⟩ := List.eq_append_cons_of_mem h
  have hbefore : ∀ c ∈ scheme, (c != ':') = true := by
    intro c hc
    rw [bne_iff_ne]
    rintro rfl
    exact hscheme hc
  unfold splitScheme
  rw [List.append_assoc, List.takeWhile_append_of_pos hbefore, List.takeWhile_append_of_pos hbefore,
    List.dropWhile_append_of_pos hbefore, List.dropWhile_append_of_pos hbefore]
  simp only [List.cons_append, List.takeWhile_cons, List.dropWhile_cons, bne_self_eq_false,
    Bool.false_eq_true, if_false, List.append_nil]
  cases scheme with
  | nil => rfl
  | cons first scheme =>
    dsimp only
    split
    · rfl
    · simp only [List.cons_append, List.append_assoc]

theorem colon_mem_of_scheme (h : (splitScheme r).1 ≠ []) : ':' ∈ r := by
  by_contra hnone
  have hnil : r.dropWhile (· != ':') = [] := by
    rw [List.dropWhile_eq_nil_iff]
    intro c hc
    rw [bne_iff_ne]
    rintro rfl
    exact hnone hc
  refine h ?_
  unfold splitScheme
  rw [hnil]
  cases r.takeWhile (· != ':') <;> rfl

theorem netloc_cons (a b : Char) (l : List Char) :
    netloc (a :: b :: l) =
      if a = '/' ∧ b = '/' then l.takeWhile fun c => c != '/' && c != '?' && c != '#' else [] := by
  unfold netloc
  split
  · next heq =>
    cases heq
    rw [if_pos ⟨rfl, rfl⟩]
  · next hne =>
    rw [if_neg]
    rintro ⟨rfl, rfl⟩
    exact hne l rfl

theorem netloc_append (hs : ∀ c ∈ s, c = '/') (h : netloc (rest ++ s) ≠ []) (t : List Char) :
    netloc (rest ++ '/' :: t) = netloc (rest ++ s) := by
  -- three slashes in a row leave no network location
  have hshort : ∀ l : List Char, (∀ c ∈ l.drop 2, c = '/') → netloc l = [] := by
    intro l hl
    obtain _ | ⟨a, _ | ⟨b, l⟩⟩ := l
    · simp [netloc]
    · simp [netloc]
    · rw [netloc_cons]
      split
      · exact takeWhile_slashes rfl hl []
      · rfl
  obtain _ | ⟨a, _ | ⟨b, rest⟩⟩ := rest
  · exact absurd (hshort _ fun c hc => hs c (List.mem_of_mem_drop hc)) h
  · exact absurd (hshort (a :: s) fun c hc => hs c (List.mem_of_mem_drop hc)) h
  · rw [List.cons_append, List.cons_append, netloc_cons] at h ⊢
    rw [List.cons_append, List.cons_append, netloc_cons, takeWhile_append_slash rfl, takeWhile_slashes rfl hs]

/-- A URL stays an HTTPS URL when a path takes the place of the slashes at its end. -/
theorem isHttpsUrl_path {special : String → Bool} (hs : ∀ c ∈ s, c = '/')
    (h : isHttpsUrl special (.ofList (r ++ s)) = true) (t : List Char) :
    isHttpsUrl special (.ofList (r ++ '/' :: t)) = true := by
  unfold isHttpsUrl cleanUrl at h ⊢
  rw [String.toList_ofList] at h ⊢
  simp only [List.dropWhile_append] at h ⊢
  split at h
  · -- what is left of blanks and slashes has no scheme
    exfalso
    have hscheme : (splitScheme ((s.dropWhile fun c => c.toNat ≤ 32).filter
        fun c => c != '\t' && c != '\r' && c != '\n')).1 ≠ [] := by
      intro hnil
      rw [hnil] at h
      cases h
    have hcolon := (List.dropWhile_sublist _).subset (List.mem_filter.mp (colon_mem_of_scheme hscheme)).1
    cases hs ':' hcolon
  · next hblank =>
    rw [if_neg hblank]
    rw [List.filter_append] at h ⊢
    generalize (r.dropWhile fun c => c.toNat ≤ 32).filter
      (fun c => c != '\t' && c != '\r' && c != '\n') = r' at *
    have hs' : ∀ c ∈ s.filter (fun c => c != '\t' && c != '\r' && c != '\n'), c = '/' :=
      fun c hc => hs c (List.mem_filter.mp hc).1
    generalize s.filter (fun c => c != '\t' && c != '\r' && c != '\n') = s' at *
    have hcolon : ':' ∈ r' := by
      have hscheme : (splitScheme (r' ++ s')).1 ≠ [] := by
        intro hnil
        rw [hnil] at h
        cases h
      obtain hmem | hmem := List.mem_append.mp (colon_mem_of_scheme hscheme)
      · exact hmem
      · cases hs' ':' hmem
    rw [List.filter_cons_of_pos rfl, splitScheme_append hcolon]
    rw [splitScheme_append hcolon] at h
    dsimp only at h ⊢
    rw [Bool.and_eq_true, Bool.and_eq_true, Bool.not_eq_true'] at h
    have hnetloc : netloc ((splitScheme r').2 ++ s') ≠ [] := by
      intro hnil
      rw [hnil] at h
      cases h.1.2
    rw [netloc_append hs' hnetloc, h.1.1, h.1.2, h.2]
    rfl

end Chattice.Python
