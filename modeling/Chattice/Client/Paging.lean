import Mathlib.Data.List.Basic

/-!
# `Pager`

Iteration over what an SDK pager yields. The pager is fetched when the first item is asked for, and
`__aiter__` starts over with a new fetch.

* `anext`, `collect` : the methods of `Pager`;
* `collect_eq` : `collect` awaits the first answers of the pager it fetches, as many as its quota;
* `collect_bounded_iff` : `collect(limit=k)` gives and pulls the first `k` items, and `collect()` all of them,
  exactly when the limit is positive or there are no items.
-/

namespace Chattice.Client.Paging

variable {Item ε : Type}

/-! ## The pager -/

/-- What `fetch` returns: an iterator, or an SDK pager, whose `__aiter__` makes one. It answers with items and
exceptions, and then with `StopAsyncIteration` for ever. -/
inductive Raw (Item ε : Type) where
  | iterator (answers : List (Except ε Item))
  | iterable (answers : List (Except ε Item))

/-- `raw.__anext__`, or `raw.__aiter__().__anext__` -/
def Raw.anext : Raw Item ε → List (Except ε Item)
  | .iterator answers => answers
  | .iterable answers => answers

/-- What one `__anext__` gives. -/
inductive Answer (Item ε : Type) where
  | item (item : Item)
  | stop
  | raised (e : ε)

/-- `fetch` has the answers to its calls in turn, `iterator` what the iterator has left. Of the calls so far,
`fetches` counts those of `fetch`, and `pulled` has the items the iterators gave. -/
structure Pager (Item ε : Type) where
  fetch : Nat → Except ε (Raw Item ε)
  iterator : Option (List (Except ε Item))
  fetches : Nat
  pulled : List Item

namespace Pager

def init (fetch : Nat → Except ε (Raw Item ε)) : Pager Item ε := ⟨fetch, none, 0, []⟩

/-- `__aiter__` -/
def aiter (p : Pager Item ε) : Pager Item ε := { p with iterator := none }

/-- `await self._iterator()` -/
def pull (p : Pager Item ε) : List (Except ε Item) → Answer Item ε × Pager Item ε
  | [] => (.stop, { p with iterator := some [] })
  | .error e :: rest => (.raised e, { p with iterator := some rest })
  | .ok item :: rest => (.item item, { p with iterator := some rest, pulled := p.pulled ++ [item] })

/-- `_iterator` is set to what `fetch` returned. -/
def fetched (p : Pager Item ε) (raw : Raw Item ε) : Pager Item ε :=
  { p with iterator := some raw.anext, fetches := p.fetches + 1 }

/-- `_iterator`, made by a `fetch` if there is none. -/
def opened (p : Pager Item ε) : Except ε (List (Except ε Item)) × Pager Item ε :=
  match p.iterator with
  | some answers => (.ok answers, p)
  | none =>
    match p.fetch p.fetches with
    | .error e => (.error e, { p with fetches := p.fetches + 1 })
    | .ok raw => (.ok raw.anext, p.fetched raw)

/-- `__anext__` -/
def anext (p : Pager Item ε) : Answer Item ε × Pager Item ε :=
  match p.opened with
  | (.error e, p) => (.raised e, p)
  | (.ok answers, p) => p.pull answers

/-- How many answers there are before the iterator stops. -/
def toCome (p : Pager Item ε) : Nat :=
  match p.opened.1 with
  | .error _ => 0
  | .ok answers => answers.length

theorem toCome_pull {p p' : Pager Item ε} {answers : List (Except ε Item)} {item : Item}
    (h : p.pull answers = (.item item, p')) : p'.toCome < answers.length := by
  unfold pull at h
  split at h
  · cases h
  · cases h
  · cases h
    exact Nat.lt_succ_self _

theorem toCome_anext {p p' : Pager Item ε} {item : Item} (h : p.anext = (.item item, p')) :
    p'.toCome < p.toCome := by
  unfold anext at h
  split at h
  · cases h
  · next answers p₁ hopened =>
    calc p'.toCome < answers.length := toCome_pull h
      _ = p.toCome := by rw [toCome, hopened]

/-- `limit is not None and len(items) >= limit` -/
def reached (limit : Option Int) (items : List Item) : Bool :=
  match limit with
  | none => false
  | some k => decide (k ≤ items.length)

/-- The loop of `collect`. -/
def collectFrom (limit : Option Int) (items : List Item) (p : Pager Item ε) :
    Except ε (List Item) × Pager Item ε :=
  match _h : p.anext with
  | (.stop, p') => (.ok items, p')
  | (.raised e, p') => (.error e, p')
  | (.item item, p') =>
    if reached limit (items ++ [item]) then (.ok (items ++ [item]), p')
    else collectFrom limit (items ++ [item]) p'
termination_by p.toCome
decreasing_by exact toCome_anext ‹_›

def collect (p : Pager Item ε) (limit : Option Int) : Except ε (List Item) × Pager Item ε :=
  collectFrom limit [] p.aiter

/-! ## What `collect` awaits -/

/-- The answers the loop awaits when it has `n` items: at least one, and then no more than the limit. -/
def awaited (limit : Option Int) (n : Nat) (answers : List (Except ε Item)) : List (Except ε Item) :=
  match limit with
  | none => answers
  | some k => answers.take (max 1 (k - n).toNat)

/-- The items that come before the first exception. -/
def itemsBefore : List (Except ε Item) → List Item
  | .ok item :: rest => item :: itemsBefore rest
  | _ => []

theorem awaited_nil (limit : Option Int) (n : Nat) : awaited limit n ([] : List (Except ε Item)) = [] := by
  cases limit with
  | none => rfl
  | some k => exact List.take_nil

theorem awaited_cons (limit : Option Int) (n : Nat) (answer : Except ε Item) (rest : List (Except ε Item)) :
    ∃ more, awaited limit n (answer :: rest) = answer :: more := by
  cases limit with
  | none => exact ⟨rest, rfl⟩
  | some k => exact ⟨_, List.take_cons (Nat.lt_of_lt_of_le Nat.zero_lt_one (Nat.le_max_left _ _))⟩

/-- The answer that reaches the limit is the last one. -/
theorem awaited_of_reached {limit : Option Int} {items : List Item} {item : Item}
    (h : reached limit (items ++ [item]) = true) (answer : Except ε Item) (rest : List (Except ε Item)) :
    awaited limit items.length (answer :: rest) = [answer] := by
  cases limit with
  | none => cases h
  | some k =>
    have hlimit : k ≤ ((items ++ [item]).length : Nat) := of_decide_eq_true h
    rw [List.length_append, List.length_singleton] at hlimit
    have hone : max 1 (k - items.length).toNat = 1 := by omega
    rw [awaited, hone]
    rfl

theorem awaited_of_not_reached {limit : Option Int} {items : List Item} {item : Item}
    (h : ¬ reached limit (items ++ [item]) = true) (answer : Except ε Item) (rest : List (Except ε Item)) :
    awaited limit items.length (answer :: rest) = answer :: awaited limit (items ++ [item]).length rest := by
  cases limit with
  | none => rfl
  | some k =>
    have hlimit : ¬ k ≤ ((items ++ [item]).length : Nat) := fun hle => h (decide_eq_true hle)
    rw [List.length_append, List.length_singleton] at hlimit
    have hmore : max 1 (k - items.length).toNat = max 1 (k - (items.length + 1 : Nat)).toNat + 1 := by omega
    rw [awaited, awaited, hmore, List.take_succ_cons, List.length_append, List.length_singleton]

theorem anext_of_iterator {p : Pager Item ε} {answers : List (Except ε Item)}
    (h : p.iterator = some answers) : p.anext = p.pull answers := by
  rw [anext, opened, h]

/-- The loop over an iterator awaits its share of the answers, and raises the first exception among them. -/
theorem collectFrom_eq (limit : Option Int) {answers : List (Except ε Item)} (items : List Item)
    {p : Pager Item ε} (h : p.iterator = some answers) :
    (collectFrom limit items p).1 = ((awaited limit items.length answers).mapM id).map (items ++ ·) ∧
    (collectFrom limit items p).2.pulled = p.pulled ++ itemsBefore (awaited limit items.length answers) := by
  induction answers generalizing items p with
  | nil =>
    rw [collectFrom, anext_of_iterator h, awaited_nil]
    exact ⟨congrArg Except.ok (List.append_nil items).symm, (List.append_nil p.pulled).symm⟩
  | cons answer rest ih =>
    cases answer with
    | error e =>
      obtain ⟨more, hmore⟩ := awaited_cons limit items.length (.error e) rest
      rw [collectFrom, anext_of_iterator h, hmore, List.mapM_cons]
      exact ⟨rfl, (List.append_nil p.pulled).symm⟩
    | ok item =>
      rw [collectFrom, anext_of_iterator h]
      dsimp only [pull]
      split
      · next hreached =>
        rw [awaited_of_reached hreached]
        exact ⟨rfl, rfl⟩
      · next hreached =>
        rw [awaited_of_not_reached hreached, List.mapM_cons]
        let next : Pager Item ε := { p with iterator := some rest, pulled := p.pulled ++ [item] }
        obtain ⟨hresult, hpulled⟩ := ih (items ++ [item]) (p := next) rfl
        rw [hresult, hpulled]
        constructor
        · cases (awaited limit (items ++ [item]).length rest).mapM id with
          | error e => rfl
          | ok more => exact congrArg Except.ok (List.append_assoc items [item] more)
        · exact List.append_assoc p.pulled [item] _

theorem anext_aiter {p : Pager Item ε} {raw : Raw Item ε} (hraw : p.fetch p.fetches = .ok raw) :
    p.aiter.anext = (p.fetched raw).anext := by
  rw [anext, opened, aiter]
  dsimp only
  rw [hraw]
  rfl

/-- `collect` fetches a pager of its own, and awaits its share of the answers. -/
theorem collect_eq (limit : Option Int) {p : Pager Item ε} {raw : Raw Item ε}
    (hraw : p.fetch p.fetches = .ok raw) :
    (p.collect limit).1 = (awaited limit 0 raw.anext).mapM id ∧
    (p.collect limit).2.pulled = p.pulled ++ itemsBefore (awaited limit 0 raw.anext) := by
  have hfetched : p.collect limit = collectFrom limit [] (p.fetched raw) := by
    rw [collect, collectFrom, anext_aiter hraw, ← collectFrom]
  obtain ⟨hresult, hpulled⟩ := collectFrom_eq limit [] (p := p.fetched raw) rfl
  rw [hfetched]
  refine ⟨hresult.trans ?_, hpulled⟩
  cases (awaited limit 0 raw.anext).mapM id <;> rfl

/-! ## Bounded paging -/

theorem mapM_map_ok (items : List Item) : (items.map Except.ok).mapM id = (.ok items : Except ε _) := by
  rw [List.mapM_map]
  exact List.mapM_pure.trans (congrArg Except.ok (List.map_id items))

theorem itemsBefore_map_ok (items : List Item) :
    itemsBefore (items.map Except.ok : List (Except ε Item)) = items := by
  induction items with
  | nil => rfl
  | cons item items ih => exact congrArg (item :: ·) ih

theorem collect_of_awaited {limit : Option Int} {p : Pager Item ε} {raw : Raw Item ε}
    (hraw : p.fetch p.fetches = .ok raw) {taken : List Item}
    (htaken : awaited limit 0 raw.anext = taken.map .ok) :
    (p.collect limit).1 = .ok taken ∧ (p.collect limit).2.pulled = p.pulled ++ taken := by
  obtain ⟨hresult, hpulled⟩ := collect_eq limit hraw
  rw [htaken] at hresult hpulled
  rw [hresult, hpulled, mapM_map_ok, itemsBefore_map_ok]
  exact ⟨rfl, rfl⟩

/-- `collect(limit=k)` gives and pulls the first `k` items, but one when `k` is 0. -/
theorem collect_limit {p : Pager Item ε} {raw : Raw Item ε} (hraw : p.fetch p.fetches = .ok raw)
    {items : List Item} (hitems : raw.anext = items.map .ok) (k : Nat) :
    (p.collect (some k)).1 = .ok (items.take (max 1 k)) ∧
    (p.collect (some k)).2.pulled = p.pulled ++ items.take (max 1 k) := by
  refine collect_of_awaited hraw ?_
  rw [hitems, List.map_take]
  rfl

theorem collect_all {p : Pager Item ε} {raw : Raw Item ε} (hraw : p.fetch p.fetches = .ok raw)
    {items : List Item} (hitems : raw.anext = items.map .ok) : (p.collect none).1 = .ok items := by
  have hawaited : awaited none 0 raw.anext = items.map .ok := hitems
  exact (collect_of_awaited hraw hawaited).1

/-! ## Earlier iteration -/

/-- What a caller does with a pager; `async for` is an `aiter` and then an `anext` for each item. -/
inductive Use where
  | aiter
  | anext
  | collect (limit : Option Int)

def use (p : Pager Item ε) : Use → Pager Item ε
  | .aiter => p.aiter
  | .anext => p.anext.2
  | .collect limit => (p.collect limit).2

def after (p : Pager Item ε) (earlier : List Use) : Pager Item ε := earlier.foldl use p

theorem fetch_opened (p : Pager Item ε) : p.opened.2.fetch = p.fetch := by
  unfold opened
  split
  · rfl
  · split <;> rfl

theorem fetch_pull (p : Pager Item ε) (answers : List (Except ε Item)) :
    (p.pull answers).2.fetch = p.fetch := by
  unfold pull
  split <;> rfl

theorem fetch_anext (p : Pager Item ε) : p.anext.2.fetch = p.fetch := by
  have hopened := p.fetch_opened
  unfold anext
  split
  · next h => rwa [h] at hopened
  · next answers p' h =>
    rw [h] at hopened
    exact (p'.fetch_pull answers).trans hopened

theorem fetch_of_anext {p p' : Pager Item ε} {answer : Answer Item ε} (h : p.anext = (answer, p')) :
    p'.fetch = p.fetch := by
  have hanext := p.fetch_anext
  rwa [h] at hanext

theorem fetch_collectFrom (limit : Option Int) (items : List Item) (p : Pager Item ε) :
    (collectFrom limit items p).2.fetch = p.fetch := by
  fun_induction collectFrom limit items p with
  | case1 items p p' h => exact fetch_of_anext h
  | case2 items p e p' h => exact fetch_of_anext h
  | case3 items p item p' h => exact fetch_of_anext h
  | case4 items p item p' h _ ih => exact ih.trans (fetch_of_anext h)

/-- No use changes what `fetch` answers. -/
theorem fetch_after (p : Pager Item ε) (earlier : List Use) : (p.after earlier).fetch = p.fetch := by
  induction earlier generalizing p with
  | nil => rfl
  | cons first earlier ih =>
    refine (ih (p.use first)).trans ?_
    cases first with
    | aiter => rfl
    | anext => exact p.fetch_anext
    | collect limit => exact fetch_collectFrom limit [] p.aiter

/-- `collect(limit=k)` gives the first `k` items and pulls no more than these, and `collect()` gives all. -/
def Bounded (p : Pager Item ε) (k : Nat) (items : List Item) : Prop :=
  (p.collect (some k)).1 = .ok (items.take k) ∧
  (p.collect (some k)).2.pulled.length ≤ p.pulled.length + min k items.length ∧
  (p.collect none).1 = .ok items

theorem bounded_iff {p : Pager Item ε} {raw : Raw Item ε} (hraw : p.fetch p.fetches = .ok raw)
    {items : List Item} (hitems : raw.anext = items.map .ok) (k : Nat) :
    p.Bounded k items ↔ 0 < k ∨ items = [] := by
  obtain ⟨hlimit, hpulled⟩ := collect_limit hraw hitems k
  rw [Bounded, hlimit, hpulled, collect_all hraw hitems]
  constructor
  · rintro ⟨htake, -, -⟩
    refine (Nat.eq_zero_or_pos k).symm.imp_right ?_
    rintro rfl
    cases items with
    | nil => rfl
    | cons first rest => cases Except.ok.inj htake
  · intro hcase
    have htake : items.take (max 1 k) = items.take k := by
      obtain hpos | rfl := hcase
      · rw [Nat.max_eq_right hpos]
      · rw [List.take_nil, List.take_nil]
    rw [htake, List.length_append, List.length_take]
    exact ⟨rfl, Nat.le_refl _, rfl⟩

/-- **Main result.** After any earlier iteration, `collect(limit=k)` gives the first `k` of the items that its
SDK pager yields and pulls no more than these, and `collect()` gives them all, exactly when the limit is
positive or there are no items. -/
theorem collect_bounded_iff (fetch : Nat → Except ε (Raw Item ε)) (earlier : List Use) {raw : Raw Item ε}
    (hraw : fetch ((init fetch).after earlier).fetches = .ok raw) {items : List Item}
    (hitems : raw.anext = items.map .ok) (k : Nat) :
    ((init fetch).after earlier).Bounded k items ↔ 0 < k ∨ items = [] := by
  refine bounded_iff ?_ hitems k
  rw [fetch_after]
  exact hraw

def threeNames : Pager String String := init fun _ => .ok (.iterable [.ok "ada", .ok "bob", .ok "eve"])

/-- A bounded list after an iteration that stopped early. -/
theorem threeNames_bounded :
    (threeNames.after [.aiter, .anext, .collect (some 1)]).Bounded 2 ["ada", "bob", "eve"] :=
  (collect_bounded_iff _ [.aiter, .anext, .collect (some 1)] rfl rfl 2).mpr (.inl Nat.zero_lt_two)

/-- `collect(limit=0)` gives and pulls an item. -/
theorem collect_zero_takes_one :
    (threeNames.collect (some 0)).1 = .ok ["ada"] ∧ (threeNames.collect (some 0)).2.pulled = ["ada"] ∧
    ¬ threeNames.Bounded 0 ["ada", "bob", "eve"] := by
  have hnames : (Raw.iterable [.ok "ada", .ok "bob", .ok "eve"] : Raw String String).anext =
      ["ada", "bob", "eve"].map .ok := rfl
  obtain ⟨hlimit, hpulled⟩ := collect_limit (p := threeNames) rfl hnames 0
  refine ⟨hlimit, hpulled, fun hbounded => ?_⟩
  cases Except.ok.inj (hlimit.symm.trans hbounded.1)

end Pager

end Chattice.Client.Paging
