import Chattice.Client.Names

/-!
# The names that the canonicalizers accept

Each canonicalizer raises, or returns a name and leaves that name as it is; whether the name has the
form of a resource name depends on the input.

* `strip_strip` : trimming once is enough;
* `canonicalIn_iff` : a name without an id is the only one accepted by mistake;
* `membershipName_iff` : so is a membership name with a slash in an id, or without a space;
* `canonicalizers_iff` : all four.
-/

namespace Chattice.Python

/-! ## Trimming -/

structure Trimmed (l : List Char) : Prop where
  head : ∀ c, l.head? = some c → isSpace c = false
  last : ∀ c, l.getLast? = some c → isSpace c = false

theorem dropWhile_head {l : List Char} {c : Char} (h : (l.dropWhile isSpace).head? = some c) :
    isSpace c = false := by
  have hnot := List.head?_dropWhile_not isSpace l
  rw [h] at hnot
  exact hnot

theorem dropWhile_of_head {l : List Char} (h : ∀ c, l.head? = some c → isSpace c = false) :
    l.dropWhile isSpace = l := by
  cases l with
  | nil => rfl
  | cons c l => rw [List.dropWhile_cons, h c rfl]; rfl

theorem trimmed_strip (s : String) : Trimmed (strip s).toList := by
  rw [strip, String.toList_ofList]
  constructor
  · intro c hc
    have hprefix : ((s.toList.dropWhile isSpace).reverse.dropWhile isSpace).reverse <+:
        s.toList.dropWhile isSpace := by
      rw [← List.reverse_suffix, List.reverse_reverse]
      exact List.dropWhile_suffix isSpace
    obtain ⟨rest, hrest⟩ := hprefix
    refine dropWhile_head (l := s.toList) ?_
    rw [← hrest, List.head?_append, hc]
    rfl
  · intro c hc
    rw [List.getLast?_reverse] at hc
    exact dropWhile_head hc

theorem strip_of_trimmed {s : String} (h : Trimmed s.toList) : strip s = s := by
  have hlast : ∀ c, s.toList.reverse.head? = some c → isSpace c = false := by
    intro c hc
    rw [List.head?_reverse] at hc
    exact h.last c hc
  rw [strip, dropWhile_of_head h.head, dropWhile_of_head hlast, List.reverse_reverse,
    String.ofList_toList]

theorem strip_strip (s : String) : strip (strip s) = strip s := strip_of_trimmed (trimmed_strip s)

/-- A prefix that starts with no space keeps a trimmed string trimmed. -/
theorem strip_append {p s : String} {c : Char} (hp : p.toList.head? = some c)
    (hc : isSpace c = false) (hs : Trimmed s.toList) (hne : s ≠ "") : strip (p ++ s) = p ++ s := by
  refine strip_of_trimmed ⟨fun c' hc' => ?_, fun c' hc' => ?_⟩
  · rw [String.toList_append, List.head?_append, hp] at hc'
    cases hc'
    exact hc
  · have hlast : s.toList ≠ [] := fun hnil => hne (String.toList_eq_nil_iff.mp hnil)
    rw [String.toList_append, List.getLast?_append_of_ne_nil _ hlast] at hc'
    exact hs.last c' hc'

/-! ## Prefixes and slashes -/

theorem startsWith_iff {s p : String} : startsWith s p = true ↔ ∃ rest, s = p ++ rest := by
  rw [startsWith, List.isPrefixOf_iff_prefix]
  constructor
  · rintro ⟨rest, hrest⟩
    refine ⟨.ofList rest, String.toList_inj.mp ?_⟩
    rw [String.toList_append, String.toList_ofList, hrest]
  · rintro ⟨rest, rfl⟩
    rw [String.toList_append]
    exact List.prefix_append _ _

theorem count_append (s t : String) (c : Char) : count (s ++ t) c = count s c + count t c := by
  rw [count, count, count, String.toList_append, List.count_append]

theorem contains_eq_false_iff {s : String} {c : Char} : contains s c = false ↔ count s c = 0 := by
  rw [contains, count, List.count_eq_zero, ← Bool.not_eq_true, List.contains_iff_mem]

theorem append_right_eq_self {s t : String} (h : s ++ t = s) : t = "" := by
  have hlist := congrArg String.toList h
  rw [String.toList_append, List.append_right_eq_self] at hlist
  exact String.toList_eq_nil_iff.mp hlist

theorem append_left_cancel {s t t' : String} (h : s ++ t = s ++ t') : t = t' := by
  have hlist := congrArg String.toList h
  rw [String.toList_append, String.toList_append, List.append_cancel_left_eq] at hlist
  exact String.toList_inj.mp hlist

theorem removePrefix_append (p s : String) : removePrefix (p ++ s) p = s := by
  rw [removePrefix, if_pos (startsWith_iff.mpr ⟨s, rfl⟩), String.toList_append, List.drop_left,
    String.ofList_toList]

theorem splitOnce_eq_some {sep l before after : List Char} (h : splitOnce sep l = some (before, after)) :
    l = before ++ sep ++ after := by
  induction l generalizing before after with
  | nil =>
    rw [splitOnce] at h
    split at h
    · next hsep =>
      cases h
      rw [hsep]
      rfl
    · cases h
  | cons c rest ih =>
    rw [splitOnce] at h
    split at h
    · next hprefix =>
      cases h
      obtain ⟨tail, htail⟩ := List.isPrefixOf_iff_prefix.mp hprefix
      rw [List.nil_append, ← htail, List.drop_left]
    · obtain ⟨⟨before', after'⟩, hsplit, heq⟩ := Option.map_eq_some_iff.mp h
      cases heq
      rw [ih hsplit]
      rfl

theorem partition_eq_some {s sep before after : String} (h : partition s sep = some (before, after)) :
    s = before ++ sep ++ after := by
  obtain ⟨⟨b, a⟩, hsplit, heq⟩ := Option.map_eq_some_iff.mp h
  cases heq
  refine String.toList_inj.mp ?_
  rw [splitOnce_eq_some hsplit, String.toList_append, String.toList_append, String.toList_ofList,
    String.toList_ofList]

end Chattice.Python

namespace Chattice.Client

open Python

/-! ## Forms -/

structure IsId (id : String) : Prop where
  ne_empty : id ≠ ""
  noSlash : count id '/' = 0

/-- `{collection}{id}` -/
def Under (collection name : String) : Prop := ∃ id, IsId id ∧ name = collection ++ id

/-- `spaces/{id}/members/{id}` -/
def IsMembership (name : String) : Prop :=
  ∃ space member, IsId space ∧ IsId member ∧ name = "spaces/" ++ space ++ "/members/" ++ member

def Exc.isChatApiError : Exc → Bool
  | .chatApiError .. => true
  | _ => false

/-- The canonicalizer raises, or returns a name of the form that it leaves as it is. -/
def Canonicalizes (f : String → Except Exc String) (form : String → Prop) (s : String) : Prop :=
  (∃ e, f s = .error e ∧ e.isChatApiError = true) ∨
    ∃ name, f s = .ok name ∧ form name ∧ f name = .ok name

/-- A trimmed membership name with a slash in an id, or without a space between `spaces` and
`members`. -/
def Misplaced (value : String) : Prop :=
  ∃ before member, partition value "/members/" = some (before, member) ∧ member ≠ "" ∧
    ((∃ space, before = "spaces/" ++ space ∧ space ≠ "" ∧
        (count space '/' ≠ 0 ∨ count member '/' ≠ 0)) ∨
      (before = "spaces" ∧ ¬ ∃ id, IsId id ∧ member = "members/" ++ id))

/-! ## One collection -/

/-- A collection: a name that starts with no space, and one slash behind it. -/
structure IsCollection (collection : String) : Prop where
  head : ∃ c, collection.toList.head? = some c ∧ isSpace c = false
  slash : count collection '/' = 1

section Collection

variable {collection : String} {empty malformed : Exc}

theorem canonicalIn_under {id : String} (hcollection : IsCollection collection) (hid : count id '/' = 0) :
    canonicalIn collection (collection ++ id) empty malformed = .ok (collection ++ id) := by
  have hcount : count (collection ++ id) '/' = 1 := by rw [count_append, hcollection.slash, hid]
  have hcontains : contains (collection ++ id) '/' = true := by
    rw [← Bool.not_eq_false, contains_eq_false_iff, hcount]
    exact Nat.one_ne_zero
  have hne : (collection ++ id == "") = false := by
    refine beq_eq_false_iff_ne.mpr fun hnil => ?_
    rw [hnil] at hcount
    cases hcount
  rw [canonicalIn, hne, hcontains, startsWith_iff.mpr ⟨id, rfl⟩, hcount]
  rfl

/-- **One collection.** The name without an id is the only mistake. -/
theorem canonicalIn_iff {error : String → Exc} (hcollection : IsCollection collection)
    (hempty : empty.isChatApiError = true) (hmalformed : ∀ s, (error s).isChatApiError = true) (s : String) :
    Canonicalizes (fun s => canonicalIn collection (strip s) empty (error s)) (Under collection) s ↔
      strip s ≠ collection := by
  obtain ⟨c, hhead, hc⟩ := hcollection.head
  have hreturned {id : String} (hid : count id '/' = 0)
      (hstrip : strip (collection ++ id) = collection ++ id)
      (h : canonicalIn collection (strip s) empty (error s) = .ok (collection ++ id)) :
      Canonicalizes (fun s => canonicalIn collection (strip s) empty (error s)) (Under collection) s ↔
        id ≠ "" := by
    constructor
    · rintro (⟨e, herror, -⟩ | ⟨name, hname, ⟨id', hid', rfl⟩, -⟩)
      · cases herror.symm.trans h
      · have heq : collection ++ id' = collection ++ id := by
          injection hname.symm.trans h
        rw [← append_left_cancel heq]
        exact hid'.ne_empty
    · intro hne
      refine .inr ⟨collection ++ id, h, ⟨id, ⟨hne, hid⟩, rfl⟩, ?_⟩
      show canonicalIn collection (strip (collection ++ id)) empty (error (collection ++ id)) = _
      rw [hstrip]
      exact canonicalIn_under hcollection hid
  have hraised {e : Exc} (he : e.isChatApiError = true)
      (h : canonicalIn collection (strip s) empty (error s) = .error e) (hne : strip s ≠ collection) :
      Canonicalizes (fun s => canonicalIn collection (strip s) empty (error s)) (Under collection) s ↔
        strip s ≠ collection :=
    iff_of_true (.inl ⟨e, h, he⟩) hne
  by_cases hnil : strip s = ""
  · refine hraised hempty (by rw [canonicalIn, hnil]; rfl) ?_
    rw [hnil]
    rintro rfl
    cases hcollection.slash
  by_cases hslash : contains (strip s) '/' = true
  · by_cases hgood : startsWith (strip s) collection = true ∧ count (strip s) '/' = 1
    · obtain ⟨id, hid⟩ := startsWith_iff.mp hgood.1
      have hcount : count id '/' = 0 := by
        have hone := hgood.2
        rw [hid, count_append, hcollection.slash] at hone
        exact Nat.add_left_cancel hone
      have hstrip : strip (collection ++ id) = collection ++ id := by rw [← hid, strip_strip]
      rw [hreturned hcount hstrip (by rw [hid, canonicalIn_under hcollection hcount]), hid, not_iff_not]
      exact ⟨fun h => by rw [h, String.append_empty], append_right_eq_self⟩
    · refine hraised (hmalformed s) ?_ ?_
      · have hcheck : (!startsWith (strip s) collection || count (strip s) '/' != 1) = true := by
          rw [Bool.or_eq_true, Bool.not_eq_true', bne_iff_ne, ← Bool.not_eq_true]
          exact not_and_or.mp hgood
        rw [canonicalIn, beq_eq_false_iff_ne.mpr hnil, hslash, hcheck]
        rfl
      · intro heq
        exact hgood ⟨startsWith_iff.mpr ⟨"", by rw [heq, String.append_empty]⟩,
          by rw [heq, hcollection.slash]⟩
  · rw [Bool.not_eq_true] at hslash
    have hcount := contains_eq_false_iff.mp hslash
    have hstrip := strip_append hhead hc (trimmed_strip s) hnil
    have hresult : canonicalIn collection (strip s) empty (error s) = .ok (collection ++ strip s) := by
      rw [canonicalIn, beq_eq_false_iff_ne.mpr hnil, hslash]
      rfl
    rw [hreturned hcount hstrip hresult]
    refine iff_of_true hnil fun heq => ?_
    rw [heq, hcollection.slash] at hcount
    cases hcount

end Collection

/-! ## Memberships -/

theorem parted_at {c : Char} {x y u v : List Char} (hx : c ∉ x) (hy : c ∉ y)
    (h : x ++ c :: u = y ++ c :: v) : x = y ∧ u = v := by
  induction x generalizing y with
  | nil =>
    cases y with
    | nil => exact ⟨rfl, (List.cons.inj h).2⟩
    | cons d y => exact absurd ((List.cons.inj h).1 ▸ List.mem_cons_self) hy
  | cons d x ih =>
    rw [List.mem_cons, not_or] at hx
    cases y with
    | nil => exact absurd (List.cons.inj h).1.symm hx.1
    | cons d' y =>
      rw [List.mem_cons, not_or] at hy
      obtain ⟨hd, htail⟩ := List.cons.inj h
      obtain ⟨hxy, huv⟩ := ih hx.2 hy.2 htail
      exact ⟨by rw [hd, hxy], huv⟩

theorem before_members {before member : String}
    (h : startsWith (before ++ "/members/" ++ member) "spaces/" = true) :
    (∃ space, before = "spaces/" ++ space) ∨ before = "spaces" := by
  rw [startsWith, List.isPrefixOf_iff_prefix, String.toList_append, String.toList_append,
    List.append_assoc] at h
  obtain hlonger | hshorter := List.prefix_or_prefix_of_prefix h (List.prefix_append _ _)
  · exact .inl (startsWith_iff.mp (List.isPrefixOf_iff_prefix.mpr hlonger))
  · obtain ⟨rest, hrest⟩ := hshorter
    rw [← hrest, List.prefix_append_right_inj] at h
    -- what is left of `spaces/` starts as `/members/` does
    have hslash : rest = [] ∨ ∃ tail, rest = '/' :: tail := by
      cases rest with
      | nil => exact .inl rfl
      | cons c tail =>
        obtain ⟨more, hmore⟩ := h
        rw [List.cons_append, show "/members/".toList = '/' :: "members/".toList from rfl] at hmore
        injection hmore with hc
        exact .inr ⟨tail, by rw [hc]⟩
    obtain rfl | ⟨tail, rfl⟩ := hslash
    · refine .inl ⟨"", String.toList_inj.mp ?_⟩
      rw [← List.append_nil before.toList, hrest]
      rfl
    · refine .inr (String.toList_inj.mp ?_)
      have hall : before.toList ++ '/' :: tail = "spaces".toList ++ ['/'] := hrest
      have hno : '/' ∉ before.toList := by
        intro hmem
        have hcount := congrArg (List.count '/') hall
        rw [List.count_append, List.count_cons_self] at hcount
        have hpos := List.count_pos_iff.mpr hmem
        have hone : List.count '/' ("spaces".toList ++ ['/']) = 1 := by decide
        omega
      exact (parted_at hno (by decide) hall).1

theorem removePrefix_spaces : removePrefix "spaces" "spaces/" = "spaces" := by decide

/-- What the checks of a membership name let pass. -/
theorem membershipName_eq_ok {s name : String} : membershipName s = .ok name ↔ name = strip s ∧
    ∃ before member, partition (strip s) "/members/" = some (before, member) ∧ member ≠ "" ∧
      ((∃ space, before = "spaces/" ++ space ∧ space ≠ "") ∨ before = "spaces") := by
  unfold membershipName
  dsimp only
  constructor
  · intro h
    split at h
    · cases h
    · next before member hpartition =>
      split at h
      · cases h
      · next hpasses =>
        simp only [Bool.or_eq_true, Bool.not_eq_true', beq_iff_eq, not_or, Bool.not_eq_false] at hpasses
        obtain ⟨⟨hstart, hspace⟩, hmember⟩ := hpasses
        cases h
        refine ⟨rfl, before, member, hpartition, hmember, ?_⟩
        rw [partition_eq_some hpartition] at hstart
        obtain ⟨space, rfl⟩ | rfl := before_members hstart
        · rw [removePrefix_append] at hspace
          exact .inl ⟨space, rfl, hspace⟩
        · exact .inr rfl
  · rintro ⟨rfl, before, member, hpartition, hmember, hspaces⟩
    have hvalue := partition_eq_some hpartition
    rw [hpartition]
    refine if_neg ?_
    simp only [Bool.or_eq_true, Bool.not_eq_true', beq_iff_eq, not_or, Bool.not_eq_false]
    obtain ⟨space, rfl, hspace⟩ | rfl := hspaces
    · rw [removePrefix_append, hvalue, String.append_assoc, String.append_assoc]
      exact ⟨⟨startsWith_iff.mpr ⟨_, rfl⟩, hspace⟩, hmember⟩
    · rw [removePrefix_spaces, hvalue, String.append_assoc]
      have hstarts : "spaces" ++ ("/members/" ++ member) = "spaces/" ++ ("members/" ++ member) := by
        rw [← String.append_assoc, ← String.append_assoc]
        rfl
      exact ⟨⟨startsWith_iff.mpr ⟨"members/" ++ member, hstarts⟩, by decide⟩, hmember⟩

theorem membershipName_error {s : String} {e : Exc} (h : membershipName s = .error e) :
    e.isChatApiError = true := by
  unfold membershipName at h
  dsimp only at h
  split at h
  · cases h
    rfl
  · split at h
    · cases h
      rfl
    · cases h

theorem members_of_isMembership {value before member : String} (h : IsMembership value)
    (hvalue : value = before ++ "/members/" ++ member) :
    (∀ space, before = "spaces/" ++ space → count space '/' = 0 ∧ count member '/' = 0) ∧
      (before = "spaces" → ∃ id, IsId id ∧ member = "members/" ++ id) := by
  obtain ⟨space, id, hspace, hid, rfl⟩ := h
  have hslashes : count "spaces/" '/' = 1 ∧ count "/members/" '/' = 2 := by decide
  constructor
  · rintro space' rfl
    have hcount := congrArg (fun v => count v '/') hvalue
    simp only [count_append, hslashes, hspace.noSlash, hid.noSlash] at hcount
    omega
  · rintro rfl
    refine ⟨id, hid, ?_⟩
    have hlist := congrArg String.toList hvalue
    simp only [String.toList_append] at hlist
    have hno : '/' ∉ space.toList := List.count_eq_zero.mp hspace.noSlash
    have hcancel : space.toList ++ '/' :: ("members/".toList ++ id.toList) =
        "members".toList ++ '/' :: member.toList := by
      simpa using hlist
    obtain ⟨-, hrest⟩ := parted_at hno (by decide) hcancel
    refine String.toList_inj.mp ?_
    rw [String.toList_append, hrest]

/-- **Membership names.** -/
theorem membershipName_iff (s : String) :
    Canonicalizes membershipName (fun name => name = strip s ∧ IsMembership name) s ↔
      ¬ Misplaced (strip s) := by
  constructor
  · rintro (⟨e, herror, -⟩ | ⟨name, hname, ⟨rfl, hform⟩, -⟩) ⟨before, member, hpartition, hmember, hkind⟩
    · have hok : membershipName s = .ok (strip s) := by
        refine membershipName_eq_ok.mpr ⟨rfl, before, member, hpartition, hmember, ?_⟩
        exact hkind.imp (fun ⟨space, hbefore, hspace, _⟩ => ⟨space, hbefore, hspace⟩) And.left
      cases herror.symm.trans hok
    · obtain ⟨hslashes, hspaces⟩ := members_of_isMembership hform (partition_eq_some hpartition)
      obtain ⟨space, hbefore, -, hslash⟩ | ⟨hbefore, hnone⟩ := hkind
      · obtain ⟨h₁, h₂⟩ := hslashes space hbefore
        exact hslash.elim (fun h => h h₁) fun h => h h₂
      · exact hnone (hspaces hbefore)
  · intro hplaced
    cases hcase : membershipName s with
    | error e => exact .inl ⟨e, hcase, membershipName_error hcase⟩
    | ok name =>
      obtain ⟨rfl, before, member, hpartition, hmember, hkind⟩ := membershipName_eq_ok.mp hcase
      refine .inr ⟨strip s, hcase, ⟨rfl, ?_⟩, ?_⟩
      · have hvalue := partition_eq_some hpartition
        obtain ⟨space, rfl, hspace⟩ | rfl := hkind
        · have hnone : ¬ (count space '/' ≠ 0 ∨ count member '/' ≠ 0) := fun hslash =>
            hplaced ⟨_, member, hpartition, hmember, .inl ⟨space, rfl, hspace, hslash⟩⟩
          rw [not_or, not_not, not_not] at hnone
          exact ⟨space, member, ⟨hspace, hnone.1⟩, ⟨hmember, hnone.2⟩, hvalue⟩
        · by_cases hid : ∃ id, IsId id ∧ member = "members/" ++ id
          · obtain ⟨id, hid, rfl⟩ := hid
            refine ⟨"members", id, ⟨by decide, by decide⟩, hid, ?_⟩
            rw [hvalue, ← String.append_assoc]
            rfl
          · exact absurd ⟨_, member, hpartition, hmember, .inr ⟨rfl, hid⟩⟩ hplaced
      · refine membershipName_eq_ok.mpr ⟨(strip_strip s).symm, before, member, ?_, hmember, hkind⟩
        rw [strip_strip]
        exact hpartition

/-! ## All four -/

theorem spaces_collection : IsCollection "spaces/" := ⟨⟨'s', rfl, rfl⟩, by decide⟩

theorem users_collection : IsCollection "users/" := ⟨⟨'u', rfl, rfl⟩, by decide⟩

theorem groups_collection : IsCollection "groups/" := ⟨⟨'g', rfl, rfl⟩, by decide⟩

/-- **The canonicalizers.** For every string: a name under a collection is raised on or made canonical
unless the trimmed string is the bare collection; a membership name unless it is misplaced. -/
theorem canonicalizers_iff (s parameter : String) :
    (Canonicalizes (fun s => canonicalSpace (.name s)) (Under "spaces/") s ↔ strip s ≠ "spaces/") ∧
    (Canonicalizes (fun s => canonicalUser (.name s) parameter) (Under "users/") s ↔
      strip s ≠ "users/") ∧
    (Canonicalizes canonicalGroup (Under "groups/") s ↔ strip s ≠ "groups/") ∧
    (Canonicalizes membershipName (fun name => name = strip s ∧ IsMembership name) s ↔
      ¬ Misplaced (strip s)) :=
  ⟨canonicalIn_iff spaces_collection rfl (fun _ => rfl) s,
    canonicalIn_iff users_collection rfl (fun _ => rfl) s,
    canonicalIn_iff groups_collection rfl (fun _ => rfl) s, membershipName_iff s⟩

theorem not_under (collection : String) : ¬ Under collection collection := by
  rintro ⟨id, hid, heq⟩
  exact hid.ne_empty (append_right_eq_self heq.symm)

/-- A user without an id and a member with a slash are accepted. -/
theorem emptyUser_accepted :
    canonicalUser (.name "users/") "private_to" = .ok "users/" ∧ ¬ Under "users/" "users/" ∧
      membershipName "spaces/a/members/b/c" = .ok "spaces/a/members/b/c" ∧
        ¬ IsMembership "spaces/a/members/b/c" := by
  refine ⟨rfl, not_under _, rfl, ?_⟩
  rintro ⟨space, member, hspace, hmember, heq⟩
  have hcount := congrArg (fun v => count v '/') heq
  simp only [count_append, hspace.noSlash, hmember.noSlash] at hcount
  revert hcount
  decide

end Chattice.Client
