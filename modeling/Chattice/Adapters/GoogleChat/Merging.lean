import Chattice.Adapters.GoogleChat.Failures

/-!
# What the merged event keeps

A payload with a direct `type` and a wrapped `chat` supplies the event twice. Every field of either
is in the merged event with its own value, and two values that disagree are rejected, except that
nothing looks at a direct `common` object.

* `Keeps` : the event holds what the payload supplies;
* `Mergeable` : the two families agree, a direct `common` apart;
* `foldlM_mergeField_eq_ok` : what the loop over the direct fields checks and adds;
* `mergesFaithfully_iff` : the payloads that are merged without a silent loss.
-/

namespace Chattice.GoogleChat

open Json Python Except

/-- One value, or two that Python's `==` finds equal from one side. -/
def SameValue (a b : Json) : Prop := a = b ∨ pyEq a b = true ∨ pyEq b a = true

/-- Every direct and every wrapped field of the payload is in the event with its own value, and
every common object supplied is the event's. -/
structure Keeps (payload wrapped event : Fields) : Prop where
  ofDirect : ∀ key value, payload.lookup key = some value →
    key ∉ ["chat", "commonEventObject", "common"] →
    ∃ kept, event.lookup key = some kept ∧ SameValue kept value
  ofWrapped : ∀ key value, wrapped.lookup key = some value → key ≠ "common" →
    ∃ kept, event.lookup key = some kept ∧ SameValue kept value
  common : ∀ supplied ∈ [get payload "common", get wrapped "common",
      get payload "commonEventObject"],
    supplied ≠ .null → SameValue supplied (get event "common")

/-- `normalize_envelope` rejects the payload, or returns an event that keeps all of it. -/
def MergesFaithfully (payload : Fields) : Prop :=
  (∃ e, normalizeEnvelope payload = .error e ∧ e.isInteractionError = true) ∨
  ∃ envelope wrapped, normalizeEnvelope payload = .ok envelope ∧
    get payload "chat" = .dict wrapped ∧ Keeps payload wrapped envelope.event

/-- `None` or a mapping. -/
def IsCommonObject (value : Json) : Prop := value = .null ∨ ∃ fields, value = .dict fields

/-- The two common objects an envelope may hold are mappings, equal where both are supplied. -/
structure CommonsAgree (inner outer : Json) : Prop where
  isInner : IsCommonObject inner
  isOuter : IsCommonObject outer
  agree : ∀ own other, inner = .dict own → outer = .dict other →
    pyEq (.dict own) (.dict other) = true

/-- The direct and the wrapped event agree in their type, in every field both have and in the
wrapped and the outer common object. -/
structure Mergeable (payload wrapped : Fields) : Prop where
  wrappedType : get wrapped "type" ≠ .null
  type : pyEq (get payload "type") (get wrapped "type") = true
  fields : ∀ key value, (key, value) ∈ payload →
    key ∉ ["chat", "commonEventObject", "common", "type"] →
    ∀ own, wrapped.lookup key = some own → pyEq own value = true
  commons : CommonsAgree (get wrapped "common") (get payload "commonEventObject")

/-- The common object of the merged event: the outer one when it is supplied. -/
def mergedCommon (payload wrapped : Fields) : Json :=
  match get payload "commonEventObject" with
  | .null => get wrapped "common"
  | outer => outer

/-! ## The loop over the direct fields -/

abbrev skipped : List String := ["chat", "commonEventObject", "common", "type"]

theorem mergeField_eq_ok {event merged : Fields} {key : String} {value : Json}
    (hkey : key ∉ skipped) :
    mergeField event (key, value) = .ok merged ↔
      match event.lookup key with
      | some own => pyEq own value = true ∧ event = merged
      | none => set event key value = merged := by
  simp only [mergeField, if_neg hkey]
  cases event.lookup key with
  | none => exact iff_of_eq (Except.ok.injEq _ _)
  | some own =>
    rw [ite_error_eq_ok, Bool.not_eq_true', Bool.not_eq_false, Except.ok.injEq]

theorem mergeField_skipped (event : Fields) {key : String} (value : Json) (hkey : key ∈ skipped) :
    mergeField event (key, value) = .ok event := if_pos hkey

theorem mergeField_lookup {event merged : Fields} {key : String} {value : Json}
    (h : mergeField event (key, value) = .ok merged) (k : String) :
    merged.lookup k =
      (event.lookup k).or (if k = key ∧ key ∉ skipped then some value else none) := by
  by_cases hkey : key ∈ skipped
  · rw [mergeField_skipped event value hkey] at h
    cases h
    simp [hkey]
  · have hstep := (mergeField_eq_ok hkey).mp h
    cases hown : event.lookup key with
    | some own =>
      rw [hown] at hstep
      obtain ⟨-, rfl⟩ := hstep
      by_cases hk : k = key
      · simp [hk, hown]
      · simp [hk]
    | none =>
      rw [hown] at hstep
      rw [← hstep, lookup_set]
      by_cases hk : k = key
      · simp [hk, hown, hkey]
      · simp [hk]

theorem foldlM_mergeField_lookup {fields event merged : Fields}
    (h : fields.foldlM mergeField event = .ok merged) (k : String) :
    merged.lookup k = (event.lookup k).or (if k ∈ skipped then none else fields.lookup k) := by
  induction fields generalizing event with
  | nil =>
    cases h
    simp
  | cons field fields ih =>
    obtain ⟨key, value⟩ := field
    rw [List.foldlM_cons, bind_eq_ok] at h
    obtain ⟨next, hnext, hrest⟩ := h
    rw [ih hrest, mergeField_lookup hnext, lookup_cons_ite]
    by_cases hk : k = key
    · subst hk
      cases event.lookup k <;> by_cases hskip : k ∈ skipped <;> simp [hskip]
    · simp [hk]

theorem foldlM_mergeField_agree {fields event merged : Fields}
    (h : fields.foldlM mergeField event = .ok merged) {key : String} {value own : Json}
    (hfield : (key, value) ∈ fields) (hkey : key ∉ skipped) (hown : event.lookup key = some own) :
    pyEq own value = true := by
  induction fields generalizing event with
  | nil => cases hfield
  | cons field fields ih =>
    rw [List.foldlM_cons, bind_eq_ok] at h
    obtain ⟨next, hnext, hrest⟩ := h
    cases hfield with
    | head =>
      have hstep := (mergeField_eq_ok hkey).mp hnext
      rw [hown] at hstep
      exact hstep.1
    | tail _ hfield =>
      refine ih hrest hfield ?_
      rw [mergeField_lookup hnext, hown, Option.some_or]

theorem exists_foldlM_mergeField {fields event : Fields} (hkeys : (fields.map Prod.fst).Nodup)
    (hagree : ∀ key value, (key, value) ∈ fields → key ∉ skipped →
      ∀ own, event.lookup key = some own → pyEq own value = true) :
    ∃ merged, fields.foldlM mergeField event = .ok merged := by
  induction fields generalizing event with
  | nil => exact ⟨event, rfl⟩
  | cons field fields ih =>
    obtain ⟨key, value⟩ := field
    obtain ⟨hfirst, hrest⟩ := List.nodup_cons.mp hkeys
    have hnext : ∃ next, mergeField event (key, value) = .ok next := by
      by_cases hkey : key ∈ skipped
      · exact ⟨event, mergeField_skipped event value hkey⟩
      · cases hown : event.lookup key with
        | none => exact ⟨set event key value, (mergeField_eq_ok hkey).mpr (by rw [hown])⟩
        | some own =>
          refine ⟨event, (mergeField_eq_ok hkey).mpr ?_⟩
          rw [hown]
          exact ⟨hagree key value List.mem_cons_self hkey own hown, rfl⟩
    obtain ⟨next, hnext⟩ := hnext
    have hlater : ∀ k v, (k, v) ∈ fields → next.lookup k = event.lookup k := by
      intro k v hmem
      have hne : k ≠ key := fun h => hfirst (List.mem_map.mpr ⟨(k, v), hmem, h⟩)
      rw [mergeField_lookup hnext, if_neg fun h => hne h.1, Option.or_none]
    obtain ⟨merged, hmerged⟩ := ih hrest fun k v hmem hskip own hown =>
      hagree k v (List.mem_cons_of_mem _ hmem) hskip own (hlater k v hmem ▸ hown)
    exact ⟨merged, by rw [List.foldlM_cons, hnext, ok_bind, hmerged]⟩

/-! ## The merged event -/

section

variable {payload wrapped : Fields}

theorem lookup_of_get_ne_null {fields : Fields} {key : String} (h : Json.get fields key ≠ .null) :
    fields.lookup key = some (Json.get fields key) := by
  rw [Json.get] at h ⊢
  cases hfound : fields.lookup key with
  | none => exact absurd (by rw [hfound]; rfl) h
  | some value => rfl

theorem selectEvent_eq_ok (htype : get payload "type" ≠ .null)
    (hchat : get payload "chat" = .dict wrapped) {event : Fields} :
    selectEvent payload = .ok event ↔ get wrapped "type" ≠ .null ∧
      pyEq (get payload "type") (get wrapped "type") = true ∧
      payload.foldlM mergeField wrapped = .ok event := by
  simp only [selectEvent, hchat]
  split
  next hnull => exact iff_of_false nofun fun h => h.1 hnull
  next hwrapped =>
    rw [ite_error_eq_ok, Bool.not_eq_true', Bool.not_eq_false]
    exact (and_iff_right hwrapped).symm

theorem commonObject_eq_ok {name : String} {value : Json} {object : Option Fields} :
    commonObject name value = .ok object ↔
      value = .null ∧ object = none ∨ ∃ fields, value = .dict fields ∧ object = some fields := by
  unfold commonObject
  split
  · simp [eq_comm]
  · simp [eq_comm]
  next hnull hdict =>
    refine iff_of_false nofun ?_
    rintro (⟨h, -⟩ | ⟨fields, h, -⟩)
    · exact hnull h
    · exact hdict fields h

def withOuter (payload event : Fields) : Fields :=
  match get payload "commonEventObject" with
  | .null => event
  | outer => set event "common" outer

/-- The envelope that comes back, and what is checked for it. -/
theorem normalizeEnvelope_eq_ok {envelope : NormalizedEnvelope} :
    normalizeEnvelope payload = .ok envelope ↔ ∃ event, selectEvent payload = .ok event ∧
      CommonsAgree (get event "common") (get payload "commonEventObject") ∧
      ⟨withOuter payload event, payload⟩ = envelope := by
  simp only [normalizeEnvelope, bind_eq_ok, commonObject_eq_ok]
  constructor
  · rintro ⟨event, hselect, inner, hinner, outer, houter, h⟩
    refine ⟨event, hselect, ?_⟩
    obtain ⟨houter, rfl⟩ | ⟨other, houter, rfl⟩ := houter
    · have hdone : (.ok ⟨event, payload⟩ : Except Exc NormalizedEnvelope) = .ok envelope := by
        cases inner <;> exact h
      refine ⟨⟨?_, .inl houter, fun own other _ hother => ?_⟩, ?_⟩
      · obtain ⟨hinner, -⟩ | ⟨own, hinner, -⟩ := hinner
        · exact .inl hinner
        · exact .inr ⟨own, hinner⟩
      · cases houter.symm.trans hother
      · rw [withOuter, houter]
        exact Except.ok.inj hdone
    · obtain ⟨hinner, rfl⟩ | ⟨own, hinner, rfl⟩ := hinner
      · refine ⟨⟨.inl hinner, .inr ⟨other, houter⟩, fun own _ hown _ => ?_⟩, ?_⟩
        · cases hinner.symm.trans hown
        · rw [withOuter, houter]
          cases h
          rfl
      · rw [ite_error_eq_ok, Bool.not_eq_true', Bool.not_eq_false] at h
        refine ⟨⟨.inr ⟨own, hinner⟩, .inr ⟨other, houter⟩, fun own' other' hown hother => ?_⟩, ?_⟩
        · cases hinner.symm.trans hown
          cases houter.symm.trans hother
          exact h.1
        · rw [withOuter, houter]
          cases h.2
          rfl
  · rintro ⟨event, hselect, ⟨hinner, houter, hagree⟩, rfl⟩
    obtain hnull | ⟨own, hown⟩ := hinner <;> obtain hnull' | ⟨other, hother⟩ := houter
    · refine ⟨event, hselect, none, .inl ⟨hnull, rfl⟩, none, .inl ⟨hnull', rfl⟩, ?_⟩
      rw [withOuter, hnull']
    · refine ⟨event, hselect, none, .inl ⟨hnull, rfl⟩, some other, .inr ⟨other, hother, rfl⟩, ?_⟩
      rw [withOuter, hother]
    · refine ⟨event, hselect, some own, .inr ⟨own, hown, rfl⟩, none, .inl ⟨hnull', rfl⟩, ?_⟩
      rw [withOuter, hnull']
    · refine ⟨event, hselect, some own, .inr ⟨own, hown, rfl⟩, some other,
        .inr ⟨other, hother, rfl⟩, ?_⟩
      rw [ite_error_eq_ok, withOuter, hother, hagree own other hown hother]
      exact ⟨nofun, rfl⟩

variable {event : Fields}

/-- The direct `common` is not merged. -/
theorem get_common_of_merged (hmerge : payload.foldlM mergeField wrapped = .ok event) :
    get event "common" = get wrapped "common" := by
  rw [Json.get, Json.get, foldlM_mergeField_lookup hmerge, if_pos (by decide), Option.or_none]

theorem get_common_withOuter :
    get (withOuter payload event) "common" =
      match get payload "commonEventObject" with
      | .null => get event "common"
      | outer => outer := by
  rw [withOuter]
  split
  · rfl
  · rw [Json.get, lookup_set_self, Option.getD_some]

theorem lookup_withOuter {key : String} (hkey : key ≠ "common") :
    (withOuter payload event).lookup key = event.lookup key := by
  rw [withOuter]
  split
  · rfl
  · exact lookup_set_of_ne _ _ hkey

/-- A payload of both families is merged exactly when the two agree. -/
theorem normalizeEnvelope_eq_ok_both (htype : get payload "type" ≠ .null)
    (hchat : get payload "chat" = .dict wrapped) {envelope : NormalizedEnvelope} :
    normalizeEnvelope payload = .ok envelope ↔ ∃ event,
      payload.foldlM mergeField wrapped = .ok event ∧ get wrapped "type" ≠ .null ∧
      pyEq (get payload "type") (get wrapped "type") = true ∧
      CommonsAgree (get wrapped "common") (get payload "commonEventObject") ∧
      ⟨withOuter payload event, payload⟩ = envelope := by
  simp only [normalizeEnvelope_eq_ok, selectEvent_eq_ok htype hchat]
  constructor
  · rintro ⟨event, ⟨hwrapped, hequal, hmerge⟩, hcommons, henvelope⟩
    exact ⟨event, hmerge, hwrapped, hequal, get_common_of_merged hmerge ▸ hcommons, henvelope⟩
  · rintro ⟨event, hmerge, hwrapped, hequal, hcommons, henvelope⟩
    exact ⟨event, ⟨hwrapped, hequal, hmerge⟩, (get_common_of_merged hmerge).symm ▸ hcommons,
      henvelope⟩

theorem exists_normalizeEnvelope (hkeys : (payload.map Prod.fst).Nodup)
    (htype : get payload "type" ≠ .null) (hchat : get payload "chat" = .dict wrapped)
    (h : Mergeable payload wrapped) : ∃ envelope, normalizeEnvelope payload = .ok envelope := by
  obtain ⟨event, hmerge⟩ := exists_foldlM_mergeField hkeys h.fields
  exact ⟨_, (normalizeEnvelope_eq_ok_both htype hchat).mpr
    ⟨event, hmerge, h.wrappedType, h.type, h.commons, rfl⟩⟩

/-- What an envelope of both families was merged from, and what its event holds. -/
theorem mergeable_of_ok (htype : get payload "type" ≠ .null)
    (hchat : get payload "chat" = .dict wrapped) {envelope : NormalizedEnvelope}
    (h : normalizeEnvelope payload = .ok envelope) :
    Mergeable payload wrapped ∧ get envelope.event "common" = mergedCommon payload wrapped ∧
      ∀ key ≠ "common", envelope.event.lookup key =
        (wrapped.lookup key).or (if key ∈ skipped then none else payload.lookup key) := by
  obtain ⟨event, hmerge, hwrapped, hequal, hcommons, rfl⟩ :=
    (normalizeEnvelope_eq_ok_both htype hchat).mp h
  refine ⟨⟨hwrapped, hequal, fun key value hfield hkey own hown =>
    foldlM_mergeField_agree hmerge hfield hkey hown, hcommons⟩, ?_, fun key hkey => ?_⟩
  · rw [get_common_withOuter, get_common_of_merged hmerge, mergedCommon]
  · rw [lookup_withOuter hkey, foldlM_mergeField_lookup hmerge]

/-- The direct fields of a merged payload are kept, its direct `common` object apart. -/
theorem keeps_iff (htype : get payload "type" ≠ .null) {event : Fields}
    (hmerge : Mergeable payload wrapped) (hcommon : get event "common" = mergedCommon payload wrapped)
    (hlookup : ∀ key ≠ "common", event.lookup key =
      (wrapped.lookup key).or (if key ∈ skipped then none else payload.lookup key)) :
    Keeps payload wrapped event ↔
      (get payload "common" ≠ .null →
        SameValue (get payload "common") (mergedCommon payload wrapped)) := by
  constructor
  · intro h hsupplied
    rw [← hcommon]
    exact h.common _ (.head _) hsupplied
  · intro h
    refine ⟨fun key value hfield hkey => ?_, fun key value hfield hkey => ?_, ?_⟩
    · have hne : key ≠ "common" := fun heq => hkey (heq.symm ▸ by decide)
      rw [hlookup key hne]
      by_cases hskip : key ∈ skipped
      · -- only `type` is both a direct field and left out of the loop
        obtain rfl : key = "type" := by
          simp only [List.mem_cons, List.not_mem_nil, or_false, not_or] at hskip hkey
          tauto
        refine ⟨get wrapped "type", ?_, ?_⟩
        · rw [lookup_of_get_ne_null hmerge.wrappedType, Option.some_or]
        · have hvalue : get payload "type" = value := by
            rw [Json.get, hfield, Option.getD_some]
          exact .inr (.inr (hvalue ▸ hmerge.type))
      · cases hown : wrapped.lookup key with
        | none => exact ⟨value, by rw [if_neg hskip, Option.none_or, hfield], .inl rfl⟩
        | some own =>
          have hmem : (key, value) ∈ payload := by
            obtain ⟨before, after, rfl, -⟩ := List.lookup_eq_some_iff.mp hfield
            exact List.mem_append_right _ (.head _)
          exact ⟨own, Option.some_or, .inr (.inl (hmerge.fields key value hmem hskip own hown))⟩
    · exact ⟨value, by rw [hlookup key hkey, hfield, Option.some_or], .inl rfl⟩
    · rw [hcommon]
      intro supplied hmem hsupplied
      obtain rfl | rfl | rfl := by simpa using hmem
      · exact h hsupplied
      · rw [mergedCommon]
        split
        · exact .inl rfl
        next houter =>
          obtain hnull | ⟨own, hown⟩ := hmerge.commons.isInner
          · exact absurd hnull hsupplied
          obtain hnull | ⟨other, hother⟩ := hmerge.commons.isOuter
          · exact absurd hnull houter
          rw [hown, hother]
          exact .inr (.inl (hmerge.commons.agree own other hown hother))
      · rw [mergedCommon]
        split
        next houter => exact absurd houter hsupplied
        · exact .inl rfl

end

/-- The payloads of both families on which the merge is faithful: rejected ones, and those whose
direct `common` object, if any, is also the merged event's. -/
theorem mergesFaithfully_iff {payload : Fields} (hkeys : (payload.map Prod.fst).Nodup)
    (htype : get payload "type" ≠ .null) (hchat : get payload "chat" ≠ .null) :
    MergesFaithfully payload ↔ ∀ wrapped, get payload "chat" = .dict wrapped →
      Mergeable payload wrapped → get payload "common" ≠ .null →
        SameValue (get payload "common") (mergedCommon payload wrapped) := by
  constructor
  · rintro (⟨e, hraise, -⟩ | ⟨envelope, wrapped', hok, hwrapped', hkeeps⟩) wrapped hwrapped hmerge
    · obtain ⟨envelope, hok⟩ := exists_normalizeEnvelope hkeys htype hwrapped hmerge
      cases hok.symm.trans hraise
    · cases hwrapped.symm.trans hwrapped'
      obtain ⟨-, hcommon, hlookup⟩ := mergeable_of_ok htype hwrapped hok
      exact (keeps_iff htype hmerge hcommon hlookup).mp hkeeps
  · intro h
    cases hresult : normalizeEnvelope payload with
    | error e => exact .inl ⟨e, hresult, normalizeEnvelope_inFamily payload e hresult⟩
    | ok envelope =>
      obtain ⟨wrapped, hwrapped⟩ : ∃ wrapped, get payload "chat" = .dict wrapped := by
        obtain ⟨event, hselect, -⟩ := normalizeEnvelope_eq_ok.mp hresult
        revert hselect
        unfold selectEvent
        split
        next hnull => exact absurd hnull hchat
        next wrapped hwrapped => exact fun _ => ⟨wrapped, hwrapped⟩
        · exact nofun
      obtain ⟨hmerge, hcommon, hlookup⟩ := mergeable_of_ok htype hwrapped hresult
      exact .inr ⟨envelope, wrapped, hresult, hwrapped,
        (keeps_iff htype hmerge hcommon hlookup).mpr (h wrapped hwrapped hmerge)⟩

/-- A card click whose direct and wrapped form name a function each. -/
def clicked (direct wrapped : String) : Fields :=
  [("type", .str "CARD_CLICKED"),
    ("common", .dict [("invokedFunction", .str direct)]),
    ("chat", .dict [("type", .str "CARD_CLICKED"),
      ("common", .dict [("invokedFunction", .str wrapped)])])]

theorem normalizeEnvelope_clicked : normalizeEnvelope (clicked "approve" "reject") =
    .ok ⟨[("type", .str "CARD_CLICKED"), ("common", .dict [("invokedFunction", .str "reject")])],
      clicked "approve" "reject"⟩ := rfl

/-- The merge of two clicks that disagree drops the direct one's function. -/
theorem not_mergesFaithfully : ¬ ∀ payload : Fields, (payload.map Prod.fst).Nodup →
    get payload "type" ≠ .null → get payload "chat" ≠ .null → MergesFaithfully payload := by
  intro h
  obtain ⟨e, hraise, -⟩ | ⟨envelope, wrapped, hok, -, hkeeps⟩ :=
    h (clicked "approve" "reject") (by decide) nofun nofun
  · cases normalizeEnvelope_clicked.symm.trans hraise
  · cases normalizeEnvelope_clicked.symm.trans hok
    have hsame : SameValue (.dict [("invokedFunction", .str "approve")])
        (.dict [("invokedFunction", .str "reject")]) :=
      hkeeps.common (.dict [("invokedFunction", .str "approve")]) (.head _) nofun
    obtain heq | heq | heq := hsame
    · simp at heq
    · exact absurd heq (by decide)
    · exact absurd heq (by decide)

/-- Two clicks that agree are merged into one. -/
theorem mergesFaithfully_clicked : MergesFaithfully (clicked "reject" "reject") := by
  have htype : get (clicked "reject" "reject") "type" ≠ .null := nofun
  have hchat : get (clicked "reject" "reject") "chat" ≠ .null := nofun
  refine (mergesFaithfully_iff (by decide) htype hchat).mpr fun wrapped hwrapped _ _ => ?_
  cases hwrapped
  exact .inl rfl

end Chattice.GoogleChat
