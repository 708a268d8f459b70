import Chattice.Asyncio.Loop
import Chattice.Cards.Assets

/-!
# Resolving a card is faithful and ordered

A run of `resolve_card_assets` reads every local image, then publishes them one by one in reading
order, and puts each published URL where its image was.

* `mem_localImages`, `localImages_ordered` : the local images of a card, in reading order;
* `Copy` : the resolved card is the card with the given URLs for its local images;
* `readPasses`, `publishPasses` : the two loops;
* `resolveCardAssets_faithful` : every run.
-/

namespace Chattice.Cards

open Asyncio Asyncio.Coro Client Python

/-! ## What a run reads and publishes -/

/-- The arguments of one `publisher.publish`. -/
structure Publication where
  data : List UInt8
  filename : String
  contentType : String
  namespaceName : Option String
  deriving DecidableEq, Repr

/-- A local image with its position, its source and the bytes read for it. -/
abbrev Row := (Nat × Nat) × Image × LocalImageSource × List UInt8

def Row.found : Row → Nat × Nat × Image × LocalImageSource
  | ((i, j), image, source, _) => (i, j, image, source)

def Row.publication : Row → Publication
  | (_, _, source, data) => ⟨data, source.filename, source.contentType, source.namespaceName⟩

def Row.replacement : Row → String → (Nat × Nat) × Image
  | (position, image, _, _), url => (position, ⟨.url url, image.altText, image.onClick⟩)

def Row.read : Row → Option (String × Outcome Client.Exc (List UInt8))
  | (_, _, source, data) =>
    match source.content with
    | .path path => some (path, .ret data)
    | .bytes _ => none

/-- The reads of a run, in order. -/
def reads (t : List (Asyncio.Event sig)) : List (String × Outcome Client.Exc (List UInt8)) :=
  t.filterMap fun
    | .called (.readImage path) r => some (path, r)
    | _ => none

/-- The publications of a run, in order, with their answers. -/
def publications (t : List (Asyncio.Event sig)) : List (Publication × Outcome Client.Exc Json) :=
  t.filterMap fun
    | .called (.publish data filename contentType namespaceName) r =>
      some (⟨data, filename, contentType, namespaceName⟩, r)
    | _ => none

/-- The bytes of the rows are those of their sources: snapshots, or what the reads returned. -/
structure ReadFor (rows : List Row) (t : List (Asyncio.Event sig)) : Prop where
  snapshots : ∀ row ∈ rows, ∀ data, row.2.2.1.content = .bytes data → row.2.2.2 = data
  files : reads t = rows.filterMap Row.read

/-! ## Positions -/

def Card.widget? (card : Card) (i j : Nat) : Option Widget :=
  card.sections[i]?.bind fun part => part.widgets[j]?

def Widget.localSource (widget : Widget) : Option LocalImageSource :=
  match widget with
  | .image picture => picture.localSource
  | _ => none

/-- The images are the local ones of the card, each once, in reading order. -/
structure Enumerates (card : Card) (images : List (Nat × Nat × Image × LocalImageSource)) : Prop where
  mem_iff : ∀ i j image source, (i, j, image, source) ∈ images ↔
    card.widget? i j = some (.image image) ∧ image.localSource = some source
  ordered : images.Pairwise fun a b => a.1 < b.1 ∨ a.1 = b.1 ∧ a.2.1 < b.2.1

/-- The card with HTTPS images at the given URLs in place of the given ones. -/
structure Copy (platform : Platform) (card : Card) (images : List (Nat × Nat × Image × LocalImageSource))
    (urls : List String) (resolved : Card) : Prop where
  header : resolved.header = card.header
  name : resolved.name = card.name
  headers : resolved.sections.map Section.header = card.sections.map Section.header
  places : ∀ i j, (resolved.widget? i j).isSome = (card.widget? i j).isSome
  kept : ∀ i j widget, card.widget? i j = some widget → widget.localSource = none →
    resolved.widget? i j = some widget
  length_eq : urls.length = images.length
  replaced : ∀ (k i j : Nat) (image : Image) (source : LocalImageSource) (url : String),
    images[k]? = some (i, j, image, source) → urls[k]? = some url →
      resolved.widget? i j = some (.image ⟨.url url, image.altText, image.onClick⟩)
  https : ∀ url ∈ urls, isHttpsUrl platform.specialNetloc url = true

def localEntry (i j : Nat) (widget : Widget) : Option (Nat × Nat × Image × LocalImageSource) :=
  match widget with
  | .image image => image.localSource.map fun source => (i, j, image, source)
  | _ => none

theorem localImages_eq (card : Card) : localImages card =
    card.sections.zipIdx.flatMap fun part => part.1.widgets.zipIdx.filterMap fun widget =>
      localEntry part.2 widget.2 widget.1 := rfl

theorem localEntry_eq_some {i j : Nat} {widget : Widget}
    {found : Nat × Nat × Image × LocalImageSource} :
    localEntry i j widget = some found ↔ found.1 = i ∧ found.2.1 = j ∧
      widget = .image found.2.2.1 ∧ found.2.2.1.localSource = some found.2.2.2 := by
  obtain ⟨i', j', image, source⟩ := found
  unfold localEntry
  cases widget with
  | image image' =>
    rw [Option.map_eq_some_iff]
    constructor
    · rintro ⟨source', hsource, heq⟩
      cases heq
      exact ⟨rfl, rfl, rfl, hsource⟩
    · rintro ⟨rfl, rfl, heq, hsource⟩
      cases heq
      exact ⟨source, hsource, rfl⟩
  | _ => exact iff_of_false nofun fun h => nomatch h.2.2.1

theorem mem_localImages (card : Card) (i j : Nat) (image : Image) (source : LocalImageSource) :
    (i, j, image, source) ∈ localImages card ↔
      card.widget? i j = some (.image image) ∧ image.localSource = some source := by
  rw [localImages_eq, Card.widget?, List.mem_flatMap]
  constructor
  · rintro ⟨part, hpart, hmem⟩
    obtain ⟨widget, hwidget, hfound⟩ := List.mem_filterMap.mp hmem
    obtain ⟨hi, hj, himage, hsource⟩ := localEntry_eq_some.mp hfound
    have hsection := List.mem_zipIdx_iff_getElem?.mp hpart
    have hat := List.mem_zipIdx_iff_getElem?.mp hwidget
    rw [← hi] at hsection
    rw [← hj, himage] at hat
    rw [hsection, Option.bind_some]
    exact ⟨hat, hsource⟩
  · rintro ⟨hwidget, hsource⟩
    obtain ⟨part, hpart, hat⟩ := Option.bind_eq_some_iff.mp hwidget
    exact ⟨(part, i), List.mem_zipIdx_iff_getElem?.mpr hpart, List.mem_filterMap.mpr
      ⟨(.image image, j), List.mem_zipIdx_iff_getElem?.mpr hat,
        localEntry_eq_some.mpr ⟨rfl, rfl, rfl, hsource⟩⟩⟩

theorem zipIdx_ordered {α : Type} (l : List α) : l.zipIdx.Pairwise fun a b => a.2 < b.2 := by
  apply List.pairwise_map.mp
  rw [List.zipIdx_map_snd]
  exact List.pairwise_lt_range'

theorem localImages_ordered (card : Card) :
    (localImages card).Pairwise fun a b => a.1 < b.1 ∨ a.1 = b.1 ∧ a.2.1 < b.2.1 := by
  rw [localImages_eq, List.pairwise_flatMap]
  constructor
  · intro part _
    rw [List.pairwise_filterMap]
    refine (zipIdx_ordered part.1.widgets).imp fun hlt found hfound found' hfound' => ?_
    obtain ⟨hi, hj, -⟩ := localEntry_eq_some.mp hfound
    obtain ⟨hi', hj', -⟩ := localEntry_eq_some.mp hfound'
    rw [hi, hi', hj, hj']
    exact .inr ⟨rfl, hlt⟩
  · refine (zipIdx_ordered card.sections).imp fun hlt found hfound found' hfound' => ?_
    obtain ⟨widget, -, hentry⟩ := List.mem_filterMap.mp hfound
    obtain ⟨widget', -, hentry'⟩ := List.mem_filterMap.mp hfound'
    rw [(localEntry_eq_some.mp hentry).1, (localEntry_eq_some.mp hentry').1]
    exact .inl hlt

theorem enumerates_localImages (card : Card) : Enumerates card (localImages card) :=
  ⟨mem_localImages card, localImages_ordered card⟩

/-! ## The copy -/

theorem widget?_withImages (card : Card) (replacements : List ((Nat × Nat) × Image)) (i j : Nat) :
    (card.withImages replacements).widget? i j = (card.widget? i j).map fun widget =>
      match replacements.lookup (i, j) with
      | some image => .image image
      | none => widget := by
  unfold Card.widget? Card.withImages
  cases hpart : card.sections[i]? with
  | none => simp [hpart]
  | some part =>
    cases hwidget : part.widgets[j]? with
    | none => simp [hpart, hwidget]
    | some widget =>
      cases hlookup : replacements.lookup (i, j) with
      | none => simp [hpart, hwidget, hlookup]
      | some image => simp [hpart, hwidget, hlookup]

theorem headers_withImages (card : Card) (replacements : List ((Nat × Nat) × Image)) :
    (card.withImages replacements).sections.map Section.header = card.sections.map Section.header := by
  show (card.sections.zipIdx.map _).map Section.header = _
  rw [List.map_map]
  show card.sections.zipIdx.map (Section.header ∘ Prod.fst) = _
  rw [← List.map_map, List.zipIdx_map_fst]

def replacements (rows : List Row) (urls : List String) : List ((Nat × Nat) × Image) :=
  List.zipWith Row.replacement rows urls

theorem lookup_replacements_of_not_mem {rows : List Row} {position : Nat × Nat}
    (h : position ∉ rows.map Prod.fst) (urls : List String) :
    (replacements rows urls).lookup position = none := by
  induction rows generalizing urls with
  | nil => rfl
  | cons row rows ih =>
    cases urls with
    | nil => rfl
    | cons url urls =>
      rw [List.map_cons, List.mem_cons, not_or] at h
      show ((row.1, _) :: replacements rows urls).lookup position = none
      rw [List.lookup_cons, beq_eq_false_iff_ne.mpr h.1]
      exact ih h.2 urls

theorem lookup_replacements {rows : List Row} (h : (rows.map Prod.fst).Nodup) {urls : List String}
    {k : Nat} {row : Row} {url : String} (hrow : rows[k]? = some row) (hurl : urls[k]? = some url) :
    (replacements rows urls).lookup row.1 = some (row.replacement url).2 := by
  induction rows generalizing urls k with
  | nil => cases hrow
  | cons first rows ih =>
    rw [List.map_cons, List.nodup_cons] at h
    cases urls with
    | nil => cases hurl
    | cons url' urls =>
      show ((first.1, (first.replacement url').2) :: replacements rows urls).lookup row.1 = _
      cases k with
      | zero =>
        cases hrow
        cases hurl
        rw [List.lookup_cons_self]
      | succ k =>
        have hne : row.1 ≠ first.1 := by
          intro heq
          exact h.1 (heq ▸ List.mem_map_of_mem (List.mem_of_getElem? hrow))
        rw [List.lookup_cons, beq_eq_false_iff_ne.mpr hne]
        exact ih h.2 hrow hurl

theorem positions_nodup {card : Card} {rows : List Row} (h : rows.map Row.found = localImages card) :
    (rows.map Prod.fst).Nodup := by
  have hordered := localImages_ordered card
  rw [← h, List.pairwise_map] at hordered
  refine List.pairwise_map.mpr (hordered.imp ?_)
  rintro ⟨⟨i, j⟩, row⟩ ⟨⟨i', j'⟩, row'⟩ hlt heq
  cases heq
  obtain hlt | ⟨-, hlt⟩ := hlt
  · exact Nat.lt_irrefl _ hlt
  · exact Nat.lt_irrefl _ hlt

theorem copy_withImages {platform : Platform} {card : Card} {rows : List Row} {urls : List String}
    (hrows : rows.map Row.found = localImages card) (hlength : urls.length = rows.length)
    (hhttps : ∀ url ∈ urls, isHttpsUrl platform.specialNetloc url = true) :
    Copy platform card (localImages card) urls (card.withImages (replacements rows urls)) where
  header := rfl
  name := rfl
  headers := headers_withImages card _
  places i j := by rw [widget?_withImages, Option.isSome_map]
  kept i j widget hwidget hlocal := by
    have hnot : (i, j) ∉ rows.map Prod.fst := by
      intro hmem
      obtain ⟨row, hrow, hposition⟩ := List.mem_map.mp hmem
      obtain ⟨position, image, source, data⟩ := row
      cases hposition
      have hfound : (i, j, image, source) ∈ localImages card :=
        hrows ▸ List.mem_map_of_mem (f := Row.found) hrow
      obtain ⟨hat, hsource⟩ := (mem_localImages card i j image source).mp hfound
      rw [hwidget] at hat
      cases hat
      rw [show (Widget.image image).localSource = image.localSource from rfl, hsource] at hlocal
      cases hlocal
    rw [widget?_withImages, hwidget, Option.map_some, lookup_replacements_of_not_mem hnot]
  length_eq := by rw [hlength, ← hrows, List.length_map]
  replaced k i j image source url himage hurl := by
    have hfound : (i, j, image, source) ∈ localImages card := List.mem_of_getElem? himage
    rw [← hrows, List.getElem?_map] at himage
    obtain ⟨row, hrow, heq⟩ := Option.map_eq_some_iff.mp himage
    obtain ⟨position, image', source', data⟩ := row
    cases heq
    have hlookup := lookup_replacements (positions_nodup hrows) hrow hurl
    rw [widget?_withImages, ((mem_localImages card _ _ _ _).mp hfound).1, Option.map_some]
    show some (match (replacements rows urls).lookup position with
      | some image => Widget.image image
      | none => _) = _
    rw [hlookup]
    rfl
  https := hhttps

/-! ## The two loops -/

variable {platform : Platform}

theorem reads_append (t t' : List (Asyncio.Event sig)) : reads (t ++ t') = reads t ++ reads t' :=
  List.filterMap_append

theorem publications_append (t t' : List (Asyncio.Event sig)) :
    publications (t ++ t') = publications t ++ publications t' := List.filterMap_append

theorem sourceBytes_runs {source : LocalImageSource} {t : List (Asyncio.Event sig)}
    {o : Outcome Client.Exc (List UInt8)} (h : Runs (sourceBytes source) t o) :
    (∃ data, source.content = .bytes data ∧ t = [] ∧ o = .ret data) ∨
      ∃ path r, source.content = .path path ∧ t = [.called (.readImage path) r] ∧
        ∀ data, o = .ret data ↔ r = .ret data := by
  unfold sourceBytes at h
  split at h
  · next data hcontent =>
    obtain ⟨rfl, rfl⟩ := runs_done.mp h
    exact .inl ⟨data, hcontent, rfl, rfl⟩
  · next path hcontent =>
    obtain ⟨r, t', rfl, hrest⟩ := runs_call_andThen.mp h
    refine .inr ⟨path, r, hcontent, ?_⟩
    cases r with
    | ret data =>
      obtain ⟨rfl, rfl⟩ := runs_done.mp hrest
      exact ⟨rfl, fun _ => Iff.rfl⟩
    | raised e =>
      have hraised : ∃ e', Runs (raise e' : Coro sig (List UInt8)) t' o := by
        dsimp only at hrest
        split at hrest
        · exact ⟨_, hrest⟩
        · exact ⟨_, hrest⟩
      obtain ⟨e', hraised⟩ := hraised
      obtain ⟨rfl, rfl⟩ := runs_done.mp hraised
      exact ⟨rfl, fun _ => iff_of_false nofun nofun⟩
    | cancelled =>
      obtain ⟨rfl, rfl⟩ := runs_done.mp hrest
      exact ⟨rfl, fun _ => iff_of_false nofun nofun⟩

theorem prepareImage_runs {found : Nat × Nat × Image × LocalImageSource}
    {t : List (Asyncio.Event sig)} {row : Row} (h : Runs (prepareImage found) t (.ret row)) :
    row.found = found ∧ (∀ data, row.2.2.1.content = .bytes data → row.2.2.2 = data) ∧
      reads t = row.read.toList ∧ publications t = [] := by
  obtain ⟨i, j, image, source⟩ := found
  obtain ⟨t₁, data, t₂, hread, hdone, rfl⟩ := runs_bind_ret.mp h
  obtain ⟨rfl, heq⟩ := runs_done.mp hdone
  cases heq
  obtain ⟨snapshot, hcontent, rfl, heq⟩ | ⟨path, r, hcontent, rfl, hret⟩ := sourceBytes_runs hread
  · cases heq
    refine ⟨rfl, fun data' hdata => ?_, ?_, rfl⟩
    · rw [hcontent] at hdata
      cases hdata
      rfl
    · simp [Row.read, hcontent, reads]
  · obtain rfl := (hret data).mp rfl
    refine ⟨rfl, fun data' hdata => ?_, ?_, rfl⟩
    · rw [hcontent] at hdata
      cases hdata
    · simp [Row.read, hcontent, reads]

/-- **The first loop.** It reads what is in files and publishes nothing. -/
theorem readPasses {images : List (Nat × Nat × Image × LocalImageSource)}
    {t : List (Asyncio.Event sig)} {rows : List Row} (h : Passes prepareImage images t rows) :
    rows.map Row.found = images ∧ ReadFor rows t ∧ publications t = [] := by
  induction h with
  | nil => exact ⟨rfl, ⟨List.forall_mem_nil _, rfl⟩, rfl⟩
  | @cons found images t t' row rows first rest ih =>
    obtain ⟨hfound, hsnapshot, hreads, hquiet⟩ := prepareImage_runs first
    obtain ⟨hrows, hfor, hquiet'⟩ := ih
    refine ⟨by rw [List.map_cons, hfound, hrows], ⟨?_, ?_⟩, ?_⟩
    · exact List.forall_mem_cons.mpr ⟨hsnapshot, hfor.snapshots⟩
    · rw [reads_append, hreads, hfor.files, List.filterMap_cons]
      cases row.read <;> rfl
    · rw [publications_append, hquiet, hquiet', List.append_nil]

theorem replaceImage_runs {row : Row} {t : List (Asyncio.Event sig)}
    {o : Outcome Client.Exc ((Nat × Nat) × Image)} (h : Runs (replaceImage platform row) t o) :
    reads t = [] ∧ ∃ r, publications t = [(row.publication, r)] ∧
      ∀ replacement, o = .ret replacement → ∃ url, r = .ret (.str url) ∧
        replacement = row.replacement url ∧ isHttpsUrl platform.specialNetloc url = true := by
  obtain ⟨position, image, source, data⟩ := row
  have hpublish {t : List (Asyncio.Event sig)} {o : Outcome Client.Exc Image}
      (h : Runs (publishImage platform image source data) t o) :
      ∃ r, t = [.called (.publish data source.filename source.contentType source.namespaceName) r] ∧
        ∀ resolved, o = .ret resolved → ∃ url, r = .ret (.str url) ∧
          resolved = ⟨.url url, image.altText, image.onClick⟩ ∧
            isHttpsUrl platform.specialNetloc url = true := by
    obtain ⟨r, t', rfl, hrest⟩ := runs_call_andThen.mp h
    refine ⟨r, ?_⟩
    cases r with
    | ret published =>
      dsimp only at hrest
      split at hrest
      · next url =>
        split at hrest
        · next hvalid =>
          obtain ⟨rfl, rfl⟩ := runs_done.mp hrest
          refine ⟨rfl, fun resolved heq => ⟨url, rfl, ?_, hvalid⟩⟩
          cases heq
          rfl
        · obtain ⟨rfl, rfl⟩ := runs_done.mp hrest
          exact ⟨rfl, fun _ heq => nomatch heq⟩
      · obtain ⟨rfl, rfl⟩ := runs_done.mp hrest
        exact ⟨rfl, fun _ heq => nomatch heq⟩
    | raised e =>
      obtain ⟨rfl, rfl⟩ := runs_done.mp hrest
      exact ⟨rfl, fun _ heq => nomatch heq⟩
    | cancelled =>
      obtain ⟨rfl, rfl⟩ := runs_done.mp hrest
      exact ⟨rfl, fun _ heq => nomatch heq⟩
  obtain ⟨t₁, resolved, t₂, hrun, hdone, rfl⟩ | ⟨e, hrun, rfl⟩ | ⟨hrun, rfl⟩ := runs_bind.mp h
  · obtain ⟨rfl, rfl⟩ := runs_done.mp hdone
    obtain ⟨r, rfl, hret⟩ := hpublish hrun
    obtain ⟨url, hr, hresolved, hvalid⟩ := hret resolved rfl
    refine ⟨rfl, r, rfl, fun replacement heq => ⟨url, hr, ?_, hvalid⟩⟩
    cases heq
    rw [hresolved]
    rfl
  · obtain ⟨r, rfl, -⟩ := hpublish hrun
    exact ⟨rfl, r, rfl, fun _ heq => nomatch heq⟩
  · obtain ⟨r, rfl, -⟩ := hpublish hrun
    exact ⟨rfl, r, rfl, fun _ heq => nomatch heq⟩

def answered (rows : List Row) (urls : List String) : List (Publication × Outcome Client.Exc Json) :=
  List.zipWith (fun row url => (row.publication, .ret (.str url))) rows urls

/-- **The second loop.** It publishes the rows in order and reads nothing. -/
theorem publishPasses {rows : List Row} {t : List (Asyncio.Event sig)}
    {found : List ((Nat × Nat) × Image)} (h : Passes (replaceImage platform) rows t found) :
    reads t = [] ∧ ∃ urls, urls.length = rows.length ∧ publications t = answered rows urls ∧
      found = replacements rows urls ∧
        ∀ url ∈ urls, isHttpsUrl platform.specialNetloc url = true := by
  induction h with
  | nil => exact ⟨rfl, [], rfl, rfl, rfl, nofun⟩
  | @cons row rows t t' replacement found first rest ih =>
    obtain ⟨hreads, r, hpublished, hret⟩ := replaceImage_runs first
    obtain ⟨url, rfl, rfl, hvalid⟩ := hret replacement rfl
    obtain ⟨hreads', urls, hlength, hpublished', rfl, hvalid'⟩ := ih
    refine ⟨by rw [reads_append, hreads, hreads', List.append_nil], url :: urls, ?_, ?_, rfl, ?_⟩
    · rw [List.length_cons, List.length_cons, hlength]
    · rw [publications_append, hpublished, hpublished']
      rfl
    · exact List.forall_mem_cons.mpr ⟨hvalid, hvalid'⟩

/-! ## Every run -/

theorem prepareImage_quiet {found : Nat × Nat × Image × LocalImageSource}
    {t : List (Asyncio.Event sig)} {o : Outcome Client.Exc Row} (h : Runs (prepareImage found) t o) :
    publications t = [] := by
  have hquiet {o : Outcome Client.Exc (List UInt8)} (h : Runs (sourceBytes found.2.2.2) t o) :
      publications t = [] := by
    obtain ⟨data, -, rfl, -⟩ | ⟨path, r, -, rfl, -⟩ := sourceBytes_runs h
    · rfl
    · rfl
  cases o with
  | ret row => exact (prepareImage_runs h).2.2.2
  | raised e =>
    obtain ⟨t₁, data, t₂, -, hdone, -⟩ | ⟨e', hrun, -⟩ | ⟨-, heq⟩ := runs_bind.mp h
    · cases (runs_done.mp hdone).2
    · exact hquiet hrun
    · cases heq
  | cancelled =>
    obtain ⟨t₁, data, t₂, -, hdone, -⟩ | ⟨e', -, heq⟩ | ⟨hrun, -⟩ := runs_bind.mp h
    · cases (runs_done.mp hdone).2
    · cases heq
    · exact hquiet hrun

theorem answered_map_fst {rows : List Row} {urls : List String} (h : urls.length = rows.length) :
    (answered rows urls).map Prod.fst = rows.map Row.publication := by
  rw [answered, List.map_zipWith]
  show List.zipWith (fun row _ => row.publication) rows urls = _
  induction rows generalizing urls with
  | nil => rfl
  | cons row rows ih =>
    cases urls with
    | nil => cases h
    | cons url urls =>
      rw [List.zipWith_cons_cons, List.map_cons, ih (Nat.succ.inj h)]

theorem ReadFor.returned {rows : List Row} {t : List (Asyncio.Event sig)} (h : ReadFor rows t)
    {path : String} {r : Outcome Client.Exc (List UInt8)}
    (hmem : .called (Call.readImage path) r ∈ t) : ∃ data, r = .ret data := by
  have hread : (path, r) ∈ reads t := List.mem_filterMap.mpr ⟨_, hmem, rfl⟩
  rw [h.files] at hread
  obtain ⟨⟨position, image, source, data⟩, -, hrow⟩ := List.mem_filterMap.mp hread
  unfold Row.read at hrow
  dsimp only at hrow
  split at hrow
  · cases hrow
    exact ⟨data, rfl⟩
  · cases hrow

/-- What every run does: a failed read comes before any publication; the publications are those of the
local images in reading order, each of the bytes read for that image, and no more; and the run raises,
is cancelled, or returns the card with each local image at the URL its own publication returned. -/
structure Faithful (platform : Platform) (card : Card) (t : List (Asyncio.Event sig))
    (o : Outcome Client.Exc Card) : Prop where
  readsFirst : (∃ path r, .called (Call.readImage path) r ∈ t ∧ ∀ data, r ≠ .ret data) →
    publications t = []
  settled : ∃ rows : List Row,
    (publications t ≠ [] → rows.map Row.found = localImages card ∧ ReadFor rows t) ∧
    (publications t).map Prod.fst <+: rows.map Row.publication ∧
    ((∃ e, o = .raised e) ∨ o = .cancelled ∨ ∃ resolved urls, o = .ret resolved ∧
      rows.map Row.found = localImages card ∧ ReadFor rows t ∧ publications t = answered rows urls ∧
      Copy platform card (localImages card) urls resolved)

theorem Faithful.of_quiet {card : Card} {t : List (Asyncio.Event sig)} {o : Outcome Client.Exc Card}
    (hquiet : publications t = []) (ho : (∃ e, o = .raised e) ∨ o = .cancelled) :
    Faithful platform card t o where
  readsFirst _ := hquiet
  settled := by
    refine ⟨[], fun hne => absurd hquiet hne, ?_, ?_⟩
    · rw [hquiet]
      exact List.nil_prefix
    · exact ho.elim .inl fun hcancelled => .inr (.inl hcancelled)

theorem Faithful.of_isEmpty {card : Card} (h : (localImages card).isEmpty = true) :
    Faithful platform card [] (.ret card) where
  readsFirst _ := rfl
  settled := by
    have hnil : localImages card = [] := List.isEmpty_iff.mp h
    refine ⟨[], fun hne => absurd rfl hne, List.nil_prefix, .inr (.inr ⟨card, [], rfl, ?_, ?_, rfl, ?_⟩)⟩
    · exact hnil.symm
    · exact ⟨List.forall_mem_nil _, rfl⟩
    · rw [hnil]
      refine ⟨rfl, rfl, rfl, fun _ _ => rfl, fun _ _ _ h _ => h, rfl, ?_, List.forall_mem_nil _⟩
      intro k i j image source url himage
      rw [List.getElem?_nil] at himage
      cases himage

theorem Faithful.of_publish {card : Card} {rows : List Row} {t t' : List (Asyncio.Event sig)}
    {o : Outcome Client.Exc Card} (hfound : rows.map Row.found = localImages card) (hfor : ReadFor rows t)
    (hquiet : publications t = [])
    (h : Runs ((forEach (replaceImage platform) rows).bind fun found =>
      done (.ret (card.withImages found))) t' o) : Faithful platform card (t ++ t') o := by
  have hpublications : publications (t ++ t') = publications t' := by
    rw [publications_append, hquiet, List.nil_append]
  have hreads (hnone : reads t' = []) : ReadFor rows (t ++ t') :=
    ⟨hfor.snapshots, by rw [reads_append, hnone, List.append_nil, hfor.files]⟩
  have hfirst (hnone : reads t' = [])
      (hfailed : ∃ path r, .called (Call.readImage path) r ∈ t ++ t' ∧ ∀ data, r ≠ .ret data) :
      publications (t ++ t') = [] := by
    obtain ⟨path, r, hmem, hne⟩ := hfailed
    obtain ⟨data, hdata⟩ := (hreads hnone).returned hmem
    exact absurd hdata (hne data)
  -- a loop that stopped has published the rows before the one that failed, and that one
  have hstopped {o' : Outcome Client.Exc (List ((Nat × Nat) × Image))}
      (hrun : Runs (forEach (replaceImage platform) rows) t' o') (hret : ∀ found, o' ≠ .ret found)
      (ho : (∃ e, o = .raised e) ∨ o = .cancelled) : Faithful platform card (t ++ t') o := by
    obtain ⟨found, heq, -⟩ | ⟨before, row, t₁, t₂, found, o'', hstop⟩ := runs_forEach hrun
    · exact absurd heq (hret found)
    obtain ⟨rest, hrows⟩ := hstop.items_eq
    obtain ⟨hnone₁, urls, hlength, hpublished, -⟩ := publishPasses hstop.passes
    obtain ⟨hnone₂, r, hlast, -⟩ := replaceImage_runs hstop.run
    have hnone : reads t' = [] := by rw [hstop.trace_eq, reads_append, hnone₁, hnone₂, List.append_nil]
    refine ⟨hfirst hnone, rows, fun _ => ⟨hfound, hreads hnone⟩, ?_, ?_⟩
    · rw [hpublications, hstop.trace_eq, publications_append, List.map_append, hpublished, hlast,
        answered_map_fst hlength, hrows, List.map_append, List.map_cons]
      exact ⟨rest.map Row.publication, by simp⟩
    · exact ho.elim .inl fun hcancelled => .inr (.inl hcancelled)
  obtain ⟨t₁, found, t₂, hrun, hdone, rfl⟩ | ⟨e, hrun, rfl⟩ | ⟨hrun, rfl⟩ := runs_bind.mp h
  · obtain ⟨rfl, rfl⟩ := runs_done.mp hdone
    rw [List.append_nil] at *
    obtain ⟨found', heq, hpasses⟩ | ⟨before, row, u₁, u₂, found', o', hstop⟩ := runs_forEach hrun
    · cases heq
      obtain ⟨hnone, urls, hlength, hpublished, rfl, hhttps⟩ := publishPasses hpasses
      refine ⟨hfirst hnone, rows, fun _ => ⟨hfound, hreads hnone⟩, ?_, .inr (.inr ⟨_, urls, rfl, hfound,
        hreads hnone, hpublications.trans hpublished, copy_withImages hfound hlength hhttps⟩)⟩
      have hall : (publications (t ++ t₁)).map Prod.fst = rows.map Row.publication := by
        rw [hpublications, hpublished, answered_map_fst hlength]
      exact hall ▸ List.prefix_rfl
    · cases hstop.fails
  · exact hstopped hrun nofun (.inl ⟨e, rfl⟩)
  · exact hstopped hrun nofun (.inr rfl)

/-- **Every run** is faithful and ordered, for every card, every publisher and every behaviour of the
file reads. -/
theorem resolveCardAssets_faithful {card : Card} {hasPublisher : Bool}
    {t : List (Asyncio.Event sig)} {o : Outcome Client.Exc Card}
    (h : Runs (resolveCardAssets platform card hasPublisher) t o) :
    Enumerates card (localImages card) ∧ Faithful platform card t o := by
  refine ⟨enumerates_localImages card, ?_⟩
  unfold resolveCardAssets at h
  split at h
  · next hempty =>
    obtain ⟨rfl, rfl⟩ := runs_done.mp h
    exact .of_isEmpty hempty
  · obtain ⟨t₀, ⟨⟩, t', hvalid, hrest, rfl⟩ | ⟨e, hvalid, rfl⟩ | ⟨hvalid, rfl⟩ := runs_bind.mp h
    · rw [runs_ofExcept hvalid, List.nil_append]
      have hreading {o' : Outcome Client.Exc (List Row)} {u : List (Asyncio.Event sig)}
          (hrun : Runs (forEach prepareImage (localImages card)) u o')
          (hret : ∀ rows, o' ≠ .ret rows) : publications u = [] := by
        obtain ⟨rows, heq, -⟩ | ⟨before, found, t₁, t₂, rows, o'', hstop⟩ := runs_forEach hrun
        · exact absurd heq (hret rows)
        · rw [hstop.trace_eq, publications_append, (readPasses hstop.passes).2.2,
            prepareImage_quiet hstop.run, List.append_nil]
      obtain ⟨t₁, rows, t₂, hrun, hpublish, rfl⟩ | ⟨e, hrun, rfl⟩ | ⟨hrun, rfl⟩ := runs_bind.mp hrest
      · obtain ⟨rows', heq, hpasses⟩ | ⟨before, found, u₁, u₂, rows', o', hstop⟩ := runs_forEach hrun
        · cases heq
          obtain ⟨hfound, hfor, hnone⟩ := readPasses hpasses
          exact .of_publish hfound hfor hnone hpublish
        · cases hstop.fails
      · exact .of_quiet (hreading hrun nofun) (.inl ⟨e, rfl⟩)
      · exact .of_quiet (hreading hrun nofun) (.inr rfl)
    · rw [runs_ofExcept hvalid]
      exact .of_quiet rfl (.inl ⟨e, rfl⟩)
    · rw [runs_ofExcept hvalid]
      exact .of_quiet rfl (.inr rfl)

/-- A URL for every publication, the file of every path. -/
def publisher : (c : Call) → Outcome Client.Exc c.Res
  | .publish _ filename _ _ => .ret (.str ("https://cards.example/" ++ filename))
  | .readImage _ => .ret [2]
  | .resolveCredentials | .resolveUserCredentials | .initializeClient _ => .ret ()
  | .stat _ => .ret ⟨true, 0⟩
  | .readFile _ => .ret []
  | .uploadMedia .. => .ret []
  | .createMessage .. | .updateMessage .. => .ret (.dict [])

def plainPlatform : Platform where
  cardToProto := fun _ => .error (.other "TypeError")
  accessoryToProto := fun _ => .error (.other "TypeError")
  specialNetloc := fun _ => false

def bannerImage : Image := ⟨.file ⟨.bytes [1], "banner.png", "image/png", none⟩, some "banner", none⟩

def chartImage : Image := ⟨.file ⟨.path "/tmp/chart.png", "chart.png", "image/png", none⟩, none, none⟩

def imagesCard : Card := ⟨none, [⟨some "A", [.image bannerImage, .divider, .image chartImage]⟩], none, none⟩

theorem imagesCard_run :
    (resolveCardAssets plainPlatform imagesCard true).runWith (S := sig) publisher =
      ([.called (Call.readImage "/tmp/chart.png") (.ret [2]),
        .called (Call.publish [1] "banner.png" "image/png" none)
          (.ret (.str "https://cards.example/banner.png")),
        .called (Call.publish [2] "chart.png" "image/png" none)
          (.ret (.str "https://cards.example/chart.png"))],
        .ret ⟨none, [⟨some "A", [.image ⟨.url "https://cards.example/banner.png", some "banner", none⟩,
          .divider, .image ⟨.url "https://cards.example/chart.png", none, none⟩]⟩], none, none⟩) := rfl

/-- The run of that card, one file read and two images published. -/
theorem imagesCard_faithful : Faithful plainPlatform imagesCard
    [.called (Call.readImage "/tmp/chart.png") (.ret [2]),
      .called (Call.publish [1] "banner.png" "image/png" none)
        (.ret (.str "https://cards.example/banner.png")),
      .called (Call.publish [2] "chart.png" "image/png" none)
        (.ret (.str "https://cards.example/chart.png"))]
    (.ret ⟨none, [⟨some "A", [.image ⟨.url "https://cards.example/banner.png", some "banner", none⟩,
      .divider, .image ⟨.url "https://cards.example/chart.png", none, none⟩]⟩], none, none⟩) := by
  have hruns := runs_runWith (S := sig) publisher (resolveCardAssets plainPlatform imagesCard true)
  rw [imagesCard_run] at hruns
  exact (resolveCardAssets_faithful hruns).2

end Chattice.Cards
