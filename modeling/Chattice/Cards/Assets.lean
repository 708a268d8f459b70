import Chattice.Asyncio.Calls
import Chattice.Client.Request
import Chattice.Python.Url

/-!
# Local card images

The images of a card that have a local source are read first, then published one after the other;
the resolved card has their URLs in place of the sources.

* `resolveCardAssets_returns` : the cards it can return;
* `resolveCardAssets_within` : it reads and publishes images, and calls nothing else.
-/

namespace Chattice.Cards

open Asyncio Asyncio.Coro Client Python

/-- `_local_images`: section index, widget index and image. -/
def localImages (card : Card) : List (Nat × Nat × Image × LocalImageSource) :=
  card.sections.zipIdx.flatMap fun (part, sectionIndex) =>
    part.widgets.zipIdx.filterMap fun (widget, widgetIndex) =>
      match widget with
      | .image image => image.localSource.map fun source => (sectionIndex, widgetIndex, image, source)
      | _ => none

/-- `validate_card_assets`: fail locally when a card needs an unavailable publisher. -/
def validateCardAssets (card : Option Card) (hasPublisher : Bool) : Except Exc Unit :=
  match card with
  | some card =>
    if !hasPublisher && !(localImages card).isEmpty then
      .error (.assetPublisherNotConfigured [.text ("Local card images require an " ++
        "AssetPublisher. Configure Bot(asset_publisher=...) or use Image.from_url().")])
    else .ok ()
  | none => .ok ()

/-- `_source_bytes` -/
def sourceBytes (source : LocalImageSource) : Coro sig (List UInt8) :=
  match source.content with
  | .bytes data => pure data
  | .path path =>
    tryElse (awaitCall (.readImage path))
      (fun
        | .osError _ strerror => raise (.assetPublishError
            (.text ("Could not read local Card image " ++ path ++ ": ") :: strerror))
        | error => raise error)
      pure

def notHttps : Exc :=
  .assetPublishError [.text "AssetPublisher.publish() must return an absolute HTTPS URL"]

def publishImage (platform : Platform) (image : Image) (source : LocalImageSource)
    (data : List UInt8) : Coro sig Image :=
  tryElse
    (awaitCall (.publish data source.filename source.contentType source.namespaceName))
    (fun _ => raise (.assetPublishError
      [.text "AssetPublisher failed to publish ", .repr (.str source.filename)]))
    fun published =>
      match published with
      | .str imageUrl =>
        if isHttpsUrl platform.specialNetloc imageUrl then
          pure ⟨.url imageUrl, image.altText, image.onClick⟩
        else raise notHttps
      | _ => raise notHttps

def Card.withImages (card : Card) (replacements : List ((Nat × Nat) × Image)) : Card where
  header := card.header
  sections := card.sections.zipIdx.map fun (part, sectionIndex) =>
    { header := part.header
      widgets := part.widgets.zipIdx.map fun (widget, widgetIndex) =>
        match replacements.lookup (sectionIndex, widgetIndex) with
        | some image => .image image
        | none => widget }
  name := card.name
  raw := none

def prepareImage : Nat × Nat × Image × LocalImageSource →
    Coro sig ((Nat × Nat) × Image × LocalImageSource × List UInt8)
  | (sectionIndex, widgetIndex, image, source) => do
    let data ← sourceBytes source
    pure ((sectionIndex, widgetIndex), image, source, data)

def replaceImage (platform : Platform) :
    (Nat × Nat) × Image × LocalImageSource × List UInt8 → Coro sig ((Nat × Nat) × Image)
  | (position, image, source, data) => do
    let resolved ← publishImage platform image source data
    pure (position, resolved)

/-- `resolve_card_assets`: every file is read before the first image is published. -/
def resolveCardAssets (platform : Platform) (card : Card) (hasPublisher : Bool) : Coro sig Card :=
  if (localImages card).isEmpty then pure card
  else do
    ofExcept (validateCardAssets (some card) hasPublisher)
    let prepared ← forEach prepareImage (localImages card)
    let replacements ← forEach (replaceImage platform) prepared
    pure (card.withImages replacements)

/-! ## What a resolution returns -/

variable {platform : Platform}

/-- A local image and its replacement: the same place, text and click action, and an HTTPS URL. -/
def Replaces (platform : Platform) (found : Nat × Nat × Image × LocalImageSource)
    (replacement : (Nat × Nat) × Image) : Prop :=
  replacement.1 = (found.1, found.2.1) ∧ ∃ imageUrl,
    isHttpsUrl platform.specialNetloc imageUrl = true ∧
      replacement.2 = ⟨.url imageUrl, found.2.2.1.altText, found.2.2.1.onClick⟩

/-- The cards `resolve_card_assets` may return for `card`. -/
def ResolvesTo (platform : Platform) (card : Card) (hasPublisher : Bool) (resolved : Card) : Prop :=
  if (localImages card).isEmpty then resolved = card
  else hasPublisher = true ∧ ∃ replacements,
    List.Forall₂ (Replaces platform) (localImages card) replacements ∧
      resolved = card.withImages replacements

theorem sourceBytes_returns (source : LocalImageSource) :
    ∃ data, (sourceBytes source).Returns data := by
  unfold sourceBytes
  split
  · exact ⟨_, rfl⟩
  · refine ⟨[], ?_⟩
    unfold tryElse Returns
    rw [ends_andThen]
    exact ⟨.ret [], returns_call, rfl⟩

theorem publishImage_returns {image resolved : Image} {source : LocalImageSource}
    {data : List UInt8} :
    (publishImage platform image source data).Returns resolved ↔
      ∃ imageUrl, isHttpsUrl platform.specialNetloc imageUrl = true ∧
        resolved = ⟨.url imageUrl, image.altText, image.onClick⟩ := by
  unfold publishImage
  rw [returns_tryElse fun _ => returns_raise]
  constructor
  · rintro ⟨url, -, h⟩
    split at h
    · next imageUrl =>
      split at h
      · next hvalid =>
        refine ⟨imageUrl, hvalid, ?_⟩
        simpa [eq_comm] using h
      · cases h
    · cases h
  · rintro ⟨imageUrl, hvalid, rfl⟩
    refine ⟨.str imageUrl, returns_call, ?_⟩
    simp [hvalid]

theorem replaces_iff {found : Nat × Nat × Image × LocalImageSource}
    {replacement : (Nat × Nat) × Image} :
    (∃ prepared, (prepareImage found).Returns prepared ∧
      (replaceImage platform prepared).Returns replacement) ↔
        Replaces platform found replacement := by
  obtain ⟨sectionIndex, widgetIndex, image, source⟩ := found
  obtain ⟨position, resolved⟩ := replacement
  simp only [prepareImage, replaceImage, bind_eq, pure_eq, returns_bind, returns_done,
    Outcome.ret.injEq, publishImage_returns, Replaces, Prod.mk.injEq]
  constructor
  · rintro ⟨_, ⟨data, -, rfl⟩, r, ⟨imageUrl, hvalid, rfl⟩, rfl, rfl⟩
    exact ⟨rfl, imageUrl, hvalid, rfl⟩
  · rintro ⟨rfl, imageUrl, hvalid, rfl⟩
    obtain ⟨data, hdata⟩ := sourceBytes_returns source
    exact ⟨_, ⟨data, hdata, rfl⟩, _, ⟨imageUrl, hvalid, rfl⟩, rfl, rfl⟩

theorem validateCardAssets_eq_ok {card : Card} {hasPublisher : Bool} :
    validateCardAssets (some card) hasPublisher = .ok () ↔
      (localImages card).isEmpty = true ∨ hasPublisher = true := by
  simp only [validateCardAssets]
  split
  · next h =>
    rw [Bool.and_eq_true, Bool.not_eq_true', Bool.not_eq_true'] at h
    rw [h.1, h.2]
    simp only [reduceCtorEq, Bool.false_eq_true, or_self]
  · next h =>
    rw [Bool.and_eq_true, Bool.not_eq_true', Bool.not_eq_true', not_and_or] at h
    simpa [or_comm] using h

theorem resolveCardAssets_returns {card resolved : Card} {hasPublisher : Bool} :
    (resolveCardAssets platform card hasPublisher).Returns resolved ↔
      ResolvesTo platform card hasPublisher resolved := by
  unfold resolveCardAssets ResolvesTo
  split
  · simp [eq_comm]
  · next hlocal =>
    simp only [bind_eq, pure_eq, returns_bind, returns_ofExcept, returns_forEach, returns_done,
      Outcome.ret.injEq]
    constructor
    · rintro ⟨⟨⟩, hvalid, prepared, hread, replacements, hpublish, rfl⟩
      refine ⟨(validateCardAssets_eq_ok.mp hvalid).resolve_left hlocal, replacements, ?_, rfl⟩
      exact (forall₂_comp.mp ⟨prepared, hread, hpublish⟩).imp fun _ _ => replaces_iff.mp
    · rintro ⟨hpublisher, replacements, hreplaces, rfl⟩
      obtain ⟨prepared, hread, hpublish⟩ :=
        forall₂_comp.mpr (hreplaces.imp fun _ _ => replaces_iff.mpr)
      exact ⟨(), validateCardAssets_eq_ok.mpr (.inr hpublisher), prepared, hread, replacements,
        hpublish, rfl⟩

theorem sourceBytes_within (source : LocalImageSource) :
    (sourceBytes source).Within fun k => Call.isAsset k = true := by
  unfold sourceBytes
  split
  · exact within_done
  · refine within_tryElse (within_call rfl) (fun e => ?_) fun _ => within_done
    split <;> exact within_done

theorem publishImage_within (image : Image) (source : LocalImageSource) (data : List UInt8) :
    (publishImage platform image source data).Within fun k => Call.isAsset k = true := by
  refine within_tryElse (within_call rfl) (fun _ => within_done) fun published => ?_
  split
  · split <;> exact within_done
  · exact within_done

/-- A resolution reads images and publishes images. -/
theorem resolveCardAssets_within (card : Card) (hasPublisher : Bool) :
    (resolveCardAssets platform card hasPublisher).Within fun k => Call.isAsset k = true := by
  unfold resolveCardAssets
  split
  · exact within_done
  · refine within_bind within_ofExcept fun _ => ?_
    refine within_bind (within_forEach fun found => ?_) fun prepared => ?_
    · exact within_bind (sourceBytes_within _) fun _ => within_done
    refine within_bind (within_forEach fun found => ?_) fun _ => within_done
    exact within_bind (publishImage_within _ _ _) fun _ => within_done

end Chattice.Cards
