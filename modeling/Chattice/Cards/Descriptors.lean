import Chattice.Cards.Proto
import Chattice.Protobuf.Schema

/-!
# The SDK's message types

The fields of the card messages that the facades read and write, with the columns that nest widgets,
and an SDK that reads and checks its messages by them.
-/

namespace Chattice.Cards

open Protobuf

def scalarField (name : String) (kind : ScalarKind) : Field := ⟨name, .scalar kind, false⟩

def messageField (name type : String) : Field := ⟨name, .message type, false⟩

def messagesField (name type : String) : Field := ⟨name, .message type, true⟩

def cardTypes : Schema := [
  ("Dialog", [messageField "body" "Card"]),
  ("Card", [messageField "header" "CardHeader", messagesField "sections" "Section",
    scalarField "name" .text]),
  ("CardHeader", [scalarField "title" .text, scalarField "subtitle" .text,
    scalarField "image_url" .text]),
  ("Section", [scalarField "header" .text, messagesField "widgets" "Widget"]),
  ("Widget", [messageField "text_paragraph" "TextParagraph", messageField "divider" "Divider",
    messageField "button_list" "ButtonList", messageField "text_input" "TextInput",
    messageField "selection_input" "SelectionInput",
    messageField "date_time_picker" "DateTimePicker", messageField "image" "Image",
    messageField "columns" "Columns"]),
  ("Columns", [messagesField "column_items" "Column"]),
  ("Column", [messagesField "widgets" "ColumnWidget"]),
  ("ColumnWidget", [messageField "text_paragraph" "TextParagraph",
    messageField "button_list" "ButtonList", messageField "text_input" "TextInput",
    messageField "selection_input" "SelectionInput",
    messageField "date_time_picker" "DateTimePicker", messageField "image" "Image"]),
  ("TextParagraph", [scalarField "text" .text, scalarField "max_lines" .int]),
  ("Divider", []),
  ("ButtonList", [messagesField "buttons" "Button"]),
  ("Button", [scalarField "text" .text, messageField "on_click" "OnClick",
    scalarField "disabled" .bool, messageField "color" "Color",
    scalarField "type" (.enum ["TYPE_UNSPECIFIED", "OUTLINED", "FILLED", "FILLED_TONAL",
      "BORDERLESS"]),
    scalarField "alt_text" .text]),
  ("Color", [scalarField "red" .float, scalarField "green" .float, scalarField "blue" .float,
    scalarField "alpha" .floatValue]),
  ("OnClick", [messageField "action" "Action", messageField "open_link" "OpenLink"]),
  ("Action", [scalarField "function" .text, messagesField "parameters" "ActionParameter",
    scalarField "interaction" (.enum ["INTERACTION_UNSPECIFIED", "OPEN_DIALOG"]),
    ⟨"required_widgets", .scalar .text, true⟩, scalarField "persist_values" .bool,
    scalarField "load_indicator" (.enum ["SPINNER", "NONE"])]),
  ("ActionParameter", [scalarField "key" .text, scalarField "value" .text]),
  ("OpenLink", [scalarField "url" .text]),
  ("TextInput", [scalarField "name" .text, scalarField "label" .text,
    scalarField "hint_text" .text, scalarField "value" .text,
    messageField "validation" "Validation"]),
  ("Validation", [scalarField "character_limit" .int,
    scalarField "input_type" (.enum ["INPUT_TYPE_UNSPECIFIED", "TEXT", "INTEGER", "FLOAT", "EMAIL",
      "EMOJI_PICKER"])]),
  ("SelectionInput", [scalarField "name" .text, scalarField "label" .text,
    messagesField "items" "SelectionItem", messageField "external_data_source" "Action",
    scalarField "multi_select_max_selected_items" .int,
    scalarField "multi_select_min_query_length" .int]),
  ("SelectionItem", [scalarField "text" .text, scalarField "value" .text]),
  ("DateTimePicker", [scalarField "name" .text, scalarField "label" .text,
    scalarField "value_ms_epoch" .int64, scalarField "timezone_offset_date" .int]),
  ("Image", [scalarField "image_url" .text, scalarField "alt_text" .text,
    messageField "on_click" "OnClick"])]

def facadeSdk : Sdk where
  holds := conforms cardTypes
  parse type data :=
    match readMessage cardTypes type data with
    | some m => .ok m
    | none => .error [.text "Failed to parse ", .text type]
  float32 q := q
  openAs _ := none
  specialNetloc _ := false

theorem facadeSdk_parse {type : String} {data : Json.Fields} {m : Message} :
    facadeSdk.parse type data = .ok m ↔ readMessage cardTypes type data = some m := by
  simp only [facadeSdk]
  cases readMessage cardTypes type data with
  | none => exact ⟨nofun, nofun⟩
  | some found => rw [Except.ok.injEq, Option.some.injEq]

end Chattice.Cards
