import XmlRecords.Value.Encoding

/-! # Encodings go by way of JSON

The JSON that stands for a value is made in two ways: by itself, and by an encoding that could as
well make something else. Both give the same. More generally, an encoding that writes the parts of
values as it would write the JSON that stands for them writes whole values like this too, at any
depth, so that the text written at once is the text of the JSON.
-/

namespace XmlRecords

variable {α : Type}

/-- The encoding writes each part of a value as the JSON is written that stands for the part. -/
structure Encoding.Renders (encoding : Encoding α) (render : Json → α) : Prop where
  null : encoding.null = render .null
  boolean : ∀ truth, encoding.boolean truth = render (.boolean truth)
  signed : ∀ number, encoding.signed number = render (.integer number.toInt)
  unsigned : ∀ number, encoding.unsigned number = render (.integer number.toNat)
  real : ∀ number, encoding.real number =
    render (if Binary64.isFinite number then .real number else .null)
  string : ∀ content, encoding.string content = render (.string content)
  list : ∀ items, encoding.list (items.map render) = render (.list items)
  object : ∀ fields, encoding.object (fields.map fun (name, value) => (name, render value)) =
    render (.object fields)

namespace Value

section Renders

variable {encoding : Encoding α} {render : Json → α}

mutual

theorem encode_eq (renders : encoding.Renders render) :
    ∀ value : Value, value.encode encoding = render value.toJson
  | .null => renders.null
  | .boolean truth => renders.boolean truth
  | .text content => renders.string content
  | .integer number => renders.signed number
  | .real number => renders.real number
  | .duration length => renders.unsigned length.totalSeconds
  | .dateTime point => renders.string point.text
  | .markup source => renders.string source
  | .list items => by
      rw [encode, toJson, encodeItems_eq renders items]
      exact renders.list (itemsToJson items)
  | .record fields => by
      rw [encode, toJson, encodeFields_eq renders fields]
      exact renders.object (fieldsToJson fields)

theorem encodeItems_eq (renders : encoding.Renders render) :
    ∀ items : List Value, encodeItems encoding items = (itemsToJson items).map render
  | [] => rfl
  | item :: items => by
      rw [encodeItems, itemsToJson, List.map_cons, encode_eq renders item,
        encodeItems_eq renders items]

theorem encodeFields_eq (renders : encoding.Renders render) :
    ∀ fields : List (String × Value), encodeFields encoding fields =
      (fieldsToJson fields).map fun (name, value) => (name, render value)
  | [] => rfl
  | (name, value) :: fields => by
      rw [encodeFields, fieldsToJson, List.map_cons, encode_eq renders value,
        encodeFields_eq renders fields]

end

theorem encode_object (renders : encoding.Renders render) (fields : Record Value) :
    encoding.object (encodeFields encoding fields) = render (.object (fieldsToJson fields)) := by
  rw [encodeFields_eq renders fields]
  exact renders.object (fieldsToJson fields)

end Renders

/-- The encoding that builds JSON changes nothing in what it is given. -/
theorem renders_json : Encoding.json.Renders id where
  null := rfl
  boolean _ := rfl
  signed _ := rfl
  unsigned _ := rfl
  real _ := rfl
  string _ := rfl
  list items := congrArg Json.list (List.map_id items)
  object fields := congrArg Json.object (List.map_id fields)

theorem compactItems_eq (items : List Json) : Json.compactItems items = items.map Json.compact := by
  induction items with
  | nil => rfl
  | cons item items ih => rw [Json.compactItems, ih, List.map_cons]

theorem compactFields_eq (fields : List (String × Json)) :
    Json.compactFields fields = fields.map fun (name, value) => (name, value.compact) := by
  induction fields with
  | nil => rfl
  | cons field fields ih => rw [Json.compactFields, ih, List.map_cons]

theorem renders_compact : Encoding.compactText.Renders Json.compact where
  null := rfl
  boolean _ := rfl
  signed _ := rfl
  unsigned number := rfl
  real number := by
    cases finite : Binary64.isFinite number with
    | true => rfl
    | false =>
        change Json.realText number = "null"
        rw [Json.realText, Binary64.Layout.finite?, finite]
        rfl
  string _ := rfl
  list items := by rw [Json.compact, compactItems_eq]; rfl
  object fields := by rw [Json.compact, compactFields_eq]; rfl

/-- Text that is written at once is that of the JSON, in which doubles that are not finite have
become null. -/
theorem encode_compactText (value : Value) :
    value.encode Encoding.compactText = value.toJson.compact :=
  encode_eq renders_compact value

/-- An encoding that writes the parts of values as the JSON is written that stands for them writes a
value as its JSON, and a record as its JSON, with the fields in their order. So the encoding that
builds JSON builds the JSON that stands for a value, and for a record. -/
theorem encode_json :
    (∀ {α : Type} (encoding : Encoding α) (render : Json → α), encoding.Renders render →
      (∀ value : Value, value.encode encoding = render value.toJson) ∧
        ∀ fields : Record Value, encoding.object (encodeFields encoding fields) =
          render (.object (fieldsToJson fields))) ∧
    (∀ value : Value, value.encode Encoding.json = value.toJson) ∧
      ∀ fields : Record Value, Encoding.json.object (encodeFields Encoding.json fields) =
        .object (fieldsToJson fields) := by
  refine ⟨?_, encode_eq renders_json, encode_object renders_json⟩
  intro α encoding render renders
  exact ⟨encode_eq renders, encode_object renders⟩

/-- A record with an empty list and an empty record in it, written as text. -/
theorem encode_json_text :
    let fields : Record Value :=
      [("items", .list [.list [], .boolean true, .record []]), ("none", .null)]
    Encoding.compactText.Renders Json.compact ∧
      Encoding.compactText.object (encodeFields Encoding.compactText fields) =
        Json.compact (.object (fieldsToJson fields)) ∧
      Json.compact (.object (fieldsToJson fields)) =
        "\x7b\"items\":[[],true,\x7b\x7d],\"none\":null\x7d" := by
  intro fields
  obtain ⟨every, _⟩ := encode_json
  obtain ⟨_, object⟩ := every Encoding.compactText Json.compact renders_compact
  exact ⟨renders_compact, object fields, by decide +kernel⟩

end Value

end XmlRecords
