import XmlRecords.Proofs.Binary64.Counting
import XmlRecords.Proofs.Record
import XmlRecords.Value.Basic

/-! # Values and JSON, there and back

A value has more to say than JSON does, and JSON has more integers than values have. What is lost on
the way is lost at once: a value that has gone by way of JSON does not change any more. It changes
the first time just if something in it does by itself, which is told by what stands in it at any
depth (`Throughout`). The same holds of JSON that goes by way of a value (`json_round_trip`).
-/

namespace XmlRecords

section Throughout

variable {α : Type} (children : α → List α) (property : α → Prop)

/-- The property holds of a tree and of everything in it, at any depth. -/
def Throughout (tree : α) : Prop :=
  ∀ part, Relation.ReflTransGen (fun whole part => part ∈ children whole) tree part → property part

variable {children property}

/-- A property holds throughout a tree if it holds of the tree itself and throughout its children.
-/
theorem throughout_iff {tree : α} :
    Throughout children property tree ↔
      property tree ∧ ∀ child ∈ children tree, Throughout children property child := by
  constructor
  · intro holds
    exact ⟨holds tree .refl, fun child member part inside => holds part (.head member inside)⟩
  · rintro ⟨here, below⟩ part inside
    rcases inside.cases_head with rfl | ⟨child, member, inside⟩
    · exact here
    · exact below child member part inside

/-- Nothing is in a leaf but itself. -/
theorem throughout_leaf_iff {tree : α} (leaf : children tree = []) :
    Throughout children property tree ↔ property tree := by
  rw [throughout_iff, leaf]
  exact and_iff_left nofun

theorem throughout_and_iff {other : α → Prop} {tree : α} :
    Throughout children (fun part => property part ∧ other part) tree ↔
      Throughout children property tree ∧ Throughout children other tree := by
  simp only [Throughout, imp_and, forall_and]

end Throughout

namespace Value

section Mapping

theorem itemsToJson_eq (items : List Value) : itemsToJson items = items.map toJson := by
  induction items with
  | nil => rfl
  | cons item items ih => rw [itemsToJson, ih, List.map_cons]

theorem fieldsToJson_eq (fields : Record Value) :
    fieldsToJson fields = fields.mapValues toJson := by
  induction fields with
  | nil => rfl
  | cons field fields ih => rw [fieldsToJson, ih]; rfl

theorem itemsOfJson_eq (items : List Json) : itemsOfJson items = items.map ofJson := by
  induction items with
  | nil => rfl
  | cons item items ih => rw [itemsOfJson, ih, List.map_cons]

theorem fieldsOfJson_eq (fields : Record Json) :
    fieldsOfJson fields = fields.mapValues ofJson := by
  induction fields with
  | nil => rfl
  | cons field fields ih => rw [fieldsOfJson, ih]; rfl

/-- The value of the JSON that stands for a value. -/
def viaJson (value : Value) : Value :=
  ofJson value.toJson

/-- A list goes by way of JSON item by item. -/
theorem viaJson_list (items : List Value) : viaJson (list items) = list (items.map viaJson) := by
  rw [viaJson, toJson, itemsToJson_eq, ofJson, itemsOfJson_eq, List.map_map]
  rfl

/-- The fields of a record are put into a record again, where a name that comes twice loses one of
its values. -/
theorem viaJson_record (fields : Record Value) :
    viaJson (record fields) = record (Record.ofList (Record.mapValues viaJson fields)) := by
  rw [viaJson, toJson, fieldsToJson_eq, ofJson, fieldsOfJson_eq, Record.mapValues_mapValues]
  rfl

end Mapping

/-- The values that a list or a record consists of. -/
def children : Value → List Value
  | list items => items
  | record fields => fields.map Prod.snd
  | _ => []

section Induction

variable {property : Value → Prop}

mutual

/-- What holds of a value if it holds of the values in a list or a record, holds of all values. -/
theorem of_children (step : ∀ value, (∀ child ∈ value.children, property child) → property value) :
    ∀ value, property value
  | .null => step _ nofun
  | .boolean _ => step _ nofun
  | .text _ => step _ nofun
  | .integer _ => step _ nofun
  | .real _ => step _ nofun
  | .duration _ => step _ nofun
  | .dateTime _ => step _ nofun
  | .markup _ => step _ nofun
  | .list items => step _ (of_items step items)
  | .record fields => step _ (of_fields step fields)

/-- The items of a list are parts of it, by induction along the list. -/
theorem of_items (step : ∀ value, (∀ child ∈ value.children, property child) → property value) :
    ∀ items : List Value, ∀ item ∈ items, property item
  | [] => nofun
  | item :: items => List.forall_mem_cons.mpr ⟨of_children step item, of_items step items⟩

/-- Of the fields of a record, the values are. -/
theorem of_fields (step : ∀ value, (∀ child ∈ value.children, property child) → property value) :
    ∀ fields : Record Value, ∀ value ∈ fields.map Prod.snd, property value
  | [] => nofun
  | (_, value) :: fields => List.forall_mem_cons.mpr ⟨of_children step value, of_fields step fields⟩

end

end Induction

/-- The value is not a duration, a point in time or markup, and not a double that is not finite. -/
def IsPlain : Value → Prop
  | real number => Binary64.isFinite number = true
  | duration _ => False
  | dateTime _ => False
  | markup _ => False
  | _ => True

/-- If the value is a record, no name is in it twice. -/
def HasDistinctNames : Value → Prop
  | record fields => (Record.names fields).Nodup
  | _ => True

/-- All integers of a value fit 64 bits, so none of them becomes a double. -/
theorem viaJson_integer (number : Int64) : viaJson (integer number) = integer number := by
  have inRange : Int64.minValue.toInt ≤ number.toInt ∧ number.toInt ≤ Int64.maxValue.toInt :=
    ⟨Int64.minValue_le_toInt number, Int64.toInt_le number⟩
  change ofInteger number.toInt = _
  rw [ofInteger, if_pos inRange, Int64.ofInt_toInt]

/-- What has gone by way of JSON has lost all that JSON does not have. -/
theorem throughout_viaJson (value : Value) :
    Throughout children (fun part => part.IsPlain ∧ part.HasDistinctNames) value.viaJson := by
  induction value using of_children with
  | step value ih =>
      cases value with
      | null | boolean | text | dateTime | markup =>
          exact (throughout_leaf_iff rfl).mpr ⟨trivial, trivial⟩
      | integer number =>
          rw [viaJson_integer]
          exact (throughout_leaf_iff rfl).mpr ⟨trivial, trivial⟩
      | real number =>
          rw [viaJson, toJson]
          split
          · exact (throughout_leaf_iff rfl).mpr ⟨‹_›, trivial⟩
          · exact (throughout_leaf_iff rfl).mpr ⟨trivial, trivial⟩
      | duration length =>
          rw [viaJson, toJson, ofJson, ofInteger]
          split
          · exact (throughout_leaf_iff rfl).mpr ⟨trivial, trivial⟩
          · -- The seconds of a duration have 64 bits without a sign.
            have finite := Binary64.isFinite_ofNat length.totalSeconds.toNat_lt
            exact (throughout_leaf_iff rfl).mpr ⟨finite, trivial⟩
      | list items =>
          rw [viaJson_list]
          exact throughout_iff.mpr ⟨⟨trivial, trivial⟩, List.forall_mem_map.mpr ih⟩
      | record fields =>
          rw [viaJson_record]
          refine throughout_iff.mpr ⟨⟨trivial, Record.nodup_ofList _⟩, List.forall_mem_map.mpr ?_⟩
          intro pair member
          obtain ⟨field, present, rfl⟩ := List.mem_map.mp (Record.mem_of_mem_ofList member)
          exact ih field.2 (List.mem_map_of_mem present)

/-- What JSON has a value for stays as it is. -/
theorem viaJson_of_throughout (value : Value)
    (holds : Throughout children (fun part => part.IsPlain ∧ part.HasDistinctNames) value) :
    value.viaJson = value := by
  induction value using of_children with
  | step value ih =>
      obtain ⟨⟨plain, distinct⟩, below⟩ := throughout_iff.mp holds
      have same : ∀ child ∈ value.children, child.viaJson = child :=
        fun child member => ih child member (below child member)
      cases value with
      | null | boolean | text => rfl
      | integer number => exact viaJson_integer number
      | real number =>
          have finite : Binary64.isFinite number = true := plain
          rw [viaJson, toJson, if_pos finite, ofJson]
      | duration | dateTime | markup => exact plain.elim
      | list items =>
          have sameItems : items.map viaJson = items := map_eq_self_iff.mpr same
          rw [viaJson_list, sameItems]
      | record fields =>
          have sameFields : Record.mapValues viaJson fields = fields :=
            Record.mapValues_eq_self_iff.mpr same
          rw [viaJson_record, sameFields, Record.ofList_eq distinct]

/-- A value stays as it is just if nothing in it would be lost, as it has lost all that after going
once. -/
theorem viaJson_eq_self_iff (value : Value) : value.viaJson = value ↔
    Throughout children (fun part => part.IsPlain ∧ part.HasDistinctNames) value := by
  refine ⟨fun same => ?_, viaJson_of_throughout value⟩
  have holds := throughout_viaJson value
  rwa [same] at holds

end Value

namespace Json

/-- The values that a list or an object consists of. -/
def children : Json → List Json
  | list items => items
  | object fields => fields.map Prod.snd
  | _ => []

section Induction

variable {property : Json → Prop}

mutual

/-- What holds of a value if it holds of the values in a list or an object, holds of all values. -/
theorem of_children (step : ∀ json, (∀ child ∈ json.children, property child) → property json) :
    ∀ json, property json
  | .null => step _ nofun
  | .boolean _ => step _ nofun
  | .integer _ => step _ nofun
  | .real _ => step _ nofun
  | .string _ => step _ nofun
  | .list items => step _ (of_items step items)
  | .object fields => step _ (of_fields step fields)

theorem of_items (step : ∀ json, (∀ child ∈ json.children, property child) → property json) :
    ∀ items : List Json, ∀ item ∈ items, property item
  | [] => nofun
  | item :: items => List.forall_mem_cons.mpr ⟨of_children step item, of_items step items⟩

theorem of_fields (step : ∀ json, (∀ child ∈ json.children, property child) → property json) :
    ∀ fields : Record Json, ∀ value ∈ fields.map Prod.snd, property value
  | [] => nofun
  | (_, value) :: fields => List.forall_mem_cons.mpr ⟨of_children step value, of_fields step fields⟩

end

end Induction

/-- If the value is a double, it is finite, and if it is an object, no name is in it twice. -/
def IsWellFormed : Json → Prop
  | real number => Binary64.isFinite number = true
  | object fields => (Record.names fields).Nodup
  | _ => True

/-- If the value is an integer, it fits 64 bits with a sign. -/
def FitsInt64 : Json → Prop
  | integer number => -2 ^ 63 ≤ number ∧ number ≤ 2 ^ 63 - 1
  | _ => True

/-- The JSON that stands for the value of JSON. -/
def viaValue (json : Json) : Json :=
  (Value.ofJson json).toJson

theorem viaValue_list (items : List Json) : viaValue (list items) = list (items.map viaValue) := by
  rw [viaValue, Value.ofJson, Value.itemsOfJson_eq, Value.toJson, Value.itemsToJson_eq,
    List.map_map]
  rfl

/-- The fields of an object are put into a record, names that come twice included. -/
theorem viaValue_object (fields : Record Json) :
    viaValue (object fields) = object (Record.ofList (Record.mapValues viaValue fields)) := by
  rw [viaValue, Value.ofJson, Value.fieldsOfJson_eq, Value.toJson, Value.fieldsToJson_eq,
    Record.mapValues_ofList, Record.mapValues_mapValues]
  rfl

/-- A double that is not finite becomes null. -/
theorem viaValue_real_iff {number : Float} :
    viaValue (real number) = real number ↔ Binary64.isFinite number = true := by
  rw [viaValue, Value.ofJson, Value.toJson]
  split
  · exact iff_of_true rfl ‹_›
  · exact iff_of_false nofun ‹_›

/-- An integer that does not fit 64 bits with a sign becomes a double, and no integer any more. -/
theorem viaValue_integer_iff {number : Int} :
    viaValue (integer number) = integer number ↔ FitsInt64 (integer number) := by
  rw [viaValue, Value.ofJson, Value.ofInteger]
  split
  · rename_i inRange
    refine iff_of_true ?_ inRange
    rw [Value.toJson, Int64.toInt_ofInt_of_le inRange.1 (Int.lt_add_one_of_le inRange.2)]
  · rename_i outside
    refine iff_of_false ?_ outside
    rw [Value.toJson]
    split <;> exact nofun

/-- JSON stays as it is just if nothing in it is lost. The induction is on what the value consists
of: a list or an object stays if its children do. -/
theorem viaValue_eq_self_iff (json : Json) : viaValue json = json ↔
    Throughout children (fun part => part.IsWellFormed ∧ part.FitsInt64) json := by
  induction json using of_children with
  | step json ih =>
      rw [throughout_iff]
      cases json with
      | null | boolean | string => exact iff_of_true rfl ⟨⟨trivial, trivial⟩, nofun⟩
      | integer number =>
          exact viaValue_integer_iff.trans
            ⟨fun fits => ⟨⟨trivial, fits⟩, nofun⟩, fun all => all.1.2⟩
      | real number =>
          exact viaValue_real_iff.trans
            ⟨fun finite => ⟨⟨finite, trivial⟩, nofun⟩, fun all => all.1.1⟩
      | list items =>
          rw [viaValue_list, list.injEq, map_eq_self_iff]
          exact (forall₂_congr ih).trans (and_iff_right ⟨trivial, trivial⟩).symm
      | object fields =>
          rw [viaValue_object, object.injEq,
            Record.ofList_eq_iff (Record.names_mapValues viaValue fields),
            Record.mapValues_eq_self_iff]
          exact and_congr (and_iff_left trivial).symm (forall₂_congr ih)

end Json

/-- Going by way of JSON a second time changes nothing more. The first time, a value stays as it is
just if it has, at any depth, no duration, no point in time, no markup and no double that is not
finite; JSON stays as it is, with its fields in their order, just if all integers in it fit 64 bits
with a sign. No record and no object names a field twice, and JSON has no doubles that are not
finite, which the types do not say by themselves. -/
theorem json_round_trip :
    (∀ value : Value, value.viaJson.viaJson = value.viaJson) ∧
    (∀ value : Value, Throughout Value.children Value.HasDistinctNames value →
      (value.viaJson = value ↔ Throughout Value.children Value.IsPlain value)) ∧
    ∀ json : Json, Throughout Json.children Json.IsWellFormed json →
      ((Value.ofJson json).toJson = json ↔ Throughout Json.children Json.FitsInt64 json) := by
  refine ⟨?_, ?_, ?_⟩
  · intro value
    exact Value.viaJson_of_throughout value.viaJson (Value.throughout_viaJson value)
  · intro value distinct
    rw [Value.viaJson_eq_self_iff, throughout_and_iff]
    exact and_iff_left distinct
  · intro json wellFormed
    exact (Json.viaValue_eq_self_iff json).trans
      (throughout_and_iff.trans (and_iff_right wellFormed))

/-- A text in a record stays, and markup does not; neither does an integer just beyond 64 bits. -/
theorem json_round_trip_fields :
    let tagged (tag : Value) : Value := .record [("tag", tag)]
    let limited (limit : Int) : Json := .object [("limit", .integer limit)]
    (tagged (.text "<a/>")).viaJson = tagged (.text "<a/>") ∧
      (tagged (.markup "<a/>")).viaJson ≠ tagged (.markup "<a/>") ∧
      (Value.ofJson (limited (2 ^ 63 - 1))).toJson = limited (2 ^ 63 - 1) ∧
      (Value.ofJson (limited (2 ^ 63))).toJson ≠ limited (2 ^ 63) := by
  intro tagged limited
  have inTagged {property : Value → Prop} (tag : Value) (bare : tag.children = []) :
      Throughout Value.children property (tagged tag) ↔ property (tagged tag) ∧ property tag := by
    rw [throughout_iff]
    exact and_congr_right' (List.forall_mem_singleton.trans (throughout_leaf_iff bare))
  have inLimited {property : Json → Prop} (limit : Int) :
      Throughout Json.children property (limited limit) ↔
        property (limited limit) ∧ property (.integer limit) := by
    rw [throughout_iff]
    exact and_congr_right' (List.forall_mem_singleton.trans (throughout_leaf_iff rfl))
  have distinct (tag : Value) : (tagged tag).HasDistinctNames := List.nodup_singleton "tag"
  have wellFormed (limit : Int) : Throughout Json.children Json.IsWellFormed (limited limit) :=
    (inLimited limit).mpr ⟨List.nodup_singleton "limit", trivial⟩
  obtain ⟨-, ofValue, ofJson⟩ := json_round_trip
  refine ⟨?_, ?_, ?_, ?_⟩
  · apply (ofValue _ ((inTagged (.text "<a/>") rfl).mpr ⟨distinct _, trivial⟩)).mpr
    exact (inTagged (.text "<a/>") rfl).mpr ⟨trivial, trivial⟩
  · apply mt (ofValue _ ((inTagged (.markup "<a/>") rfl).mpr ⟨distinct _, trivial⟩)).mp
    exact fun plain => ((inTagged (.markup "<a/>") rfl).mp plain).2
  · apply (ofJson _ (wellFormed _)).mpr
    exact (inLimited _).mpr ⟨trivial, by decide, by decide⟩
  · apply mt (ofJson _ (wellFormed _)).mp
    intro fits
    exact absurd ((inLimited _).mp fits).2.2 (by decide)

end XmlRecords
