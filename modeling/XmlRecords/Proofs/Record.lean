import Mathlib.Data.List.Nodup
import XmlRecords.Record

/-! # Records with distinct names

As long as each name is given a value once, a record is the list of what has been put into it, and a
name is looked up by looking for its pair. The names of a record are distinct whatever is put into
it.
-/

namespace XmlRecords

/-- A list stays as it is just if each of its items does. -/
theorem map_eq_self_iff {α : Type} {change : α → α} {items : List α} :
    items.map change = items ↔ ∀ item ∈ items, change item = item := by
  conv_lhs => rhs; rw [← List.map_id items]
  exact List.map_inj_left

namespace Record

variable {α : Type} {record pairs : Record α} {name other : String} {value : α}

theorem names_append (first second : Record α) : names (first ++ second) =
    names first ++ names second :=
  List.map_append

/-- A name that stands behind others is none of them if all are distinct. -/
theorem not_mem_of_nodup {names behind : List String} (distinct : (names ++ name :: behind).Nodup) :
    name ∉ names := by
  intro present
  exact List.disjoint_of_nodup_append distinct present List.mem_cons_self

/-- A new name is put at the end. -/
theorem insert_of_not_mem (absent : name ∉ record.names) :
    insert name value record = record ++ [(name, value)] := by
  induction record with
  | nil => rfl
  | cons pair record ih =>
      rw [names, List.map_cons, List.mem_cons, not_or] at absent
      rw [insert, if_neg (Ne.symm absent.1), ih absent.2, List.cons_append]

/-- Pairs with new and distinct names are put at the end, in their order. -/
theorem insertAll_eq_append (distinct : (names (record ++ pairs)).Nodup) :
    insertAll record pairs = record ++ pairs := by
  induction pairs generalizing record with
  | nil => exact (List.append_nil record).symm
  | cons pair pairs ih =>
      have absent : pair.1 ∉ record.names := by
        rw [names_append] at distinct
        exact not_mem_of_nodup distinct
      rw [List.append_cons] at distinct ⊢
      rw [insertAll, insert_of_not_mem absent]
      exact ih distinct

/-- A list of pairs with distinct names is a record as it is. -/
theorem ofList_eq (distinct : (names pairs).Nodup) : ofList pairs = pairs :=
  insertAll_eq_append distinct

section Putting

variable {pair : String × α}

/-- Nothing gets into a record but the new pair. -/
theorem mem_of_mem_insert (member : pair ∈ insert name value record) :
    pair = (name, value) ∨ pair ∈ record := by
  induction record with
  | nil => exact .inl (List.mem_singleton.mp member)
  | cons first record ih =>
      rw [insert] at member
      split at member
      · exact (List.mem_cons.mp member).imp_right (List.mem_cons_of_mem first)
      · rcases List.mem_cons.mp member with rfl | later
        · exact .inr List.mem_cons_self
        · exact (ih later).imp_right (List.mem_cons_of_mem first)

theorem mem_of_mem_insertAll (member : pair ∈ insertAll record pairs) :
    pair ∈ pairs ∨ pair ∈ record := by
  induction pairs generalizing record with
  | nil => exact .inr member
  | cons first pairs ih =>
      rcases ih member with later | present
      · exact .inl (List.mem_cons_of_mem first later)
      · rcases mem_of_mem_insert present with rfl | older
        · exact .inl List.mem_cons_self
        · exact .inr older

/-- A record has no pairs that have not been put into it. -/
theorem mem_of_mem_ofList (member : pair ∈ ofList pairs) : pair ∈ pairs :=
  (mem_of_mem_insertAll member).resolve_right List.not_mem_nil

/-- A name that is there already keeps its place, so no name comes twice. -/
theorem nodup_insert (distinct : record.names.Nodup) :
    (names (insert name value record)).Nodup := by
  induction record with
  | nil => exact List.nodup_singleton name
  | cons first record ih =>
      obtain ⟨fresh, distinct⟩ := List.nodup_cons.mp distinct
      rw [insert]
      by_cases same : first.1 = name
      · rw [if_pos same]
        exact List.nodup_cons.mpr ⟨same ▸ fresh, distinct⟩
      · rw [if_neg same]
        refine List.nodup_cons.mpr ⟨?_, ih distinct⟩
        intro present
        obtain ⟨pair, member, named⟩ := List.mem_map.mp present
        rcases mem_of_mem_insert member with rfl | older
        · exact same named.symm
        · exact fresh (named ▸ List.mem_map_of_mem older)

theorem nodup_insertAll (distinct : record.names.Nodup) :
    (names (insertAll record pairs)).Nodup := by
  induction pairs generalizing record with
  | nil => exact distinct
  | cons first pairs ih => exact ih (nodup_insert distinct)

/-- Whatever is put into a record, its names are distinct. -/
theorem nodup_ofList (pairs : Record α) : (names (ofList pairs)).Nodup :=
  nodup_insertAll List.nodup_nil

/-- Putting pairs into a record changes nothing just if their names are distinct. -/
theorem ofList_eq_iff (sameNames : pairs.names = record.names) :
    ofList pairs = record ↔ record.names.Nodup ∧ pairs = record := by
  constructor
  · rintro rfl
    have distinct := nodup_ofList pairs
    exact ⟨distinct, (ofList_eq (sameNames ▸ distinct)).symm⟩
  · rintro ⟨distinct, rfl⟩
    exact ofList_eq distinct

end Putting

/-- A name of the record has a value. -/
theorem exists_get? (present : name ∈ record.names) : ∃ value, get? name record = some value := by
  induction record with
  | nil => cases present
  | cons pair record ih =>
      rw [get?]
      by_cases same : pair.1 = name
      · exact ⟨pair.2, if_pos same⟩
      · rw [if_neg same]
        exact ih ((List.mem_cons.mp present).resolve_left (Ne.symm same))

theorem mem_names_of_mem (member : (name, value) ∈ record) : name ∈ record.names :=
  List.mem_map_of_mem member

/-- With distinct names, looking a name up finds its only pair. The induction is along the record,
where the name is either that of the first pair or not. -/
theorem get?_eq_some_iff (distinct : record.names.Nodup) :
    get? name record = some value ↔ (name, value) ∈ record := by
  induction record with
  | nil => exact ⟨nofun, nofun⟩
  | cons pair record ih =>
      obtain ⟨first, held⟩ := pair
      obtain ⟨fresh, distinct⟩ := List.nodup_cons.mp distinct
      rw [get?, List.mem_cons, Prod.mk.injEq]
      by_cases same : first = name
      · subst same
        rw [if_pos rfl, Option.some.injEq]
        constructor
        · exact fun held => .inl ⟨rfl, held.symm⟩
        · exact fun found => found.elim (fun here => here.2.symm) fun there =>
            absurd (mem_names_of_mem there) fresh
      · rw [if_neg same, ih distinct]
        constructor
        · exact .inr
        · exact fun found => found.resolve_left fun here => same here.1.symm

/-- Taking a name out leaves the values of the others. -/
theorem get?_remove_of_ne (different : other ≠ name) :
    get? other (remove name record) = get? other record := by
  induction record with
  | nil => rfl
  | cons pair record ih =>
      rw [remove]
      by_cases same : pair.1 = name
      · rw [if_pos same, get?, if_neg (fun found => different (found.symm.trans same))]
      · rw [if_neg same, get?, get?, ih]

/-- The first value of a name is the one that is found. -/
theorem get?_append_of_some (found : get? name record = some value) (more : Record α) :
    get? name (record ++ more) = some value := by
  induction record with
  | nil => cases found
  | cons pair record ih =>
      rw [get?] at found
      rw [List.cons_append, get?]
      split at found
      · rwa [if_pos ‹_›]
      · rw [if_neg ‹_›]
        exact ih found

/-- Names that are kept have the values that they had. -/
theorem get?_filter_of_mem {names : List String} (listed : name ∈ names) (record : Record α) :
    get? name (record.filter fun pair => decide (pair.1 ∈ names)) = get? name record := by
  induction record with
  | nil => rfl
  | cons pair record ih =>
      rw [List.filter_cons, get?]
      by_cases same : pair.1 = name
      · rw [if_pos (decide_eq_true (same ▸ listed)), get?, if_pos same, if_pos same]
      · rw [if_neg same, ← ih]
        split
        · rw [get?, if_neg same]
        · rfl

section Values

variable {β γ : Type}

/-- Changes the values of a record. -/
def mapValues (change : α → β) (record : Record α) : Record β :=
  record.map (Prod.map id change)

theorem names_mapValues (change : α → β) (record : Record α) :
    names (mapValues change record) = names record := by
  rw [names, mapValues, List.map_map]
  rfl

theorem mapValues_mapValues (first : α → β) (second : β → γ) (record : Record α) :
    mapValues second (mapValues first record) = mapValues (second ∘ first) record := by
  rw [mapValues, mapValues, List.map_map, Prod.map_comp_map]
  rfl

/-- Changing the values leaves a record as it is just if it leaves each value. -/
theorem mapValues_eq_self_iff {change : α → α} :
    mapValues change record = record ↔ ∀ value ∈ record.map Prod.snd, change value = value := by
  rw [mapValues, map_eq_self_iff, List.forall_mem_map]
  apply forall₂_congr
  intro pair member
  rw [Prod.ext_iff]
  exact and_iff_right rfl

/-- A value may be changed before it is put into the record, since it is put there by its name. -/
theorem mapValues_insert (change : α → β) (name : String) (value : α) (record : Record α) :
    mapValues change (insert name value record) =
      insert name (change value) (mapValues change record) := by
  induction record with
  | nil => rfl
  | cons pair record ih =>
      rw [insert]
      change _ = insert name (change value) ((pair.1, change pair.2) :: mapValues change record)
      rw [insert]
      split
      · rfl
      · rw [← ih]
        rfl

theorem mapValues_insertAll (change : α → β) (record pairs : Record α) :
    mapValues change (insertAll record pairs) =
      insertAll (mapValues change record) (mapValues change pairs) := by
  induction pairs generalizing record with
  | nil => rfl
  | cons pair pairs ih =>
      rw [insertAll, ih, mapValues_insert]
      rfl

/-- Values may be changed before they are put into a record, or in the record. -/
theorem mapValues_ofList (change : α → β) (pairs : Record α) :
    mapValues change (ofList pairs) = ofList (mapValues change pairs) :=
  mapValues_insertAll change [] pairs

end Values

end Record

end XmlRecords
