import Mathlib.Data.Finset.Card
import XmlRecords.Proofs.Record

/-! # Records under a history of changes

A record is built up by giving values to names and taking names out, in any order. What it holds in
the end is told by the history alone: a name is there if the last change to it gave it a value, with
that value, and the names stand in the order of their arrival. A name arrives when it is given a
value for the first time since it was last taken out (`Record.Arrives`).
-/

namespace XmlRecords

namespace Record

variable {α : Type}

/-- A change to a record. -/
inductive Change (α : Type) where
  | insert (name : String) (value : α)
  | remove (name : String)

namespace Change

/-- The name that is changed. -/
def name : Change α → String
  | insert name _ => name
  | remove name => name

/-- Makes the change. -/
def apply : Change α → Record α → Record α
  | insert name value, record => Record.insert name value record
  | remove name, record => Record.remove name record

/-- Makes changes one after another. -/
def applyAll (record : Record α) (changes : List (Change α)) : Record α :=
  changes.foldl (fun record change => change.apply record) record

/-- The record that is left by a history, which begins with the empty record. -/
def run (changes : List (Change α)) : Record α :=
  applyAll [] changes

end Change

section Steps

variable {record : Record α} {name other : String} {value : α}

/-- A value is replaced in its place. -/
theorem names_insert_of_mem (present : name ∈ record.names) :
    names (insert name value record) = record.names := by
  induction record with
  | nil => cases present
  | cons pair record ih =>
      rw [insert]
      by_cases same : pair.1 = name
      · rw [if_pos same, names, names, List.map_cons, List.map_cons, same]
      · rw [if_neg same]
        exact congrArg (pair.1 :: ·) (ih ((List.mem_cons.mp present).resolve_left (Ne.symm same)))

/-- A new name is put behind the others. -/
theorem names_insert_of_not_mem (absent : name ∉ record.names) :
    names (insert name value record) = record.names ++ [name] := by
  rw [insert_of_not_mem absent, names_append]
  rfl

theorem mem_names_insert :
    other ∈ names (insert name value record) ↔ other = name ∨ other ∈ record.names := by
  by_cases present : name ∈ record.names
  · rw [names_insert_of_mem present]
    constructor
    · exact .inr
    · rintro (rfl | member)
      · exact present
      · exact member
  · rw [names_insert_of_not_mem present, List.mem_append, List.mem_singleton, or_comm]

/-- What stood behind a name moves up when it is taken out. -/
theorem names_remove (name : String) (record : Record α) :
    names (remove name record) = record.names.erase name := by
  induction record with
  | nil => rfl
  | cons pair record ih =>
      change names (if pair.1 = name then record else _) = (pair.1 :: names record).erase name
      by_cases same : pair.1 = name
      · rw [if_pos same, same, List.erase_cons_head]
      · rw [if_neg same, List.erase_cons_tail (by simpa using same)]
        exact congrArg (pair.1 :: ·) ih

theorem get?_insert_self (name : String) (value : α) (record : Record α) :
    get? name (insert name value record) = some value := by
  induction record with
  | nil => exact if_pos rfl
  | cons pair record ih =>
      rw [insert]
      by_cases same : pair.1 = name
      · rw [if_pos same, get?, if_pos rfl]
      · rw [if_neg same, get?, if_neg same, ih]

/-- Putting in a value leaves the values of the other names. -/
theorem get?_insert_of_ne (different : other ≠ name) :
    get? other (insert name value record) = get? other record := by
  induction record with
  | nil => exact if_neg (Ne.symm different)
  | cons pair record ih =>
      rw [insert]
      by_cases same : pair.1 = name
      · rw [if_pos same, get?, get?, if_neg (Ne.symm different), if_neg]
        exact fun found => different (found.symm.trans same)
      · rw [if_neg same, get?, get?, ih]

theorem get?_eq_none (absent : name ∉ record.names) : get? name record = none := by
  induction record with
  | nil => rfl
  | cons pair record ih =>
      rw [names, List.map_cons, List.mem_cons, not_or] at absent
      rw [get?, if_neg (Ne.symm absent.1), ih absent.2]

/-- A name is there if it has a value. -/
theorem contains_iff : contains name record = true ↔ name ∈ record.names := by
  rw [contains]
  constructor
  · intro found
    by_contra absent
    rw [get?_eq_none absent] at found
    cases found
  · intro present
    obtain ⟨value, found⟩ := exists_get? present
    rw [found]
    rfl

/-- A change leaves all names there but the one that it takes out. -/
theorem mem_names_apply {change : Change α} (kept : change ≠ .remove name)
    (present : name ∈ record.names) : name ∈ names (change.apply record) := by
  cases change with
  | insert other value => exact mem_names_insert.mpr (.inr present)
  | remove other =>
      have different : name ≠ other := fun same => kept (congrArg Change.remove same.symm)
      rw [Change.apply, names_remove, List.mem_erase_of_ne different]
      exact present

/-- No change puts a name in twice. -/
theorem nodup_apply (change : Change α) (distinct : record.names.Nodup) :
    (names (change.apply record)).Nodup := by
  cases change with
  | insert name value => exact nodup_insert distinct
  | remove name =>
      rw [Change.apply, names_remove]
      exact distinct.erase name

/-- A change to one name does not change the values of the others. -/
theorem get?_apply_of_ne {change : Change α} (different : change.name ≠ name) :
    get? name (change.apply record) = get? name record := by
  cases change with
  | insert other value => exact get?_insert_of_ne (Ne.symm different)
  | remove other => exact get?_remove_of_ne (Ne.symm different)

end Steps

section History

variable {changes : List (Change α)} {change : Change α} {name : String} {value : α} {index : Nat}

/-- The last change to the name gave it this value. -/
def IsLastGiven (changes : List (Change α)) (name : String) (value : α) : Prop :=
  ∃ before after, changes = before ++ .insert name value :: after ∧
    ∀ later ∈ after, later.name ≠ name

/-- The name was given a value at this place of the history, it has not been taken out since then,
and wherever it was given a value before, it was taken out again before this place. -/
def Arrives (changes : List (Change α)) (name : String) (index : Nat) : Prop :=
  ∃ before value after, changes = before ++ .insert name value :: after ∧ before.length = index ∧
    .remove name ∉ after ∧
    ∀ early old late, before = early ++ .insert name old :: late → .remove name ∈ late

/-- The last change is made to what the others have left. -/
theorem run_concat (changes : List (Change α)) (change : Change α) :
    Change.run (changes ++ [change]) = change.apply (Change.run changes) :=
  List.foldl_append

/-- The names are distinct after every history, by induction on its last change. -/
theorem nodup_run (changes : List (Change α)) : (names (Change.run changes)).Nodup := by
  induction changes using List.reverseRecOn with
  | nil => exact List.nodup_nil
  | append_singleton changes change ih =>
      rw [run_concat]
      exact nodup_apply change ih

/-- The last change of a history is the one that is looked at, or it comes behind it. -/
theorem concat_eq_append_cons_iff {before after : List (Change α)} {here : Change α} :
    changes ++ [change] = before ++ here :: after ↔
      (after = [] ∧ changes = before ∧ change = here) ∨
        ∃ rest, after = rest ++ [change] ∧ changes = before ++ here :: rest := by
  constructor
  · intro parts
    rcases List.eq_nil_or_concat' after with rfl | ⟨rest, last, rfl⟩
    · obtain ⟨same, last⟩ := List.append_inj' parts rfl
      exact .inl ⟨rfl, same, (List.cons.inj last).1⟩
    · rw [← List.cons_append, ← List.append_assoc] at parts
      obtain ⟨same, last⟩ := List.append_inj' parts rfl
      exact .inr ⟨rest, congrArg (rest ++ ·) last.symm, same⟩
  · rintro (⟨rfl, rfl, rfl⟩ | ⟨rest, rfl, rfl⟩)
    · rfl
    · rw [List.append_assoc, List.cons_append]

/-- A change to another name does not count. -/
theorem isLastGiven_concat_of_ne (different : change.name ≠ name) :
    IsLastGiven (changes ++ [change]) name value ↔ IsLastGiven changes name value := by
  simp only [IsLastGiven, concat_eq_append_cons_iff]
  constructor
  · rintro ⟨before, after, ⟨-, -, rfl⟩ | ⟨rest, rfl, rfl⟩, others⟩
    · exact absurd rfl different
    · exact ⟨before, rest, rfl, (List.forall_mem_append.mp others).1⟩
  · rintro ⟨before, after, rfl, others⟩
    refine ⟨before, after ++ [change], .inr ⟨after, rfl, rfl⟩, ?_⟩
    exact List.forall_mem_append.mpr ⟨others, List.forall_mem_singleton.mpr different⟩

/-- A change to the name is its last one. -/
theorem isLastGiven_concat_of_eq (same : change.name = name) :
    IsLastGiven (changes ++ [change]) name value ↔ change = .insert name value := by
  simp only [IsLastGiven, concat_eq_append_cons_iff]
  constructor
  · rintro ⟨before, after, ⟨-, -, given⟩ | ⟨rest, rfl, rfl⟩, others⟩
    · exact given
    · exact absurd same (others change (List.mem_append_right _ List.mem_cons_self))
  · rintro rfl
    exact ⟨changes, [], .inl ⟨rfl, rfl, rfl⟩, List.forall_mem_nil _⟩

/-- A name has the value that the last change to it gave it, if that change gave it one. -/
theorem get?_run_eq_some_iff :
    get? name (Change.run changes) = some value ↔ IsLastGiven changes name value := by
  induction changes using List.reverseRecOn with
  | nil =>
      constructor
      · exact nofun
      · rintro ⟨before, after, parts, -⟩
        simp at parts
  | append_singleton changes change ih =>
      rw [run_concat]
      by_cases same : change.name = name
      · rw [isLastGiven_concat_of_eq same]
        cases change with
        | insert other given =>
            obtain rfl : other = name := same
            rw [Change.apply, get?_insert_self, Option.some.injEq, Change.insert.injEq]
            exact (and_iff_right rfl).symm
        | remove other =>
            obtain rfl : other = name := same
            have absent : other ∉ names (Change.run changes |>.remove other) := by
              rw [names_remove]
              exact (nodup_run changes).not_mem_erase
            rw [Change.apply, get?_eq_none absent]
            exact ⟨nofun, nofun⟩
      · rw [get?_apply_of_ne same, isLastGiven_concat_of_ne same, ih]

theorem mem_names_applyAll {record : Record α} (kept : .remove name ∉ changes)
    (present : name ∈ record.names) : name ∈ names (Change.applyAll record changes) := by
  induction changes generalizing record with
  | nil => exact present
  | cons change changes ih =>
      rw [List.mem_cons, not_or] at kept
      exact ih kept.2 (mem_names_apply (Ne.symm kept.1) present)

/-- A name that has been given a value and has not been taken out since then is there. -/
theorem mem_names_run {before after : List (Change α)} (kept : .remove name ∉ after) :
    name ∈ names (Change.run (before ++ .insert name value :: after)) := by
  rw [Change.run, Change.applyAll, List.foldl_append, List.foldl_cons]
  exact mem_names_applyAll kept (mem_names_insert.mpr (.inl rfl))

namespace Arrives

theorem lt_length (arrives : Arrives changes name index) : index < changes.length := by
  obtain ⟨before, value, after, rfl, rfl, -, -⟩ := arrives
  rw [List.length_append, List.length_cons]
  omega

/-- An arrival stays the same until the name is taken out. -/
theorem concat (arrives : Arrives changes name index) (kept : change ≠ .remove name) :
    Arrives (changes ++ [change]) name index := by
  obtain ⟨before, value, after, rfl, place, keptBefore, first⟩ := arrives
  refine ⟨before, value, after ++ [change], by simp, place, ?_, first⟩
  rw [List.mem_append, List.mem_singleton, not_or]
  exact ⟨keptBefore, Ne.symm kept⟩

/-- A name that is not there arrives when it is given a value. -/
theorem of_not_mem (absent : name ∉ names (Change.run changes)) (value : α) :
    Arrives (changes ++ [.insert name value]) name changes.length := by
  refine ⟨changes, value, [], rfl, rfl, List.not_mem_nil, ?_⟩
  rintro early old late rfl
  by_contra kept
  exact absent (mem_names_run kept)

/-- A name that is there has arrived at one place only. -/
theorem index_le {other : Nat} (arrives : Arrives changes name index)
    (again : Arrives changes name other) : index ≤ other := by
  obtain ⟨before, value, after, rfl, rfl, -, first⟩ := arrives
  obtain ⟨front, given, behind, parts, rfl, kept, -⟩ := again
  by_contra less
  -- The earlier of two places would be followed by a removal before the later one.
  rcases List.append_eq_append_iff.mp parts with ⟨more, rfl, -⟩ | ⟨more, rfl, rest⟩
  · rw [List.length_append] at less
    omega
  · cases more with
    | nil =>
        rw [List.append_nil] at less
        omega
    | cons change more =>
        obtain ⟨rfl, rfl⟩ := List.cons.inj rest
        exact kept (List.mem_append_left _ (first front given more rfl))

/-- A name arrives once. -/
theorem unique {other : Nat} (arrives : Arrives changes name index)
    (again : Arrives changes name other) : index = other :=
  Nat.le_antisymm (arrives.index_le again) (again.index_le arrives)

end Arrives

/-- Of two names that are there, the first one arrived first. -/
def InOrderOfArrival (changes : List (Change α)) (names : List String) : Prop :=
  names.Pairwise fun first second =>
    ∃ index later, Arrives changes first index ∧ Arrives changes second later ∧ index < later

/-- One more change keeps the order of arrival. -/
theorem inOrderOfArrival_concat (change : Change α)
    (each : ∀ name ∈ names (Change.run changes), ∃ index, Arrives changes name index)
    (ordered : InOrderOfArrival changes (names (Change.run changes))) :
    (∀ name ∈ names (Change.run (changes ++ [change])),
        ∃ index, Arrives (changes ++ [change]) name index) ∧
      InOrderOfArrival (changes ++ [change]) (names (Change.run (changes ++ [change]))) := by
  rw [run_concat]
  cases change with
  | insert name value =>
      have eachOnward : ∀ other ∈ names (Change.run changes),
          ∃ index, Arrives (changes ++ [.insert name value]) other index := fun other member =>
        (each other member).imp fun _ arrives => arrives.concat nofun
      have onward : InOrderOfArrival (changes ++ [.insert name value])
          (names (Change.run changes)) :=
        ordered.imp fun ⟨index, later, first, second, less⟩ =>
          ⟨index, later, first.concat nofun, second.concat nofun, less⟩
      by_cases present : name ∈ names (Change.run changes)
      · rw [Change.apply, names_insert_of_mem present]
        exact ⟨eachOnward, onward⟩
      · have last := Arrives.of_not_mem present value
        rw [Change.apply, names_insert_of_not_mem present]
        refine ⟨List.forall_mem_append.mpr ⟨eachOnward, ?_⟩, ?_⟩
        · exact List.forall_mem_singleton.mpr ⟨changes.length, last⟩
        · refine List.pairwise_append.mpr ⟨onward, List.pairwise_singleton _ _, ?_⟩
          intro other member second same
          obtain rfl := List.mem_singleton.mp same
          obtain ⟨index, arrives⟩ := each other member
          exact ⟨index, changes.length, arrives.concat nofun, last, arrives.lt_length⟩
  | remove name =>
      have kept : ∀ other ∈ (names (Change.run changes)).erase name,
          (Change.remove name : Change α) ≠ .remove other := by
        intro other member same
        exact ((nodup_run changes).mem_erase_iff.mp member).1 (Change.remove.inj same).symm
      rw [Change.apply, names_remove]
      constructor
      · intro other member
        obtain ⟨index, arrives⟩ := each other (List.mem_of_mem_erase member)
        exact ⟨index, arrives.concat (kept other member)⟩
      · refine (ordered.sublist List.erase_sublist).imp_of_mem ?_
        rintro first second onLeft onRight ⟨index, later, before, behind, less⟩
        exact ⟨index, later, before.concat (kept first onLeft), behind.concat (kept second onRight),
          less⟩

/-- After every history the names stand in the order of their arrival. The induction is on the last
change, which puts a name behind all others, or leaves them in their order. -/
theorem inOrderOfArrival_run (changes : List (Change α)) :
    (∀ name ∈ names (Change.run changes), ∃ index, Arrives changes name index) ∧
      InOrderOfArrival changes (names (Change.run changes)) := by
  induction changes using List.reverseRecOn with
  | nil => exact ⟨nofun, List.Pairwise.nil⟩
  | append_singleton changes change ih => exact inOrderOfArrival_concat change ih.1 ih.2

theorem insertAll_eq_applyAll (record pairs : Record α) :
    insertAll record pairs =
      Change.applyAll record (pairs.map fun pair => .insert pair.1 pair.2) := by
  induction pairs generalizing record with
  | nil => rfl
  | cons pair pairs ih => exact ih (insert pair.1 pair.2 record)

/-- What a record holds is told by its history. Its names are distinct, and a name is there if the
last change to it gave it a value, which it has then. The names stand in the order in which they
arrived, each of them once. Pairs that are put into a record at once are put into it one after
another. -/
theorem record_told_by_history (changes : List (Change α)) :
    (names (Change.run changes)).Nodup ∧
      (∀ name, name ∈ names (Change.run changes) ↔ ∃ value, IsLastGiven changes name value) ∧
      (∀ name value,
        get? name (Change.run changes) = some value ↔ IsLastGiven changes name value) ∧
      ((∀ name ∈ names (Change.run changes), ∃! index, Arrives changes name index) ∧
        InOrderOfArrival changes (names (Change.run changes))) ∧
      (∀ present : Finset String,
        (∀ name, name ∈ present ↔ ∃ value, IsLastGiven changes name value) →
          (Change.run changes).length = present.card) ∧
      (∀ name, contains name (Change.run changes) = true ↔
        ∃ value, IsLastGiven changes name value) ∧
      (∀ name value, (name, value) ∈ Change.run changes ↔ IsLastGiven changes name value) ∧
      ∀ pairs : Record α,
        ofList pairs = Change.run (pairs.map fun pair => .insert pair.1 pair.2) := by
  have distinct := nodup_run changes
  have presence (name : String) :
      name ∈ names (Change.run changes) ↔ ∃ value, IsLastGiven changes name value := by
    constructor
    · intro present
      obtain ⟨value, found⟩ := exists_get? present
      exact ⟨value, get?_run_eq_some_iff.mp found⟩
    · rintro ⟨value, given⟩
      exact mem_names_of_mem ((get?_eq_some_iff distinct).mp (get?_run_eq_some_iff.mpr given))
  obtain ⟨each, ordered⟩ := inOrderOfArrival_run changes
  refine ⟨distinct, presence, fun name value => get?_run_eq_some_iff, ⟨?_, ordered⟩, ?_, ?_, ?_,
    insertAll_eq_applyAll []⟩
  · intro name member
    obtain ⟨index, arrives⟩ := each name member
    exact ⟨index, arrives, fun other again => again.unique arrives⟩
  · intro present members
    have same : present = (names (Change.run changes)).toFinset := by
      ext name
      rw [members, List.mem_toFinset, presence]
    rw [same, List.toFinset_card_of_nodup distinct, names, List.length_map]
  · intro name
    rw [contains_iff, presence]
  · intro name value
    rw [← get?_eq_some_iff distinct, get?_run_eq_some_iff]

/-- A name that has been taken out comes last when it is given a value again. -/
example :
    Change.run [.insert "zeta" 1, .insert "alpha" 2, .insert "zeta" 3, .remove "zeta",
      .insert "zeta" 4] = [("alpha", 2), ("zeta", 4)] := by
  decide

end History

end Record

end XmlRecords
