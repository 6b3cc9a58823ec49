import Mathlib.Data.List.Forall2
import XmlRecords.XPath.Evaluation

/-! # Values and errors

What a computation that can fail gives, in terms of what its parts give: when it has a value, and
when it has none. Two computations agree if they give the same value, or fail both; which of several
errors is met first is then left open. Where it matters, it is the fault of the first member of a
list that has one (`Outcome.FirstFault`).
-/

namespace XmlRecords

namespace Outcome

variable {α β ε δ : Type}

@[simp]
theorem pure_eq_ok {value other : α} : (pure value : Except ε α) = .ok other ↔ value = other :=
  Except.ok.injEq value other ▸ Iff.rfl

@[simp]
theorem bind_eq_ok {first : Except ε α} {next : α → Except ε β} {value : β} :
    (first >>= next) = .ok value ↔ ∃ middle, first = .ok middle ∧ next middle = .ok value := by
  cases first with
  | error cause => simp only [bind, Except.bind, reduceCtorEq, false_and, exists_false]
  | ok middle => simp only [bind, Except.bind, Except.ok.injEq, exists_eq_left']

@[simp]
theorem mapError_eq_ok {outcome : Except ε α} {change : ε → δ} {value : α} :
    outcome.mapError change = .ok value ↔ outcome = .ok value := by
  cases outcome with
  | ok _ =>
      constructor
      · rintro ⟨⟩
        rfl
      · rintro ⟨⟩
        rfl
  | error _ => constructor <;> rintro ⟨⟩

theorem bind_eq_error {first : Except ε α} {next : α → Except ε β} {cause : ε} :
    (first >>= next) = .error cause ↔
      first = .error cause ∨ ∃ middle, first = .ok middle ∧ next middle = .error cause := by
  cases first with
  | error other => simp only [bind, Except.bind, Except.error.injEq, reduceCtorEq, false_and,
      exists_false, or_false]
  | ok middle => simp only [bind, Except.bind, reduceCtorEq, Except.ok.injEq, exists_eq_left',
      false_or]

/-- The members of a list give values one after another if each of them gives one. -/
theorem mapM_eq_ok_iff {find : α → Except ε β} {members : List α} {values : List β} :
    members.mapM find = .ok values ↔
      List.Forall₂ (fun member value => find member = .ok value) members values := by
  induction members generalizing values with
  | nil => rw [List.mapM_nil, pure_eq_ok, List.forall₂_nil_left_iff, eq_comm]
  | cons member members ih =>
      simp only [List.mapM_cons, bind_eq_ok, pure_eq_ok, ih, List.forall₂_cons_left_iff]
      constructor
      · rintro ⟨value, here, others, there, rfl⟩
        exact ⟨value, others, here, there, rfl⟩
      · rintro ⟨value, others, here, there, rfl⟩
        exact ⟨value, here, others, there, rfl⟩

theorem exists_related {related : α → β → Prop} {members : List α} {values : List β}
    (all : List.Forall₂ related members values) {value : β} (present : value ∈ values) :
    ∃ member ∈ members, related member value := by
  induction all with
  | nil => cases present
  | cons here _ ih =>
      rcases List.mem_cons.mp present with rfl | present
      · exact ⟨_, List.mem_cons_self, here⟩
      · obtain ⟨member, inMembers, there⟩ := ih present
        exact ⟨member, List.mem_cons_of_mem _ inMembers, there⟩

/-- Of the members of a list the first one that fails decides the error. -/
theorem mapM_eq_error_iff {find : α → Except ε β} {members : List α} {cause : ε} :
    members.mapM find = .error cause ↔
      ∃ before member behind, members = before ++ member :: behind ∧
        (∀ earlier ∈ before, ∃ value, find earlier = .ok value) ∧ find member = .error cause := by
  induction members with
  | nil =>
      refine ⟨nofun, ?_⟩
      rintro ⟨before, member, behind, split, -⟩
      cases before <;> cases split
  | cons first members ih =>
      simp only [List.mapM_cons, bind_eq_error, pure, Except.pure, reduceCtorEq, and_false,
        exists_false, or_false, ih]
      constructor
      · rintro (failed | ⟨value, here, before, member, behind, rfl, earlier, failed⟩)
        · exact ⟨[], first, members, rfl, nofun, failed⟩
        · exact ⟨first :: before, member, behind, rfl,
            List.forall_mem_cons.mpr ⟨⟨value, here⟩, earlier⟩, failed⟩
      · rintro ⟨before, member, behind, split, earlier, failed⟩
        cases before with
        | nil =>
            cases split
            exact .inl failed
        | cons other before =>
            cases split
            obtain ⟨⟨value, here⟩, earlier⟩ := List.forall_mem_cons.mp earlier
            exact .inr ⟨value, here, before, member, behind, rfl, earlier, failed⟩

theorem mapM_ok_iff {find : α → Except ε β} {members : List α} :
    (∃ values, members.mapM find = .ok values) ↔
      ∀ member ∈ members, ∃ value, find member = .ok value := by
  induction members with
  | nil => exact ⟨fun _ => nofun, fun _ => ⟨[], rfl⟩⟩
  | cons member members ih =>
      simp only [List.mapM_cons, bind_eq_ok, pure_eq_ok, List.forall_mem_cons, ← ih]
      constructor
      · rintro ⟨_, value, here, others, there, _⟩
        exact ⟨⟨value, here⟩, others, there⟩
      · rintro ⟨⟨value, here⟩, others, there⟩
        exact ⟨value :: others, value, here, others, there, rfl⟩

/-- A computation fails exactly if it has no value. -/
theorem eq_error_iff {outcome : Except ε α} :
    (∃ cause, outcome = .error cause) ↔ ¬∃ value, outcome = .ok value := by
  cases outcome <;> simp

/-- Two computations give the same value, or fail both, if each value of one is one of the other. -/
theorem toOption_eq_iff {first : Except ε α} {second : Except δ α} :
    first.toOption = second.toOption ↔ ∀ value, first = .ok value ↔ second = .ok value := by
  cases first with
  | error cause => cases second <;> simp [Except.toOption]
  | ok value =>
      cases second with
      | error cause => simp [Except.toOption]
      | ok other =>
          simp only [Except.toOption, Option.some.injEq, Except.ok.injEq]
          exact ⟨fun same _ => same ▸ Iff.rfl, fun same => ((same value).mp rfl).symm⟩

/-- Two computations agree if they have values together, and these are the same. -/
theorem toOption_eq_of_agree {first : Except ε α} {second : Except δ α}
    (together : (∃ value, first = .ok value) ↔ ∃ value, second = .ok value)
    (same : ∀ value other, first = .ok value → second = .ok other → value = other) :
    first.toOption = second.toOption := by
  refine toOption_eq_iff.mpr fun value => ⟨fun here => ?_, fun there => ?_⟩
  · obtain ⟨other, there⟩ := together.mp ⟨value, here⟩
    rw [there, same value other here there]
  · obtain ⟨other, here⟩ := together.mpr ⟨value, there⟩
    rw [here, same other value here there]

/-- Computations that agree still agree when both go on in the same way. -/
theorem toOption_bind_congr {first : Except ε α} {second : Except δ α}
    (agree : first.toOption = second.toOption) {next : α → Except ε β} {other : α → Except δ β}
    (onward : ∀ value, (next value).toOption = (other value).toOption) :
    (first >>= next).toOption = (second >>= other).toOption := by
  refine toOption_eq_iff.mpr fun value => ?_
  simp only [bind_eq_ok, toOption_eq_iff.mp agree]
  exact exists_congr fun middle => and_congr_right fun _ =>
    toOption_eq_iff.mp (onward middle) value

theorem toOption_mapError {outcome : Except ε α} {change : ε → δ} :
    (outcome.mapError change).toOption = outcome.toOption := by
  cases outcome <;> rfl

section Refines

variable {first second : Except ε α}

/-- The second computation gives the value that the first one gives, if it gives one. -/
def Refines (first second : Except ε α) : Prop :=
  ∀ value, first = .ok value → second = .ok value

theorem refines_refl : Refines first first :=
  fun _ => id

theorem Refines.bind (refines : Refines first second) {next other : α → Except ε β}
    (onward : ∀ value, Refines (next value) (other value)) :
    Refines (first >>= next) (second >>= other) := by
  intro value evaluated
  obtain ⟨middle, here, there⟩ := bind_eq_ok.mp evaluated
  exact bind_eq_ok.mpr ⟨middle, refines middle here, onward middle value there⟩

/-- If the second computation fails, so does the first one. -/
theorem Refines.exists_error (refines : Refines first second)
    (failed : ∃ cause, second = .error cause) : ∃ cause, first = .error cause := by
  rw [eq_error_iff] at failed ⊢
  rintro ⟨value, here⟩
  exact failed ⟨value, refines value here⟩

end Refines

section FirstFault

variable {sound : List α → α → Prop} {fault : List α → α → ε → Prop}

/-- The error is that of the first member of a list that has a fault. Whether a member is sound, and
which fault it has, can depend on the members before it. -/
def FirstFault (sound : List α → α → Prop) (fault : List α → α → ε → Prop) (members : List α)
    (cause : ε) : Prop :=
  ∃ before member behind, members = before ++ member :: behind ∧
    (∀ prior earlier others, before = prior ++ earlier :: others → sound prior earlier) ∧
    fault before member cause

theorem not_firstFault_nil {cause : ε} : ¬FirstFault sound fault [] cause := by
  rintro ⟨before, member, behind, split, -⟩
  cases before <;> cases split

theorem firstFault_cons_iff {member : α} {members : List α} {cause : ε} :
    FirstFault sound fault (member :: members) cause ↔
      fault [] member cause ∨ (sound [] member ∧
        FirstFault (fun prior => sound (member :: prior)) (fun prior => fault (member :: prior))
          members cause) := by
  constructor
  · rintro ⟨before, faulty, behind, split, earlier, failed⟩
    cases before with
    | nil =>
        cases split
        exact .inl failed
    | cons first before =>
        cases split
        refine .inr ⟨earlier [] member before rfl, before, faulty, behind, rfl, ?_, failed⟩
        intro prior other others split
        exact earlier (member :: prior) other others (congrArg (member :: ·) split)
  · rintro (failed | ⟨here, before, faulty, behind, rfl, earlier, failed⟩)
    · refine ⟨[], member, members, rfl, ?_, failed⟩
      intro prior other others split
      cases prior <;> cases split
    · refine ⟨member :: before, faulty, behind, rfl, ?_, failed⟩
      intro prior other others split
      cases prior with
      | nil =>
          cases split
          exact here
      | cons first prior =>
          cases split
          exact earlier prior other others rfl

/-- The first fault is the same in two lists whose members are sound together and have the same
faults, one by one. -/
theorem firstFault_congr {related : α → β → Prop} {sound' : List β → β → Prop}
    {fault' : List β → β → ε → Prop} {members : List α} {others : List β} {cause : ε}
    (all : List.Forall₂ related members others)
    (sounds : ∀ prior prior' member other, List.Forall₂ related prior prior' →
      related member other → (sound prior member ↔ sound' prior' other))
    (faults : ∀ prior prior' member other, List.Forall₂ related prior prior' →
      related member other → (fault prior member cause ↔ fault' prior' other cause)) :
    FirstFault sound fault members cause ↔ FirstFault sound' fault' others cause := by
  induction all generalizing sound fault sound' fault' with
  | nil => exact iff_of_false not_firstFault_nil not_firstFault_nil
  | @cons member other members others here _ ih =>
      rw [firstFault_cons_iff, firstFault_cons_iff, sounds [] [] member other .nil here,
        faults [] [] member other .nil here]
      refine or_congr_right (and_congr_right fun _ => ih ?_ ?_)
      · exact fun prior prior' member other before =>
          sounds _ _ member other (.cons here before)
      · exact fun prior prior' member other before =>
          faults _ _ member other (.cons here before)

end FirstFault

end Outcome

namespace XPath

variable {α β ε : Type} {find : α → Except ε (List β)}

theorem collect_map {γ : Type} (change : γ → α) (values : List γ) :
    collect find (values.map change) = collect (fun value => find (change value)) values := by
  induction values with
  | nil => rfl
  | cons value values ih => rw [List.map_cons, collect, collect, ih]

theorem collect_congr {other : α → Except ε (List β)} {values : List α}
    (same : ∀ value ∈ values, find value = other value) :
    collect find values = collect other values := by
  induction values with
  | nil => rfl
  | cons value values ih =>
      obtain ⟨here, behind⟩ := List.forall_mem_cons.mp same
      rw [collect, collect, here, ih behind]

/-- Lists are found one after another, and joined if all are there. -/
theorem collect_eq_mapM (find : α → Except ε (List β)) (values : List α) :
    collect find values = values.mapM find >>= fun parts => pure parts.flatten := by
  induction values with
  | nil => rfl
  | cons value values ih =>
      rw [collect, ih, List.mapM_cons]
      simp only [bind_assoc, pure_bind, List.flatten_cons]

/-- Lists are joined to a list if each of them is there. -/
theorem collect_ok_iff {values : List α} :
    (∃ found, collect find values = .ok found) ↔
      ∀ value ∈ values, ∃ part, find value = .ok part := by
  rw [← Outcome.mapM_ok_iff]
  simp only [collect_eq_mapM, Outcome.bind_eq_ok, Outcome.pure_eq_ok]
  constructor
  · rintro ⟨_, parts, each, _⟩
    exact ⟨parts, each⟩
  · rintro ⟨parts, each⟩
    exact ⟨parts.flatten, parts, each, rfl⟩

theorem collect_eq_error_iff {values : List α} {cause : ε} :
    collect find values = .error cause ↔
      ∃ before value behind, values = before ++ value :: behind ∧
        (∀ earlier ∈ before, ∃ part, find earlier = .ok part) ∧ find value = .error cause := by
  rw [collect_eq_mapM, Outcome.bind_eq_error, ← Outcome.mapM_eq_error_iff]
  simp only [pure, Except.pure, reduceCtorEq, and_false, exists_false, or_false]

/-- Of the members of a list, each with a number, those are collected that are chosen. -/
theorem collect_eq_filter {find : α × Nat → Except ε (List α)} (chosen : α × Nat → Bool)
    {entries : List (α × Nat)}
    (each : ∀ entry ∈ entries, find entry = .ok (if chosen entry then [entry.1] else [])) :
    collect find entries = .ok ((entries.filter chosen).map Prod.fst) := by
  induction entries with
  | nil => rfl
  | cons entry entries ih =>
      obtain ⟨here, behind⟩ := List.forall_mem_cons.mp each
      rw [collect, here, ih behind]
      by_cases chosenHere : chosen entry = true
      · rw [List.filter_cons_of_pos chosenHere, if_pos chosenHere]
        rfl
      · rw [List.filter_cons_of_neg chosenHere, if_neg chosenHere]
        rfl

theorem mem_of_collect {values : List α} {found : List β}
    (collected : collect find values = .ok found) {target : β} :
    target ∈ found ↔ ∃ value ∈ values, ∃ part, find value = .ok part ∧ target ∈ part := by
  induction values generalizing found with
  | nil =>
      cases collected
      simp only [List.not_mem_nil, false_and, exists_false]
  | cons value values ih =>
      simp only [collect, Outcome.bind_eq_ok, Outcome.pure_eq_ok] at collected
      obtain ⟨part, here, others, there, rfl⟩ := collected
      simp only [List.mem_append, ih there, List.mem_cons, or_and_right, exists_or, exists_eq_left,
        here, Except.ok.injEq, exists_eq_left']

theorem refines_collect {other : α → Except ε (List β)}
    (each : ∀ value, Outcome.Refines (find value) (other value)) (values : List α) :
    Outcome.Refines (collect find values) (collect other values) := by
  induction values with
  | nil => exact Outcome.refines_refl
  | cons value values ih =>
      apply (each value).bind
      intro found
      apply ih.bind
      intro others
      exact Outcome.refines_refl

end XPath

end XmlRecords
