import Mathlib.Data.List.Sort
import XmlRecords.Document.Address

/-! # Document order

Document order on addresses is a strict total order. A list in ascending order is determined by its
members, so that putting addresses into order (`Address.inOrder`) depends only on which addresses
there are, and leaves a list alone that is in order already.
-/

namespace XmlRecords

namespace Place

theorem precedes_irrefl (place : Place) : place.precedes place = false := by
  cases place <;> simp [precedes]

theorem precedes_trans {first second third : Place} (before : first.precedes second = true)
    (behind : second.precedes third = true) : first.precedes third = true := by
  cases first <;> cases second <;> cases third <;> simp only [precedes, decide_eq_true_eq,
    Bool.false_eq_true] at before behind ⊢
  · exact before.trans behind
  · exact before.trans behind

/-- Attributes come before children, and otherwise the index decides. -/
theorem precedes_or_precedes {first second : Place} (different : first ≠ second) :
    first.precedes second = true ∨ second.precedes first = true := by
  cases first <;> cases second <;> simp only [precedes, decide_eq_true_eq, ne_eq, attr.injEq,
    child.injEq, Bool.false_eq_true, or_false, or_true] at different ⊢
  · omega
  · omega

end Place

namespace Address

/-- An address is no proper prefix of itself, and nowhere turns aside. -/
theorem precedes_irrefl (address : Address) : address.precedes address = false := by
  induction address with
  | nil => rfl
  | cons place places ih => simpa only [precedes, ↓reduceIte] using ih

/-- Where the addresses first turn aside decides, by induction on the first of them. -/
theorem precedes_trans {first second third : Address} (before : first.precedes second = true)
    (behind : second.precedes third = true) : first.precedes third = true := by
  induction first generalizing second third with
  | nil =>
      cases third with
      | nil => cases second <;> simp [precedes] at behind
      | cons _ _ => rfl
  | cons place places ih =>
      cases second with
      | nil => simp [precedes] at before
      | cons second seconds =>
          cases third with
          | nil => simp [precedes] at behind
          | cons third thirds =>
              simp only [precedes] at before behind ⊢
              by_cases head : place = second
              · subst head
                by_cases next : place = third
                · subst next
                  simp only [↓reduceIte] at before behind ⊢
                  exact ih before behind
                · simpa only [next, ↓reduceIte] using behind
              · simp only [head, ↓reduceIte] at before
                by_cases next : second = third
                · subst next
                  simpa only [head, ↓reduceIte] using before
                · simp only [next, ↓reduceIte] at behind
                  have far := Place.precedes_trans before behind
                  have different : place ≠ third := by
                    rintro rfl
                    rw [Place.precedes_irrefl] at far
                    exact Bool.false_ne_true far
                  simpa only [different, ↓reduceIte] using far

/-- Of two different addresses, one comes before the other. -/
theorem precedes_or_precedes {first second : Address} (different : first ≠ second) :
    first.precedes second = true ∨ second.precedes first = true := by
  induction first generalizing second with
  | nil =>
      cases second with
      | nil => exact (different rfl).elim
      | cons _ _ => exact .inl rfl
  | cons place places ih =>
      cases second with
      | nil => exact .inr rfl
      | cons second seconds =>
          by_cases head : place = second
          · subst head
            simp only [precedes, ↓reduceIte]
            exact ih fun same => different (congrArg (place :: ·) same)
          · simp only [precedes, head, Ne.symm head, ↓reduceIte]
            exact Place.precedes_or_precedes head

/-- Each address of a list comes before all that follow it, so that none is there twice. -/
def Ascending (addresses : List Address) : Prop :=
  addresses.Pairwise fun first second => first.precedes second = true

theorem ascending_nil : Ascending [] :=
  List.Pairwise.nil

theorem ascending_singleton (address : Address) : Ascending [address] :=
  List.pairwise_singleton _ address

/-- No address comes before itself, so none is there twice. -/
theorem Ascending.nodup {addresses : List Address} (ascending : Ascending addresses) :
    addresses.Nodup := by
  refine List.Pairwise.imp ?_ ascending
  rintro first _ before rfl
  rw [precedes_irrefl] at before
  exact Bool.false_ne_true before

/-- Two lists in ascending order with the same members are the same list. -/
theorem Ascending.eq_of_mem_iff {first second : List Address} (left : Ascending first)
    (right : Ascending second) (same : ∀ address, address ∈ first ↔ address ∈ second) :
    first = second := by
  have antisymmetric : Std.Antisymm fun first second : Address => first.precedes second = true :=
    ⟨fun first second before behind => by
      have circular := precedes_trans before behind
      rw [precedes_irrefl] at circular
      exact (Bool.false_ne_true circular).elim⟩
  have irreflexive : Std.Irrefl fun first second : Address => first.precedes second = true :=
    ⟨fun address before => by
      rw [precedes_irrefl] at before
      exact Bool.false_ne_true before⟩
  exact List.Pairwise.eq_of_mem_iff left right same

/-- Of two addresses of a list in order, the one that comes before the other has the lower index. -/
theorem Ascending.idxOf_lt {addresses : List Address}
    (ascending : Ascending addresses) {first second : Address}
    (firstMember : first ∈ addresses) (secondMember : second ∈ addresses)
    (before : first.precedes second = true) : addresses.idxOf first < addresses.idxOf second := by
  by_contra behind
  have circular : first.precedes first = true := by
    rcases (Nat.le_of_not_lt behind).eq_or_lt with same | behind
    · rw [List.idxOf_inj secondMember |>.mp same] at before
      exact before
    · have bound := List.idxOf_lt_length_of_mem firstMember
      have swapped := List.pairwise_iff_getElem.mp ascending _ _
        (List.idxOf_lt_length_of_mem secondMember) bound behind
      rw [List.getElem_idxOf, List.getElem_idxOf] at swapped
      exact precedes_trans before swapped
  rw [precedes_irrefl] at circular
  exact Bool.false_ne_true circular

/-- Inserting an address adds it, wherever its place is. -/
theorem mem_insert {address other : Address} {addresses : List Address} :
    other ∈ insert address addresses ↔ other = address ∨ other ∈ addresses := by
  induction addresses with
  | nil => simp only [insert, List.mem_singleton, List.not_mem_nil, or_false]
  | cons first rest ih =>
      simp only [insert]
      split
      · simp only [List.mem_cons]
      · split
        · rename_i same
          subst same
          simp only [List.mem_cons, or_self_left]
        · simp only [List.mem_cons, ih, or_left_comm]

/-- An address that is inserted goes before the first one behind it. -/
theorem Ascending.insert {addresses : List Address} (ascending : Ascending addresses)
    (address : Address) : Ascending (address.insert addresses) := by
  induction addresses with
  | nil => exact ascending_singleton address
  | cons first rest ih =>
      obtain ⟨below, restAscending⟩ := List.pairwise_cons.mp ascending
      simp only [Address.insert]
      split
      · rename_i before
        refine List.pairwise_cons.mpr ⟨fun other member => ?_, ascending⟩
        rcases List.mem_cons.mp member with rfl | member
        · exact before
        · exact precedes_trans before (below other member)
      · split
        · exact ascending
        · rename_i notBefore different
          have behind : first.precedes address = true :=
            (precedes_or_precedes different).resolve_left notBefore
          refine List.pairwise_cons.mpr ⟨fun other member => ?_, ih restAscending⟩
          rcases mem_insert.mp member with rfl | member
          · exact behind
          · exact below other member

@[simp]
theorem mem_inOrder {address : Address} {addresses : List Address} :
    address ∈ inOrder addresses ↔ address ∈ addresses := by
  induction addresses with
  | nil => exact Iff.rfl
  | cons first rest ih =>
      rw [List.mem_cons, ← ih]
      exact mem_insert

/-- Sorting by insertion, with one of several equal addresses kept. -/
theorem ascending_inOrder (addresses : List Address) : Ascending (inOrder addresses) := by
  induction addresses with
  | nil => exact ascending_nil
  | cons first rest ih => exact ih.insert first

/-- What is in order already stays as it is. -/
theorem Ascending.inOrder_eq {addresses : List Address} (ascending : Ascending addresses) :
    inOrder addresses = addresses :=
  (ascending_inOrder addresses).eq_of_mem_iff ascending fun _ => mem_inOrder

/-- The order of a list depends only on its members. -/
theorem inOrder_congr {first second : List Address}
    (same : ∀ address, address ∈ first ↔ address ∈ second) : inOrder first = inOrder second :=
  (ascending_inOrder first).eq_of_mem_iff (ascending_inOrder second) fun address => by
    rw [mem_inOrder, mem_inOrder, same address]

end Address

end XmlRecords
