import Mathlib.Data.List.Nodup
import Mathlib.Tactic.Common

/-!
# A place in a list that changes

A traversal stands at one item of a list, with the items before it and those
after it.  One more item, at whatever place, comes to one side of it; and an
item that is taken out leaves the place alone unless it is the one there.
-/

namespace Foundation.Cursor

variable {α β : Type*} {item other current : α} {old new front back : List α}

/-- The new list is the old one with one item more, at some place. -/
def Inserted (item : α) (old new : List α) : Prop :=
  ∃ front back, old = front ++ back ∧ new = front ++ item :: back

theorem inserted_cons (item : α) (items : List α) :
    Inserted item items (item :: items) := ⟨[], items, rfl, rfl⟩

theorem Inserted.cons (h : Inserted item old new) (first : α) :
    Inserted item (first :: old) (first :: new) := by
  obtain ⟨front, back, rfl, rfl⟩ := h
  exact ⟨first :: front, back, rfl, rfl⟩

theorem Inserted.mem_iff (h : Inserted item old new) :
    other ∈ new ↔ other = item ∨ other ∈ old := by
  obtain ⟨front, back, rfl, rfl⟩ := h
  simp only [List.mem_append, List.mem_cons]
  tauto

theorem Inserted.map (h : Inserted item old new) (f : α → β) :
    Inserted (f item) (old.map f) (new.map f) := by
  obtain ⟨front, back, rfl, rfl⟩ := h
  exact ⟨front.map f, back.map f, List.map_append, by simp⟩

theorem Inserted.nodup_iff (h : Inserted item old new) :
    new.Nodup ↔ item ∉ old ∧ old.Nodup := by
  obtain ⟨front, back, rfl, rfl⟩ := h
  rw [List.nodup_middle, List.nodup_cons]

/-- An insertion beside the place. -/
theorem Inserted.beside
    (h : Inserted item (front ++ current :: back) new) :
    (∃ more, Inserted item front more ∧ new = more ++ current :: back) ∨
      ∃ more, Inserted item back more ∧ new = front ++ current :: more := by
  obtain ⟨left, right, hold, rfl⟩ := h
  rcases List.append_eq_append_iff.mp hold with
    ⟨middle, rfl, hright⟩ | ⟨middle, rfl, rfl⟩
  · cases middle with
    | nil =>
        rw [List.nil_append] at hright
        subst hright
        refine Or.inl ⟨front ++ [item], ⟨front, [], ?_, rfl⟩, ?_⟩ <;> simp
    | cons first rest =>
        rw [List.cons_append, List.cons.injEq] at hright
        obtain ⟨rfl, rfl⟩ := hright
        refine Or.inr ⟨rest ++ item :: right, ⟨rest, right, rfl, rfl⟩, ?_⟩
        simp
  · exact Or.inl ⟨left ++ item :: middle, ⟨left, middle, rfl, rfl⟩, by simp⟩

/-- An item that is taken out beside the place. -/
theorem Inserted.of_beside
    (h : Inserted item old (front ++ current :: back))
    (hne : item ≠ current) :
    (∃ less, Inserted item less front ∧ old = less ++ current :: back) ∨
      ∃ less, Inserted item less back ∧ old = front ++ current :: less := by
  obtain ⟨left, right, rfl, hnew⟩ := h
  rcases List.append_eq_append_iff.mp hnew with
    ⟨middle, rfl, hright⟩ | ⟨middle, rfl, hright⟩
  · cases middle with
    | nil =>
        rw [List.nil_append, List.cons.injEq] at hright
        exact absurd hright.1.symm hne
    | cons first rest =>
        rw [List.cons_append, List.cons.injEq] at hright
        obtain ⟨rfl, rfl⟩ := hright
        exact Or.inr ⟨rest ++ right, ⟨rest, right, rfl, rfl⟩, by simp⟩
  · cases middle with
    | nil =>
        rw [List.nil_append, List.cons.injEq] at hright
        exact absurd hright.1 hne
    | cons first rest =>
        rw [List.cons_append, List.cons.injEq] at hright
        obtain ⟨rfl, rfl⟩ := hright
        exact Or.inl ⟨left ++ rest, ⟨left, rest, rfl, rfl⟩, by simp⟩

/-! ## What comes next -/

/-- The items after one; none if it is not there. -/
def after? [DecidableEq α] (item : α) : List α → Option (List α)
  | [] => none
  | first :: rest => if first = item then some rest else after? item rest

variable [DecidableEq α]

theorem after?_append (hnodup : (front ++ current :: back).Nodup) :
    after? current (front ++ current :: back) = some back := by
  induction front with
  | nil => simp [after?]
  | cons first rest ih =>
      obtain ⟨hfirst, hrest⟩ := List.nodup_cons.mp hnodup
      have hne : first ≠ current := by
        rintro rfl
        exact hfirst (by simp)
      rw [List.cons_append, after?, if_neg hne, ih hrest]

theorem after?_suffix {items rest : List α}
    (h : after? item items = some rest) : item :: rest <:+ items := by
  induction items with
  | nil => cases h
  | cons first later ih =>
      rw [after?] at h
      split_ifs at h with hfirst
      · cases h
        subst hfirst
        exact List.suffix_rfl
      · exact (ih h).trans (List.suffix_cons first later)

theorem after?_eq_none_iff {items : List α} :
    after? item items = none ↔ item ∉ items := by
  induction items with
  | nil => simp [after?]
  | cons first rest ih =>
      rw [after?]
      split_ifs with hfirst
      · simp [hfirst]
      · rw [ih, List.mem_cons, not_or]
        exact (and_iff_right (Ne.symm hfirst)).symm

end Foundation.Cursor
