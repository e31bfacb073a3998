import Mathlib.Data.List.Forall2

/-! Lists that are mapped with a function that has no value for some elements: there is a list of values
just in case there is one for each element. -/
namespace FailingMap

variable {α β : Type} {f : α → Option β} {x : α} {xs : List α} {ys : List β}

theorem mapM_cons_eq_some : (x :: xs).mapM f = some ys ↔
    ∃ y rest, f x = some y ∧ xs.mapM f = some rest ∧ y :: rest = ys := by
  rw [List.mapM_cons]
  constructor
  · intro h
    obtain ⟨y, hy, h⟩ := Option.bind_eq_some_iff.mp h
    obtain ⟨rest, hrest, h⟩ := Option.bind_eq_some_iff.mp h
    exact ⟨y, rest, hy, hrest, Option.some.inj h⟩
  · rintro ⟨y, rest, hy, hrest, rfl⟩
    rw [hy, hrest]
    rfl

/-- The values stand in the order of the elements. -/
theorem forall₂_of_mapM (h : xs.mapM f = some ys) : List.Forall₂ (fun x y => f x = some y) xs ys := by
  induction xs generalizing ys with
  | nil =>
    cases h
    exact .nil
  | cons x xs ih =>
    obtain ⟨y, rest, hy, hrest, rfl⟩ := mapM_cons_eq_some.mp h
    exact .cons hy (ih hrest)

theorem mem_of_mapM (h : xs.mapM f = some ys) (hx : x ∈ xs) : ∃ y ∈ ys, f x = some y := by
  induction xs generalizing ys with
  | nil => cases hx
  | cons z zs ih =>
    obtain ⟨y, rest, hy, hrest, rfl⟩ := mapM_cons_eq_some.mp h
    rcases List.mem_cons.mp hx with rfl | hx
    · exact ⟨y, List.mem_cons_self, hy⟩
    · obtain ⟨w, hw, hfw⟩ := ih hrest hx
      exact ⟨w, List.mem_cons_of_mem _ hw, hfw⟩

/-- The list can be mapped when each of its elements can. -/
theorem mapM_some_iff : (∃ ys, xs.mapM f = some ys) ↔ ∀ x ∈ xs, ∃ y, f x = some y := by
  constructor
  · rintro ⟨ys, h⟩ x hx
    obtain ⟨y, -, hy⟩ := mem_of_mapM h hx
    exact ⟨y, hy⟩
  · intro h
    induction xs with
    | nil => exact ⟨[], rfl⟩
    | cons x xs ih =>
      obtain ⟨y, hy⟩ := h x List.mem_cons_self
      obtain ⟨ys, hys⟩ := ih fun z hz => h z (List.mem_cons_of_mem _ hz)
      exact ⟨y :: ys, mapM_cons_eq_some.mpr ⟨y, ys, hy, hys, rfl⟩⟩

end FailingMap
