import Mathlib.Data.List.Nodup

/-! Lists of records that have keys: adding a record, replacing one in its place and removing one
keep the keys apart and leave the other records as they are. -/
namespace Records

variable {α κ : Type} (key : α → κ)

/-- No two records have one key. -/
def Unique (xs : List α) : Prop := (xs.map key).Nodup

variable {key} {xs as bs : List α} {x y : α} {k : κ} {p : α → Bool} {i : ℕ}

/-- What `findIndex` finds cuts the list. -/
theorem cut_of_findIdx? (h : xs.findIdx? p = some i) :
    ∃ as x bs, xs = as ++ x :: bs ∧ as.length = i ∧ p x = true := by
  obtain ⟨hi, hp, _⟩ := List.findIdx?_eq_some_iff_getElem.mp h
  refine ⟨xs.take i, xs[i], xs.drop (i+1), ?_, ?_, hp⟩
  · rw [List.getElem_cons_drop, List.take_append_drop]
  · rw [List.length_take]
    omega

theorem not_mem_of_findIdx? (hp : ∀ x, p x = true ↔ key x = k) (h : xs.findIdx? p = none) :
    k ∉ xs.map key := by
  intro hmem
  obtain ⟨x, hx, hkey⟩ := List.mem_map.mp hmem
  have hnot := List.findIdx?_eq_none_iff.mp h x hx
  rw [(hp x).mpr hkey] at hnot
  cases hnot

theorem set_cut : (as ++ x :: bs).set as.length y = as ++ y :: bs := by
  rw [List.set_append_right _ _ (Nat.le_refl _), Nat.sub_self, List.set_cons_zero]

theorem eraseIdx_cut : (as ++ x :: bs).eraseIdx as.length = as ++ bs := by
  rw [List.eraseIdx_append_of_length_le (Nat.le_refl _), Nat.sub_self, List.eraseIdx_cons_zero]

theorem getElem?_cut : (as ++ x :: bs)[as.length]? = some x := by
  rw [List.getElem?_append_right (Nat.le_refl _), Nat.sub_self, List.getElem?_cons_zero]

/-! ### The keys stay apart -/

theorem unique_snoc (h : Unique key xs) (hx : key x ∉ xs.map key) : Unique key (xs ++ [x]) := by
  rw [Unique, List.map_append, List.map_singleton]
  exact List.Nodup.append h (List.nodup_singleton _) (List.disjoint_singleton.mpr hx)

theorem map_replace (hy : key y = key x) : (as ++ y :: bs).map key = (as ++ x :: bs).map key := by
  rw [List.map_append, List.map_append, List.map_cons, List.map_cons, hy]

theorem unique_replace (hy : key y = key x) (h : Unique key (as ++ x :: bs)) :
    Unique key (as ++ y :: bs) := by
  rw [Unique, map_replace hy]
  exact h

theorem unique_remove (h : Unique key (as ++ x :: bs)) : Unique key (as ++ bs) := by
  have hsub : List.Sublist ((as ++ bs).map key) ((as ++ x :: bs).map key) :=
    ((List.sublist_cons_self x bs).append_left as).map key
  exact h.sublist hsub

/-! ### The other records stay -/

section Others

variable [DecidableEq κ]

/-- The records of other keys, in their order. -/
def others (key : α → κ) (k : κ) (xs : List α) : List α := xs.filter fun x => key x ≠ k

theorem others_append : others key k (as ++ bs) = others key k as ++ others key k bs :=
  List.filter_append ..

theorem others_cons (hx : key x = k) : others key k (x :: bs) = others key k bs := by
  rw [others, List.filter_cons_of_neg]
  · rfl
  · simp [hx]

theorem others_snoc (hx : key x = k) : others key k (xs ++ [x]) = others key k xs := by
  rw [others_append, others_cons hx]
  exact List.append_nil _

theorem others_replace (hx : key x = k) (hy : key y = k) :
    others key k (as ++ y :: bs) = others key k (as ++ x :: bs) := by
  rw [others_append, others_append, others_cons hx, others_cons hy]

theorem others_remove (hx : key x = k) : others key k (as ++ bs) = others key k (as ++ x :: bs) := by
  rw [others_append, others_append, others_cons hx]

end Others

end Records
