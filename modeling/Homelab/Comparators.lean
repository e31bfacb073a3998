import Mathlib.Data.List.Sort
import Mathlib.Data.Int.Order.Basic

/-! Sorting with a comparator that is consistent on one list only. A comparator of keys that takes a missing
key to be equal to every other one is of that kind: it is consistent as long as no key is missing, or no two
keys differ. -/
namespace Comparator

section Sorting

variable {α : Type} {le : α → α → Bool} {l : List α}

/-- The comparator orders the elements of the list. -/
structure TotalOn (le : α → α → Bool) (l : List α) : Prop where
  trans : ∀ a ∈ l, ∀ b ∈ l, ∀ c ∈ l, le a b = true → le b c = true → le a c = true
  total : ∀ a ∈ l, ∀ b ∈ l, (le a b || le b a) = true

theorem TotalOn.subset (h : TotalOn le l) {l' : List α} (hsub : l' ⊆ l) : TotalOn le l' :=
  ⟨fun a ha b hb c hc => h.trans a (hsub ha) b (hsub hb) c (hsub hc),
    fun a ha b hb => h.total a (hsub ha) b (hsub hb)⟩

/-- The comparator on the elements of the list, where it is an order -/
def onList (le : α → α → Bool) (l : List α) (a b : {x // x ∈ l}) : Bool := le a.1 b.1

theorem TotalOn.trans_onList (h : TotalOn le l) (a b c : {x // x ∈ l}) :
    onList le l a b = true → onList le l b c = true → onList le l a c = true :=
  h.trans a.1 a.2 b.1 b.2 c.1 c.2

theorem TotalOn.total_onList (h : TotalOn le l) (a b : {x // x ∈ l}) :
    (onList le l a b || onList le l b a) = true :=
  h.total a.1 a.2 b.1 b.2

theorem mergeSort_attach (le : α → α → Bool) (l : List α) :
    (l.attach.mergeSort (onList le l)).map Subtype.val = l.mergeSort le := by
  have hmap := List.map_mergeSort (r := onList le l) (s := le) (f := Subtype.val) (l := l.attach)
    fun a _ b _ => rfl
  rw [hmap, List.attach_map_subtype_val]

theorem TotalOn.pairwise_mergeSort (h : TotalOn le l) :
    (l.mergeSort le).Pairwise fun a b => le a b = true := by
  rw [← mergeSort_attach, List.pairwise_map]
  exact List.pairwise_mergeSort h.trans_onList h.total_onList l.attach

theorem TotalOn.pairwise_insertionSort (h : TotalOn le l) :
    (l.insertionSort fun a b => le a b = true).Pairwise fun a b => le a b = true := by
  let order (a b : {x // x ∈ l}) : Prop := onList le l a b = true
  have : IsTrans _ order := ⟨h.trans_onList⟩
  have : Std.Total order := ⟨fun a b => by simpa [order] using h.total_onList a b⟩
  have hmap : (l.attach.insertionSort order).map Subtype.val = l.insertionSort fun a b => le a b = true := by
    rw [List.map_insertionSort order (fun a b => le a b = true) Subtype.val l.attach fun a _ b _ => Iff.rfl,
      List.attach_map_subtype_val]
  rw [← hmap, List.pairwise_map]
  exact List.pairwise_insertionSort order l.attach

/-- A list falls in only one way into elements without a property and elements with it. -/
theorem split_unique {q : α → Bool} {xs ys xs' ys' : List α} (h : xs ++ ys = xs' ++ ys')
    (hxs : ∀ x ∈ xs, q x = false) (hys : ∀ y ∈ ys, q y = true) (hxs' : ∀ x ∈ xs', q x = false)
    (hys' : ∀ y ∈ ys', q y = true) : xs = xs' ∧ ys = ys' := by
  have hparts {us vs : List α} (hus : ∀ x ∈ us, q x = false) (hvs : ∀ y ∈ vs, q y = true) :
      (us ++ vs).filter q = vs := by
    rw [List.filter_append, List.filter_eq_self.mpr hvs]
    rw [List.filter_eq_nil_iff.mpr fun x hx => by rw [hus x hx]; exact Bool.false_ne_true]
    exact List.nil_append vs
  have hsame : ys = ys' := by
    calc ys = (xs ++ ys).filter q := (hparts hxs hys).symm
      _ = (xs' ++ ys').filter q := by rw [h]
      _ = ys' := hparts hxs' hys'
  subst hsame
  exact ⟨List.append_cancel_right h, rfl⟩

/-- A stable sort leaves the elements with a property as sorting them alone does. -/
theorem filter_mergeSort (htrans : ∀ a b c, le a b = true → le b c = true → le a c = true)
    (htotal : ∀ a b, (le a b || le b a) = true) (p : α → Bool) (l : List α) :
    (l.mergeSort le).filter p = (l.filter p).mergeSort le := by
  induction l with
  | nil => simp
  | cons a l ih =>
    obtain ⟨before, after, hsort, hrest, hbefore⟩ := List.mergeSort_cons htrans htotal a l
    have hsorted := List.pairwise_mergeSort htrans htotal (a :: l)
    rw [hsort] at hsorted
    have hafter := (List.pairwise_cons.mp (List.pairwise_append.mp hsorted).2.1).1
    rw [hrest, List.filter_append] at ih
    by_cases hp : p a = true
    · obtain ⟨before', after', hsort', hrest', hbefore'⟩ :=
        List.mergeSort_cons htrans htotal a (l.filter p)
      have hsorted' := List.pairwise_mergeSort htrans htotal (a :: l.filter p)
      rw [hsort'] at hsorted'
      have hafter' := (List.pairwise_cons.mp (List.pairwise_append.mp hsorted').2.1).1
      rw [hrest'] at ih
      -- what stands before the new element comes strictly before it, in both lists
      have hsplit := split_unique (q := le a) ih
        (fun b hb => by simpa using hbefore b (List.mem_of_mem_filter hb))
        (fun b hb => hafter b (List.mem_of_mem_filter hb)) (fun b hb => by simpa using hbefore' b hb) hafter'
      rw [hsort, List.filter_append, List.filter_cons_of_pos hp, List.filter_cons_of_pos hp, hsort',
        hsplit.1, hsplit.2]
    · rw [hsort, List.filter_append, List.filter_cons_of_neg hp, List.filter_cons_of_neg hp, ih]

theorem TotalOn.filter_mergeSort (h : TotalOn le l) (p : α → Bool) :
    (l.mergeSort le).filter p = (l.filter p).mergeSort le := by
  have hattach := Comparator.filter_mergeSort h.trans_onList h.total_onList (fun x => p x.1) l.attach
  have hleft : ((l.attach.mergeSort (onList le l)).filter fun x => p x.1).map Subtype.val =
      (l.mergeSort le).filter p := by
    conv_rhs => rw [← mergeSort_attach, List.filter_map]
    rfl
  have hright : ((l.attach.filter fun x => p x.1).mergeSort (onList le l)).map Subtype.val =
      (l.filter p).mergeSort le := by
    have hmap := List.map_mergeSort (r := onList le l) (s := le) (f := Subtype.val)
      (l := l.attach.filter fun x => p x.1) fun a _ b _ => rfl
    have hfilter : (l.attach.filter fun x => p x.1).map Subtype.val = l.filter p := by
      conv_rhs => rw [← List.attach_map_subtype_val l, List.filter_map]
      rfl
    rw [hmap, hfilter]
  rw [← hleft, hattach, hright]

end Sorting

/-! ### Keys that may be missing -/

section Keys

variable {α : Type} {key : α → Option ℤ} {l : List α}

/-- The key of `b` is not later than that of `a`, or one of them is missing. -/
def laterFirst (key : α → Option ℤ) (a b : α) : Bool :=
  match key a, key b with
  | some s, some t => t ≤ s
  | _, _ => true

/-- No key is missing, or no two differ. -/
def consistent (key : α → Option ℤ) (l : List α) : Bool :=
  (l.all fun a => (key a).isSome) || l.all fun a => l.all fun b => laterFirst key a b

theorem laterFirst_eq_false {a b : α} :
    laterFirst key a b = false ↔ ∃ s t, key a = some s ∧ key b = some t ∧ s < t := by
  rw [laterFirst]
  cases key a <;> cases key b <;> simp

theorem consistent_totalOn (h : consistent key l = true) : TotalOn (laterFirst key) l := by
  rw [consistent, Bool.or_eq_true, List.all_eq_true, List.all_eq_true] at h
  rcases h with hall | hall
  · -- where no key is missing this is the order of the keys
    have hkey : ∀ a ∈ l, ∃ s, key a = some s := fun a ha => Option.isSome_iff_exists.mp (hall a ha)
    constructor
    · intro a ha b hb c hc
      obtain ⟨s, hs⟩ := hkey a ha
      obtain ⟨t, ht⟩ := hkey b hb
      obtain ⟨u, hu⟩ := hkey c hc
      simp only [laterFirst, hs, ht, hu, decide_eq_true_eq]
      omega
    · intro a ha b hb
      obtain ⟨s, hs⟩ := hkey a ha
      obtain ⟨t, ht⟩ := hkey b hb
      simp only [laterFirst, hs, ht, Bool.or_eq_true, decide_eq_true_eq]
      omega
  · have hrel : ∀ a ∈ l, ∀ b ∈ l, laterFirst key a b = true := fun a ha => List.all_eq_true.mp (hall a ha)
    constructor
    · exact fun a ha b _ c hc _ _ => hrel a ha c hc
    · intro a ha b hb
      rw [hrel a ha b hb]
      rfl

/-- Where the comparator is not consistent, there is an earlier and a later key. -/
theorem exists_earlier (h : consistent key l = false) :
    ∃ a ∈ l, ∃ b ∈ l, ∃ s t, key a = some s ∧ key b = some t ∧ s < t := by
  rw [consistent, Bool.or_eq_false_iff] at h
  obtain ⟨a, ha, hab⟩ := List.all_eq_false.mp h.2
  obtain ⟨b, hb, hfalse⟩ := List.all_eq_false.mp (Bool.not_eq_true _ ▸ hab)
  exact ⟨a, ha, b, hb, laterFirst_eq_false.mp (Bool.not_eq_true _ ▸ hfalse)⟩

end Keys

end Comparator
