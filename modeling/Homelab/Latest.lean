import Mathlib.Data.List.Dedup
import Mathlib.Data.List.Sort
import Mathlib.Data.Int.Order.Basic

/-! The latest of a list of things that each have a time, the first of several at one time, and the
latest of every group of them. -/
namespace Latest

section List

variable {α : Type} (time : α → ℤ)

/-- The later of two things, the first when they are equally late -/
def later (a b : α) : α := if time a < time b then b else a

/-- The one of the two that is not the later -/
def superseded (a b : α) : α := if time a < time b then a else b

/-- The first of the latest things in a list -/
def latest : List α → Option α
  | [] => none
  | a :: l => some ((latest l).elim a (later time a))

variable {time} {l : List α} {a b m : α} {p : α → Bool}

@[simp] theorem latest_nil : latest time ([] : List α) = none := rfl

theorem latest_cons_of_nil (h : latest time l = none) : latest time (a :: l) = some a := by
  rw [latest, h]
  rfl

theorem latest_cons_of_some (h : latest time l = some m) : latest time (a :: l) = some (later time a m) := by
  rw [latest, h]
  rfl

theorem latest_eq_none : latest time l = none ↔ l = [] := by
  cases l <;> simp [latest]

variable (time) in
/-- The later and the superseded one are the two things. -/
theorem later_cases (a b : α) : (later time a b = a ∧ superseded time a b = b ∧ time b ≤ time a) ∨
    later time a b = b ∧ superseded time a b = a ∧ time a < time b := by
  rw [later, superseded]
  split_ifs with h
  · exact .inr ⟨rfl, rfl, h⟩
  · exact .inl ⟨rfl, rfl, not_lt.mp h⟩

theorem latest_mem (h : latest time l = some m) : m ∈ l := by
  induction l generalizing m with
  | nil => cases h
  | cons a l ih =>
    cases hl : latest time l with
    | none =>
      rw [latest_cons_of_nil hl] at h
      cases h
      exact List.mem_cons_self ..
    | some n =>
      rw [latest_cons_of_some hl] at h
      cases h
      rcases later_cases time a n with ⟨hlater, -⟩ | ⟨hlater, -⟩
      · rw [hlater]
        exact List.mem_cons_self ..
      · rw [hlater]
        exact List.mem_cons_of_mem _ (ih hl)

theorem le_latest (h : latest time l = some m) : ∀ b ∈ l, time b ≤ time m := by
  induction l generalizing m with
  | nil => cases h
  | cons a l ih =>
    cases hl : latest time l with
    | none =>
      obtain rfl := latest_eq_none.mp hl
      cases h
      simp
    | some n =>
      rw [latest_cons_of_some hl] at h
      cases h
      intro b hb
      have hn (hmem : b ∈ l) : time b ≤ time n := ih hl b hmem
      rcases later_cases time a n with ⟨hlater, -, hle⟩ | ⟨hlater, -, hlt⟩
      · rw [hlater]
        rcases List.mem_cons.mp hb with rfl | hmem
        · exact le_rfl
        · exact (hn hmem).trans hle
      · rw [hlater]
        rcases List.mem_cons.mp hb with rfl | hmem
        · exact hlt.le
        · exact hn hmem

/-- A stable sort by descending times puts the latest thing first. -/
theorem head_mergeSort (l : List α) :
    (l.mergeSort fun a b => decide (time b ≤ time a)).head? = latest time l := by
  have htrans : ∀ a b c : α, decide (time b ≤ time a) = true → decide (time c ≤ time b) = true →
      decide (time c ≤ time a) = true := by
    simp only [decide_eq_true_eq]
    exact fun a b c hab hbc => hbc.trans hab
  have htotal : ∀ a b : α, (decide (time b ≤ time a) || decide (time a ≤ time b)) = true := by
    simp only [Bool.or_eq_true, decide_eq_true_eq]
    exact fun a b => le_total (time b) (time a)
  induction l with
  | nil => rw [List.mergeSort_nil, List.head?_nil, latest_nil]
  | cons a l ih =>
    obtain ⟨before, after, hcons, hrest, hbefore⟩ := List.mergeSort_cons htrans htotal a l
    rw [hcons]
    rw [hrest] at ih
    cases before with
    | cons m before =>
      -- what stands before the new head is later
      have hlt : time a < time m := by
        have hm := hbefore m (List.mem_cons_self ..)
        simpa using hm
      have hlatest : latest time l = some m := ih.symm
      rw [latest_cons_of_some hlatest, later, if_pos hlt]
      rfl
    | nil =>
      cases after with
      | nil =>
        rw [latest_cons_of_nil ih.symm]
        rfl
      | cons m after =>
        have hlatest : latest time l = some m := ih.symm
        have hsorted := List.pairwise_mergeSort htrans htotal (a :: l)
        rw [hcons, List.nil_append, List.pairwise_cons] at hsorted
        have hle : time m ≤ time a := of_decide_eq_true (hsorted.1 m (List.mem_cons_self ..))
        rw [latest_cons_of_some hlatest, later, if_neg (not_lt.mpr hle)]
        rfl

/-! ### Where only the latest has a property -/

/-- Of two things the superseded one does not have the property. -/
abbrev Outdated (time : α → ℤ) (p : α → Bool) (a b : α) : Prop := p (superseded time a b) = false

theorem eq_latest_of_pairwise (hl : l.Pairwise (Outdated time p)) (h : latest time l = some m) :
    ∀ b ∈ l, p b = true → b = m := by
  induction l generalizing m with
  | nil => cases h
  | cons a l ih =>
    obtain ⟨hhead, htail⟩ := List.pairwise_cons.mp hl
    intro b hb hpb
    cases hn : latest time l with
    | none =>
      obtain rfl := latest_eq_none.mp hn
      cases h
      exact List.mem_singleton.mp hb
    | some n =>
      rw [latest_cons_of_some hn] at h
      cases h
      have hout : p (superseded time a n) = false := hhead n (latest_mem hn)
      rcases List.mem_cons.mp hb with rfl | hmem
      · rcases later_cases time b n with ⟨hlater, -⟩ | ⟨-, hsuperseded, -⟩
        · exact hlater.symm
        · rw [hsuperseded, hpb] at hout
          cases hout
      · have hbn : b = n := ih htail hn b hmem hpb
        rcases later_cases time a n with ⟨-, hsuperseded, -⟩ | ⟨hlater, -⟩
        · rw [hsuperseded, ← hbn, hpb] at hout
          cases hout
        · rw [hlater]
          exact hbn

/-- The new head and the latest of the rest: if the superseded one of them does not have the property, it is
so for everything in the rest. -/
theorem outdated_of_latest (hl : l.Pairwise (Outdated time p)) (h : latest time l = some m)
    (ha : Outdated time p a m) : ∀ b ∈ l, Outdated time p a b := by
  intro b hb
  have hle := le_latest h b hb
  have hsame (hpb : p b = true) : b = m := eq_latest_of_pairwise hl h b hb hpb
  by_contra hnot
  rw [Bool.not_eq_false] at hnot
  rcases later_cases time a b with ⟨-, hsuperseded, -⟩ | ⟨-, hsuperseded, hlt⟩
  · rw [hsuperseded] at hnot
    obtain rfl := hsame hnot
    rw [Outdated, hsuperseded, hnot] at ha
    cases ha
  · have hearly : superseded time a m = a := if_pos (hlt.trans_le hle)
    rw [hsuperseded] at hnot
    rw [Outdated, hearly, hnot] at ha
    cases ha

/-- As many things have the property as the latest alone exactly when no superseded one has it. -/
theorem countP_iff (l : List α) :
    l.countP p = (latest time l).toList.countP p ↔ l.Pairwise (Outdated time p) := by
  have hone (a : α) : (some a).toList.countP p = if p a = true then 1 else 0 := by
    rw [Option.toList_some, List.countP_singleton]
  induction l with
  | nil => simp
  | cons a l ih =>
    cases h : latest time l with
    | none =>
      obtain rfl := latest_eq_none.mp h
      simp [latest]
    | some m =>
      have hbound : (if p m = true then 1 else 0) ≤ l.countP p := by
        split_ifs with hpm
        · exact List.countP_pos_iff.mpr ⟨m, latest_mem h, hpm⟩
        · exact Nat.zero_le _
      have hiff : (∀ b ∈ l, Outdated time p a b) ∧ l.Pairwise (Outdated time p) ↔
          Outdated time p a m ∧ l.Pairwise (Outdated time p) :=
        ⟨fun hall => ⟨hall.1 m (latest_mem h), hall.2⟩,
          fun hlatest => ⟨outdated_of_latest hlatest.2 h hlatest.1, hlatest.2⟩⟩
      have hrest := ih.symm
      rw [h, hone] at hrest
      rw [latest_cons_of_some h, List.pairwise_cons, hiff, hrest, hone, List.countP_cons, Outdated]
      generalize l.countP p = n at hbound ⊢
      revert hbound
      -- the later of the two counts on the right, so the superseded one must not count
      rcases later_cases time a m with ⟨hlater, hsuperseded, -⟩ | ⟨hlater, hsuperseded, -⟩
      · rw [hlater, hsuperseded]
        cases p a <;> cases p m <;> simp <;> omega
      · rw [hlater, hsuperseded]
        cases p a <;> cases p m <;> simp
        omega

end List

/-! ### Groups -/

section Groups

variable {α γ β : Type} [DecidableEq γ] (time : α → ℤ) (group : α → γ)

/-- The things of one group -/
def members (g : γ) (l : List α) : List α := l.filter fun a => group a = g

/-- The groups, each once -/
def groups (l : List α) : List γ := (l.map group).dedup

/-- The latest of each group -/
def latestOfEach (l : List α) : List α := (groups group l).filterMap fun g => latest time (members group g l)

variable {time group} {l : List α} {a b : α} {p : α → Bool}

theorem mem_members {g : γ} : a ∈ members group g l ↔ a ∈ l ∧ group a = g := by
  rw [members, List.mem_filter, decide_eq_true_eq]

theorem mem_latestOfEach : a ∈ latestOfEach time group l ↔ latest time (members group (group a) l) = some a := by
  rw [latestOfEach, List.mem_filterMap]
  constructor
  · rintro ⟨g, -, ha⟩
    obtain rfl : group a = g := (mem_members.mp (latest_mem ha)).2
    exact ha
  · intro ha
    have hmem := (mem_members.mp (latest_mem ha)).1
    exact ⟨group a, List.mem_dedup.mpr (List.mem_map_of_mem hmem), ha⟩

theorem latestOfEach_groups (l : List α) : (latestOfEach time group l).map group = groups group l := by
  have hall : ∀ g ∈ groups group l, (latest time (members group g l)).map group = some g := by
    intro g hg
    obtain ⟨a, ha, hag⟩ := List.mem_map.mp (List.mem_dedup.mp hg)
    cases h : latest time (members group g l) with
    | none =>
      have hnil := latest_eq_none.mp h
      have hmem : a ∈ members group g l := mem_members.mpr ⟨ha, hag⟩
      rw [hnil] at hmem
      cases hmem
    | some m => rw [Option.map_some, (mem_members.mp (latest_mem h)).2]
  rw [latestOfEach, List.map_filterMap, List.filterMap_congr hall]
  exact List.filterMap_some

variable (time group) in
theorem latestOfEach_pairwise (l : List α) :
    (latestOfEach time group l).Pairwise fun a b => group a ≠ group b := by
  rw [← List.pairwise_map (R := fun g h : γ => g ≠ h), latestOfEach_groups]
  exact List.nodup_dedup _

variable (time group) in
theorem latestOfEach_subperm (p : α → Bool) (l : List α) :
    ((latestOfEach time group l).filter p).Subperm (l.filter p) := by
  apply List.subperm_of_subset
  · have hpairwise := (latestOfEach_pairwise time group l).filter p
    exact hpairwise.imp fun hne heq => hne (congrArg group heq)
  · intro a ha
    obtain ⟨hmem, hpa⟩ := List.mem_filter.mp ha
    exact List.mem_filter.mpr ⟨(mem_members.mp (latest_mem (mem_latestOfEach.mp hmem))).1, hpa⟩

/-- Of two things in one group the superseded one does not have the property. -/
def OutdatedInGroups (time : α → ℤ) (group : α → γ) (p : α → Bool) (l : List α) : Prop :=
  l.Pairwise fun a b => group a = group b → Outdated time p a b

theorem outdatedInGroups_iff : OutdatedInGroups time group p l ↔
    ∀ g, (members group g l).Pairwise (Outdated time p) := by
  constructor
  · intro h g
    have hmembers : (members group g l).Pairwise fun a b => group a = group b → Outdated time p a b :=
      h.filter _
    refine hmembers.imp_of_mem fun ha hb hab => hab ?_
    rw [(mem_members.mp ha).2, (mem_members.mp hb).2]
  · intro h
    rw [OutdatedInGroups, List.pairwise_iff_forall_sublist]
    intro a b hab hgroup
    have hsub : (members group (group b) [a, b]).Sublist (members group (group b) l) := hab.filter _
    rw [members, List.filter_eq_self.mpr (by simp [hgroup])] at hsub
    exact List.pairwise_iff_forall_sublist.mp (h (group b)) hsub

theorem members_filter (g : γ) (p : α → Bool) (l : List α) :
    members group g (l.filter p) = (members group g l).filter p := List.filter_comm _ _ _

/-- Of a group there is its latest. -/
theorem members_latestOfEach (g : γ) (l : List α) :
    (members group g (latestOfEach time group l)).Perm (latest time (members group g l)).toList := by
  have hnodup : (members group g (latestOfEach time group l)).Nodup :=
    ((latestOfEach_pairwise time group l).filter _).imp fun hne heq => hne (congrArg group heq)
  rw [List.perm_ext_iff_of_nodup hnodup (by cases latest time (members group g l) <;> simp)]
  intro a
  rw [mem_members, mem_latestOfEach, Option.mem_toList]
  constructor
  · rintro ⟨hlatest, rfl⟩
    exact hlatest
  · intro hlatest
    obtain rfl : group a = g := (mem_members.mp (latest_mem hlatest)).2
    exact ⟨hlatest, rfl⟩

theorem perm_of_outdated (h : OutdatedInGroups time group p l) :
    (l.filter p).Perm ((latestOfEach time group l).filter p) := by
  have hnodup : (l.filter p).Nodup := by
    refine (List.Pairwise.filter p h).imp_of_mem fun {a b} ha _ hab heq => ?_
    obtain rfl : a = b := heq
    have hpa : p (superseded time a a) = false := hab rfl
    rw [superseded, ite_self, (List.mem_filter.mp ha).2] at hpa
    cases hpa
  have hsubset : l.filter p ⊆ (latestOfEach time group l).filter p := by
    intro a ha
    obtain ⟨hmem, hpa⟩ := List.mem_filter.mp ha
    have hgroup : a ∈ members group (group a) l := mem_members.mpr ⟨hmem, rfl⟩
    refine List.mem_filter.mpr ⟨mem_latestOfEach.mpr ?_, hpa⟩
    cases hm : latest time (members group (group a) l) with
    | none =>
      rw [latest_eq_none.mp hm] at hgroup
      cases hgroup
    | some m => rw [eq_latest_of_pairwise (outdatedInGroups_iff.mp h (group a)) hm a hgroup hpa]
  exact (List.subperm_of_subset hnodup hsubset).antisymm (latestOfEach_subperm time group p l)

/-- The things that have the property are one for each group of which the latest has it, exactly when no
superseded one has it. -/
theorem perm_map_iff (f : α → β) (l : List α) :
    ((l.filter p).map f).Perm (((latestOfEach time group l).filter p).map f) ↔
      OutdatedInGroups time group p l := by
  constructor
  · intro h
    have hlength := h.length_eq
    rw [List.length_map, List.length_map] at hlength
    have hperm := (latestOfEach_subperm time group p l).perm_of_length_le hlength.le
    rw [outdatedInGroups_iff]
    intro g
    rw [← countP_iff]
    calc (members group g l).countP p
        = (members group g (l.filter p)).length := by rw [members_filter, List.countP_eq_length_filter]
      _ = (members group g ((latestOfEach time group l).filter p)).length := (hperm.filter _).length_eq.symm
      _ = (members group g (latestOfEach time group l)).countP p := by
        rw [members_filter, List.countP_eq_length_filter]
      _ = (latest time (members group g l)).toList.countP p := (members_latestOfEach g l).countP_eq p
  · exact fun h => (perm_of_outdated h).map f

end Groups

end Latest
