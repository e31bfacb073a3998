import Homelab.AdminEnforcement
import Homelab.BackupVerify
import Homelab.Comparators

/-! The entries that `backup list` prints by their indexes, and the entry that `backup restore` picks by its
index. One command filters by platform and sorts, the other sorts and filters. -/
namespace Homelab
open Js Comparator

/-- An order in which `sort` may leave the lists on which the comparator is not consistent -/
structure DateOrder where
  order : List JsValue → List JsValue
  perm : ∀ l, (order l).Perm l

def BackupRuntime.sorting (rt : BackupRuntime) (o : DateOrder) : BackupRuntime :=
  { rt with anyOrder := o.order, anyOrder_perm := o.perm }

/-! ### The two commands -/

section Commands

variable (rt : BackupRuntime)

/-- `Date.parse(e.taken_at)` throws. -/
def dateThrows (e : JsValue) : Bool :=
  match e.get? (js "taken_at") with
  | none => true
  | some taken => taken.throwsOnCoerce

/-- `entries.sort(…)`, or `none` when the comparator throws; it is not asked about a single entry. -/
def sortEntriesByDate (entries : List JsValue) : Option (List JsValue) :=
  if 2 ≤ entries.length ∧ entries.any dateThrows then none else some (sortByDate rt entries)

/-- `entries.filter((e) => e.platform === platform)`, or `none` when this throws, where a platform is given -/
def filterByPlatform (platform : Option JsString) (entries : List JsValue) : Option (List JsValue) :=
  match platform with
  | none => some entries
  | some p =>
    if entries.any fun e => (e.get? (js "platform")).isNone then none else some (entries.filter (isFor p))

/-- The line of an entry can be printed: it is an object whose fields are coerced without throwing. -/
def printable (e : JsValue) : Bool :=
  [js "taken_at", js "platform", js "target_id", js "backup_type", js "location"].all fun k =>
    match e.get? k with
    | none => false
    | some v => !v.throwsOnCoerce

/-- What the loop over the entries prints; a list in JSON is printed as a whole. -/
def printedEntries (json : Bool) (entries : List JsValue) : List JsValue :=
  if json then entries else entries.takeWhile printable

/-- The entries that `backup list` prints, by their indexes -/
def backupList (json : Bool) (platform : Option JsString) (entries : List JsValue) : List JsValue :=
  match (filterByPlatform platform entries).bind (sortEntriesByDate rt) with
  | none => []
  | some listed => printedEntries json listed

/-- The entry that `backup restore` looks up -/
def restoreEntry (platform : Option JsString) (entries : List JsValue) (indexArg : JsString) :
    Option JsValue := do
  let sorted ← sortEntriesByDate rt entries
  let candidates ← filterByPlatform platform sorted
  let idx ← parseInt indexArg
  if idx < 0 ∨ candidates.length ≤ idx then none else candidates[idx.toNat]?

end Commands

/-- The decimal digits of an index -/
def indexText (i : ℕ) : JsString := if i = 0 then js "0" else serialText i

/-- Each entry that is printed is the one that its index picks. -/
def IndexesAgree (rt : BackupRuntime) (json : Bool) (platform : Option JsString)
    (entries : List JsValue) : Prop :=
  ∀ i e, (backupList rt json platform entries)[i]? = some e →
    restoreEntry rt platform entries (indexText i) = some e

/-! ### Where they agree -/

/-- All dates are valid, or all that are valid are the same. -/
def AgreeingDates (rt : BackupRuntime) (l : List JsValue) : Prop :=
  (∀ e ∈ l, ∃ t, takenAt rt e = some t) ∨
    ∀ a ∈ l, ∀ b ∈ l, ∀ s t, takenAt rt a = some s → takenAt rt b = some t → s = t

/-- The entries that can be listed first: the latest of them, or any where the comparator is not consistent -/
def leading (rt : BackupRuntime) (l : List JsValue) : List JsValue :=
  if consistentDates rt l then (sortByDate rt l).head?.toList else l

/-- Nothing is printed of the entries of a platform: the filter or the comparator throws, or none of the entries
that can be the first has a line. -/
def NothingPrinted (rt : BackupRuntime) (json : Bool) (platform : JsString) (entries : List JsValue) : Prop :=
  (∃ e ∈ entries, e.get? (js "platform") = none) ∨
    (2 ≤ (candidatesFor platform entries).length ∧ ∃ e ∈ candidatesFor platform entries, dateThrows e = true) ∨
    ∀ e ∈ leading rt (candidatesFor platform entries), json = false ∧ printable e = false

/-- Sorting all entries does not throw, and leaves those of the platform in the order in which they are sorted
alone: the dates agree, or there are no other entries, or those of the platform are all the same. -/
structure SameOrder (rt : BackupRuntime) (platform : JsString) (entries : List JsValue) : Prop where
  sorts : entries.length < 2 ∨ ∀ e ∈ entries, dateThrows e = false
  agrees : AgreeingDates rt entries ∨ (∀ e ∈ entries, isFor platform e = true) ∨
    ∀ a ∈ candidatesFor platform entries, ∀ b ∈ candidatesFor platform entries, a = b

section

variable {rt : BackupRuntime} {json : Bool} {platform : Option JsString} {p : JsString} {entries l : List JsValue}
  {o : DateOrder} {e : JsValue}

theorem parseInt_indexText (i : ℕ) : parseInt (indexText i) = some (i : ℤ) := by
  by_cases hi : i = 0
  · subst hi
    decide
  · rw [indexText, if_neg hi, parseInt_serialText i hi]

theorem agreeingDates_iff : AgreeingDates rt l ↔ consistentDates rt l = true := by
  rw [consistentDates, Bool.or_eq_true, List.all_eq_true, List.all_eq_true, AgreeingDates]
  have hlater (a b : JsValue) : laterFirst rt a b = true ↔
      ∀ s t, takenAt rt a = some s → takenAt rt b = some t → t ≤ s := by
    rw [laterFirst]
    cases takenAt rt a <;> cases takenAt rt b <;> simp
  refine or_congr ?_ ?_
  · exact forall₂_congr fun e _ => Option.isSome_iff_exists.symm
  · constructor
    · intro h a ha
      refine List.all_eq_true.mpr fun b hb => (hlater a b).mpr fun s t hs ht => ?_
      exact (h a ha b hb s t hs ht).ge
    · intro h a ha b hb s t hs ht
      have hab := (hlater a b).mp (List.all_eq_true.mp (h a ha) b hb) s t hs ht
      have hba := (hlater b a).mp (List.all_eq_true.mp (h b hb) a ha) t s ht hs
      omega

theorem sortByDate_perm (l : List JsValue) : (sortByDate rt l).Perm l := by
  rw [sortByDate]
  split_ifs
  · exact List.mergeSort_perm l _
  · exact rt.anyOrder_perm l

theorem printedEntries_prefix (l : List JsValue) : printedEntries json l <+: l := by
  rw [printedEntries]
  split_ifs
  · exact List.prefix_refl l
  · exact List.takeWhile_prefix _

theorem getElem?_of_printed {i : ℕ} (h : (printedEntries json l)[i]? = some e) : l[i]? = some e := by
  have hprefix : printedEntries json l <+: l := printedEntries_prefix l
  obtain ⟨rest, hrest⟩ := hprefix
  obtain ⟨hlt, -⟩ := List.getElem?_eq_some_iff.mp h
  rw [← hrest, List.getElem?_append_left hlt, h]

/-- What is printed has been sorted by a comparator that has not thrown. -/
theorem backupList_some {i : ℕ} (h : (backupList rt json platform entries)[i]? = some e) :
    ∃ kept, filterByPlatform platform entries = some kept ∧
      ¬(2 ≤ kept.length ∧ kept.any dateThrows = true) ∧
      (printedEntries json (sortByDate rt kept))[i]? = some e := by
  rw [backupList] at h
  cases hkept : filterByPlatform platform entries with
  | none =>
    rw [hkept] at h
    cases h
  | some kept =>
    rw [hkept, Option.bind_some, sortEntriesByDate] at h
    by_cases hthrows : 2 ≤ kept.length ∧ kept.any dateThrows = true
    · rw [if_pos hthrows] at h
      cases h
    · rw [if_neg hthrows] at h
      exact ⟨kept, rfl, hthrows, h⟩

theorem restoreEntry_indexText {sorted candidates : List JsValue} {i : ℕ}
    (hsorted : sortEntriesByDate rt entries = some sorted)
    (hcandidates : filterByPlatform platform sorted = some candidates) :
    restoreEntry rt platform entries (indexText i) = candidates[i]? := by
  rw [restoreEntry, hsorted, Option.bind_eq_bind, Option.bind_some, hcandidates, Option.bind_some,
    parseInt_indexText, Option.bind_eq_bind, Option.bind_some]
  by_cases hi : candidates.length ≤ i
  · rw [if_pos (Or.inr (by exact_mod_cast hi)), List.getElem?_eq_none hi]
  · rw [if_neg (by omega), Int.toNat_natCast]

/-- What is picked has been sorted by a comparator that has not thrown, and filtered after that. -/
theorem restoreEntry_some {i : ℕ} (h : restoreEntry rt (some p) entries (indexText i) = some e) :
    ¬(2 ≤ entries.length ∧ entries.any dateThrows = true) ∧
      ((sortByDate rt entries).filter (isFor p))[i]? = some e := by
  by_cases hthrows : 2 ≤ entries.length ∧ entries.any dateThrows = true
  · rw [restoreEntry, sortEntriesByDate, if_pos hthrows] at h
    cases h
  · refine ⟨hthrows, ?_⟩
    have hsorted : sortEntriesByDate rt entries = some (sortByDate rt entries) := if_neg hthrows
    by_cases hnull : (sortByDate rt entries).any (fun e => (e.get? (js "platform")).isNone) = true
    · have hnone : filterByPlatform (some p) (sortByDate rt entries) = none := if_pos hnull
      rw [restoreEntry, hsorted, Option.bind_eq_bind, Option.bind_some, hnone] at h
      cases h
    · have hcandidates : filterByPlatform (some p) (sortByDate rt entries) =
          some ((sortByDate rt entries).filter (isFor p)) := if_neg hnull
      rwa [restoreEntry_indexText hsorted hcandidates] at h

/-! ### The same order -/

theorem perm_of_same {a : JsValue} {l l' : List JsValue} (hsame : ∀ b ∈ l, b = a) (h : l'.Perm l) : l' = l := by
  have hl : l = List.replicate l.length a := List.eq_replicate_iff.mpr ⟨rfl, hsame⟩
  have hl' : l' = List.replicate l'.length a :=
    List.eq_replicate_iff.mpr ⟨rfl, fun b hb => hsame b (h.mem_iff.mp hb)⟩
  calc l' = List.replicate l'.length a := hl'
    _ = List.replicate l.length a := by rw [h.length_eq]
    _ = l := hl.symm

theorem SameOrder.filter_sort (h : SameOrder rt p entries) :
    (sortByDate rt entries).filter (isFor p) = sortByDate rt (candidatesFor p entries) := by
  rcases h.agrees with hagree | hall | hsame
  · have hconsistent := agreeingDates_iff.mp hagree
    have htotal : TotalOn (laterFirst rt) entries := consistent_totalOn hconsistent
    have hsub : AgreeingDates rt (candidatesFor p entries) := by
      rcases hagree with hvalid | hsame
      · exact .inl fun e he => hvalid e (List.mem_of_mem_filter he)
      · exact .inr fun a ha b hb => hsame a (List.mem_of_mem_filter ha) b (List.mem_of_mem_filter hb)
    rw [sortByDate, if_pos hconsistent, htotal.filter_mergeSort, sortByDate,
      if_pos (agreeingDates_iff.mp hsub), candidatesFor]
  · have hcandidates : candidatesFor p entries = entries := List.filter_eq_self.mpr hall
    rw [hcandidates]
    refine List.filter_eq_self.mpr fun e he => hall e ?_
    exact (sortByDate_perm entries).mem_iff.mp he
  · have hperm : ((sortByDate rt entries).filter (isFor p)).Perm (candidatesFor p entries) :=
      (sortByDate_perm entries).filter _
    cases hl : candidatesFor p entries with
    | nil =>
      rw [hl] at hperm
      have hnil : (sortByDate rt []).Perm [] := sortByDate_perm []
      rw [hperm.eq_nil, hnil.eq_nil]
    | cons a rest =>
      have hconst : ∀ b ∈ a :: rest, b = a := by
        intro b hb
        exact hsame b (hl ▸ hb) a (hl ▸ List.mem_cons_self)
      rw [hl] at hperm
      rw [perm_of_same hconst hperm, perm_of_same hconst (sortByDate_perm (a :: rest))]

theorem SameOrder.indexesAgree (h : SameOrder rt p entries) : IndexesAgree rt json (some p) entries := by
  intro i e he
  obtain ⟨kept, hkept, -, hprinted⟩ := backupList_some he
  have hnull : ¬entries.any (fun e => (e.get? (js "platform")).isNone) = true := by
    intro hnull
    rw [filterByPlatform, if_pos hnull] at hkept
    cases hkept
  have hcandidates : candidatesFor p entries = kept := by
    rw [filterByPlatform, if_neg hnull] at hkept
    exact Option.some.inj hkept
  have hsorted : sortEntriesByDate rt entries = some (sortByDate rt entries) := by
    apply if_neg
    rintro ⟨hlength, hthrows⟩
    obtain ⟨e, hmem, hthrow⟩ := List.any_eq_true.mp hthrows
    rcases h.sorts with hshort | hnone
    · omega
    · rw [hnone e hmem] at hthrow
      cases hthrow
  have hfiltered : filterByPlatform (some p) (sortByDate rt entries) =
      some (sortByDate rt (candidatesFor p entries)) := by
    rw [filterByPlatform, if_neg, h.filter_sort]
    rwa [(sortByDate_perm entries).any_eq]
  rw [restoreEntry_indexText hsorted hfiltered, hcandidates]
  exact getElem?_of_printed hprinted

/-- Without a platform both commands sort the same list. -/
theorem indexesAgree_all : IndexesAgree rt json none entries := by
  intro i e he
  obtain ⟨kept, hkept, hthrows, hprinted⟩ := backupList_some he
  obtain rfl := Option.some.inj hkept
  have hsorted : sortEntriesByDate rt entries = some (sortByDate rt entries) := if_neg hthrows
  rw [restoreEntry_indexText hsorted rfl]
  exact getElem?_of_printed hprinted

theorem leading_of_head (h : (sortByDate (rt.sorting o) l)[0]? = some e) : e ∈ leading rt l := by
  rw [leading]
  split_ifs with hconsistent
  · have hsame : sortByDate (rt.sorting o) l = sortByDate rt l := by
      rw [sortByDate, sortByDate, if_pos hconsistent]
      exact if_pos hconsistent
    rw [hsame, ← List.head?_eq_getElem?] at h
    rw [h]
    exact List.mem_singleton.mpr rfl
  · exact (sortByDate_perm l).mem_iff.mp (List.mem_of_getElem? h)

theorem head_of_leading (h : e ∈ leading rt l) (horder : (o.order l).head? = some e) :
    (sortByDate (rt.sorting o) l).head? = some e := by
  rw [leading] at h
  split_ifs at h with hconsistent
  · rw [sortByDate, if_pos hconsistent] at h
    rw [sortByDate]
    refine (congrArg List.head? (if_pos hconsistent)).trans ?_
    exact Option.mem_toList.mp h
  · rw [sortByDate]
    exact (congrArg List.head? (if_neg hconsistent)).trans horder

theorem NothingPrinted.list_empty (h : NothingPrinted rt json p entries) :
    backupList (rt.sorting o) json (some p) entries = [] := by
  by_contra hne
  obtain ⟨e, rest, hlist⟩ := List.exists_cons_of_ne_nil hne
  have hfirst : (backupList (rt.sorting o) json (some p) entries)[0]? = some e := by
    rw [hlist]
    rfl
  obtain ⟨kept, hkept, hthrows, hprinted⟩ := backupList_some hfirst
  rw [filterByPlatform] at hkept
  split_ifs at hkept with hnull
  have hcandidates : candidatesFor p entries = kept := Option.some.inj hkept
  rw [NothingPrinted, hcandidates] at h
  rcases h with ⟨x, hx, hxnull⟩ | ⟨hlength, x, hx, hthrow⟩ | hunprinted
  · exact hnull (List.any_eq_true.mpr ⟨x, hx, by rw [hxnull]; rfl⟩)
  · exact hthrows ⟨hlength, List.any_eq_true.mpr ⟨x, hx, hthrow⟩⟩
  · -- the entry that has been printed is one that can be the first
    obtain ⟨hjson, hline⟩ := hunprinted e (leading_of_head (getElem?_of_printed hprinted))
    subst hjson
    have hmem : e ∈ (sortByDate (rt.sorting o) kept).takeWhile printable := List.mem_of_getElem? hprinted
    have hprintable := List.all_eq_true.mp List.all_takeWhile e hmem
    rw [hline] at hprintable
    cases hprintable

/-! ### Orders that tell them apart -/

theorem exists_lead {a : JsValue} (h : a ∈ l) : ∃ rest, (a :: rest).Perm l := by
  obtain ⟨before, after, rfl⟩ := List.append_of_mem h
  exact ⟨before ++ after, List.perm_middle.symm⟩

theorem exists_order {l' m m' : List JsValue} (hne : l ≠ l') (hm : m.Perm l) (hm' : m'.Perm l') :
    ∃ o : DateOrder, o.order l = m ∧ o.order l' = m' := by
  classical
  let order (x : List JsValue) : List JsValue := if x = l then m else if x = l' then m' else x
  have hperm (x : List JsValue) : (order x).Perm x := by
    by_cases hx : x = l
    · rw [show order x = m from if_pos hx, hx]
      exact hm
    by_cases hx' : x = l'
    · rw [show order x = m' from (if_neg hx).trans (if_pos hx'), hx']
      exact hm'
    · rw [show order x = x from (if_neg hx).trans (if_neg hx')]
  exact ⟨⟨order, hperm⟩, if_pos rfl, (if_neg hne.symm).trans (if_pos rfl)⟩

/-- An entry that can be the first is printed as the first, in some order. -/
theorem backupList_first (hnull : ¬∃ x ∈ entries, x.get? (js "platform") = none)
    (hthrows : ¬(2 ≤ (candidatesFor p entries).length ∧ ∃ x ∈ candidatesFor p entries, dateThrows x = true))
    (hlead : e ∈ leading rt (candidatesFor p entries)) (hline : ¬(json = false ∧ printable e = false))
    (horder : (o.order (candidatesFor p entries)).head? = some e) :
    (backupList (rt.sorting o) json (some p) entries)[0]? = some e := by
  have hkept : filterByPlatform (some p) entries = some (candidatesFor p entries) := by
    apply if_neg
    intro hany
    obtain ⟨x, hx, hnone⟩ := List.any_eq_true.mp hany
    exact hnull ⟨x, hx, Option.isNone_iff_eq_none.mp hnone⟩
  have hsorted : sortEntriesByDate (rt.sorting o) (candidatesFor p entries) =
      some (sortByDate (rt.sorting o) (candidatesFor p entries)) := by
    apply if_neg
    rintro ⟨hlength, hany⟩
    exact hthrows ⟨hlength, List.any_eq_true.mp hany⟩
  obtain ⟨rest, hrest⟩ := List.head?_eq_some_iff.mp (head_of_leading hlead horder)
  rw [backupList, hkept, Option.bind_some, hsorted]
  dsimp only
  rw [hrest, printedEntries]
  cases json with
  | true => rfl
  | false =>
    have hprintable : printable e = true := by
      rw [← Bool.not_eq_false]
      exact fun hfalse => hline ⟨rfl, hfalse⟩
    rw [if_neg Bool.false_ne_true, List.takeWhile_cons_of_pos hprintable]
    rfl

/-- Where the order of the platform's entries may differ, or where sorting all entries throws, some order has the
first index pick another entry than the one that is printed. -/
theorem exists_disagreement (hnothing : ¬NothingPrinted rt json p entries) (hsame : ¬SameOrder rt p entries) :
    ∃ o, ¬IndexesAgree (rt.sorting o) json (some p) entries := by
  rw [NothingPrinted, not_or, not_or] at hnothing
  obtain ⟨hnull, hthrows, hprinted⟩ := hnothing
  push Not at hprinted
  obtain ⟨e, hlead, hline⟩ := hprinted
  have hmem : e ∈ candidatesFor p entries := by
    rw [leading] at hlead
    split_ifs at hlead with hconsistent
    · exact (sortByDate_perm _).mem_iff.mp (List.mem_of_head? (Option.mem_toList.mp hlead))
    · exact hlead
  have hfirst (o : DateOrder) (horder : (o.order (candidatesFor p entries)).head? = some e) :
      (backupList (rt.sorting o) json (some p) entries)[0]? = some e :=
    backupList_first hnull hthrows hlead (fun h => hline h.1 h.2) horder
  obtain ⟨rest, hrest⟩ := exists_lead hmem
  by_cases hsorts : entries.length < 2 ∨ ∀ x ∈ entries, dateThrows x = false
  · have hagrees : ¬(AgreeingDates rt entries ∨ (∀ x ∈ entries, isFor p x = true) ∨
        ∀ a ∈ candidatesFor p entries, ∀ b ∈ candidatesFor p entries, a = b) := fun h => hsame ⟨hsorts, h⟩
    rw [not_or, not_or] at hagrees
    obtain ⟨hdates, hothers, hdiffer⟩ := hagrees
    have hne : candidatesFor p entries ≠ entries := fun heq => hothers (List.filter_eq_self.mp heq)
    -- another entry of the platform is put first among all
    have hother : ∃ c ∈ candidatesFor p entries, c ≠ e := by
      by_contra hall
      push Not at hall
      exact hdiffer fun a ha b hb => (hall a ha).trans (hall b hb).symm
    obtain ⟨c, hc, hce⟩ := hother
    obtain ⟨hcmem, hcfor⟩ := List.mem_filter.mp hc
    obtain ⟨others, hothers'⟩ := exists_lead hcmem
    obtain ⟨o, ho, ho'⟩ := exists_order hne hrest hothers'
    refine ⟨o, fun hagree => ?_⟩
    have hpicked := hagree 0 e (hfirst o (by rw [ho]; rfl))
    obtain ⟨-, hpicked⟩ := restoreEntry_some hpicked
    have hsorted : sortByDate (rt.sorting o) entries = c :: others :=
      (if_neg (mt agreeingDates_iff.mpr hdates)).trans ho'
    rw [hsorted, List.filter_cons_of_pos hcfor] at hpicked
    exact hce (Option.some.inj hpicked)
  · -- sorting all entries throws, and that of the platform's does not
    rw [not_or] at hsorts
    obtain ⟨hlength, hall⟩ := hsorts
    push Not at hall
    obtain ⟨x, hx, hthrow⟩ := hall
    have hne : candidatesFor p entries ≠ entries := by
      intro heq
      rw [heq] at hthrows
      exact hthrows ⟨by omega, x, hx, by simpa using hthrow⟩
    obtain ⟨o, ho, -⟩ := exists_order hne hrest (.refl entries)
    refine ⟨o, fun hagree => ?_⟩
    have hpicked := hagree 0 e (hfirst o (by rw [ho]; rfl))
    exact (restoreEntry_some hpicked).1 ⟨by omega, List.any_eq_true.mpr ⟨x, hx, by simpa using hthrow⟩⟩

end

/-- Whatever order `sort` leaves, `backup restore` picks the entries that `backup list` prints, just in case no
platform is given, or nothing is printed, or sorting all entries does not throw and leaves those of the platform
as they are sorted alone. -/
theorem picksListed_iff (rt : BackupRuntime) (json : Bool) (platform : Option JsString)
    (entries : List JsValue) : (∀ o, IndexesAgree (rt.sorting o) json platform entries) ↔
      ∀ p, platform = some p → NothingPrinted rt json p entries ∨ SameOrder rt p entries := by
  cases platform with
  | none => exact iff_of_true (fun o => indexesAgree_all) fun p hp => by cases hp
  | some p =>
    constructor
    · rintro h _ ⟨⟩
      by_contra hnot
      rw [not_or] at hnot
      obtain ⟨o, ho⟩ := exists_disagreement hnot.1 hnot.2
      exact ho (h o)
    · intro h o i e he
      rcases h p rfl with hnothing | hsame
      · rw [hnothing.list_empty] at he
        cases he
      · have hsorting : SameOrder (rt.sorting o) p entries := ⟨hsame.sorts, hsame.agrees⟩
        exact hsorting.indexesAgree i e he

/-! ### An entry without a date -/

/-- Three backups of which the second has no date -/
def listedBackup (platform takenAt : String) : JsValue :=
  .obj [(js "platform", .str (js platform)), (js "target_id", .str (js "vm-101")),
    (js "backup_type", .str (js "full")), (js "taken_at", .str (js takenAt)),
    (js "location", .str (js "/backups/vm-101.zst"))]

def undatedManifest : List JsValue :=
  [listedBackup "proxmox" "2026-03-01T00:00:00.000Z", listedBackup "docker" "yesterday",
    listedBackup "proxmox" "2026-03-02T00:00:00.000Z"]

def parseBackupDates (s : JsString) : Option ℤ :=
  if s = js "2026-03-01T00:00:00.000Z" then some 1772323200000
  else if s = js "2026-03-02T00:00:00.000Z" then some 1772409600000
  else none

def backupDate (e : JsValue) : Option ℤ := parseBackupDates (property (js "taken_at") e).coerce

/-- The dates of the three backups, and an insertion sort, which short lists are sorted by -/
def undatedRuntime : BackupRuntime where
  now := 1772500000000
  isoNow := js "2026-03-03T00:00:00.000Z"
  dateParse := parseBackupDates
  secret := none
  hmacSha256 _ _ := []
  syntaxMessage s := s
  anyOrder l := l.insertionSort fun a b => Comparator.laterFirst backupDate a b = true
  anyOrder_perm l := List.perm_insertionSort _ l

theorem mergeSort_pair {a b : JsValue} {le : JsValue → JsValue → Bool} (h : le a b = false) :
    [a, b].mergeSort le = [b, a] := by
  simp [List.mergeSort, List.MergeSort.Internal.splitInTwo, h]

/-- The newer backup is listed first, and the older one is restored. -/
theorem picksListed_fails : ¬IndexesAgree undatedRuntime false (some (js "proxmox")) undatedManifest := by
  intro h
  have hcandidates : filterByPlatform (some (js "proxmox")) undatedManifest =
      some [listedBackup "proxmox" "2026-03-01T00:00:00.000Z",
        listedBackup "proxmox" "2026-03-02T00:00:00.000Z"] := by rfl
  have hlisted : (backupList undatedRuntime false (some (js "proxmox")) undatedManifest)[0]? =
      some (listedBackup "proxmox" "2026-03-02T00:00:00.000Z") := by
    rw [backupList, hcandidates, Option.bind_some, sortEntriesByDate, if_neg (by decide), sortByDate,
      if_pos (by decide), mergeSort_pair (by decide)]
    rfl
  have hpicked : restoreEntry undatedRuntime (some (js "proxmox")) undatedManifest (indexText 0) =
      some (listedBackup "proxmox" "2026-03-01T00:00:00.000Z") := by rfl
  have hsame := (h 0 _ hlisted).symm.trans hpicked
  simp only [listedBackup, Option.some.injEq, JsValue.obj.injEq, List.cons.injEq, Prod.mk.injEq, true_and,
    and_true, JsValue.str.injEq] at hsame
  exact absurd hsame (by decide)

end Homelab
