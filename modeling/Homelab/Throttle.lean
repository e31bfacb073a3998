import Mathlib.Data.List.Induction

/-! What is held back for a while: a key that has been let through is suppressed until its window is
over, whatever has become of what was let through. -/
namespace Throttle

variable {Key Time : Type} [DecidableEq Key]

/-- What was asked about, and what has become of it -/
structure Offer (Key Time : Type) where
  key : Key
  time : Time
  suppressed : Bool
  persisted : Bool
deriving DecidableEq

/-- One question to the marks: whether the key is suppressed, and the marks after it. -/
def check (within : Time → Time → Bool) (marks : List (Key × Time)) (key : Key) (now : Time) :
    Bool × List (Key × Time) :=
  if (marks.lookup key).any (within now) then (true, marks)
  else (false, (key, now) :: marks.filter fun mark => mark.1 ≠ key)

/-- A question, and whether what is let through is persisted -/
structure Ask (Key Time : Type) where
  key : Key
  time : Time
  saves : Bool

/-- What becomes of a list of questions; the last of them stands first. -/
def askAll (within : Time → Time → Bool) :
    List (Ask Key Time) → List (Key × Time) → List (Offer Key Time) × List (Key × Time)
  | [], marks => ([], marks)
  | ask :: asks, marks =>
    let (suppressed, marks') := check within marks ask.key ask.time
    let rest := askAll within asks marks'
    (rest.1 ++ [⟨ask.key, ask.time, suppressed, !suppressed && ask.saves⟩], rest.2)

/-- Each offer stands so to those before it. -/
def EveryOffer (P : Offer Key Time → List (Offer Key Time) → Prop) : List (Offer Key Time) → Prop
  | [] => True
  | e :: earlier => P e earlier ∧ EveryOffer P earlier

/-- The last offer of a key that was let through -/
def opening (trail : List (Offer Key Time)) (key : Key) : Option (Offer Key Time) :=
  trail.find? fun r => r.key = key ∧ r.suppressed = false

/-- What is suppressed has been persisted before, under the same key and within the window. -/
def Recorded (within : Time → Time → Bool) (e : Offer Key Time) (earlier : List (Offer Key Time)) : Prop :=
  e.suppressed = true →
    ∃ r ∈ earlier, r.persisted = true ∧ r.key = e.key ∧ within e.time r.time = true

/-- What was let through is persisted, when it is asked about again within the window. -/
def Backed (within : Time → Time → Bool) (e r : Offer Key Time) : Prop :=
  r.key = e.key → within e.time r.time = true → r.suppressed = false → r.persisted = true

/-- An offer is suppressed by the last one of its key that was let through, and is not persisted
then. -/
def Told (within : Time → Time → Bool) (e : Offer Key Time) (earlier : List (Offer Key Time)) : Prop :=
  e.suppressed = (opening earlier e.key).any (fun r => within e.time r.time) ∧
    (e.persisted = true → e.suppressed = false)

/-- An offer is suppressed when another one of its key came within the window before it, whatever
became of that one. -/
def Slides (within : Time → Time → Bool) (e : Offer Key Time) (earlier : List (Offer Key Time)) : Prop :=
  e.suppressed = true ↔ ∃ r ∈ earlier, r.key = e.key ∧ within e.time r.time = true

/-- Three times of one key, each within the window of the one before, but the last not within that
of the first -/
structure Straddles (within : Time → Time → Bool) (first second third : Key × Time) : Prop where
  firstKey : first.1 = third.1
  secondKey : second.1 = third.1
  opens : within second.2 first.2 = true
  goesOn : within third.2 second.2 = true
  closed : ¬ within third.2 first.2 = true

def Offer.mark (o : Offer Key Time) : Key × Time := (o.key, o.time)

def Ask.mark (ask : Ask Key Time) : Key × Time := (ask.key, ask.time)

variable {within : Time → Time → Bool} {before : Time → Time → Prop} {marks : List (Key × Time)}
  {trail later earlier : List (Offer Key Time)} {key : Key} {e o r : Offer Key Time}

/-! ### The marks -/

/-- The marks are those of the last offers that were let through. -/
structure MarksLaw (within : Time → Time → Bool) (marks : List (Key × Time))
    (trail : List (Offer Key Time)) : Prop where
  marked : ∀ key, marks.lookup key = (opening trail key).map Offer.time
  told : EveryOffer (Told within) trail

theorem lookup_filter_ne {K V : Type} [BEq K] [LawfulBEq K] [DecidableEq K] {key other : K}
    (h : other ≠ key) (marks : List (K × V)) :
    (marks.filter fun mark => mark.1 ≠ key).lookup other = marks.lookup other := by
  induction marks with
  | nil => rfl
  | cons mark marks ih =>
    by_cases hkey : mark.1 = key
    · have hother : (other == mark.1) = false := by
        rw [hkey]
        exact beq_false_of_ne h
      rw [List.filter_cons_of_neg (by simpa using hkey), ih, List.lookup_cons, hother]
    · rw [List.filter_cons_of_pos (by simpa using hkey), List.lookup_cons, List.lookup_cons, ih]

theorem opening_cons_suppressed (h : e.suppressed = true) (trail : List (Offer Key Time)) (key : Key) :
    opening (e :: trail) key = opening trail key := by
  have hnot : ¬ (decide (e.key = key ∧ e.suppressed = false) = true) := by
    simp [h]
  exact List.find?_cons_of_neg hnot

theorem opening_cons_open (h : e.suppressed = false) (trail : List (Offer Key Time)) :
    opening (e :: trail) e.key = some e := by
  have hopen : decide (e.key = e.key ∧ e.suppressed = false) = true := decide_eq_true ⟨rfl, h⟩
  exact List.find?_cons_of_pos hopen

theorem opening_cons_ne (h : e.key ≠ key) (trail : List (Offer Key Time)) :
    opening (e :: trail) key = opening trail key := by
  have hnot : ¬ (decide (e.key = key ∧ e.suppressed = false) = true) := by
    simp [h]
  exact List.find?_cons_of_neg hnot

theorem check_fst (within : Time → Time → Bool) (marks : List (Key × Time)) (key : Key) (now : Time) :
    (check within marks key now).1 = (marks.lookup key).any (within now) := by
  rw [check]
  split_ifs with hwithin
  · exact hwithin.symm
  · exact (Bool.eq_false_iff.mpr hwithin).symm

theorem marksLaw_check (h : MarksLaw within marks trail) (ask : Ask Key Time) :
    MarksLaw within (check within marks ask.key ask.time).2
      (⟨ask.key, ask.time, (check within marks ask.key ask.time).1,
        !(check within marks ask.key ask.time).1 && ask.saves⟩ :: trail) := by
  have hmark : (marks.lookup ask.key).any (within ask.time) =
      (opening trail ask.key).any fun r => within ask.time r.time := by
    rw [h.marked ask.key, Option.any_map]
  rw [check]
  split_ifs with hwithin
  · constructor
    · intro key
      exact (h.marked key).trans (congrArg _ (opening_cons_suppressed rfl trail key).symm)
    · refine ⟨⟨hwithin.symm.trans hmark, ?_⟩, h.told⟩
      intro hpersisted
      cases hpersisted
  · constructor
    · intro key
      by_cases hkey : key = ask.key
      · subst hkey
        rw [List.lookup_cons_self]
        let e : Offer Key Time := ⟨ask.key, ask.time, false, !false && ask.saves⟩
        have hopen : opening (e :: trail) ask.key = some e := opening_cons_open rfl trail
        exact (congrArg (Option.map Offer.time) hopen).symm
      · have hne : (key == ask.key) = false := beq_false_of_ne hkey
        rw [List.lookup_cons, hne]
        dsimp only
        rw [lookup_filter_ne hkey, h.marked key]
        exact congrArg _ (opening_cons_ne (Ne.symm hkey) trail).symm
    · exact ⟨⟨(Bool.eq_false_iff.mpr hwithin).symm.trans hmark, fun _ => rfl⟩, h.told⟩

/-- The marks keep to the trail through any list of questions. -/
theorem marksLaw_askAll (asks : List (Ask Key Time)) (h : MarksLaw within marks trail) :
    MarksLaw within (askAll within asks marks).2 ((askAll within asks marks).1 ++ trail) := by
  induction asks generalizing marks trail with
  | nil => exact h
  | cons ask asks ih =>
    have hrest := ih (marksLaw_check h ask)
    rw [askAll]
    dsimp only
    rw [List.append_assoc, List.singleton_append]
    exact hrest

/-! ### What suppression says -/

omit [DecidableEq Key] in
theorem EveryOffer.of_append {P : Offer Key Time → List (Offer Key Time) → Prop}
    (h : EveryOffer P (later ++ trail)) : EveryOffer P trail := by
  induction later with
  | nil => exact h
  | cons e later ih => exact ih h.2

theorem opening_mem (h : opening trail key = some o) : o ∈ trail ∧ o.key = key ∧ o.suppressed = false := by
  have hfound := List.find?_some h
  exact ⟨List.mem_of_find?_eq_some h, of_decide_eq_true hfound⟩

theorem told_open (htold : EveryOffer (Told within) trail) (hr : r ∈ trail) (h : r.persisted = true) :
    r.suppressed = false := by
  induction trail with
  | nil => cases hr
  | cons e earlier ih =>
    rcases List.mem_cons.mp hr with rfl | hr
    · exact htold.1.2 h
    · exact ih htold.2 hr

/-- When all that was let through and is asked about again is persisted, suppression says so. -/
theorem recorded_of_backed (htold : EveryOffer (Told within) trail) (h : trail.Pairwise (Backed within)) :
    EveryOffer (Recorded within) trail := by
  induction trail with
  | nil => exact trivial
  | cons e earlier ih =>
    obtain ⟨hfirst, hrest⟩ := List.pairwise_cons.mp h
    refine ⟨?_, ih htold.2 hrest⟩
    intro hsuppressed
    rw [htold.1.1, Option.any_eq_true] at hsuppressed
    obtain ⟨o, ho, hwithin⟩ := hsuppressed
    obtain ⟨hmem, hkey, hopen⟩ := opening_mem ho
    exact ⟨o, hmem, hfirst o hmem hkey hwithin hopen, hkey, hwithin⟩

/-- The offers of a key that were let through are the last one and some before it. -/
theorem opening_split (ho : opening trail key = some o) (hr : r ∈ trail) (hkey : r.key = key)
    (hopen : r.suppressed = false) :
    ∃ later earlier, trail = later ++ o :: earlier ∧ (r = o ∨ r ∈ earlier) := by
  obtain ⟨-, later, earlier, htrail, hnone⟩ := List.find?_eq_some_iff_append.mp ho
  refine ⟨later, earlier, htrail, ?_⟩
  rw [htrail] at hr
  rcases List.mem_append.mp hr with hr | hr
  · have hnot := hnone r hr
    rw [decide_eq_true (And.intro hkey hopen)] at hnot
    cases hnot
  · exact List.mem_cons.mp hr

theorem exists_opening (hr : r ∈ trail) (hkey : r.key = key) (hopen : r.suppressed = false) :
    ∃ o, opening trail key = some o := by
  apply Option.isSome_iff_exists.mp
  rw [opening, List.find?_isSome]
  exact ⟨r, hr, decide_eq_true ⟨hkey, hopen⟩⟩

/-- Two elements in this order stand in the first of two lists, in the second or across them. -/
theorem pair_sublist_append {α : Type} {x y : α} {first second : List α}
    (h : [x, y].Sublist (first ++ second)) :
    y ∈ first ∨ x ∈ first ∧ y ∈ second ∨ [x, y].Sublist second := by
  induction first with
  | nil => exact .inr (.inr h)
  | cons z first ih =>
    rcases List.sublist_cons_iff.mp h with h | ⟨rest, hrest, h⟩
    · rcases ih h with hy | ⟨hx, hy⟩ | h
      · exact .inl (List.mem_cons_of_mem z hy)
      · exact .inr (.inl ⟨List.mem_cons_of_mem z hx, hy⟩)
      · exact .inr (.inr h)
    · obtain ⟨rfl, rfl⟩ : x = z ∧ [y] = rest := List.cons_eq_cons.mp hrest
      rcases List.mem_append.mp (List.singleton_sublist.mp h) with hy | hy
      · exact .inl (List.mem_cons_of_mem x hy)
      · exact .inr (.inl ⟨List.mem_cons_self, hy⟩)

section Clock

variable (hearlier : ∀ a b c, before b a → within a c = true → within b c = true)
  (hlater : ∀ a c d, before c d → within a c = true → within a d = true)

include hearlier hlater

/-- Of all that was let through, the last one is the only one that is still within its window, as long
as time does not go back. -/
theorem opening_only (htold : EveryOffer (Told within) trail)
    (hclock : (e :: trail).Pairwise fun e r => before r.time e.time) (ho : opening trail e.key = some o)
    (hr : r ∈ trail) (hkey : r.key = e.key) (hwithin : within e.time r.time = true)
    (hopen : r.suppressed = false) : r = o := by
  obtain ⟨hnow, hclock⟩ := List.pairwise_cons.mp hclock
  obtain ⟨hmem, hokey, hoopen⟩ := opening_mem ho
  obtain ⟨later, earlier, rfl, rfl | hr⟩ := opening_split ho hr hkey hopen
  · rfl
  · -- the last one was let through, so that the other was out of its window by then
    have hold : within o.time r.time = true := hearlier _ _ _ (hnow o hmem) hwithin
    have hkey' : r.key = o.key := hkey.trans hokey.symm
    obtain ⟨htold', -⟩ := htold.of_append
    have hclock' := (List.pairwise_cons.mp (List.pairwise_append.mp hclock).2.1).2
    obtain ⟨o', ho'⟩ := exists_opening hr hkey' hopen
    have hwithin' : within o.time o'.time = true := by
      obtain ⟨later', earlier', rfl, rfl | hr⟩ := opening_split ho' hr hkey' hopen
      · exact hold
      · have hclock'' := List.pairwise_cons.mp (List.pairwise_append.mp hclock').2.1
        exact hlater _ _ _ (hclock''.1 r hr) hold
    have hsuppressed := htold'.1
    rw [ho', Option.any_some, hwithin', hoopen] at hsuppressed
    cases hsuppressed

/-- When suppression says so, all that was let through and is asked about again is persisted. -/
theorem backed_of_recorded (htold : EveryOffer (Told within) trail)
    (hclock : trail.Pairwise fun e r => before r.time e.time) (h : EveryOffer (Recorded within) trail) :
    trail.Pairwise (Backed within) := by
  induction trail with
  | nil => exact List.Pairwise.nil
  | cons e earlier ih =>
    refine List.Pairwise.cons ?_ (ih htold.2 (List.pairwise_cons.mp hclock).2 h.2)
    intro r hr hkey hwithin hopen
    obtain ⟨o, ho⟩ := exists_opening hr hkey hopen
    have honly {x : Offer Key Time} (hx : x ∈ earlier) (hkey : x.key = e.key)
        (hwithin : within e.time x.time = true) (hopen : x.suppressed = false) : x = o :=
      opening_only hearlier hlater htold.2 hclock ho hx hkey hwithin hopen
    obtain rfl := honly hr hkey hwithin hopen
    have hsuppressed : e.suppressed = true := by
      rw [htold.1.1, ho]
      exact hwithin
    obtain ⟨q, hq, hpersisted, hqkey, hqwithin⟩ := h.1 hsuppressed
    obtain rfl := honly hq hqkey hqwithin (told_open htold.2 hq hpersisted)
    exact hpersisted

omit hearlier in
/-- The last offer that was let through is within the window if any that was let through is. -/
theorem opening_within (hclock : trail.Pairwise fun e r => before r.time e.time) {now : Time} (hr : r ∈ trail)
    (hkey : r.key = key) (hopen : r.suppressed = false) (hwithin : within now r.time = true) :
    (opening trail key).any (fun o => within now o.time) = true := by
  obtain ⟨o, ho⟩ := exists_opening hr hkey hopen
  rw [ho]
  obtain ⟨later, rest, rfl, rfl | hr⟩ := opening_split ho hr hkey hopen
  · exact hwithin
  · have hclock' := (List.pairwise_append.mp hclock).2.1
    exact hlater _ _ _ ((List.pairwise_cons.mp hclock').1 r hr) hwithin

omit hearlier in
/-- Without three offers that straddle the window it slides. -/
theorem slides_of_straight (htold : EveryOffer (Told within) trail)
    (hclock : trail.Pairwise fun e r => before r.time e.time)
    (h : ∀ third second first, [third, second, first].Sublist trail →
      ¬ Straddles within first.mark second.mark third.mark) :
    EveryOffer (Slides within) trail := by
  induction trail with
  | nil => exact trivial
  | cons e earlier ih =>
    have htimes := (List.pairwise_cons.mp hclock).2
    refine ⟨?_, ih htold.2 htimes fun c b a hsub => h c b a (hsub.cons e)⟩
    rw [Slides, htold.1.1]
    constructor
    · intro hany
      rw [Option.any_eq_true] at hany
      obtain ⟨o, ho, hwithin⟩ := hany
      obtain ⟨hmem, hkey, -⟩ := opening_mem ho
      exact ⟨o, hmem, hkey, hwithin⟩
    · rintro ⟨r, hr, hkey, hwithin⟩
      cases hsuppressed : r.suppressed with
      | false => exact opening_within hlater htimes hr hkey hsuppressed hwithin
      | true =>
        -- what suppressed it is within the window still, or the three straddle it
        obtain ⟨later, rest, rfl⟩ := List.append_of_mem hr
        have htold' := (htold.2.of_append).1.1
        rw [hsuppressed, eq_comm, Option.any_eq_true] at htold'
        obtain ⟨o, ho, hopens⟩ := htold'
        obtain ⟨hmem, hokey, hopen⟩ := opening_mem ho
        have hmem' : o ∈ later ++ r :: rest := List.mem_append_right _ (List.mem_cons_of_mem _ hmem)
        apply opening_within hlater htimes hmem' (hokey.trans hkey) hopen
        by_contra hover
        have hsub : [r, o].Sublist (r :: rest) := (List.singleton_sublist.mpr hmem).cons_cons r
        refine h e r o ((hsub.trans (List.sublist_append_right later _)).cons_cons e) ?_
        exact ⟨hokey.trans hkey, hkey, hopens, hwithin, hover⟩

/-- A window that slides is not straddled. -/
theorem straight_of_slides (htold : EveryOffer (Told within) trail)
    (hclock : trail.Pairwise fun e r => before r.time e.time) (h : EveryOffer (Slides within) trail)
    {first second third : Offer Key Time} (hsub : [third, second, first].Sublist trail) :
    ¬ Straddles within first.mark second.mark third.mark := by
  induction trail with
  | nil => cases hsub
  | cons e earlier ih =>
    have htimes := (List.pairwise_cons.mp hclock).2
    rcases List.sublist_cons_iff.mp hsub with hsub | ⟨rest, hrest, hsub⟩
    · exact ih htold.2 htimes h.2 hsub
    · obtain ⟨rfl, rfl⟩ : third = e ∧ [second, first] = rest := List.cons_eq_cons.mp hrest
      intro hstraddles
      have hsecond : second ∈ earlier := hsub.subset List.mem_cons_self
      have hsuppressed : third.suppressed = true :=
        h.1.mpr ⟨second, hsecond, hstraddles.secondKey, hstraddles.goesOn⟩
      rw [htold.1.1, Option.any_eq_true] at hsuppressed
      obtain ⟨o, ho, hwithin⟩ := hsuppressed
      obtain ⟨-, hokey, hopen⟩ := opening_mem ho
      obtain ⟨-, later, rest, rfl, -⟩ := List.find?_eq_some_iff_append.mp ho
      have hacross := (List.pairwise_append.mp htimes).2.2
      -- nothing came within the window before what opened it
      have hfree (r : Offer Key Time) (hr : r ∈ rest) (hkey : r.key = third.key) :
          ¬ within o.time r.time = true := by
        intro hopens
        have hslides := (h.2.of_append).1.mpr ⟨r, hr, hkey.trans hokey.symm, hopens⟩
        rw [hopen] at hslides
        cases hslides
      rcases pair_sublist_append hsub with hfirst | ⟨hsecond, hfirst⟩ | hsub
      · exact hstraddles.closed (hlater _ _ _ (hacross first hfirst o List.mem_cons_self) hwithin)
      · rcases List.mem_cons.mp hfirst with rfl | hfirst
        · exact hstraddles.closed hwithin
        · have hopens := hearlier _ _ _ (hacross second hsecond o List.mem_cons_self) hstraddles.opens
          exact hfree first hfirst hstraddles.firstKey hopens
      · rcases List.sublist_cons_iff.mp hsub with hsub | ⟨tail, htail, hsub⟩
        · have hsecond : second ∈ rest := hsub.subset List.mem_cons_self
          have hnow := (List.pairwise_cons.mp hclock).1 o (List.mem_append_right _ List.mem_cons_self)
          exact hfree second hsecond hstraddles.secondKey (hearlier _ _ _ hnow hstraddles.goesOn)
        · obtain ⟨rfl, rfl⟩ : second = o ∧ [first] = tail := List.cons_eq_cons.mp htail
          exact hfree first (hsub.subset List.mem_cons_self) hstraddles.firstKey hstraddles.opens

end Clock

/-! ### Questions in their order -/

/-- What becomes of a question to the marks -/
def offerOf (within : Time → Time → Bool) (marks : List (Key × Time)) (ask : Ask Key Time) : Offer Key Time :=
  ⟨ask.key, ask.time, (check within marks ask.key ask.time).1,
    !(check within marks ask.key ask.time).1 && ask.saves⟩

variable {asks : List (Ask Key Time)}

theorem askAll_concat (asks : List (Ask Key Time)) (ask : Ask Key Time) (marks : List (Key × Time)) :
    (askAll within (asks ++ [ask]) marks).1 =
      offerOf within (askAll within asks marks).2 ask :: (askAll within asks marks).1 := by
  induction asks generalizing marks with
  | nil => rfl
  | cons first asks ih =>
    rw [List.cons_append, askAll, askAll]
    dsimp only
    rw [ih, List.cons_append]

/-- The offers are those of the questions, in the opposite order. -/
theorem offers_asked (asks : List (Ask Key Time)) (marks : List (Key × Time)) :
    (askAll within asks marks).1.map Offer.mark = (asks.map Ask.mark).reverse := by
  induction asks generalizing marks with
  | nil => rfl
  | cons ask asks ih =>
    rw [askAll, List.map_append, ih]
    simp only [List.map_cons, List.map_nil, List.reverse_cons]
    rfl

/-- What holds of each offer holds of each question. -/
theorem everyOffer_askAll {P : Offer Key Time → List (Offer Key Time) → Prop} (asks : List (Ask Key Time))
    (marks : List (Key × Time)) :
    EveryOffer P (askAll within asks marks).1 ↔ ∀ earlier ask later, asks = earlier ++ ask :: later →
      P (offerOf within (askAll within earlier marks).2 ask) (askAll within earlier marks).1 := by
  induction asks using List.reverseRecOn with
  | nil =>
    refine iff_of_true trivial fun earlier ask later h => ?_
    exact absurd h.symm (List.append_ne_nil_of_right_ne_nil _ (List.cons_ne_nil _ _))
  | append_singleton asks last ih =>
    rw [askAll_concat]
    change P _ _ ∧ EveryOffer P _ ↔ _
    rw [ih]
    constructor
    · rintro ⟨hlast, hrest⟩ earlier ask later h
      rcases List.eq_nil_or_concat later with rfl | ⟨later, x, rfl⟩
      · obtain ⟨rfl, hask⟩ := List.append_inj' h rfl
        obtain rfl : last = ask := List.singleton_inj.mp hask
        exact hlast
      · rw [List.concat_eq_append, ← List.cons_append, ← List.append_assoc] at h
        exact hrest earlier ask later (List.append_inj' h rfl).1
    · intro h
      refine ⟨h asks last [] rfl, fun earlier ask later hasks => ?_⟩
      refine h earlier ask (later ++ [last]) ?_
      rw [hasks, List.append_assoc, List.cons_append]

/-- Suppression slides when each question is suppressed by any other one of its key that came within
the window before it. -/
def SlidesOver (within : Time → Time → Bool) (asks : List (Ask Key Time)) : Prop :=
  ∀ earlier ask later, asks = earlier ++ ask :: later →
    ((check within (askAll within earlier []).2 ask.key ask.time).1 = true ↔
      ∃ r ∈ earlier, r.key = ask.key ∧ within ask.time r.time = true)

/-- No three questions of one key straddle the window. -/
def Straight (within : Time → Time → Bool) (asks : List (Ask Key Time)) : Prop :=
  ¬ ∃ first second third, [first, second, third].Sublist asks ∧
    Straddles within first.mark second.mark third.mark

theorem marksLaw_nil : MarksLaw within ([] : List (Key × Time)) [] := ⟨fun _ => rfl, trivial⟩

theorem exists_offer {marks : List (Key × Time)} {P : Key × Time → Prop} :
    (∃ r ∈ (askAll within asks marks).1, P r.mark) ↔ ∃ a ∈ asks, P a.mark := by
  have hpairs : (∃ mark ∈ (askAll within asks marks).1.map Offer.mark, P mark) ↔
      ∃ mark ∈ asks.map Ask.mark, P mark := by
    rw [offers_asked]
    simp only [List.mem_reverse]
  simpa only [List.mem_map, exists_exists_and_eq_and] using hpairs

omit [DecidableEq Key] in
theorem exists_three_map {α β : Type} {f : α → β} {l : List α} {P : β → β → β → Prop} :
    (∃ x y z, [x, y, z].Sublist (l.map f) ∧ P x y z) ↔ ∃ a b c, [a, b, c].Sublist l ∧
      P (f a) (f b) (f c) := by
  constructor
  · rintro ⟨x, y, z, hsub, h⟩
    obtain ⟨l', hl', hmap⟩ := List.sublist_map_iff.mp hsub
    match l', hmap with
    | [a, b, c], hmap =>
      obtain ⟨rfl, rfl, rfl⟩ : x = f a ∧ y = f b ∧ z = f c := by simpa using hmap
      exact ⟨a, b, c, hl', h⟩
  · rintro ⟨a, b, c, hsub, h⟩
    exact ⟨f a, f b, f c, hsub.map f, h⟩

/-- Three of the offers, in their order, are three of the questions in the opposite order. -/
theorem exists_three_offers {marks : List (Key × Time)} {P : Key × Time → Key × Time → Key × Time → Prop} :
    (∃ c b a, [c, b, a].Sublist (askAll within asks marks).1 ∧ P a.mark b.mark c.mark) ↔
      ∃ a b c, [a, b, c].Sublist asks ∧ P a.mark b.mark c.mark := by
  have hreverse {x y z : Key × Time} : [z, y, x].Sublist ((askAll within asks marks).1.map Offer.mark) ↔
      [x, y, z].Sublist (asks.map Ask.mark) := by
    rw [offers_asked, ← List.reverse_sublist, List.reverse_reverse]
    rfl
  rw [← exists_three_map (P := fun z y x => P x y z), ← exists_three_map (P := P)]
  constructor
  · rintro ⟨z, y, x, hsub, h⟩
    exact ⟨x, y, z, hreverse.mp hsub, h⟩
  · rintro ⟨x, y, z, hsub, h⟩
    exact ⟨z, y, x, hreverse.mpr hsub, h⟩

section Clock

variable (hearlier : ∀ a b c, before b a → within a c = true → within b c = true)
  (hlater : ∀ a c d, before c d → within a c = true → within a d = true)

include hearlier hlater

/-- As long as time does not go back, suppression slides if and only if no three questions straddle
the window. -/
theorem slidesOver_iff (hclock : asks.Pairwise fun a b => before a.time b.time) :
    SlidesOver within asks ↔ Straight within asks := by
  have htold : EveryOffer (Told within) ((askAll within asks []).1 ++ []) :=
    (marksLaw_askAll asks marksLaw_nil).told
  rw [List.append_nil] at htold
  have htimes : (askAll within asks []).1.Pairwise fun e r => before r.time e.time := by
    have hreverse : ((asks.map Ask.mark).reverse).Pairwise fun e r => before r.2 e.2 := by
      rw [List.pairwise_reverse, List.pairwise_map]
      exact hclock
    rwa [← offers_asked asks [], List.pairwise_map] at hreverse
  have hslides : SlidesOver within asks ↔ EveryOffer (Slides within) (askAll within asks []).1 := by
    rw [everyOffer_askAll]
    refine forall_congr' fun earlier => forall_congr' fun ask => forall_congr' fun later =>
      imp_congr_right fun _ => ?_
    exact iff_congr Iff.rfl
      (exists_offer (P := fun mark => mark.1 = ask.key ∧ within ask.time mark.2 = true)).symm
  have hstraight : Straight within asks ↔ ¬ ∃ c b a, [c, b, a].Sublist (askAll within asks []).1 ∧
      Straddles within a.mark b.mark c.mark := not_congr exists_three_offers.symm
  rw [hslides, hstraight]
  constructor
  · rintro h ⟨c, b, a, hsub, hstraddles⟩
    exact straight_of_slides hearlier hlater htold htimes h hsub hstraddles
  · intro h
    exact slides_of_straight hlater htold htimes fun c b a hsub hstraddles => h ⟨c, b, a, hsub, hstraddles⟩

end Clock

end Throttle
