import Homelab.Collector
import Mathlib.Data.Rat.Floor

/-! The window of the dedup cache: over sequences of calls, and across a restart, after which the
cache is filled from the observations that have been persisted. -/
namespace Homelab
open Js Throttle

variable {windowMs : JsNumber} {dateMs : JsString → Option ℤ}

/-! ### Sequences of calls -/

/-- Calls of `isDuplicate`, each with its observation and time -/
abbrev DedupCalls := List (Observation × ℤ)

def DedupCache.callAll (cache : DedupCache) : DedupCalls → DedupCache
  | [] => cache
  | (obs, now) :: calls => (cache.check obs.key (some now)).2.callAll calls

/-- A call returns `true` if and only if some call with its key came within the window before it. -/
def DedupSlides (windowMs : JsNumber) (calls : DedupCalls) : Prop :=
  ∀ earlier obs now later, calls = earlier ++ (obs, now) :: later →
    ((((⟨windowMs, []⟩ : DedupCache).callAll earlier).check obs.key (some now)).1 = true ↔
      ∃ call ∈ earlier, call.1.key = obs.key ∧ withinWindow windowMs (some now) (some call.2) = true)

def dedupMark (call : Observation × ℤ) : JsString × Option ℤ := (call.1.key, some call.2)

/-- No three calls of one key straddle the window: each less than it after the one before, but the
third not less than it after the first. -/
def NoStraddling (windowMs : JsNumber) (calls : DedupCalls) : Prop :=
  ¬ ∃ first second third, [first, second, third].Sublist calls ∧
    Straddles (withinWindow windowMs) (dedupMark first) (dedupMark second) (dedupMark third)

def dedupAsk (call : Observation × ℤ) : CacheAsk := ⟨call.1.key, some call.2, true⟩

theorem callAll_eq (cache : DedupCache) (calls : DedupCalls) :
    cache.callAll calls =
      { cache with seen := (askAll (withinWindow cache.windowMs) (calls.map dedupAsk) cache.seen).2 } := by
  induction calls generalizing cache with
  | nil => rfl
  | cons call calls ih => exact ih _

theorem check_callAll (calls : DedupCalls) (obs : Observation) (now : ℤ) :
    (((⟨windowMs, []⟩ : DedupCache).callAll calls).check obs.key (some now)).1 =
      (Throttle.check (withinWindow windowMs) (askAll (withinWindow windowMs) (calls.map dedupAsk) []).2
        obs.key (some now)).1 := by
  rw [callAll_eq]
  rfl

theorem dedupSlides_asks (calls : DedupCalls) :
    DedupSlides windowMs calls ↔ SlidesOver (withinWindow windowMs) (calls.map dedupAsk) := by
  have hearlier (earlier : DedupCalls) (obs : Observation) (now : ℤ) :
      (∃ r ∈ earlier.map dedupAsk, r.key = obs.key ∧ withinWindow windowMs (some now) r.time = true) ↔
        ∃ call ∈ earlier, call.1.key = obs.key ∧ withinWindow windowMs (some now) (some call.2) = true := by
    simp only [List.mem_map, exists_exists_and_eq_and]
    rfl
  constructor
  · intro h earlier ask later hcalls
    obtain ⟨before, rest, rfl, rfl, hrest⟩ := List.map_eq_append_iff.mp hcalls
    obtain ⟨⟨obs, now⟩, after, rfl, rfl, -⟩ := List.map_eq_cons_iff.mp hrest
    have hcall := h before obs now after rfl
    rw [check_callAll] at hcall
    exact hcall.trans (hearlier before obs now).symm
  · rintro h earlier obs now later rfl
    have hask := h (earlier.map dedupAsk) (dedupAsk (obs, now)) (later.map dedupAsk) (List.map_append ..)
    rw [check_callAll]
    exact hask.trans (hearlier earlier obs now)

/-- The window slides over a sequence of calls at times that do not go back if and only if no three
of them straddle it. -/
theorem dedup_slides_iff (windowMs : JsNumber) (calls : DedupCalls)
    (hclock : calls.Pairwise fun a b => a.2 ≤ b.2) :
    DedupSlides windowMs calls ↔ NoStraddling windowMs calls := by
  have htimes : (calls.map dedupAsk).Pairwise fun a b => NotAfter a.time b.time := by
    rw [List.pairwise_map]
    exact hclock.imp fun hab => ⟨_, _, rfl, rfl, hab⟩
  rw [dedupSlides_asks, slidesOver_iff withinWindow_earlier withinWindow_later htimes]
  exact not_congr exists_three_map

/-- Two calls within an hour -/
theorem dedup_slides_twice :
    DedupSlides (.ofNat 3600000) [(crashLoop, 0), (crashLoop, 1800000)] := by
  apply (dedup_slides_iff (.ofNat 3600000) [(crashLoop, 0), (crashLoop, 1800000)] (by decide)).mpr
  rintro ⟨first, second, third, hsub, -⟩
  have hlength := hsub.length_le
  rw [List.length_cons, List.length_cons, List.length_cons, List.length_cons, List.length_cons] at hlength
  omega

/-- Three calls, each half an hour after the one before -/
theorem dedup_fixed : ¬ ∀ (windowMs : JsNumber) (calls : DedupCalls),
    calls.Pairwise (fun a b => a.2 ≤ b.2) → DedupSlides windowMs calls := by
  intro h
  have hcalls := h (.ofNat 3600000) [(crashLoop, 0), (crashLoop, 1800000), (crashLoop, 3600000)] (by decide)
  have hthird := (hcalls [(crashLoop, 0), (crashLoop, 1800000)] crashLoop 3600000 [] rfl).mpr
    ⟨(crashLoop, 1800000), List.mem_cons_of_mem _ List.mem_cons_self, rfl, by decide +kernel⟩
  revert hthird
  decide +kernel

/-! ### A restart -/

/-- `hydrate` -/
def DedupCache.hydrate (dateMs : JsString → Option ℤ) (now : ℤ) (cache : DedupCache) :
    List Observation → DedupCache
  | [] => cache
  | obs :: rest =>
    match dateMs obs.discoveredAt with
    | none => cache.hydrate dateMs now rest
    | some ts =>
      if withinWindow cache.windowMs (some now) (some ts) then
        ({ cache with seen := (obs.key, some ts) :: cache.seen.filter fun seen => seen.1 ≠ obs.key } :
          DedupCache).hydrate dateMs now rest
      else cache.hydrate dateMs now rest

def oneHourMs : ℤ := 3600000

/-- `list({ since })` -/
def listObservations (localeCompare : JsString → JsString → ℤ) (dateMs : JsString → Option ℤ) (since : ℤ)
    (stored : List Observation) : List Observation :=
  (listSince dateMs since stored).mergeSort fun a b => localeCompare b.discoveredAt a.discoveredAt ≤ 0

/-- The answer of `isDuplicate` by a cache that has been filled from a list at a time -/
def restartAnswer (dateMs : JsString → Option ℤ) (windowMs : JsNumber) (now : ℤ) (listed : List Observation)
    (obs : Observation) (t : ℤ) : Bool :=
  (((⟨windowMs, []⟩ : DedupCache).hydrate dateMs now listed).check obs.key (some t)).1

/-- The observation has this date, which is less than the window before the time. -/
structure Observation.InWindow (dateMs : JsString → Option ℤ) (windowMs : JsNumber) (now : ℤ)
    (obs : Observation)
    (ts : ℤ) : Prop where
  dated : dateMs obs.discoveredAt = some ts
  within : withinWindow windowMs (some now) (some ts) = true

/-- Whatever has been persisted less than the window before a call is a duplicate to the cache that
has been filled from the listed observations, and it does not matter in which order they are listed.
-/
structure RestartKeeps (localeCompare : JsString → JsString → ℤ) (dateMs : JsString → Option ℤ)
    (windowMs : JsNumber) (since now : ℤ) (stored : List Observation) : Prop where
  known : ∀ obs t, now ≤ t → (∃ p ∈ stored, p.key = obs.key ∧ ∃ ts, p.InWindow dateMs windowMs t ts) →
    restartAnswer dateMs windowMs now (listObservations localeCompare dateMs since stored) obs t = true
  unordered : ∀ order, order.Perm (listObservations localeCompare dateMs since stored) → ∀ obs t, now ≤ t →
    restartAnswer dateMs windowMs now order obs t =
      restartAnswer dateMs windowMs now (listObservations localeCompare dateMs since stored) obs t

/-- Of a key with an observation within the window one is listed, and none that is listed and within
the window is older than another one, unless the window has no end. -/
def ListedLast (dateMs : JsString → Option ℤ) (windowMs : JsNumber) (since now : ℤ)
    (stored : List Observation) :
    Prop :=
  ∀ p ∈ stored, ∀ ts, p.InWindow dateMs windowMs now ts →
    (∃ q ∈ listSince dateMs since stored, q.key = p.key ∧ ∃ ts', q.InWindow dateMs windowMs now ts') ∧
      ∀ q ∈ listSince dateMs since stored, q.key = p.key → ∀ ts', q.InWindow dateMs windowMs now ts' →
        windowMs = .inf false ∨ ts ≤ ts'

variable {now t : ℤ} {cache : DedupCache} {order xs ys : List Observation}
  {p q obs : Observation} {ts ts' : ℤ}

theorem hydrate_windowMs (dateMs : JsString → Option ℤ) (now : ℤ) (cache : DedupCache)
    (order : List Observation) :
    (cache.hydrate dateMs now order).windowMs = cache.windowMs := by
  induction order generalizing cache with
  | nil => rfl
  | cons obs rest ih =>
    rw [DedupCache.hydrate]
    split
    · exact ih cache
    · split_ifs
      · exact ih _
      · exact ih cache

theorem hydrate_append (cache : DedupCache) (xs ys : List Observation) :
    cache.hydrate dateMs now (xs ++ ys) = (cache.hydrate dateMs now xs).hydrate dateMs now ys := by
  induction xs generalizing cache with
  | nil => rfl
  | cons obs rest ih =>
    rw [List.cons_append, DedupCache.hydrate, DedupCache.hydrate]
    split
    · exact ih cache
    · split_ifs
      · exact ih _
      · exact ih cache

/-- What is found of a key is the time of an observation of the list that is within the window, if
there is one; otherwise it is what the cache had. -/
def TakenFrom (dateMs : JsString → Option ℤ) (now : ℤ) (cache : DedupCache) (order : List Observation)
    (key : JsString) (found : Option (Option ℤ)) : Prop :=
  (∃ q ∈ order, q.key = key ∧ ∃ ts, q.InWindow dateMs cache.windowMs now ts ∧ found = some (some ts)) ∨
    (∀ q ∈ order, q.key = key → ∀ ts, ¬ q.InWindow dateMs cache.windowMs now ts) ∧ found =
      cache.seen.lookup key

variable {key : JsString} {found : Option (Option ℤ)}

theorem TakenFrom.skip (h : TakenFrom dateMs now cache order key found)
    (hout : ∀ ts, ¬ obs.InWindow dateMs cache.windowMs now ts) :
    TakenFrom dateMs now cache (obs :: order) key found := by
  rcases h with ⟨q, hq, hfound⟩ | ⟨hnone, hfound⟩
  · exact .inl ⟨q, List.mem_cons_of_mem obs hq, hfound⟩
  · refine .inr ⟨fun q hq => ?_, hfound⟩
    rcases List.mem_cons.mp hq with rfl | hq
    · exact fun _ => hout
    · exact hnone q hq

theorem TakenFrom.set (h : TakenFrom dateMs now
      { cache with seen := (obs.key, some ts) :: cache.seen.filter fun seen => seen.1 ≠ obs.key }
        order key found)
    (hin : obs.InWindow dateMs cache.windowMs now ts) :
    TakenFrom dateMs now cache (obs :: order) key found := by
  rcases h with ⟨q, hq, hfound⟩ | ⟨hnone, hfound⟩
  · exact .inl ⟨q, List.mem_cons_of_mem obs hq, hfound⟩
  · by_cases hkey : obs.key = key
    · subst hkey
      exact .inl ⟨obs, List.mem_cons_self, rfl, ts, hin, hfound.trans List.lookup_cons_self⟩
    · refine .inr ⟨fun q hq hqkey => ?_, ?_⟩
      · rcases List.mem_cons.mp hq with rfl | hq
        · exact absurd hqkey hkey
        · exact hnone q hq hqkey
      · have hne : (key == obs.key) = false := beq_false_of_ne (Ne.symm hkey)
        dsimp only at hfound
        rw [List.lookup_cons, hne] at hfound
        exact hfound.trans (Throttle.lookup_filter_ne (Ne.symm hkey) cache.seen)

theorem takenFrom_hydrate (dateMs : JsString → Option ℤ) (now : ℤ) (cache : DedupCache)
    (order : List Observation) (key : JsString) :
    TakenFrom dateMs now cache order key ((cache.hydrate dateMs now order).seen.lookup key) := by
  induction order generalizing cache with
  | nil => exact .inr ⟨fun q hq => absurd hq List.not_mem_nil, rfl⟩
  | cons obs rest ih =>
    rw [DedupCache.hydrate]
    cases hdate : dateMs obs.discoveredAt with
    | none =>
      refine (ih cache).skip fun ts hts => ?_
      cases hdate.symm.trans hts.dated
    | some ts =>
      dsimp only
      split_ifs with hwithin
      · exact (ih _).set ⟨hdate, hwithin⟩
      · refine (ih cache).skip fun ts' hts' => ?_
        obtain rfl : ts = ts' := Option.some_inj.mp (hdate.symm.trans hts'.dated)
        exact hwithin hts'.within

/-- The answer after a restart -/
theorem restartAnswer_eq (listed : List Observation) (obs : Observation) (t : ℤ) :
    restartAnswer dateMs windowMs now listed obs t =
      ((((⟨windowMs, []⟩ : DedupCache).hydrate dateMs now listed).seen.lookup obs.key).any
        (withinWindow windowMs (some t))) := by
  have hbeq : @instBEqOfDecidableEq JsString _ = List.instBEq := lawful_beq_subsingleton _ _
  have hwindow := hydrate_windowMs dateMs now ⟨windowMs, []⟩ listed
  rw [restartAnswer, DedupCache.check]
  dsimp only
  rw [check_fst, hbeq, hwindow]

/-- What is a duplicate after a restart has been persisted within the window. -/
theorem restartAnswer_sound {listed : List Observation}
    (h : restartAnswer dateMs windowMs now listed obs t = true) :
    ∃ q ∈ listed, q.key = obs.key ∧ ∃ ts, q.InWindow dateMs windowMs t ts := by
  rw [restartAnswer_eq, Option.any_eq_true] at h
  obtain ⟨last, hlast, hwithin⟩ := h
  rcases takenFrom_hydrate dateMs now ⟨windowMs, []⟩ listed obs.key with
    ⟨q, hq, hkey, ts, hin, hfound⟩ | ⟨-, hfound⟩
  · obtain rfl : last = some ts := Option.some_inj.mp (hlast.symm.trans hfound)
    exact ⟨q, hq, hkey, ts, hin.dated, hwithin⟩
  · cases hlast.symm.trans hfound

theorem Observation.InWindow.earlier (h : q.InWindow dateMs windowMs t ts) (ht : now ≤ t) :
    q.InWindow dateMs windowMs now ts :=
  ⟨h.dated, withinWindow_earlier _ _ _ ⟨now, t, rfl, rfl, ht⟩ h.within⟩

/-- The last observation of a list is the one that counts. -/
theorem restartAnswer_last (hq : q.InWindow dateMs windowMs now ts) (listed : List Observation) (t : ℤ) :
    restartAnswer dateMs windowMs now (listed ++ [q]) q t = withinWindow windowMs (some t) (some ts) := by
  have hwindow := hydrate_windowMs dateMs now ⟨windowMs, []⟩ listed
  have hwithin : withinWindow windowMs (some now) (some ts) = true := hq.within
  rw [restartAnswer_eq, hydrate_append, DedupCache.hydrate, hq.dated]
  dsimp only
  rw [hwindow, if_pos hwithin, DedupCache.hydrate, List.lookup_cons_self, Option.any_some]

/-- A window with an end is over for one date at a time at which it is not over for a later one. -/
theorem exists_last_moment (hfinite : windowMs ≠ .inf false)
    (h : withinWindow windowMs (some now) (some ts) = true)
    (hlt : ts' < ts) :
    ∃ t, now ≤ t ∧ withinWindow windowMs (some t) (some ts) = true ∧
      withinWindow windowMs (some t) (some ts') = false := by
  cases windowMs with
  | nan => cases h
  | inf s =>
    cases s with
    | true => cases h
    | false => exact absurd rfl hfinite
  | fin d =>
    have hvalue (t ts : ℤ) :
        withinWindow (.fin d) (some t) (some ts) = decide (((t-ts : ℤ) : ℚ) < d.value) := by
      rw [withinWindow, JsNumber.dateDiff_some, JsNumber.ofScaledInt, JsNumber.lt, Int.natCast_zero, neg_zero,
        JsNumber.value_ofScaledInt]
    rw [hvalue, decide_eq_true_eq] at h
    have hceil := Int.lt_ceil.mpr h
    -- the last whole moment of the window of the later date
    refine ⟨ts+⌈d.value⌉-1, ?_, ?_, ?_⟩
    · omega
    · rw [hvalue, decide_eq_true_eq, ← Int.lt_ceil]
      omega
    · rw [hvalue, decide_eq_false_iff_not, ← Int.lt_ceil]
      omega

/-! ### When a restart keeps the window -/

theorem mem_listObservations (localeCompare : JsString → JsString → ℤ) {since : ℤ}
    {stored : List Observation} :
    q ∈ listObservations localeCompare dateMs since stored ↔ q ∈ listSince dateMs since stored :=
  (List.mergeSort_perm _ _).mem_iff

theorem answers_of_listedLast {since : ℤ} {stored listed : List Observation}
    (h : ListedLast dateMs windowMs since now stored)
    (hlisted : ∀ q, q ∈ listed ↔ q ∈ listSince dateMs since stored) (ht : now ≤ t) (hp : p ∈ stored)
    (hkey : p.key = obs.key) (hin : p.InWindow dateMs windowMs t ts) :
    restartAnswer dateMs windowMs now listed obs t = true := by
  have hnow := hin.earlier ht
  obtain ⟨⟨q, hq, hqkey, ts', hqin⟩, hlast⟩ := h p hp ts hnow
  rw [restartAnswer_eq]
  rcases takenFrom_hydrate dateMs now ⟨windowMs, []⟩ listed obs.key with
    ⟨r, hr, hrkey, last, hrin, hfound⟩ | ⟨hnone, -⟩
  · rw [hfound, Option.any_some]
    rcases hlast r ((hlisted r).mp hr) (hrkey.trans hkey.symm) last hrin with rfl | hle
    · rfl
    · exact withinWindow_later _ _ _ ⟨ts, last, rfl, rfl, hle⟩ hin.within
  · exact absurd hqin (hnone q ((hlisted q).mpr hq) (hqkey.trans hkey) ts')

/-- A restart keeps the window if and only if of each key that has been persisted within it an
observation is listed, and no older one within it besides. -/
theorem restart_keeps_iff (localeCompare : JsString → JsString → ℤ) (dateMs : JsString → Option ℤ)
    (windowMs : JsNumber) (since now : ℤ) (stored : List Observation) :
    RestartKeeps localeCompare dateMs windowMs since now stored ↔
      ListedLast dateMs windowMs since now stored := by
  constructor
  · intro h p hp ts hin
    have hknown := h.known p now le_rfl ⟨p, hp, rfl, ts, hin⟩
    obtain ⟨q, hq, hqkey, ts', hqin⟩ := restartAnswer_sound hknown
    refine ⟨⟨q, (mem_listObservations localeCompare).mp hq, hqkey, ts', hqin⟩, fun q hq hqkey ts' hqin => ?_⟩
    -- an older date within the window is forgotten before `p` is, when it is the last to be listed
    by_contra hnot
    obtain ⟨hfinite, hlt⟩ := not_or.mp hnot
    obtain ⟨t, ht, hwithin, hover⟩ := exists_last_moment hfinite hin.within (not_le.mp hlt)
    -- in an order in which `q` comes last, the cache has forgotten `p` by then
    obtain ⟨before, after, hsplit⟩ := List.append_of_mem ((mem_listObservations localeCompare).mpr hq)
    have horder : (before ++ after ++ [q]).Perm (listObservations localeCompare dateMs since stored) := by
      rw [hsplit]
      exact (List.perm_append_singleton q _).trans List.perm_middle.symm
    have hanswer := h.known q t ht ⟨p, hp, hqkey.symm, ts, hin.dated, hwithin⟩
    rw [← h.unordered _ horder q t ht, restartAnswer_last hqin, hover] at hanswer
    cases hanswer
  · intro h
    have hanswers {order : List Observation} (horder : ∀ q, q ∈ order ↔ q ∈ listSince dateMs since stored)
        (obs : Observation) (t : ℤ) (ht : now ≤ t) : restartAnswer dateMs windowMs now order obs t = true ↔
          ∃ p ∈ stored, p.key = obs.key ∧ ∃ ts, p.InWindow dateMs windowMs t ts := by
      constructor
      · intro hanswer
        obtain ⟨q, hq, hfound⟩ := restartAnswer_sound hanswer
        exact ⟨q, List.mem_of_mem_filter ((horder q).mp hq), hfound⟩
      · rintro ⟨p, hp, hkey, ts, hin⟩
        exact answers_of_listedLast h horder ht hp hkey hin
    constructor
    · intro obs t ht hp
      exact (hanswers (fun q => mem_listObservations localeCompare) obs t ht).mpr hp
    · intro order horder obs t ht
      rw [Bool.eq_iff_iff,
        hanswers (fun q => horder.mem_iff.trans (mem_listObservations localeCompare)) obs t ht,
        hanswers (fun q => mem_listObservations localeCompare) obs t ht]

/-! ### Two observations of one fault -/

/-- The fault again, half an hour later -/
def crashAgain : Observation :=
  { crashLoop with id := js "o2", discoveredAt := js "2026-05-01T00:30:00.000Z" }

/-- The dates of the two -/
def crashDate (s : JsString) : Option ℤ :=
  if s = js "2026-05-01T00:00:00.000Z" then some 1777593600000
  else if s = js "2026-05-01T00:30:00.000Z" then some 1777595400000
  else none

def compareDates (a b : JsString) : ℤ := ((crashDate a).getD 0-(crashDate b).getD 0).sign

theorem crashLoop_later : compareDates crashLoop.discoveredAt crashAgain.discoveredAt ≤ 0 := by decide +kernel

/-- The collector is started ten minutes after the second one, and asks 75 minutes after the first
one. -/
theorem restart_forgets : ¬ ∀ (localeCompare : JsString → JsString → ℤ) (dateMs : JsString → Option ℤ)
    (windowMs : JsNumber) (now : ℤ) (stored : List Observation),
    RestartKeeps localeCompare dateMs windowMs (now-oneHourMs) now stored := by
  intro h
  have hlisted : listObservations compareDates crashDate (1777596000000-oneHourMs) [crashAgain, crashLoop] =
      [crashAgain, crashLoop] := by
    have hsince : listSince crashDate (1777596000000-oneHourMs) [crashAgain, crashLoop] =
        [crashAgain, crashLoop] := by
      with_unfolding_all rfl
    rw [listObservations, hsince]
    exact List.mergeSort_of_pairwise (List.pairwise_pair.mpr (decide_eq_true crashLoop_later))
  have hanswer := (h compareDates crashDate (.ofNat 3600000) 1777596000000 [crashAgain, crashLoop]).known
    crashAgain 1777598100000 (by omega) ⟨crashAgain, List.mem_cons_self, rfl, 1777595400000,
      by decide +kernel, by decide +kernel⟩
  rw [hlisted] at hanswer
  revert hanswer
  decide +kernel

end Homelab
