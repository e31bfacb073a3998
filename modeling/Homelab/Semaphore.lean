import Homelab.Automaton
import Mathlib.Algebra.BigOperators.Fin
import Mathlib.Algebra.Order.BigOperators.Group.Finset
import Mathlib.Data.Fintype.BigOperators

/-! Tasks behind a counting semaphore whose permits are handed on through a queue. All tasks ask for
a permit at once; each asks one question when it has it, and gives it back when it has made what it
can of the answer. The count is taken down before a waiter is woken, and up again only when that
waiter goes on. -/
namespace Semaphore

variable {n : ℕ} {Answer Found Note : Type}

/-- How far a task has come -/
inductive Phase (Answer Found : Type)
  | queued
  | woken
  | acquired
  | asking
  | answered (a : Answer)
  | ended (a : Answer) (found : Option Found)
  | released (a : Answer) (found : Option Found)

structure State (n : ℕ) (Answer Found : Type) where
  inFlight : ℕ
  waiters : List (Fin n)
  phase : Fin n → Phase Answer Found
  asked : List (Fin n)
  results : List Found

/-- A task goes on after a wait, or its question is answered. -/
inductive Event (n : ℕ) (Answer Note : Type)
  | goOn (i : Fin n) (note : Note)
  | settle (i : Fin n) (a : Answer)

/-- `acquire`, as far as it runs at once -/
def State.acquire (max : ℕ) (s : State n Answer Found) (i : Fin n) : State n Answer Found :=
  if s.inFlight < max then { s with inFlight := s.inFlight+1, phase := Function.update s.phase i .acquired }
  else { s with waiters := s.waiters ++ [i] }

/-- All tasks ask for a permit, one after the other. -/
def State.start (max : ℕ) : State n Answer Found :=
  (List.finRange n).foldl (State.acquire max) ⟨0, [], fun _ => .queued, [], []⟩

/-- `release` -/
def State.release (s : State n Answer Found) : State n Answer Found :=
  match s.waiters with
  | [] => { s with inFlight := s.inFlight-1 }
  | next :: waiters =>
    { s with inFlight := s.inFlight-1, waiters, phase := Function.update s.phase next .woken }

/-- A task goes on; `finish` is what it makes of an answer. -/
def State.goOn (finish : Fin n → Answer → Note → Option Found) (s : State n Answer Found) (i : Fin n)
    (note : Note) : State n Answer Found :=
  match s.phase i with
  | .woken => { s with inFlight := s.inFlight+1, phase := Function.update s.phase i .acquired }
  | .acquired => { s with phase := Function.update s.phase i .asking, asked := s.asked ++ [i] }
  | .answered a => { s with phase := Function.update s.phase i (.ended a (finish i a note)) }
  | .ended a found =>
    ({ s with
      phase := Function.update s.phase i (.released a found)
      results := s.results ++ found.toList } : State n Answer Found).release
  | _ => s

namespace Phase

/-- A task that does not wait for a permit or an answer -/
def canGoOn : Phase Answer Found → Bool
  | .woken => true
  | .acquired => true
  | .answered _ => true
  | .ended _ _ => true
  | _ => false

def isAsking : Phase Answer Found → Bool
  | .asking => true
  | _ => false

def isQueued : Phase Answer Found → Bool
  | .queued => true
  | _ => false

/-- The question has been asked. -/
def hasAsked : Phase Answer Found → Bool
  | .queued => false
  | .woken => false
  | .acquired => false
  | _ => true

def isReleased : Phase Answer Found → Bool
  | .released _ _ => true
  | _ => false

/-- The permits that the semaphore counts for a task -/
def counted : Phase Answer Found → ℕ
  | .queued => 0
  | .woken => 0
  | .released _ _ => 0
  | _ => 1

/-- The permits that a task has been given and the semaphore does not count yet -/
def handed : Phase Answer Found → ℕ
  | .woken => 1
  | _ => 0

/-- How often a task has still to be waited for -/
def rank : Phase Answer Found → ℕ
  | .queued => 6
  | .woken => 5
  | .acquired => 4
  | .asking => 3
  | .answered _ => 2
  | .ended _ _ => 1
  | .released _ _ => 0

def answer : Phase Answer Found → Option Answer
  | .answered a => some a
  | .ended a _ => some a
  | .released a _ => some a
  | _ => none

/-- What a task has added to the results -/
def result : Phase Answer Found → Option Found
  | .released _ found => found
  | _ => none

end Phase

/-- The tasks with everything that can happen to them -/
def system (finish : Fin n → Answer → Note → Option Found) :
    Automaton (State n Answer Found) (Event n Answer Note) where
  allowed s e :=
    match e with
    | .goOn i _ => (s.phase i).canGoOn = true
    | .settle i _ => (s.phase i).isAsking = true
  next s e :=
    match e with
    | .goOn i note => s.goOn finish i note
    | .settle i a => { s with phase := Function.update s.phase i (.answered a) }

theorem Phase.eq_queued {p : Phase Answer Found} (h : p.isQueued = true) : p = .queued := by
  cases p with
  | queued => rfl
  | _ => cases h

/-- A task that has not ended has made nothing of an answer. -/
theorem made_of_rank {finish : Answer → Note → Option Found} {p : Phase Answer Found} (h : 2 ≤ p.rank)
    (a : Answer) (found : Option Found) (hmade : p = .ended a found ∨ p = .released a found) :
    ∃ note, found = finish a note := by
  rcases hmade with rfl | rfl
  · exact absurd h (by decide : ¬ 2 ≤ 1)
  · exact absurd h (by decide : ¬ 2 ≤ 0)

/-! ### Sums over the tasks -/

theorem sum_update {M : Type} [AddCommMonoid M] (f : Phase Answer Found → M)
    (phase : Fin n → Phase Answer Found)
    (i : Fin n) (p : Phase Answer Found) :
    ∑ j, f (Function.update phase i p j) + f (phase i) = ∑ j, f (phase j) + f p := by
  have hnew : ∑ j, f (Function.update phase i p j) = f p + ∑ j ∈ Finset.univ.erase i, f (phase j) := by
    rw [← Finset.add_sum_erase Finset.univ _ (Finset.mem_univ i), Function.update_self]
    congr 1
    apply Finset.sum_congr rfl
    intro j hj
    rw [Function.update_of_ne (Finset.ne_of_mem_erase hj)]
  have hold : ∑ j, f (phase j) = f (phase i) + ∑ j ∈ Finset.univ.erase i, f (phase j) :=
    (Finset.add_sum_erase Finset.univ _ (Finset.mem_univ i)).symm
  rw [hnew, hold, add_comm (f p), add_assoc, add_comm (f p), ← add_assoc, add_comm _ (f (phase i))]

/-! ### The law -/

/-- The permits that the semaphore counts and those that it has handed on are no more than it has,
and while a task waits in the queue they are all of them. -/
structure Counts (max inFlight : ℕ) (waiters : List (Fin n)) (phase : Fin n → Phase Answer Found) : Prop where
  counted : inFlight = ∑ i, (phase i).counted
  bound : inFlight+∑ i, (phase i).handed ≤ max
  full : waiters ≠ [] → inFlight+∑ i, (phase i).handed = max

/-- How far a task has come, the queue and the list of what has been asked say, and what it has made
of its answer. -/
structure Placed (finish : Fin n → Answer → Note → Option Found) (waiters asked : List (Fin n)) (i : Fin n)
    (p : Phase Answer Found) : Prop where
  queued : i ∈ waiters ↔ p.isQueued = true
  asked : i ∈ asked ↔ p.hasAsked = true
  made : ∀ a found, p = .ended a found ∨ p = .released a found → ∃ note, found = finish i a note

structure Law (finish : Fin n → Answer → Note → Option Found) (max : ℕ)
    (s : State n Answer Found) : Prop where
  counts : Counts max s.inFlight s.waiters s.phase
  placed : ∀ i, Placed finish s.waiters s.asked i (s.phase i)
  distinct : s.waiters.Nodup
  once : s.asked.Nodup
  results : (s.results : Multiset Found) = ∑ i, ((s.phase i).result.toList : Multiset Found)

variable {finish : Fin n → Answer → Note → Option Found} {max count count' : ℕ} {s : State n Answer Found}
  {i : Fin n} {p : Phase Answer Found} {phase : Fin n → Phase Answer Found}
  {waiters waiters' asked asked' : List (Fin n)}

/-- A task takes a turn, and the permits counted and handed on stay as many; or one less is, when no
task waits. -/
theorem Counts.turn (h : Counts max count waiters phase)
    (hcount : count'+(phase i).counted = count+p.counted)
    (hheld : p.counted+p.handed = (phase i).counted+(phase i).handed ∨
      p.counted+p.handed ≤ (phase i).counted+(phase i).handed ∧ waiters' = [])
    (hwaiters : waiters' ≠ [] → waiters ≠ []) : Counts max count' waiters' (Function.update phase i p) := by
  have hcounted := sum_update Phase.counted phase i p
  have hhanded := sum_update Phase.handed phase i p
  have hsum := h.counted
  have hbound := h.bound
  refine ⟨by omega, by omega, fun hwaiting => ?_⟩
  have hfull := h.full (hwaiters hwaiting)
  have hsame := hheld.resolve_right fun hnone => hwaiting hnone.2
  omega

theorem placed_update (h : ∀ j, Placed finish waiters asked j (phase j))
    (hothers : ∀ j ≠ i, (j ∈ waiters' ↔ j ∈ waiters) ∧ (j ∈ asked' ↔ j ∈ asked))
    (hi : Placed finish waiters' asked' i p) (j : Fin n) :
    Placed finish waiters' asked' j (Function.update phase i p j) := by
  by_cases hji : j = i
  · subst hji
    rwa [Function.update_self]
  · rw [Function.update_of_ne hji]
    obtain ⟨hwaits, hasks⟩ := hothers j hji
    exact ⟨hwaits.trans (h j).queued, hasks.trans (h j).asked, (h j).made⟩

theorem results_update {results results' : List Found}
    (h : (results : Multiset Found) = ∑ j, ((phase j).result.toList : Multiset Found))
    (hi : (phase i).result = none) (hnew : results' = results ++ p.result.toList) :
    (results' : Multiset Found) = ∑ j, ((Function.update phase i p j).result.toList : Multiset Found) := by
  have hsum := sum_update (fun p => (p.result.toList : Multiset Found)) phase i p
  rw [hi, Option.toList_none, Multiset.coe_nil, add_zero] at hsum
  rw [hnew, ← Multiset.coe_add, h, hsum]

/-- A turn in which nothing is done to the queue and no result is added -/
theorem Law.turn (h : Law finish max s) (hcount : count'+(s.phase i).counted = s.inFlight+p.counted)
    (hheld : p.counted+p.handed = (s.phase i).counted+(s.phase i).handed)
    (hothers : ∀ j ≠ i, j ∈ asked' ↔ j ∈ s.asked) (honce : asked'.Nodup)
    (hi : Placed finish s.waiters asked' i p) (hresult : (s.phase i).result = none ∧ p.result = none) :
    Law finish max { s with inFlight := count', asked := asked', phase := Function.update s.phase i p } := by
  constructor
  · exact h.counts.turn hcount (.inl hheld) id
  · exact placed_update h.placed (fun j hj => ⟨Iff.rfl, hothers j hj⟩) hi
  · exact h.distinct
  · exact honce
  · apply results_update h.results hresult.1
    rw [hresult.2]
    exact (List.append_nil _).symm

theorem Law.settle (h : Law finish max s) (a : Answer) (hi : (s.phase i).isAsking = true) :
    Law finish max { s with phase := Function.update s.phase i (.answered a) } := by
  have hplaced := h.placed i
  cases hp : s.phase i with
  | asking =>
    rw [hp] at hplaced
    refine h.turn ?_ ?_ (fun _ _ => Iff.rfl) h.once
      ⟨hplaced.queued, hplaced.asked, made_of_rank (Nat.le_of_ble_eq_true rfl)⟩ ?_
    · rw [hp]
      rfl
    · rw [hp]
      rfl
    · rw [hp]
      exact ⟨rfl, rfl⟩
  | _ => rw [hp] at hi; cases hi

/-- A permit is given back: it is handed on to the first task of the queue, if there is one. -/
theorem Law.giveBack (h : Law finish max s) {a : Answer} {found : Option Found}
    (hi : s.phase i = .ended a found) :
    Law finish max ({ s with
      phase := Function.update s.phase i (.released a found)
      results := s.results ++ found.toList } : State n Answer Found).release := by
  have hplaced := h.placed i
  rw [hi] at hplaced
  have hreleased : Placed finish s.waiters s.asked i (.released a found) := by
    refine ⟨hplaced.queued, hplaced.asked, ?_⟩
    rintro b found' (hmade | hmade)
    · cases hmade
    · cases hmade
      exact hplaced.made a found (.inl rfl)
  have hresults : ((s.results ++ found.toList : List Found) : Multiset Found) =
      ∑ j, ((Function.update s.phase i (.released a found) j).result.toList : Multiset Found) := by
    refine results_update h.results ?_ rfl
    rw [hi]
    rfl
  have hone : 1 ≤ s.inFlight := by
    have hcounted := sum_update Phase.counted s.phase i (.released a found)
    rw [hi] at hcounted
    have hsum := h.counts.counted
    change _+1 = _+0 at hcounted
    omega
  -- with nobody in the queue the count goes down; otherwise the first of the queue is woken
  rw [State.release]
  cases hwaiters : s.waiters with
  | nil =>
    have hcounts : Counts max (s.inFlight-1) ([] : List (Fin n))
        (Function.update s.phase i (.released a found)) := by
      refine h.counts.turn ?_ (.inr ⟨?_, rfl⟩) fun hne => absurd rfl hne
      · rw [hi]
        change s.inFlight-1+1 = s.inFlight+0
        omega
      · exact Nat.zero_le _
    rw [hwaiters] at hreleased
    refine ⟨hcounts, ?_, List.nodup_nil, h.once, hresults⟩
    exact placed_update h.placed (fun j _ => ⟨by rw [hwaiters], Iff.rfl⟩) hreleased
  | cons next waiters =>
    -- two tasks take a turn here: the one that ends, and the one that it wakes
    obtain ⟨hnotin, hdistinct⟩ := List.nodup_cons.mp (hwaiters ▸ h.distinct)
    have hqueued : (s.phase next).isQueued = true := (h.placed next).queued.mp (hwaiters ▸ List.mem_cons_self)
    have hne : next ≠ i := by
      rintro rfl
      rw [hi] at hqueued
      cases hqueued
    have hnext : Function.update s.phase i (.released a found) next = .queued := by
      rw [Function.update_of_ne hne]
      exact Phase.eq_queued hqueued
    have hfirst : ∀ j, Placed finish s.waiters s.asked j (Function.update s.phase i (.released a found) j) :=
      placed_update h.placed (fun _ _ => ⟨Iff.rfl, Iff.rfl⟩) hreleased
    have hasked := (hfirst next).asked
    rw [hnext] at hasked
    constructor
    · -- the permit is no longer counted, and it is handed on
      have hcounted := sum_update Phase.counted s.phase i (.released a found)
      have hhanded := sum_update Phase.handed s.phase i (.released a found)
      have hcounted' := sum_update Phase.counted (Function.update s.phase i (.released a found)) next .woken
      have hhanded' := sum_update Phase.handed (Function.update s.phase i (.released a found)) next .woken
      rw [hi] at hcounted hhanded
      rw [hnext] at hcounted' hhanded'
      change _+1 = _+0 at hcounted
      change _+0 = _+0 at hhanded
      change _+0 = _+0 at hcounted'
      change _+0 = _+1 at hhanded'
      have hsum := h.counts.counted
      have hfull := h.counts.full (hwaiters ▸ List.cons_ne_nil next waiters)
      exact ⟨by dsimp only; omega, by dsimp only; omega, fun _ => by dsimp only; omega⟩
    · apply placed_update hfirst
      · intro j hj
        rw [hwaiters, List.mem_cons]
        exact ⟨(or_iff_right hj).symm, Iff.rfl⟩
      · exact ⟨iff_of_false hnotin Bool.false_ne_true, hasked, made_of_rank (Nat.le_of_ble_eq_true rfl)⟩
    · exact hdistinct
    · exact h.once
    · refine results_update hresults ?_ (List.append_nil _).symm
      dsimp only
      rw [hnext]
      rfl

theorem Law.goOn (h : Law finish max s) (i : Fin n) (note : Note) (hi : (s.phase i).canGoOn = true) :
    Law finish max (s.goOn finish i note) := by
  have hplaced := h.placed i
  rw [State.goOn]
  cases hp : s.phase i with
  | queued => rw [hp] at hi; cases hi
  | asking => rw [hp] at hi; cases hi
  | released a found => rw [hp] at hi; cases hi
  | woken =>
    rw [hp] at hplaced
    refine h.turn ?_ ?_ (fun _ _ => Iff.rfl) h.once
      ⟨hplaced.queued, hplaced.asked, made_of_rank (Nat.le_of_ble_eq_true rfl)⟩ ?_
    · rw [hp]
      rfl
    · rw [hp]
      rfl
    · rw [hp]
      exact ⟨rfl, rfl⟩
  -- here the question is asked, for the first time
  | acquired =>
    rw [hp] at hplaced
    have hnot : i ∉ s.asked := fun hmem => Bool.false_ne_true (hplaced.asked.mp hmem)
    refine h.turn ?_ ?_ ?_ ?_ ⟨hplaced.queued, ?_, made_of_rank (Nat.le_of_ble_eq_true rfl)⟩ ?_
    · rw [hp]
      rfl
    · rw [hp]
      rfl
    · intro j hj
      rw [List.mem_append, List.mem_singleton]
      exact or_iff_left hj
    · rw [List.nodup_append]
      refine ⟨h.once, List.nodup_singleton i, fun j hj k hk => ?_⟩
      rw [List.mem_singleton.mp hk]
      rintro rfl
      exact hnot hj
    · exact iff_of_true (List.mem_append_right _ (List.mem_singleton_self i)) rfl
    · rw [hp]
      exact ⟨rfl, rfl⟩
  | answered a =>
    rw [hp] at hplaced
    refine h.turn ?_ ?_ (fun _ _ => Iff.rfl) h.once ⟨hplaced.queued, hplaced.asked, ?_⟩ ?_
    · rw [hp]
      rfl
    · rw [hp]
      rfl
    · rintro b found (hmade | hmade)
      · cases hmade
        exact ⟨note, rfl⟩
      · cases hmade
    · rw [hp]
      exact ⟨rfl, rfl⟩
  | ended a found => exact h.giveBack hp

theorem Law.next (h : Law finish max s) (e : Event n Answer Note) (he : (system finish).allowed s e) :
    Law finish max ((system finish).next s e) := by
  cases e with
  | goOn i note => exact h.goOn i note he
  | settle i a => exact h.settle a he

/-! ### The start -/

/-- The tasks of a list have still to ask for a permit; they count as if they were in the queue. -/
structure Starting (finish : Fin n → Answer → Note → Option Found) (max : ℕ) (rest : List (Fin n))
    (s : State n Answer Found) : Prop where
  counted : s.inFlight = ∑ i, (s.phase i).counted
  handed : ∑ i, (s.phase i).handed = 0
  bound : s.inFlight ≤ max
  full : s.waiters ≠ [] → s.inFlight = max
  placed : ∀ i, Placed finish (s.waiters ++ rest) s.asked i (s.phase i)
  distinct : (s.waiters ++ rest).Nodup
  asked : s.asked = []
  results : s.results = []
  fresh : ∀ i, (s.phase i).result = none

theorem Starting.acquire {rest : List (Fin n)} (h : Starting finish max (i :: rest) s) :
    Starting finish max rest (s.acquire max i) := by
  have hqueued : (s.phase i).isQueued = true :=
    (h.placed i).queued.mp (List.mem_append_right _ List.mem_cons_self)
  have hphase : s.phase i = .queued := Phase.eq_queued hqueued
  rw [State.acquire]
  split_ifs with hlt
  -- a permit is left, so nobody waits
  · have hwaiters : s.waiters = [] := by
      by_contra hne
      exact absurd (h.full hne) (Nat.ne_of_lt hlt)
    have hcounted := sum_update Phase.counted s.phase i .acquired
    have hhanded := sum_update Phase.handed s.phase i .acquired
    rw [hphase] at hcounted hhanded
    change _+0 = _+1 at hcounted
    change _+0 = _+0 at hhanded
    have hsum := h.counted
    have hnone := h.handed
    have hdistinct := h.distinct
    rw [hwaiters, List.nil_append] at hdistinct
    obtain ⟨hnotin, hrest⟩ := List.nodup_cons.mp hdistinct
    have hplaced := h.placed
    rw [hwaiters, List.nil_append] at hplaced
    have hasked := (hplaced i).asked
    rw [hphase] at hasked
    constructor
    · dsimp only
      omega
    · dsimp only
      omega
    · exact hlt
    · exact fun hne => absurd hwaiters hne
    · dsimp only
      rw [hwaiters, List.nil_append]
      apply placed_update hplaced
      · intro j hj
        rw [List.mem_cons]
        exact ⟨(or_iff_right hj).symm, Iff.rfl⟩
      · exact ⟨iff_of_false hnotin Bool.false_ne_true, hasked, made_of_rank (Nat.le_of_ble_eq_true rfl)⟩
    · dsimp only
      rw [hwaiters]
      exact hrest
    · exact h.asked
    · exact h.results
    · intro j
      by_cases hji : j = i
      · subst hji
        dsimp only
        rw [Function.update_self]
        rfl
      · dsimp only
        rw [Function.update_of_ne hji]
        exact h.fresh j
  -- none is left: the task joins the queue, where it was counted already
  · have hfull : s.inFlight = max := Nat.le_antisymm h.bound (Nat.not_lt.mp hlt)
    have happend : s.waiters ++ [i] ++ rest = s.waiters ++ i :: rest := by
      rw [List.append_assoc, List.singleton_append]
    have hplaced := h.placed
    have hdistinct := h.distinct
    rw [← happend] at hplaced hdistinct
    exact ⟨h.counted, h.handed, h.bound, fun _ => hfull, hplaced, hdistinct, h.asked, h.results, h.fresh⟩

theorem starting_all {tasks : List (Fin n)} (h : Starting finish max tasks s) :
    Starting finish max [] (tasks.foldl (State.acquire max) s) := by
  induction tasks generalizing s with
  | nil => exact h
  | cons i tasks ih => exact ih h.acquire

theorem starting_start (finish : Fin n → Answer → Note → Option Found) (max : ℕ) :
    Starting finish max [] (State.start max) := by
  have hbefore : Starting finish max (List.finRange n)
      (⟨0, [], fun _ => .queued, [], []⟩ : State n Answer Found) := by
    constructor
    · exact (Finset.sum_const_zero).symm
    · exact Finset.sum_const_zero
    · exact Nat.zero_le max
    · exact fun hne => absurd rfl hne
    · intro i
      exact ⟨iff_of_true (List.mem_finRange i) rfl, iff_of_false List.not_mem_nil Bool.false_ne_true,
        made_of_rank (Nat.le_of_ble_eq_true rfl)⟩
    · exact List.nodup_finRange n
    · rfl
    · rfl
    · exact fun _ => rfl
  exact starting_all hbefore

theorem law_start (finish : Fin n → Answer → Note → Option Found) (max : ℕ) :
    Law finish max (State.start max) := by
  have h := starting_start finish max
  have hplaced := h.placed
  have hdistinct := h.distinct
  rw [List.append_nil] at hplaced hdistinct
  constructor
  · refine ⟨h.counted, ?_, fun hne => ?_⟩
    · rw [h.handed]
      exact h.bound
    · rw [h.handed]
      exact h.full hne
  · exact hplaced
  · exact hdistinct
  · rw [h.asked]
    exact List.nodup_nil
  · rw [h.results]
    symm
    apply Finset.sum_eq_zero
    intro i _
    rw [h.fresh i]
    rfl

/-- The law holds after every run. -/
theorem law_run {events : List (Event n Answer Note)}
    (h : (system finish).Permits Automaton.anyEvent (State.start max) events) :
    Law finish max ((system finish).after (State.start max) events) :=
  h.reaches.invariant (law_start finish max) fun _ e hs he _ => hs.next e he

/-! ### What follows from the law -/

/-- The tasks whose question has been asked and not been answered -/
def State.askers (s : State n Answer Found) : Finset (Fin n) :=
  Finset.univ.filter fun i => (s.phase i).isAsking = true

theorem Law.askers_le (h : Law finish max s) : s.askers.card ≤ max := by
  calc s.askers.card = ∑ i, if (s.phase i).isAsking = true then 1 else 0 := Finset.card_filter _ _
    _ ≤ ∑ i, (s.phase i).counted := by
      apply Finset.sum_le_sum
      intro i _
      cases s.phase i with
      | asking => exact le_rfl
      | _ => exact Nat.zero_le _
    _ = s.inFlight := h.counts.counted.symm
    _ ≤ max := (Nat.le_add_right _ _).trans h.counts.bound

/-- When no task can go on and none is asking, all have given their permits back. -/
theorem Law.all_released (h : Law finish max s) (hmax : 1 ≤ max) (hidle : ∀ i, (s.phase i).canGoOn = false)
    (hasking : ∀ i, (s.phase i).isAsking = false) : ∀ i, ∃ a found, s.phase i = .released a found := by
  have hrests (i : Fin n) : (s.phase i).isQueued = true ∨ ∃ a found, s.phase i = .released a found := by
    have hi := hidle i
    have hi' := hasking i
    cases hp : s.phase i with
    | queued => exact .inl rfl
    | released a found => exact .inr ⟨a, found, rfl⟩
    | asking => rw [hp] at hi'; cases hi'
    | _ => rw [hp] at hi; cases hi
  have hnone : s.waiters = [] := by
    by_contra hne
    -- whoever waits needs all permits to be out, but nobody holds one
    have hfull := h.counts.full hne
    have hzero (f : Phase Answer Found → ℕ) (hq : ∀ p : Phase Answer Found, p.isQueued = true → f p = 0)
        (hr : ∀ a found, f (.released a found) = 0) : ∑ i, f (s.phase i) = 0 := by
      apply Finset.sum_eq_zero
      intro i _
      rcases hrests i with hi | ⟨a, found, hi⟩
      · exact hq _ hi
      · rw [hi]
        exact hr a found
    have hqueued (f : Phase Answer Found → ℕ) (hf : f .queued = 0) (p : Phase Answer Found)
        (hp : p.isQueued = true) : f p = 0 := by
      rw [Phase.eq_queued hp]
      exact hf
    rw [h.counts.counted, hzero Phase.counted (hqueued _ rfl) fun _ _ => rfl,
      hzero Phase.handed (hqueued _ rfl) fun _ _ => rfl] at hfull
    omega
  intro i
  refine (hrests i).resolve_left fun hi => ?_
  have hmem := (h.placed i).queued.mpr hi
  rw [hnone] at hmem
  cases hmem

/-- How many turns are to come at most -/
def State.work (s : State n Answer Found) : ℕ := ∑ i, (s.phase i).rank

theorem Phase.rank_le (p : Phase Answer Found) : p.rank ≤ 6 := by
  cases p with
  | queued => exact le_rfl
  | _ => exact Nat.le_of_ble_eq_true rfl

theorem work_start (max : ℕ) : (State.start max : State n Answer Found).work ≤ 6*n := by
  calc (State.start max : State n Answer Found).work ≤ ∑ _ : Fin n, 6 := by
        apply Finset.sum_le_sum
        intro i _
        exact Phase.rank_le _
    _ = 6*n := by
      rw [Finset.sum_const, Finset.card_univ, Fintype.card_fin, smul_eq_mul, mul_comm]

/-- Every turn leaves less to do. -/
theorem Law.work_next (h : Law finish max s) (e : Event n Answer Note) (he : (system finish).allowed s e) :
    ((system finish).next s e).work < s.work := by
  cases e with
  | settle i a =>
    have hsum := sum_update Phase.rank s.phase i (.answered a)
    change ∑ j, (Function.update s.phase i (.answered a) j).rank < ∑ j, (s.phase j).rank
    have hi : (s.phase i).isAsking = true := he
    cases hp : s.phase i with
    | asking =>
      rw [hp] at hsum
      change _+3 = _+2 at hsum
      omega
    | _ => rw [hp] at hi; cases hi
  | goOn i note =>
    have hi : (s.phase i).canGoOn = true := he
    have hsum (p : Phase Answer Found) := sum_update Phase.rank s.phase i p
    change (s.goOn finish i note).work < s.work
    rw [State.goOn]
    cases hp : s.phase i with
    | queued => rw [hp] at hi; cases hi
    | asking => rw [hp] at hi; cases hi
    | released a found => rw [hp] at hi; cases hi
    | woken =>
      have hless := hsum .acquired
      rw [hp] at hless
      change _+5 = _+4 at hless
      change ∑ j, (Function.update s.phase i .acquired j).rank < ∑ j, (s.phase j).rank
      omega
    | acquired =>
      have hless := hsum .asking
      rw [hp] at hless
      change _+4 = _+3 at hless
      change ∑ j, (Function.update s.phase i .asking j).rank < ∑ j, (s.phase j).rank
      omega
    | answered a =>
      have hless := hsum (.ended a (finish i a note))
      rw [hp] at hless
      change _+2 = _+1 at hless
      change ∑ j, (Function.update s.phase i (.ended a (finish i a note)) j).rank < ∑ j, (s.phase j).rank
      omega
    | ended a found =>
      have hless := hsum (.released a found)
      rw [hp] at hless
      change _+1 = _+0 at hless
      dsimp only
      rw [State.release]
      cases hwaiters : s.waiters with
      | nil =>
        change ∑ j, (Function.update s.phase i (.released a found) j).rank < ∑ j, (s.phase j).rank
        omega
      | cons next waiters =>
        have hqueued : (s.phase next).isQueued = true :=
          (h.placed next).queued.mp (hwaiters ▸ List.mem_cons_self)
        have hnext : Function.update s.phase i (.released a found) next = .queued := by
          rw [Function.update_of_ne (by rintro rfl; rw [hp] at hqueued; cases hqueued)]
          exact Phase.eq_queued hqueued
        -- the woken task has one turn less to take as well
        have hwoken := sum_update Phase.rank (Function.update s.phase i (.released a found)) next .woken
        rw [hnext] at hwoken
        change _+6 = _+5 at hwoken
        change ∑ j, (Function.update (Function.update s.phase i (.released a found)) next .woken j).rank <
          ∑ j, (s.phase j).rank
        omega

/-- No run is longer than the work that there is at its start. -/
theorem length_le_work {events : List (Event n Answer Note)} (hs : Law finish max s)
    (h : (system finish).Permits Automaton.anyEvent s events) : events.length ≤ s.work := by
  induction events generalizing s with
  | nil => exact Nat.zero_le _
  | cons e events ih =>
    obtain ⟨he, -, hrest⟩ := h
    have hless := hs.work_next e he
    have hmore := ih (hs.next e he) hrest
    rw [List.length_cons]
    omega

theorem hasAsked_of_answer {a : Answer} (h : p.answer = some a) : p.hasAsked = true := by
  cases p with
  | queued => cases h
  | woken => cases h
  | acquired => cases h
  | _ => rfl

theorem answer_update {j : Fin n} {a : Answer} (h : (Function.update phase j p i).answer = some a) :
    (phase i).answer = some a ∨ i = j ∧ p.answer = some a := by
  by_cases hij : i = j
  · subst hij
    rw [Function.update_self] at h
    exact .inr ⟨rfl, h⟩
  · rw [Function.update_of_ne hij] at h
    exact .inl h

/-- A task gets its answer in the turn in which its question is settled. -/
theorem answer_next (e : Event n Answer Note) {a : Answer}
    (h : (((system finish).next s e).phase i).answer = some a) :
    (s.phase i).answer = some a ∨ e = .settle i a := by
  cases e with
  | settle j b =>
    rcases answer_update h with hold | ⟨hij, hnew⟩
    · exact .inl hold
    · subst hij
      cases hnew
      exact .inr rfl
  | goOn j note =>
    left
    have hsame {p : Phase Answer Found} (hp : p.answer = none ∨ p.answer = (s.phase j).answer)
        (h : (Function.update s.phase j p i).answer = some a) : (s.phase i).answer = some a := by
      rcases answer_update h with hold | ⟨hij, hnew⟩
      · exact hold
      · subst hij
        rcases hp with hp | hp
        · cases hnew.symm.trans hp
        · exact hp.symm.trans hnew
    change ((s.goOn finish j note).phase i).answer = some a at h
    rw [State.goOn] at h
    cases hp : s.phase j with
    | queued => rw [hp] at h; exact h
    | asking => rw [hp] at h; exact h
    | released b found => rw [hp] at h; exact h
    | woken => rw [hp] at h; exact hsame (.inl rfl) h
    | acquired => rw [hp] at h; exact hsame (.inl rfl) h
    | answered b => rw [hp] at h; exact hsame (.inr (by rw [hp]; rfl)) h
    | ended b found =>
      rw [hp] at h
      dsimp only at h
      rw [State.release] at h
      have hreleased : (Phase.released b found : Phase Answer Found).answer = (s.phase j).answer := by
        rw [hp]
        rfl
      cases hwaiters : s.waiters with
      | nil =>
        rw [hwaiters] at h
        exact hsame (.inr hreleased) h
      | cons next waiters =>
        rw [hwaiters] at h
        rcases answer_update h with h | ⟨-, h⟩
        · exact hsame (.inr hreleased) h
        · cases h

/-- The answer of a task is one that it got in the run. -/
theorem answer_run {events : List (Event n Answer Note)} {a : Answer}
    (h : (((system finish).after s events).phase i).answer = some a) :
    (s.phase i).answer = some a ∨ .settle i a ∈ events := by
  induction events generalizing s with
  | nil => exact .inl h
  | cons e events ih =>
    rcases ih h with h | h
    · rcases answer_next e h with h | rfl
      · exact .inl h
      · exact .inr List.mem_cons_self
    · exact .inr (List.mem_cons_of_mem e h)

theorem sum_toList {α : Type} (l : List α) (f : α → Option Found) :
    (l.map fun i => ((f i).toList : Multiset Found)).sum = (l.filterMap f : List Found) := by
  induction l with
  | nil => rfl
  | cons i l ih =>
    rw [List.map_cons, List.sum_cons, ih]
    cases hi : f i with
    | none => rw [List.filterMap_cons_none hi, Option.toList_none, Multiset.coe_nil, zero_add]
    | some found =>
      rw [List.filterMap_cons_some hi]
      rfl

/-- The results are those of the tasks that have given their permits back. -/
theorem Law.results_perm (h : Law finish max s) :
    s.results.Perm ((List.finRange n).filterMap fun i => (s.phase i).result) := by
  rw [← Multiset.coe_eq_coe, h.results, Fin.sum_univ_def]
  exact sum_toList _ _

/-- When all tasks have given their permits back, each of them has asked once, and the results are
what they have made of the answers that they got in the run. -/
theorem all_answered {events : List (Event n Answer Note)}
    (h : (system finish).Permits Automaton.anyEvent (State.start max) events)
    (hall : ∀ i, ∃ a found, ((system finish).after (State.start max) events).phase i = .released a found) :
    ((system finish).after (State.start max) events).asked.Perm (List.finRange n) ∧
      ∃ (answers : Fin n → Answer) (notes : Fin n → Note), (∀ i, .settle i (answers i) ∈ events) ∧
        ((system finish).after (State.start max) events).results.Perm
          ((List.finRange n).filterMap fun i => finish i (answers i) (notes i)) := by
  have hlaw := law_run h
  choose answers found hreleased using hall
  have hnotes (i : Fin n) : ∃ note, found i = finish i (answers i) note :=
    (hlaw.placed i).made _ _ (.inr (hreleased i))
  choose notes hfound using hnotes
  constructor
  · rw [List.perm_ext_iff_of_nodup hlaw.once (List.nodup_finRange n)]
    intro i
    refine iff_of_true ((hlaw.placed i).asked.mpr ?_) (List.mem_finRange i)
    rw [hreleased i]
    rfl
  · refine ⟨answers, notes, fun i => ?_, ?_⟩
    · have hanswer : (((system finish).after (State.start max) events).phase i).answer =
          some (answers i) := by
        rw [hreleased i]
        rfl
      refine (answer_run hanswer).resolve_left fun hstart => ?_
      -- at the start nothing has been asked
      have hasked : i ∈ (State.start max : State n Answer Found).asked := by
        rw [((law_start finish max).placed i).asked]
        exact hasAsked_of_answer hstart
      rw [(starting_start finish max).asked] at hasked
      cases hasked
    · refine hlaw.results_perm.trans (List.Perm.of_eq ?_)
      apply List.filterMap_congr
      intro i _
      rw [hreleased i]
      exact hfound i

end Semaphore
