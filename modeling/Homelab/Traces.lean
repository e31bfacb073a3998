import Homelab.Automaton
import Mathlib.Order.Lattice
import Mathlib.Order.Nat
import Mathlib.Tactic.ByContra

/-! Unending runs of a system, in which nothing need happen at a moment: what happens in the end, if no event is
possible for ever without happening. -/
namespace Automaton

variable {State Event : Type} {M : Automaton State Event} {init : State}

/-- A run without end; `event k` is what happens between the moments `k` and `k+1`, if anything does. -/
structure Trace (M : Automaton State Event) (init : State) where
  state : ℕ → State
  event : ℕ → Option Event
  start : state 0 = init
  step : ∀ k, match event k with
    | some e => M.allowed (state k) e ∧ state (k+1) = M.next (state k) e
    | none => state (k+1) = state k

/-- The event happens, unless there are moments, ever again, at which it is not possible. -/
def Trace.Fair (r : M.Trace init) (e : Event) : Prop :=
  ∀ k, (∀ m ≥ k, M.allowed (r.state m) e) → ∃ m ≥ k, r.event m = some e

/-- The property holds at some moment from `k` on. -/
def Trace.Eventually (r : M.Trace init) (k : ℕ) (P : State → Prop) : Prop := ∃ m ≥ k, P (r.state m)

/-- What no event ends -/
def Stable (M : Automaton State Event) (P : State → Prop) : Prop :=
  ∀ s e, P s → M.allowed s e → P (M.next s e)

variable {r : M.Trace init} {P Q : State → Prop} {k m : ℕ}

theorem Trace.reaches (r : M.Trace init) (k : ℕ) : M.Reaches anyEvent init (r.state k) := by
  induction k with
  | zero =>
    rw [r.start]
    exact Reaches.refl init
  | succ k ih =>
    have hstep := r.step k
    cases hevent : r.event k with
    | some e =>
      rw [hevent] at hstep
      rw [hstep.2]
      exact ih.step hstep.1 trivial
    | none =>
      rw [hevent] at hstep
      rwa [hstep]

theorem Stable.lasts (h : M.Stable P) (hk : P (r.state k)) (hm : k ≤ m) : P (r.state m) := by
  induction m, hm using Nat.le_induction with
  | base => exact hk
  | succ m _ ih =>
    have hstep := r.step m
    cases hevent : r.event m with
    | some e =>
      rw [hevent] at hstep
      rw [hstep.2]
      exact h _ _ ih hstep.1
    | none =>
      rw [hevent] at hstep
      rwa [hstep]

theorem Trace.Eventually.now (h : P (r.state k)) : r.Eventually k P := ⟨k, le_rfl, h⟩

theorem Trace.Eventually.mono (hPQ : ∀ s, P s → Q s) (h : r.Eventually k P) : r.Eventually k Q := by
  obtain ⟨m, hm, hP⟩ := h
  exact ⟨m, hm, hPQ _ hP⟩

theorem Trace.Eventually.trans (h : r.Eventually k P) (hnext : ∀ m ≥ k, P (r.state m) → r.Eventually m Q) :
    r.Eventually k Q := by
  obtain ⟨m, hm, hP⟩ := h
  obtain ⟨n, hn, hQ⟩ := hnext m hm hP
  exact ⟨n, hm.trans hn, hQ⟩

/-- A fair event happens in the end, if it is possible as long as something lasts that only it can end. -/
theorem Trace.Fair.eventually {e : Event} (hfair : r.Fair e) (hallowed : ∀ s, P s → M.allowed s e)
    (hkeep : ∀ s e', e' ≠ e → P s → M.allowed s e' → P (M.next s e') ∨ Q (M.next s e'))
    (hdone : ∀ s, P s → Q (M.next s e)) (h : P (r.state k)) : r.Eventually k Q := by
  by_contra hnever
  have hnot : ∀ m ≥ k, ¬Q (r.state m) := fun m hm hQ => hnever ⟨m, hm, hQ⟩
  have hlasts : ∀ m ≥ k, P (r.state m) := by
    intro m hm
    induction m, hm using Nat.le_induction with
    | base => exact h
    | succ m hm ih =>
      have hstep := r.step m
      cases hevent : r.event m with
      | none =>
        rw [hevent] at hstep
        rwa [hstep]
      | some e' =>
        rw [hevent] at hstep
        rw [hstep.2]
        have hnext := hnot (m+1) (hm.trans (Nat.le_succ m))
        rw [hstep.2] at hnext
        by_cases he : e' = e
        · rw [he] at hnext
          exact absurd (hdone _ ih) hnext
        · exact (hkeep _ _ he ih hstep.1).resolve_right hnext
  obtain ⟨m, hm, hevent⟩ := hfair k fun m hm => hallowed _ (hlasts m hm)
  have hstep := r.step m
  rw [hevent] at hstep
  refine hnot (m+1) (hm.trans (Nat.le_succ m)) ?_
  rw [hstep.2]
  exact hdone _ (hlasts m hm)

/-! ### Runs that come to rest -/

theorem after_concat (s : State) (es : List Event) (e : Event) :
    M.after s (es ++ [e]) = M.next (M.after s es) e := by
  rw [after, List.foldl_append]
  rfl

theorem Permits.allowed {C : State → Event → Prop} {s : State} {es : List Event} {e : Event} {k : ℕ}
    (h : M.Permits C s es) (hevent : es[k]? = some e) : M.allowed (M.after s (es.take k)) e := by
  induction es generalizing s k with
  | nil => cases hevent
  | cons e' es ih =>
    cases k with
    | zero =>
      obtain rfl := Option.some.inj hevent
      exact h.1
    | succ k => exact ih h.2.2 hevent

/-- A list of events, and nothing after them -/
def Trace.ofList (es : List Event) (h : M.Permits anyEvent init es) : M.Trace init where
  state k := M.after init (es.take k)
  event k := es[k]?
  start := rfl
  step k := by
    cases hevent : es[k]? with
    | none =>
      have hlength : es.length ≤ k := List.getElem?_eq_none_iff.mp hevent
      simp only
      rw [List.take_of_length_le hlength, List.take_of_length_le (hlength.trans (Nat.le_succ k))]
    | some e =>
      refine ⟨h.allowed hevent, ?_⟩
      rw [List.take_add_one, hevent, Option.toList_some, after_concat]

/-- What is not possible at the end of the list is fair. -/
theorem Trace.ofList_fair {es : List Event} (h : M.Permits anyEvent init es) {e : Event}
    (hend : ¬M.allowed (M.after init es) e) : (Trace.ofList es h).Fair e := by
  intro k hallowed
  refine absurd ?_ hend
  have hlast := hallowed (max k es.length) (le_max_left _ _)
  change M.allowed (M.after init (es.take (max k es.length))) e at hlast
  rwa [List.take_of_length_le (le_max_right _ _)] at hlast

end Automaton
