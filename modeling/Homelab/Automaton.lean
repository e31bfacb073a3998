import Mathlib.Data.Nat.Notation
import Mathlib.Logic.Relation
import Mathlib.Tactic.SplitIfs

/-! Systems that take one event after the other, the states they reach when every event
meets a condition, and the rule for invariants. -/

/-- The events a state allows, and the state that each leads to. -/
structure Automaton (State Event : Type) where
  allowed : State → Event → Prop
  next : State → Event → State

namespace Automaton

variable {State Event : Type} {M : Automaton State Event}

/-- One allowed event that meets the condition. -/
inductive Step (M : Automaton State Event) (C : State → Event → Prop) : State → State → Prop
  | event (s : State) (e : Event) (h : M.allowed s e) (hc : C s e) : Step M C s (M.next s e)

/-- Any number of allowed events, each of which meets the condition. -/
def Reaches (M : Automaton State Event) (C : State → Event → Prop) : State → State → Prop :=
  Relation.ReflTransGen (M.Step C)

/-- No condition on the events. -/
def anyEvent (_ : State) (_ : Event) : Prop := True

instance decidableAnyEvent (s : State) (e : Event) : Decidable (anyEvent s e) := isTrue trivial

namespace Reaches

variable {C D : State → Event → Prop} {s t u : State}

theorem refl (s : State) : M.Reaches C s s := Relation.ReflTransGen.refl

theorem trans (h : M.Reaches C s t) (h' : M.Reaches C t u) : M.Reaches C s u :=
  Relation.ReflTransGen.trans h h'

/-- A run goes on with an event. -/
theorem step {e : Event} (h : M.Reaches C s t) (ha : M.allowed t e) (hc : C t e) :
    M.Reaches C s (M.next t e) := Relation.ReflTransGen.tail h (.event t e ha hc)

/-- What every event keeps holds in every state that is reached. -/
theorem invariant {I : State → Prop} (h : M.Reaches C s t) (h0 : I s)
    (hstep : ∀ x e, I x → M.allowed x e → C x e → I (M.next x e)) : I t := by
  induction h with
  | refl => exact h0
  | tail _ hs ih =>
    cases hs with
    | event e ha hc => exact hstep _ e ih ha hc

theorem weaken (hCD : ∀ x e, C x e → D x e) (h : M.Reaches C s t) : M.Reaches D s t := by
  induction h with
  | refl => exact refl s
  | tail _ hs ih =>
    cases hs with
    | event e ha hc => exact ih.step ha (hCD _ e hc)

end Reaches

/-- The state after a list of events. -/
def after (M : Automaton State Event) (s : State) (es : List Event) : State := es.foldl M.next s

/-- Each of the events is allowed and meets the condition when its turn comes. -/
def Permits (M : Automaton State Event) (C : State → Event → Prop) : State → List Event → Prop
  | _, [] => True
  | s, e :: es => M.allowed s e ∧ C s e ∧ M.Permits C (M.next s e) es

theorem Permits.reaches {C : State → Event → Prop} {s : State} {es : List Event}
    (h : M.Permits C s es) : M.Reaches C s (M.after s es) := by
  induction es generalizing s with
  | nil => exact Reaches.refl s
  | cons e es ih => exact ((Reaches.refl s).step h.1 h.2.1).trans (ih h.2.2)

instance decidablePermits {C : State → Event → Prop} [∀ s e, Decidable (M.allowed s e)]
    [∀ s e, Decidable (C s e)] :
    ∀ s es, Decidable (M.Permits C s es)
  | _, [] => isTrue trivial
  | s, e :: es =>
    have := decidablePermits (C := C) (M.next s e) es
    inferInstanceAs (Decidable (M.allowed s e ∧ C s e ∧ M.Permits C (M.next s e) es))

/-- The property holds now and after each of the events. -/
def Throughout (M : Automaton State Event) (P : State → Prop) : State → List Event → Prop
  | s, [] => P s
  | s, e :: es => P s ∧ M.Throughout P (M.next s e) es

theorem Throughout.start {P : State → Prop} {s : State} {es : List Event} (h : M.Throughout P s es) :
    P s := by
  cases es with
  | nil => exact h
  | cons e es => exact h.1

/-- What every event that meets the condition keeps holds throughout a run of such events. -/
theorem Permits.throughout {I : State → Prop} {C : State → Event → Prop} {s : State} {es : List Event}
    (h : M.Permits C s es) (h0 : I s) (hstep : ∀ x e, I x → M.allowed x e → C x e → I (M.next x e)) :
    M.Throughout I s es := by
  induction es generalizing s with
  | nil => exact h0
  | cons e es ih =>
    obtain ⟨hallowed, hc, hrest⟩ := h
    have hnext : I (M.next s e) := hstep s e h0 hallowed hc
    exact ⟨h0, ih hrest hnext⟩

theorem Throughout.mono {P Q : State → Prop} (hPQ : ∀ x, P x → Q x) {s : State} {es : List Event}
    (h : M.Throughout P s es) : M.Throughout Q s es := by
  induction es generalizing s with
  | nil => exact hPQ s h
  | cons e es ih => exact ⟨hPQ s h.1, ih h.2⟩

theorem Throughout.finish {P : State → Prop} {s : State} {es : List Event} (h : M.Throughout P s es) :
    P (M.after s es) := by
  induction es generalizing s with
  | nil => exact h
  | cons e es ih => exact ih h.2

/-- When a step that meets the condition is the same as one that keeps the property, a run has the
property throughout just in case all of its steps meet the condition. -/
theorem throughout_iff {I P : State → Prop} {C : State → Event → Prop} {s : State} {es : List Event}
    (hI : I s) (hP : P s) (hkeep : ∀ x e, I x → M.allowed x e → I (M.next x e))
    (hstep : ∀ x e, I x → P x → M.allowed x e → (P (M.next x e) ↔ C x e))
    (h : M.Permits anyEvent s es) : M.Throughout P s es ↔ M.Permits C s es := by
  induction es generalizing s with
  | nil => exact iff_of_true hP trivial
  | cons e es ih =>
    obtain ⟨hallowed, _, hrest⟩ := h
    have hnext := hstep s e hI hP hallowed
    constructor
    · intro hthrough
      have hP' := hthrough.2.start
      have hmore := ih (hkeep s e hI hallowed) hP' hrest
      exact ⟨hallowed, hnext.mp hP', hmore.mp hthrough.2⟩
    · intro hpermits
      have hP' := hnext.mpr hpermits.2.1
      have hmore := ih (hkeep s e hI hallowed) hP' hrest
      exact ⟨hP, hmore.mpr hpermits.2.2⟩

/-! ### Lists of calls that are under way -/

theorem forall_set {Call : Type} {Q : Call → Prop} {calls : List Call} (h : ∀ c ∈ calls, Q c) (i : ℕ)
    {c' : Call} (hc : Q c') : ∀ c ∈ calls.set i c', Q c := by
  intro c hmem
  rcases List.mem_or_eq_of_mem_set hmem with hmem | rfl
  · exact h c hmem
  · exact hc

theorem forall_modify {Call : Type} {Q : Call → Prop} {calls : List Call} {f : Call → Call}
    (h : ∀ c ∈ calls, Q c) (hf : ∀ c, Q c → Q (f c)) (j : ℕ) : ∀ c ∈ calls.modify j f, Q c := by
  intro c hmem
  obtain ⟨i, hi, rfl⟩ := List.mem_iff_getElem.mp hmem
  rw [List.length_modify] at hi
  have hold := h calls[i] (List.getElem_mem hi)
  rw [List.getElem_modify]
  split_ifs
  · exact hf _ hold
  · exact hold

theorem forall_snoc {Call : Type} {Q : Call → Prop} {calls : List Call} (h : ∀ c ∈ calls, Q c)
    {c' : Call} (hc : Q c') : ∀ c ∈ calls ++ [c'], Q c := by
  intro c hmem
  rcases List.mem_append.mp hmem with hmem | hmem
  · exact h c hmem
  · rwa [List.mem_singleton.mp hmem]

end Automaton
