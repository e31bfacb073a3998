import Homelab.Automaton
import Mathlib.Order.OrderIsoNat

/-! Calls that are under way at once and share something. Each keeps what it has seen of it since it began,
so that what a call returns can be compared with all that was the case while it ran. -/
namespace Automaton

/-- A call, and what has been shared since it began: the latest first, up to when it returned -/
structure Onlooker (Shared Call : Type) where
  call : Call
  seen : List Shared

structure Scene (Shared Call : Type) where
  shared : Shared
  onlookers : List (Onlooker Shared Call)

inductive SceneEvent (Request Answer : Type)
  | begin (request : Request)
  | turn (i : ℕ) (answer : Answer)

/-- What a call is when it begins, whether it has returned, and what its next turn makes of it and of what is
shared. The answer is what the surroundings give it, as far as they may. -/
structure Script (Shared Request Call Answer : Type) where
  begin : Request → Shared → Call
  returned : Call → Bool
  may : Call → Answer → Shared → Prop
  turn : Call → Answer → Shared → Call × Shared

variable {Shared Request Call Answer : Type}

/-- The calls that have not returned see what is shared now. -/
def Onlooker.look (script : Script Shared Request Call Answer) (shared : Shared)
    (o : Onlooker Shared Call) : Onlooker Shared Call :=
  if script.returned o.call then o else { o with seen := shared :: o.seen }

namespace Script

def play (script : Script Shared Request Call Answer) :
    Automaton (Scene Shared Call) (SceneEvent Request Answer) where
  allowed s
    | .begin _ => True
    | .turn i answer => ∃ o ∈ s.onlookers[i]?, script.returned o.call = false ∧
      script.may o.call answer s.shared
  next s
    | .begin request => ⟨s.shared, s.onlookers ++ [⟨script.begin request s.shared, [s.shared]⟩]⟩
    | .turn i answer =>
      match s.onlookers[i]? with
      | none => s
      | some o =>
        let (call, shared) := script.turn o.call answer s.shared
        ⟨shared, (s.onlookers.map (·.look script shared)).set i ⟨call, shared :: o.seen⟩⟩

/-- A condition on the beginning of calls and on their turns -/
structure Condition (Shared Request Call Answer : Type) where
  begins : Request → Shared → Prop
  turns : Call → Answer → Shared → Prop

def Condition.meets (C : Condition Shared Request Call Answer) (s : Scene Shared Call) :
    SceneEvent Request Answer → Prop
  | .begin request => C.begins request s.shared
  | .turn i answer => ∀ o ∈ s.onlookers[i]?, C.turns o.call answer s.shared

section
variable (script : Script Shared Request Call Answer) (C : Condition Shared Request Call Answer)

instance decidableAllowed [∀ c a s, Decidable (script.may c a s)] :
    ∀ s e, Decidable (script.play.allowed s e)
  | _, .begin _ => isTrue trivial
  | s, .turn i answer =>
    inferInstanceAs (Decidable (∃ o ∈ s.onlookers[i]?,
      script.returned o.call = false ∧ script.may o.call answer s.shared))

instance decidableMeets [∀ r s, Decidable (C.begins r s)] [∀ c a s, Decidable (C.turns c a s)] :
    ∀ (s : Scene Shared Call) e, Decidable (C.meets s e)
  | s, .begin request => inferInstanceAs (Decidable (C.begins request s.shared))
  | s, .turn i answer => inferInstanceAs (Decidable (∀ o ∈ s.onlookers[i]?, C.turns o.call answer s.shared))

end

/-! ### Invariants -/

/-- What is kept of a call under way, given what is shared and what it has seen, and what holds of one that has
returned -/
structure Promise (Shared Call : Type) where
  running : Call → Shared → List Shared → Prop
  done : Call → List Shared → Prop

/-- The call has seen what is shared now, and only states with `J`. -/
structure Sees (J : Shared → Prop) (shared : Shared) (seen : List Shared) : Prop where
  now : shared ∈ seen
  all : ∀ x ∈ seen, J x

/-- The call keeps the promise, and it sees all there is until it returns. -/
def Promise.HoldsFor (script : Script Shared Request Call Answer) (J : Shared → Prop)
    (P : Promise Shared Call)
    (shared : Shared) (o : Onlooker Shared Call) : Prop :=
  if script.returned o.call then P.done o.call o.seen
  else Sees J shared o.seen ∧ P.running o.call shared o.seen

/-- The shared state keeps `J`, and moves only as `R` says, when each call keeps the promise by its own turns
and whenever others move. -/
structure Upholds (script : Script Shared Request Call Answer) (C : Condition Shared Request Call Answer)
    (J : Shared → Prop) (R : Shared → Shared → Prop) (P : Promise Shared Call) : Prop where
  begins : ∀ request shared, J shared → C.begins request shared →
    P.HoldsFor script J shared ⟨script.begin request shared, [shared]⟩
  moves : ∀ call answer shared seen, Sees J shared seen → P.running call shared seen →
    script.may call answer shared → C.turns call answer shared →
    J (script.turn call answer shared).2 ∧ R shared (script.turn call answer shared).2
  turns : ∀ call answer shared seen, Sees J shared seen → P.running call shared seen →
    script.may call answer shared → C.turns call answer shared →
    P.HoldsFor script J (script.turn call answer shared).2
      ⟨(script.turn call answer shared).1, (script.turn call answer shared).2 :: seen⟩
  watches : ∀ call shared shared' seen, Sees J shared seen → R shared shared' → P.running call shared seen →
    P.running call shared' (shared' :: seen)

theorem Sees.cons {J : Shared → Prop} {shared shared' : Shared} {seen : List Shared} (h : Sees J shared seen)
    (hJ : J shared') : Sees J shared' (shared' :: seen) :=
  ⟨List.mem_cons_self, List.forall_mem_cons.mpr ⟨hJ, h.all⟩⟩

end Script

open Script

variable {script : Script Shared Request Call Answer} {C : Condition Shared Request Call Answer}
  {J : Shared → Prop} {R : Shared → Shared → Prop} {P : Promise Shared Call} {s : Scene Shared Call}

/-- The shared state keeps `J`, and the calls their promise. -/
structure Scene.Kept (script : Script Shared Request Call Answer) (J : Shared → Prop)
    (P : Promise Shared Call)
    (s : Scene Shared Call) : Prop where
  shared : J s.shared
  calls : ∀ o ∈ s.onlookers, P.HoldsFor script J s.shared o

theorem Script.Promise.holdsFor_look (h : Upholds script C J R P) {shared shared' : Shared} (hJ : J shared')
    (hR : R shared shared') {o : Onlooker Shared Call} (ho : P.HoldsFor script J shared o) :
    P.HoldsFor script J shared' (o.look script shared') := by
  rw [Onlooker.look]
  cases hreturned : script.returned o.call with
  | true =>
    rw [HoldsFor, if_pos hreturned] at ho
    rwa [HoldsFor, if_pos rfl, if_pos hreturned]
  -- a call under way sees what is shared now, and relies on how it moves
  | false =>
    rw [HoldsFor, hreturned] at ho
    rw [HoldsFor, if_neg Bool.false_ne_true, hreturned]
    obtain ⟨hsees, hrunning⟩ := ho
    exact ⟨hsees.cons hJ, h.watches _ _ _ _ hsees hR hrunning⟩

/-- Every event that meets the condition keeps the promises. -/
theorem Script.Upholds.kept_next (h : Upholds script C J R P) (hs : s.Kept script J P)
    (e : SceneEvent Request Answer) (hallowed : script.play.allowed s e) (hc : C.meets s e) :
    (script.play.next s e).Kept script J P := by
  cases e with
  | begin request =>
    have hbegins := h.begins request s.shared hs.shared hc
    exact ⟨hs.shared, forall_snoc hs.calls hbegins⟩
  | turn i answer =>
    obtain ⟨o, ho, hreturned, hmay⟩ := hallowed
    have hturns := hc o ho
    have hheld := hs.calls o (List.mem_of_getElem? ho)
    rw [Promise.HoldsFor, hreturned] at hheld
    obtain ⟨hsees, hrunning⟩ := hheld
    -- what the turn does to the shared state is what the others rely on
    have hmoves := h.moves _ _ _ _ hsees hrunning hmay hturns
    have hturn := h.turns _ _ _ _ hsees hrunning hmay hturns
    change Scene.Kept script J P (match s.onlookers[i]? with
      | none => s
      | some o => _)
    rw [Option.mem_def.mp ho]
    refine ⟨hmoves.1, forall_set ?_ i hturn⟩
    -- the others have seen what the turn made of what is shared
    intro o' ho'
    obtain ⟨o', hmem, rfl⟩ := List.mem_map.mp ho'
    exact Promise.holdsFor_look h hmoves.1 hmoves.2 (hs.calls o' hmem)

/-- A run whose events meet the condition keeps the promises all along. -/
theorem Script.Upholds.kept_throughout (h : Upholds script C J R P) (hs : s.Kept script J P)
    {events : List (SceneEvent Request Answer)} (hrun : script.play.Permits C.meets s events) :
    script.play.Throughout (Scene.Kept script J P) s events :=
  hrun.throughout hs fun _ e hs hallowed hc => h.kept_next hs e hallowed hc

/-! ### Calls that return -/

/-- When every turn of a call goes down in a well-founded order, the call returns, whatever happens between its
turns. -/
theorem Script.returns_of_rank {α : Type} [Preorder α] [WellFoundedLT α] (rank : Call → α)
    (hrank : ∀ call answer shared, script.returned call = false →
      rank (script.turn call answer shared).1 < rank call) (calls : ℕ → Call)
    (hturns : ∀ n, script.returned (calls n) = false →
      ∃ answer shared, calls (n+1) = (script.turn (calls n) answer shared).1) :
    ∃ n, script.returned (calls n) = true := by
  by_contra hnever
  have hrunning (n : ℕ) : script.returned (calls n) = false := by
    rw [← Bool.not_eq_true]
    exact fun h => hnever ⟨n, h⟩
  -- the ranks of a call that never returned would go down for ever
  have hdown (n : ℕ) : rank (calls (n+1)) < rank (calls n) := by
    obtain ⟨answer, shared, hturn⟩ := hturns n (hrunning n)
    rw [hturn]
    exact hrank _ _ _ (hrunning n)
  exact not_strictAnti_of_wellFoundedLT (fun n => rank (calls n)) (strictAnti_nat_of_succ_lt hdown)

/-! ### Calls that act when they are made -/

/-- What a call does when it is made, given how many have been made before it; which answers the surroundings
may give; and what an answer makes of a call that waits for one of its kind, and of what is shared -/
structure Routine (Shared Request Call Answer : Type) where
  start : ℕ → Request → Shared → Shared × Call
  may : Answer → Prop
  settle : Call → Answer → Shared → Option (Shared × Call)

/-- What is shared, and the calls in the order in which they have been made -/
structure Calls (Shared Call : Type) where
  shared : Shared
  calls : List Call

inductive CallEvent (Request Answer : Type)
  | make (request : Request)
  | settle (i : ℕ) (answer : Answer)

namespace Routine

variable (r : Routine Shared Request Call Answer)

def settled? (s : Calls Shared Call) (i : ℕ) (answer : Answer) : Option (Shared × Call) :=
  (s.calls[i]?).bind fun call => r.settle call answer s.shared

/-- The calls in any interleaving -/
def interleaved : Automaton (Calls Shared Call) (CallEvent Request Answer) where
  allowed s
    | .make _ => True
    | .settle i answer => r.may answer ∧ (r.settled? s i answer).isSome
  next s
    | .make request =>
      let (shared, call) := r.start s.calls.length request s.shared
      ⟨shared, s.calls ++ [call]⟩
    | .settle i answer =>
      match r.settled? s i answer with
      | some (shared, call) => ⟨shared, s.calls.set i call⟩
      | none => s

/-- What is shared keeps `J`, for the number of calls that have been made; each call keeps its own `Q`, and moves
what is shared only as `R` says, on which the others rely. -/
structure Keeps (J : ℕ → Shared → Prop) (R : ℕ → Shared → Shared → Prop) (Q : ℕ → Call → Shared → Prop) :
    Prop where
  starts : ∀ n request s, J n s →
    J (n+1) (r.start n request s).1 ∧ R n s (r.start n request s).1 ∧
      Q n (r.start n request s).2 (r.start n request s).1
  settles : ∀ n i call answer s s' call', J n s → i < n → Q i call s → r.may answer →
    r.settle call answer s = some (s', call') → J n s' ∧ R i s s' ∧ Q i call' s'
  relies : ∀ i j call s s', i ≠ j → R i s s' → Q j call s → Q j call s'

variable {r} {J : ℕ → Shared → Prop} {R : ℕ → Shared → Shared → Prop} {Q : ℕ → Call → Shared → Prop}
  {s t : Calls Shared Call}

/-- The invariant of interleaved calls -/
structure Kept (J : ℕ → Shared → Prop) (Q : ℕ → Call → Shared → Prop) (s : Calls Shared Call) : Prop where
  shared : J s.calls.length s.shared
  calls : ∀ i call, s.calls[i]? = some call → Q i call s.shared

theorem Keeps.made (h : r.Keeps J R Q) (hs : Kept J Q s) (request : Request) :
    Kept J Q (r.interleaved.next s (.make request)) := by
  obtain ⟨hJ, hR, hQ⟩ := h.starts s.calls.length request s.shared hs.shared
  constructor
  · change J (s.calls ++ [_]).length _
    rw [List.length_append, List.length_singleton]
    exact hJ
  · intro i call hcall
    change (s.calls ++ [_])[i]? = some call at hcall
    have hlt := (List.getElem?_eq_some_iff.mp hcall).1
    rw [List.length_append, List.length_singleton] at hlt
    by_cases hlast : i = s.calls.length
    · rw [hlast, List.getElem?_concat_length] at hcall
      rw [hlast, ← Option.some.inj hcall]
      exact hQ
    · -- a call that was there before relies on what the new one has done
      have hbefore : i < s.calls.length := by omega
      rw [List.getElem?_append_left hbefore] at hcall
      exact h.relies _ i call s.shared _ (Ne.symm hlast) hR (hs.calls i call hcall)

theorem Keeps.answered (h : r.Keeps J R Q) (hs : Kept J Q s) {i : ℕ} {answer : Answer}
    (hallowed : r.interleaved.allowed s (.settle i answer)) :
    Kept J Q (r.interleaved.next s (.settle i answer)) := by
  obtain ⟨hmay, hsome⟩ := hallowed
  obtain ⟨⟨shared, call'⟩, hsettled⟩ := Option.isSome_iff_exists.mp hsome
  obtain ⟨call, hcall, hgone⟩ := Option.bind_eq_some_iff.mp hsettled
  have hlt := (List.getElem?_eq_some_iff.mp hcall).1
  obtain ⟨hJ, hR, hQ⟩ := h.settles _ i call answer _ _ _ hs.shared hlt (hs.calls i call hcall) hmay hgone
  change Kept J Q (match r.settled? s i answer with
    | some (shared, call) => ⟨shared, s.calls.set i call⟩
    | none => s)
  rw [hsettled]
  constructor
  · change J (s.calls.set i call').length shared
    rw [List.length_set]
    exact hJ
  · intro j other hother
    change (s.calls.set i call')[j]? = some other at hother
    by_cases hij : i = j
    · subst hij
      rw [List.getElem?_set_self hlt] at hother
      rw [← Option.some.inj hother]
      exact hQ
    · rw [List.getElem?_set_ne hij] at hother
      exact h.relies i j other s.shared shared hij hR (hs.calls j other hother)

/-- What the calls keep holds in every state that is reached, in any interleaving. -/
theorem Keeps.reached {C : Calls Shared Call → CallEvent Request Answer → Prop} (h : r.Keeps J R Q)
    {shared : Shared} (hstart : J 0 shared) (hreaches : r.interleaved.Reaches C ⟨shared, []⟩ t) :
    Kept J Q t := by
  apply hreaches.invariant
  · exact ⟨hstart, nofun⟩
  · intro s e hs hallowed _
    cases e with
    | make request => exact h.made hs request
    | settle i answer => exact h.answered hs hallowed

end Routine

end Automaton
