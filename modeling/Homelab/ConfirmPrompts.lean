import Homelab.Gate
import Mathlib.Data.List.Basic
import Mathlib.Tactic.Common

/-! The typed-CONFIRM modals of one process. Each modal opens a readline interface of its own on the same
stdin, and every interface that is open is given each line that is typed. -/
namespace Homelab
open Js

/-! ### Modals -/

/-- A modal, and what has become of it: the line that its question has taken, by its number, whether its
question has failed, how many lines had been typed when its timer fired, and what it resolves to. -/
structure ConfirmModal where
  expected : JsString
  operatorId : JsString
  consumed : Option ℕ
  failed : Bool
  expired : Option ℕ
  resolved : Option Bool
deriving DecidableEq

namespace ConfirmModal

variable (m : ConfirmModal)

def ofInput (input : TypedConfirmInput) : ConfirmModal where
  expected := input.expectedWord.getD (js "CONFIRM")
  operatorId := input.operatorId.getD (js "unknown")
  consumed := none
  failed := false
  expired := none
  resolved := none

/-- The interface is open: `promptLine` closes it when the question is answered or has failed, and at no
other time. -/
def isOpen : Bool := m.consumed.isNone && !m.failed

/-- `settle(v)`: only the first call counts. -/
def settle (v : Bool) : ConfirmModal := { m with resolved := m.resolved.or (some v) }

/-- The timer, which `settle` has cleared when the modal is settled -/
def expire (lines : ℕ) : ConfirmModal :=
  if m.resolved.isSome then m else { m with expired := some lines }.settle false

/-- The question is rejected. -/
def fail : ConfirmModal := if m.isOpen then { m with failed := true }.settle false else m

/-- The line of the number `lines` comes in. -/
def take (lines : ℕ) (line : JsString) : ConfirmModal :=
  if m.isOpen then { m with consumed := some lines }.settle (line = m.expected) else m

end ConfirmModal

/-! ### Events -/

inductive PromptEvent
  | opens (input : TypedConfirmInput)
  | timesOut (i : ℕ)
  | fails (i : ℕ)
  | typed (line : JsString)

/-- The modals in the order in which they have been opened, the number of lines that have been typed, and
the operators of the `wrong-confirm` attempts that have been counted -/
structure Prompts where
  modals : List ConfirmModal
  lines : ℕ
  bypassAttempts : List JsString

namespace Prompts

def start : Prompts := ⟨[], 0, []⟩

/-- What becomes of the modal `i`. -/
def next (lines : ℕ) (event : PromptEvent) (i : ℕ) (m : ConfirmModal) : ConfirmModal :=
  match event with
  | .opens _ => m
  | .timesOut j => if j = i then m.expire lines else m
  | .fails j => if j = i then m.fail else m
  | .typed line => m.take lines line

/-- The modals that are opened -/
def opened : PromptEvent → List ConfirmModal
  | .opens input => [.ofInput input]
  | _ => []

/-- The modals whose question a line answers with another word -/
def mismatched (modals : List ConfirmModal) (line : JsString) : List ConfirmModal :=
  modals.filter fun m => m.isOpen && line ≠ m.expected

def step (s : Prompts) (event : PromptEvent) : Prompts where
  modals := s.modals.mapIdx (next s.lines event) ++ opened event
  lines :=
    match event with
    | .typed _ => s.lines+1
    | _ => s.lines
  bypassAttempts :=
    match event with
    | .typed line => s.bypassAttempts ++ (mismatched s.modals line).map ConfirmModal.operatorId
    | _ => s.bypassAttempts

def run (s : Prompts) (events : List PromptEvent) : Prompts := events.foldl step s

end Prompts

/-! ### One confirmation, one action -/

/-- No line makes two modals resolve true, and no modal takes a line that is typed after its timer has
fired. -/
structure OneConfirmation (s : Prompts) : Prop where
  single : ∀ (i j : ℕ) (m m' : ConfirmModal), s.modals[i]? = some m → s.modals[j]? = some m' →
    m.resolved = some true →
    m'.resolved = some true → m.consumed = m'.consumed → i = j
  inTime : ∀ m ∈ s.modals, ∀ k l, m.expired = some k → m.consumed = some l → l < k

/-- When a line is typed no modal waits that has timed out, and not two that expect the line. -/
def ReadyFor (s : Prompts) : PromptEvent → Prop
  | .typed line => (∀ m ∈ s.modals, m.isOpen = true → m.resolved = none) ∧
      ∀ (i j : ℕ) (m m' : ConfirmModal), s.modals[i]? = some m → s.modals[j]? = some m' → m.isOpen = true →
        m'.isOpen = true →
        m.expected = line → m'.expected = line → i = j
  | _ => True

/-- The prompts of a run are ready for each of its events. -/
def OneAtATime (events : List PromptEvent) : Prop :=
  ∀ before event after, events = before ++ event :: after → ReadyFor (Prompts.start.run before) event

/-! ### What a modal keeps -/

/-- What holds of each modal once `lines` lines have been typed. -/
structure ConfirmModal.Consistent (lines : ℕ) (m : ConfirmModal) : Prop where
  consumed_lt : ∀ l, m.consumed = some l → l < lines
  expired_le : ∀ k, m.expired = some k → k ≤ lines
  expired_false : ∀ k, m.expired = some k → m.resolved = some false
  waits : m.isOpen = true → m.resolved ≠ none → m.expired ≠ none
  approved : m.resolved = some true → m.consumed ≠ none

/-- What has happened to a modal stays so. -/
structure ConfirmModal.Keeps (m m' : ConfirmModal) : Prop where
  consumed : ∀ l, m.consumed = some l → m'.consumed = some l
  expired : ∀ k, m.expired = some k → m'.expired = some k
  resolved : ∀ v, m.resolved = some v → m'.resolved = some v

namespace ConfirmModal

variable {m : ConfirmModal} {lines : ℕ} {line : JsString}

theorem keeps_refl (m : ConfirmModal) : Keeps m m := ⟨fun _ h => h, fun _ h => h, fun _ h => h⟩

theorem Keeps.trans {m' m'' : ConfirmModal} (h : Keeps m m') (h' : Keeps m' m'') : Keeps m m'' :=
  ⟨fun l hl => h'.consumed l (h.consumed l hl), fun k hk => h'.expired k (h.expired k hk),
    fun v hv => h'.resolved v (h.resolved v hv)⟩

theorem consumed_of_isOpen (h : m.isOpen = true) : m.consumed = none := by
  rw [isOpen, Bool.and_eq_true] at h
  exact Option.isNone_iff_eq_none.mp h.1

theorem consistent_ofInput (lines : ℕ) (input : TypedConfirmInput) : (ofInput input).Consistent lines where
  consumed_lt _ h := by cases h
  expired_le _ h := by cases h
  expired_false _ h := by cases h
  waits _ h := absurd rfl h
  approved h := by cases h

theorem take_of_isOpen (h : m.isOpen = true) (lines : ℕ) (line : JsString) : m.take lines line =
    { m with consumed := some lines, resolved := m.resolved.or (some (decide (line = m.expected))) } := by
  rw [take, if_pos h]
  rfl

theorem take_of_closed (h : m.isOpen = false) (lines : ℕ) (line : JsString) : m.take lines line = m := by
  rw [take, if_neg]
  rw [h]
  exact Bool.false_ne_true

theorem keeps_take (lines : ℕ) (line : JsString) : Keeps m (m.take lines line) := by
  cases hopen : m.isOpen with
  | false =>
    rw [take_of_closed hopen]
    exact keeps_refl m
  | true =>
    rw [take_of_isOpen hopen]
    refine ⟨?_, fun _ h => h, ?_⟩
    · intro l hl
      rw [consumed_of_isOpen hopen] at hl
      cases hl
    · intro v hv
      change m.resolved.or _ = some v
      rw [hv]
      rfl

theorem keeps_expire (lines : ℕ) (hcons : m.Consistent lines) : Keeps m (m.expire lines) := by
  rw [expire]
  cases hresolved : m.resolved with
  | some v => exact keeps_refl m
  | none =>
    refine ⟨fun _ h => h, ?_, ?_⟩
    · intro k hk
      cases (hcons.expired_false k hk).symm.trans hresolved
    · intro v hv
      cases hv.symm.trans hresolved

theorem keeps_fail : Keeps m m.fail := by
  rw [fail]
  split_ifs with hopen
  · refine ⟨fun _ h => h, fun _ h => h, ?_⟩
    intro v hv
    change m.resolved.or _ = some v
    rw [hv]
    rfl
  · exact keeps_refl m

theorem Consistent.later (h : m.Consistent lines) : m.Consistent (lines+1) where
  consumed_lt l hl := (h.consumed_lt l hl).trans (Nat.lt_succ_self _)
  expired_le k hk := (h.expired_le k hk).trans (Nat.le_succ _)
  expired_false := h.expired_false
  waits := h.waits
  approved := h.approved

theorem Consistent.take (h : m.Consistent lines) (line : JsString) :
    (m.take lines line).Consistent (lines+1) := by
  cases hopen : m.isOpen with
  | false =>
    rw [take_of_closed hopen]
    exact h.later
  | true =>
    rw [take_of_isOpen hopen]
    constructor
    · intro l hl
      cases hl
      exact Nat.lt_succ_self _
    · exact h.later.expired_le
    · intro k hk
      change m.resolved.or _ = some false
      rw [h.expired_false k hk]
      rfl
    · intro hcontra
      cases hcontra
    · intro _ hcontra
      cases hcontra

theorem Consistent.expire (h : m.Consistent lines) : (m.expire lines).Consistent lines := by
  rw [ConfirmModal.expire]
  split_ifs with hsome
  · exact h
  · have hsettled : ({ m with expired := some lines }.settle false).resolved = some false := by
      change m.resolved.or _ = _
      rw [Option.not_isSome_iff_eq_none.mp hsome]
      rfl
    constructor
    · exact h.consumed_lt
    · intro k hk
      cases hk
      exact le_rfl
    · exact fun _ _ => hsettled
    · intro _ _ hcontra
      cases hcontra
    · intro hcontra
      rw [hsettled] at hcontra
      cases hcontra

theorem Consistent.fail (h : m.Consistent lines) : m.fail.Consistent lines := by
  rw [ConfirmModal.fail]
  split_ifs with hopen
  · constructor
    · exact h.consumed_lt
    · exact h.expired_le
    · intro k hk
      change m.resolved.or _ = some false
      rw [h.expired_false k hk]
      rfl
    · intro hcontra
      change (m.consumed.isNone && !true) = true at hcontra
      rw [Bool.not_true, Bool.and_false] at hcontra
      cases hcontra
    · intro happroved
      change m.resolved.or (some false) = some true at happroved
      cases hresolved : m.resolved with
      | none =>
        rw [hresolved] at happroved
        cases happroved
      | some v =>
        rw [hresolved] at happroved
        cases happroved
        exact h.approved hresolved
  · exact h

end ConfirmModal

/-! ### Runs -/

namespace Prompts

variable {s : Prompts}

/-- What holds of all modals, after any events. -/
def Consistent (s : Prompts) : Prop := ∀ m ∈ s.modals, m.Consistent s.lines

theorem step_modals {event : PromptEvent} {m : ConfirmModal} (h : m ∈ (s.step event).modals) :
    (∃ i m', s.modals[i]? = some m' ∧ m = next s.lines event i m') ∨ m ∈ opened event := by
  rcases List.mem_append.mp h with h | h
  · obtain ⟨i, hi, rfl⟩ := List.mem_mapIdx.mp h
    exact .inl ⟨i, s.modals[i], List.getElem?_eq_getElem hi, rfl⟩
  · exact .inr h

theorem consistent_next {event : PromptEvent} {i : ℕ} {m : ConfirmModal} (h : m.Consistent s.lines) :
    (next s.lines event i m).Consistent (s.step event).lines := by
  cases event with
  | opens input => exact h
  | timesOut j =>
    change (if j = i then m.expire s.lines else m).Consistent s.lines
    split_ifs
    · exact h.expire
    · exact h
  | fails j =>
    change (if j = i then m.fail else m).Consistent s.lines
    split_ifs
    · exact h.fail
    · exact h
  | typed line => exact h.take line

theorem Consistent.step (h : s.Consistent) (event : PromptEvent) : (s.step event).Consistent := by
  intro m hm
  rcases step_modals hm with ⟨i, m', hm', rfl⟩ | hm
  · exact consistent_next (h m' (List.mem_of_getElem? hm'))
  · cases event with
    | opens input =>
      rw [List.mem_singleton.mp hm]
      exact ConfirmModal.consistent_ofInput _ input
    | _ => cases hm

theorem consistent_run (events : List PromptEvent) : (start.run events).Consistent := by
  have key (s : Prompts) (h : s.Consistent) : (s.run events).Consistent := by
    induction events generalizing s with
    | nil => exact h
    | cons event events ih => exact ih _ (h.step event)
  apply key
  intro m hm
  cases hm

theorem step_getElem {event : PromptEvent} {i : ℕ} {m : ConfirmModal} (h : s.modals[i]? = some m) :
    (s.step event).modals[i]? = some (next s.lines event i m) := by
  have hi := (List.getElem?_eq_some_iff.mp h).1
  change (s.modals.mapIdx (next s.lines event) ++ opened event)[i]? = _
  rw [List.getElem?_append_left (by rw [List.length_mapIdx]; exact hi), List.getElem?_mapIdx, h,
    Option.map_some]

theorem keeps_next {event : PromptEvent} {i : ℕ} {m : ConfirmModal} (h : m.Consistent s.lines) :
    m.Keeps (next s.lines event i m) := by
  cases event with
  | opens input => exact ConfirmModal.keeps_refl m
  | timesOut j =>
    change m.Keeps (if j = i then m.expire s.lines else m)
    split_ifs
    · exact ConfirmModal.keeps_expire s.lines h
    · exact ConfirmModal.keeps_refl m
  | fails j =>
    change m.Keeps (if j = i then m.fail else m)
    split_ifs
    · exact ConfirmModal.keeps_fail
    · exact ConfirmModal.keeps_refl m
  | typed line => exact ConfirmModal.keeps_take s.lines line

/-- A modal stays in its place, and what has happened to it stays so. -/
theorem keeps_run (hcons : s.Consistent) (events : List PromptEvent) {i : ℕ} {m : ConfirmModal}
    (h : s.modals[i]? = some m) : ∃ m', (s.run events).modals[i]? = some m' ∧ m.Keeps m' := by
  induction events generalizing s m with
  | nil => exact ⟨m, h, ConfirmModal.keeps_refl m⟩
  | cons event events ih =>
    have hnext := @keeps_next _ event i _ (hcons m (List.mem_of_getElem? h))
    obtain ⟨m', hm', hkeeps⟩ := ih (hcons.step event) (step_getElem h)
    exact ⟨m', hm', hnext.trans hkeeps⟩

end Prompts

/-! ### When one confirmation approves one action -/

variable {s : Prompts}

/-- A modal after a line is a modal before it that the line has come to. -/
theorem modal_of_typed {line : JsString} {i : ℕ} {m : ConfirmModal}
    (h : (s.step (.typed line)).modals[i]? = some m) :
    ∃ m₀, s.modals[i]? = some m₀ ∧ m = m₀.take s.lines line := by
  change (s.modals.mapIdx (Prompts.next s.lines (.typed line)) ++ [])[i]? = some m at h
  rw [List.append_nil, List.getElem?_mapIdx] at h
  obtain ⟨m₀, hm₀, rfl⟩ := Option.map_eq_some_iff.mp h
  exact ⟨m₀, hm₀, rfl⟩

/-- Only a line makes a modal resolve true. -/
theorem approved_before (hcons : s.Consistent) {event : PromptEvent}
    (hevent : ∀ line, event ≠ .typed line) {i : ℕ}
    {m : ConfirmModal} (h : (s.step event).modals[i]? = some m) (happroved : m.resolved = some true) :
    s.modals[i]? = some m := by
  by_cases hi : i < s.modals.length
  · have hm := h.symm.trans (@Prompts.step_getElem _ event _ _ (List.getElem?_eq_getElem hi))
    rw [List.getElem?_eq_getElem hi]
    have hm := Option.some.inj hm
    set m₀ := s.modals[i]
    cases event with
    | opens input => exact congrArg some hm.symm
    | typed line => exact absurd rfl (hevent line)
    | timesOut j =>
      change m = if j = i then m₀.expire s.lines else m₀ at hm
      split_ifs at hm with hj
      · rw [ConfirmModal.expire] at hm
        split_ifs at hm with hsome
        · exact congrArg some hm.symm
        · rw [hm] at happroved
          change m₀.resolved.or (some false) = some true at happroved
          rw [Option.not_isSome_iff_eq_none.mp hsome] at happroved
          cases happroved
      · exact congrArg some hm.symm
    | fails j =>
      change m = if j = i then m₀.fail else m₀ at hm
      split_ifs at hm with hj
      · rw [ConfirmModal.fail] at hm
        split_ifs at hm with hopen
        · -- an open question has not been answered, so the modal has not been approved
          rw [hm] at happroved
          change m₀.resolved.or (some false) = some true at happroved
          have hbefore : m₀.resolved = some true := by
            cases hresolved : m₀.resolved with
            | none =>
              rw [hresolved] at happroved
              cases happroved
            | some v =>
              rw [hresolved] at happroved
              exact happroved
          have hmem : m₀ ∈ s.modals := List.getElem_mem hi
          exact absurd (ConfirmModal.consumed_of_isOpen hopen) ((hcons m₀ hmem).approved hbefore)
        · exact congrArg some hm.symm
      · exact congrArg some hm.symm
  · -- a modal that has just been opened waits
    change (s.modals.mapIdx (Prompts.next s.lines event) ++ Prompts.opened event)[i]? = some m at h
    rw [List.getElem?_append_right (by rw [List.length_mapIdx]; omega)] at h
    have hmem := List.mem_of_getElem? h
    cases event with
    | opens input =>
      rw [List.mem_singleton.mp hmem] at happroved
      cases happroved
    | _ => cases hmem

/-- A step that the prompts are ready for keeps confirmations apart. -/
theorem OneConfirmation.step (hcons : s.Consistent) (h : OneConfirmation s) {event : PromptEvent}
    (hready : ReadyFor s event) : OneConfirmation (s.step event) := by
  by_cases htyped : ∃ line, event = .typed line
  · obtain ⟨line, rfl⟩ := htyped
    obtain ⟨hwaiting, hsingle⟩ := hready
    -- a modal that the line approves was open and expects it
    have happroves {m : ConfirmModal} (hm : m ∈ s.modals) (hopen : m.isOpen = true)
        (happroved : (m.take s.lines line).resolved = some true) : m.expected = line := by
      rw [ConfirmModal.take_of_isOpen hopen, hwaiting m hm hopen, Option.none_or] at happroved
      exact (of_decide_eq_true (Option.some.inj happroved)).symm
    have hlines {m : ConfirmModal} (hopen : m.isOpen = true) :
        (m.take s.lines line).consumed = some s.lines := by
      rw [ConfirmModal.take_of_isOpen hopen]
    constructor
    · intro i j m m' hm hm' happroved happroved' hsame
      obtain ⟨m₀, hm₀, rfl⟩ := modal_of_typed hm
      obtain ⟨m₁, hm₁, rfl⟩ := modal_of_typed hm'
      have hmem := List.mem_of_getElem? hm₀
      have hmem' := List.mem_of_getElem? hm₁
      cases hopen : m₀.isOpen with
      | true =>
        cases hopen' : m₁.isOpen with
        | true =>
          have hline := happroves hmem hopen happroved
          have hline' := happroves hmem' hopen' happroved'
          exact hsingle i j m₀ m₁ hm₀ hm₁ hopen hopen' hline hline'
        | false =>
          rw [hlines hopen, ConfirmModal.take_of_closed hopen'] at hsame
          exact absurd ((hcons m₁ hmem').consumed_lt _ hsame.symm) (lt_irrefl _)
      | false =>
        rw [ConfirmModal.take_of_closed hopen] at happroved hsame
        cases hopen' : m₁.isOpen with
        | true =>
          rw [hlines hopen'] at hsame
          exact absurd ((hcons m₀ hmem).consumed_lt _ hsame) (lt_irrefl _)
        | false =>
          rw [ConfirmModal.take_of_closed hopen'] at happroved' hsame
          exact h.single i j m₀ m₁ hm₀ hm₁ happroved happroved' hsame
    · intro m hm k l hexpired hconsumed
      obtain ⟨i, hi⟩ := List.getElem?_of_mem hm
      obtain ⟨m₀, hm₀, rfl⟩ := modal_of_typed hi
      have hmem := List.mem_of_getElem? hm₀
      cases hopen : m₀.isOpen with
      | true =>
        rw [ConfirmModal.take_of_isOpen hopen] at hexpired
        have hresolved := (hcons m₀ hmem).expired_false k hexpired
        rw [hwaiting m₀ hmem hopen] at hresolved
        cases hresolved
      | false =>
        rw [ConfirmModal.take_of_closed hopen] at hexpired hconsumed
        exact h.inTime m₀ hmem k l hexpired hconsumed
  · have hevent : ∀ line, event ≠ .typed line := fun line hline => htyped ⟨line, hline⟩
    constructor
    · intro i j m m' hm hm' happroved happroved' hsame
      exact h.single i j m m' (approved_before hcons hevent hm happroved)
        (approved_before hcons hevent hm' happroved') happroved happroved' hsame
    · intro m hm k l hexpired hconsumed
      rcases Prompts.step_modals hm with ⟨i, m₀, hm₀, rfl⟩ | hm
      · have hmem := List.mem_of_getElem? hm₀
        cases event with
        | opens input => exact h.inTime m₀ hmem k l hexpired hconsumed
        | typed line => exact absurd rfl (hevent line)
        | timesOut j =>
          change (if j = i then m₀.expire s.lines else m₀).expired = some k at hexpired
          change (if j = i then m₀.expire s.lines else m₀).consumed = some l at hconsumed
          split_ifs at hexpired hconsumed with hj
          · rw [ConfirmModal.expire] at hexpired hconsumed
            split_ifs at hexpired hconsumed with hsome
            · exact h.inTime m₀ hmem k l hexpired hconsumed
            · -- the line was typed before the timer has fired
              cases hexpired
              exact (hcons m₀ hmem).consumed_lt l hconsumed
          · exact h.inTime m₀ hmem k l hexpired hconsumed
        | fails j =>
          change (if j = i then m₀.fail else m₀).expired = some k at hexpired
          change (if j = i then m₀.fail else m₀).consumed = some l at hconsumed
          have hfail : m₀.fail.expired = m₀.expired ∧ m₀.fail.consumed = m₀.consumed := by
            rw [ConfirmModal.fail]
            split_ifs <;> exact ⟨rfl, rfl⟩
          split_ifs at hexpired hconsumed with hj
          · rw [hfail.1] at hexpired
            rw [hfail.2] at hconsumed
            exact h.inTime m₀ hmem k l hexpired hconsumed
          · exact h.inTime m₀ hmem k l hexpired hconsumed
      · cases event with
        | opens input =>
          rw [List.mem_singleton.mp hm] at hexpired
          cases hexpired
        | _ => cases hm

/-- In a run of events each line approves one modal at most, and none that has timed out takes a line,
just when the prompts are ready for each of them. -/
theorem oneConfirmation_iff (events : List PromptEvent) :
    OneConfirmation (Prompts.start.run events) ↔ OneAtATime events := by
  constructor
  · intro h before event after hsplit
    cases event with
    | typed line =>
      subst hsplit
      rw [Prompts.run, List.foldl_append, List.foldl_cons] at h
      change OneConfirmation (((Prompts.start.run before).step (.typed line)).run after) at h
      set s := Prompts.start.run before
      have hcons : s.Consistent := Prompts.consistent_run before
      -- what a modal that is open has come to in the end
      have hend {i : ℕ} {m : ConfirmModal} (hm : s.modals[i]? = some m) (hopen : m.isOpen = true) :
          ∃ m', ((s.step (.typed line)).run after).modals[i]? = some m' ∧ (m.take s.lines line).Keeps m' ∧
            m'.consumed = some s.lines := by
        obtain ⟨m', hm', hkeeps⟩ := Prompts.keeps_run (hcons.step _) after
          (@Prompts.step_getElem _ (.typed line) _ _ hm)
        refine ⟨m', hm', hkeeps, hkeeps.consumed _ ?_⟩
        change (m.take s.lines line).consumed = _
        rw [ConfirmModal.take_of_isOpen hopen]
      have hwaiting : ∀ m ∈ s.modals, m.isOpen = true → m.resolved = none := by
        intro m hmem hopen
        by_contra hresolved
        obtain ⟨i, hm⟩ := List.getElem?_of_mem hmem
        obtain ⟨k, hk⟩ := Option.ne_none_iff_exists'.mp ((hcons m hmem).waits hopen hresolved)
        obtain ⟨m', hm', hkeeps, hconsumed⟩ := hend hm hopen
        have hexpired : m'.expired = some k := by
          apply hkeeps.expired
          rw [ConfirmModal.take_of_isOpen hopen]
          exact hk
        have hlt := h.inTime m' (List.mem_of_getElem? hm') k _ hexpired hconsumed
        exact absurd ((hcons m hmem).expired_le k hk) (not_le.mpr hlt)
      refine ⟨hwaiting, ?_⟩
      intro i j m m' hm hm' hopen hopen' hline hline'
      have happroved {m : ConfirmModal} (hmem : m ∈ s.modals) (hopen : m.isOpen = true)
          (hline : m.expected = line) : (m.take s.lines line).resolved = some true := by
        rw [ConfirmModal.take_of_isOpen hopen, hwaiting m hmem hopen, Option.none_or, hline]
        exact congrArg some (decide_eq_true rfl)
      obtain ⟨e, he, hkeeps, hconsumed⟩ := hend hm hopen
      obtain ⟨e', he', hkeeps', hconsumed'⟩ := hend hm' hopen'
      apply h.single i j e e' he he' _ _ (hconsumed.trans hconsumed'.symm)
      · exact hkeeps.resolved _ (happroved (List.mem_of_getElem? hm) hopen hline)
      · exact hkeeps'.resolved _ (happroved (List.mem_of_getElem? hm') hopen' hline')
    | _ => trivial
  · intro h
    -- on the events of the run, from the first on
    have key (after before : List PromptEvent) (hsplit : events = before ++ after)
        (hone : OneConfirmation (Prompts.start.run before)) :
        OneConfirmation ((Prompts.start.run before).run after) := by
      induction after generalizing before with
      | nil => exact hone
      | cons event after ih =>
        have hready := h before event after hsplit
        have hnext := hone.step (Prompts.consistent_run before) hready
        have hrun : (Prompts.start.run before).step event = Prompts.start.run (before ++ [event]) := by
          rw [Prompts.run, Prompts.run, List.foldl_append, List.foldl_cons, List.foldl_nil]
        rw [hrun] at hnext
        have hrest := ih (before ++ [event]) (by rw [hsplit, List.append_assoc, List.singleton_append]) hnext
        rw [← hrun] at hrest
        exact hrest
    apply key events [] rfl
    constructor
    · intro i j m m' hm
      cases hm
    · intro m hm
      cases hm

/-- Two modals that wait for the same word -/
def twoModals : List PromptEvent :=
  [.opens ⟨js "restart nas", .ofNat 60, none, none⟩, .opens ⟨js "reboot nas", .ofNat 60, none, none⟩,
    .typed (js "CONFIRM")]

/-- The line that is typed once approves both. -/
theorem one_line_approves_two : ¬ ∀ events, OneConfirmation (Prompts.start.run events) := by
  intro h
  have hsame := (h twoModals).single 0 1 _ _ rfl rfl rfl rfl rfl
  cases hsame

end Homelab
