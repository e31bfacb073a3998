import Mathlib.Logic.Relation

/-! Calls that queue on a chain of promises. A call waits for the tail its
predecessors left and releases its own when it settles, so the calls run one at
a time in the order in which they were made. -/
namespace Js

/-- What one call does between two awaits, on the state the calls share. -/
structure PromiseMutex (Shared Call : Type) where
  queued : Call → Prop
  settled : Call → Prop
  resume : Shared → Call → Shared → Call → Prop
  not_settled : ∀ c, queued c → ¬ settled c

namespace PromiseMutex

variable {Shared Call : Type} (M : PromiseMutex Shared Call)

/-- One step of any of the calls, listed in the order in which they were made. -/
inductive Step : Shared × List Call → Shared × List Call → Prop
  | call (s : Shared) (calls : List Call) (c : Call) (hc : M.queued c) :
      Step (s, calls) (s, calls ++ [c])
  | enter (s s' : Shared) (before after : List Call) (c c' : Call) (hc : M.queued c)
      (htail : ∀ b ∈ before, M.settled b) (hr : M.resume s c s' c') :
      Step (s, before ++ c :: after) (s', before ++ c' :: after)
  | resume (s s' : Shared) (before after : List Call) (c c' : Call) (hq : ¬ M.queued c)
      (hs : ¬ M.settled c) (hr : M.resume s c s' c') :
      Step (s, before ++ c :: after) (s', before ++ c' :: after)

/-- Any interleaving of the calls made since the state was `s` with no call in flight. -/
def Runs (s : Shared) (st : Shared × List Call) : Prop :=
  Relation.ReflTransGen M.Step (s, []) st

/-- The calls, of which every step between two awaits meets a condition. -/
def restrict (meets : Shared → Call → Shared → Call → Prop) : PromiseMutex Shared Call :=
  { M with resume := fun s c s' c' => M.resume s c s' c' ∧ meets s c s' c' }

/-- A property of the shared state between calls, and one while a call runs. -/
structure SerialInvariant where
  Idle : Shared → List Call → Prop
  Busy : Shared → List Call → Call → Prop
  enter : ∀ {s done c s' c'}, Idle s done → M.queued c → M.resume s c s' c' →
    (M.settled c' ∧ Idle s' (done ++ [c'])) ∨ (¬ M.queued c' ∧ ¬ M.settled c' ∧ Busy s' done c')
  resume : ∀ {s done c s' c'}, Busy s done c → M.resume s c s' c' →
    (M.settled c' ∧ Idle s' (done ++ [c'])) ∨ (¬ M.queued c' ∧ ¬ M.settled c' ∧ Busy s' done c')

/-- Settled calls, at most one in flight, and calls that wait. -/
inductive Serial (I : M.SerialInvariant) : Shared × List Call → Prop
  | idle (s : Shared) (done rest : List Call) (hd : ∀ c ∈ done, M.settled c)
      (hr : ∀ c ∈ rest, M.queued c) (h : I.Idle s done) : Serial I (s, done ++ rest)
  | busy (s : Shared) (done rest : List Call) (c : Call) (hd : ∀ c ∈ done, M.settled c)
      (hr : ∀ c ∈ rest, M.queued c) (hq : ¬ M.queued c) (hs : ¬ M.settled c)
      (h : I.Busy s done c) : Serial I (s, done ++ c :: rest)

variable {M}

theorem settled_append {done : List Call} {c : Call} (hd : ∀ b ∈ done, M.settled b)
    (hc : M.settled c) : ∀ b ∈ done ++ [c], M.settled b := by
  intro b hb
  rcases List.mem_append.mp hb with hb | hb
  · exact hd b hb
  · rwa [List.mem_singleton.mp hb]

/-- A call that is not settled stands behind every settled prefix. -/
theorem prefix_of_not_settled {done before rest after : List Call} {c : Call}
    (hd : ∀ b ∈ done, M.settled b) (hc : ¬ M.settled c)
    (h : before ++ c :: after = done ++ rest) :
    ∃ bs, before = done ++ bs ∧ rest = bs ++ c :: after := by
  rcases List.append_eq_append_iff.mp h with ⟨as, hdone, has⟩ | ⟨bs, hbefore, hrest⟩
  · cases as with
    | nil => exact ⟨[], by rw [hdone, List.append_nil, List.append_nil], has.symm⟩
    | cons a as =>
      obtain ⟨rfl, _⟩ := List.cons.inj has
      exact absurd (hd c (by rw [hdone]; simp)) hc
  · exact ⟨bs, hbefore, hrest⟩

theorem Serial.after {I : M.SerialInvariant} {s : Shared} {done rest : List Call} {c : Call}
    (hd : ∀ b ∈ done, M.settled b) (hr : ∀ b ∈ rest, M.queued b)
    (h : (M.settled c ∧ I.Idle s (done ++ [c])) ∨
      (¬ M.queued c ∧ ¬ M.settled c ∧ I.Busy s done c)) : M.Serial I (s, done ++ c :: rest) := by
  rcases h with ⟨hc, hidle⟩ | ⟨hq, hs, hbusy⟩
  · have hserial := Serial.idle s (done ++ [c]) rest (settled_append hd hc) hr hidle
    rwa [List.append_assoc] at hserial
  · exact .busy s done rest c hd hr hq hs hbusy

theorem Serial.step {I : M.SerialInvariant} {st st' : Shared × List Call} (h : M.Serial I st)
    (hstep : M.Step st st') : M.Serial I st' := by
  cases hstep with
  | call s calls c hc =>
    have hsnoc {rest : List Call} (hr : ∀ b ∈ rest, M.queued b) : ∀ b ∈ rest ++ [c], M.queued b := by
      intro b hb
      rcases List.mem_append.mp hb with hb | hb
      · exact hr b hb
      · rwa [List.mem_singleton.mp hb]
    cases h with
    | idle _ done rest hd hr hidle =>
      rw [List.append_assoc]
      exact .idle s done (rest ++ [c]) hd (hsnoc hr) hidle
    | busy _ done rest x hd hr hq hs hbusy =>
      rw [List.append_assoc, List.cons_append]
      exact .busy s done (rest ++ [c]) x hd (hsnoc hr) hq hs hbusy
  | enter s s' before after c c' hc htail hr' =>
    -- the call that enters is the first not settled: no call before it is still busy
    have hns := M.not_settled c hc
    generalize hcalls : before ++ c :: after = calls at h
    cases h with
    | idle _ done rest hd hr hidle =>
      obtain ⟨bs, rfl, rfl⟩ := prefix_of_not_settled hd hns hcalls
      cases bs with
      | nil =>
        rw [List.append_nil]
        exact .after hd (fun b hb => hr b (List.mem_cons_of_mem _ hb)) (I.enter hidle hc hr')
      | cons b bs =>
        exact absurd (htail b (by simp)) (M.not_settled b (hr b (List.mem_cons_self ..)))
    | busy _ done rest x hd hr hq hs hbusy =>
      obtain ⟨bs, rfl, hx⟩ := prefix_of_not_settled hd hns hcalls
      cases bs with
      | nil =>
        obtain ⟨rfl, _⟩ := List.cons.inj hx
        exact absurd hc hq
      | cons b bs =>
        obtain ⟨rfl, _⟩ := List.cons.inj hx
        exact absurd (htail x (by simp)) hs
  | resume s s' before after c c' hnq hns hr' =>
    -- a call that resumes is past the queue, so the mutex is busy and the call is the one it holds
    generalize hcalls : before ++ c :: after = calls at h
    cases h with
    | idle _ done rest hd hr hidle =>
      obtain ⟨bs, _, rfl⟩ := prefix_of_not_settled hd hns hcalls
      exact absurd (hr c (by simp)) hnq
    | busy _ done rest x hd hr hq hs hbusy =>
      obtain ⟨bs, rfl, hx⟩ := prefix_of_not_settled hd hns hcalls
      cases bs with
      | nil =>
        obtain ⟨rfl, rfl⟩ := List.cons.inj hx
        rw [List.append_nil]
        exact .after hd hr (I.resume hbusy hr')
      | cons b bs =>
        obtain ⟨_, rfl⟩ := List.cons.inj hx
        exact absurd (hr c (by simp)) hnq

/-- A call that is in flight is the one that runs. -/
theorem Serial.running {I : M.SerialInvariant} {s : Shared} {before after : List Call} {c : Call}
    (h : M.Serial I (s, before ++ c :: after)) (hq : ¬ M.queued c) (hs : ¬ M.settled c) :
    I.Busy s before c := by
  generalize hcalls : before ++ c :: after = calls at h
  cases h with
  | idle _ done rest hd hr hidle =>
    obtain ⟨bs, -, rfl⟩ := prefix_of_not_settled hd hs hcalls
    exact absurd (hr c (by simp)) hq
  | busy _ done rest x hd hr hxq hxs hbusy =>
    obtain ⟨bs, rfl, hx⟩ := prefix_of_not_settled hd hs hcalls
    cases bs with
    | nil =>
      obtain ⟨rfl, -⟩ := List.cons.inj hx
      rwa [List.append_nil]
    | cons b bs =>
      obtain ⟨-, rfl⟩ := List.cons.inj hx
      exact absurd (hr c (by simp)) hq

/-- A step of the surroundings that keeps both properties of the shared state keeps the invariant. -/
theorem Serial.surroundings {I : M.SerialInvariant} {s s' : Shared} {calls : List Call}
    (h : M.Serial I (s, calls))
    (hidle : ∀ done rest, calls = done ++ rest → (∀ c ∈ rest, M.queued c) → I.Idle s done → I.Idle s' done)
    (hbusy : ∀ done c rest, calls = done ++ c :: rest → (∀ b ∈ rest, M.queued b) →
      I.Busy s done c → I.Busy s' done c) : M.Serial I (s', calls) := by
  generalize hst : (s, calls) = st at h
  cases h with
  | idle _ done rest hd hr h =>
    obtain ⟨rfl, rfl⟩ := Prod.mk.inj hst
    exact .idle s' done rest hd hr (hidle done rest rfl hr h)
  | busy _ done rest c hd hr hq hs h =>
    obtain ⟨rfl, rfl⟩ := Prod.mk.inj hst
    exact .busy s' done rest c hd hr hq hs (hbusy done c rest rfl hr h)

/-- Every interleaving keeps an invariant that the calls keep when run one by one. -/
theorem Runs.serial (I : M.SerialInvariant) {s : Shared} {st : Shared × List Call}
    (h0 : I.Idle s []) (h : M.Runs s st) : M.Serial I st := by
  induction h with
  | refl =>
    have hnil (P : Call → Prop) : ∀ b ∈ ([] : List Call), P b := fun _ hb => absurd hb List.not_mem_nil
    exact .idle s [] [] (hnil _) (hnil _) h0
  | tail _ hstep ih => exact ih.step hstep

theorem Runs.of_restrict {meets : Shared → Call → Shared → Call → Prop} {s : Shared}
    {st : Shared × List Call} (h : (M.restrict meets).Runs s st) : M.Runs s st := by
  induction h with
  | refl => exact .refl
  | tail _ hstep ih =>
    refine ih.tail ?_
    cases hstep with
    | call s calls c hc => exact .call s calls c hc
    | enter s s' before after c c' hc htail hr => exact .enter s s' before after c c' hc htail hr.1
    | resume s s' before after c c' hq hs hr => exact .resume s s' before after c c' hq hs hr.1

/-- The last call goes on when all before it have settled. -/
theorem Runs.last {s0 s s' : Shared} {done : List Call} {c c' : Call} (h : M.Runs s0 (s, done ++ [c]))
    (hd : ∀ b ∈ done, M.settled b) (hs : ¬ M.settled c) (hr : M.resume s c s' c') :
    M.Runs s0 (s', done ++ [c']) := by
  by_cases hq : M.queued c
  · exact h.tail (.enter s s' done [] c c' hq hd hr)
  · exact h.tail (.resume s s' done [] c c' hq hs hr)

/-- What holds of a call when it is made, and is kept whenever it goes on, holds of all calls. -/
theorem forall_of_runs {Q : Call → Prop} {s : Shared} {st : Shared × List Call} (h : M.Runs s st)
    (hcall : ∀ c, M.queued c → Q c) (hresume : ∀ s c s' c', M.resume s c s' c' → Q c → Q c') :
    ∀ c ∈ st.2, Q c := by
  have hgoes {s s' : Shared} {before after : List Call} {c c' : Call} (hr : M.resume s c s' c')
      (hold : ∀ x ∈ before ++ c :: after, Q x) : ∀ x ∈ before ++ c' :: after, Q x := by
    obtain ⟨hbefore, hrest⟩ := List.forall_mem_append.mp hold
    obtain ⟨hown, hafter⟩ := List.forall_mem_cons.mp hrest
    refine List.forall_mem_append.mpr ⟨hbefore, ?_⟩
    exact List.forall_mem_cons.mpr ⟨hresume s c s' c' hr hown, hafter⟩
  induction h with
  | refl => exact fun c hc => absurd hc List.not_mem_nil
  | tail _ hstep ih =>
    cases hstep with
    | call s calls c hc => exact List.forall_mem_append.mpr ⟨ih, List.forall_mem_singleton.mpr (hcall c hc)⟩
    | enter s s' before after c c' hc htail hr => exact hgoes hr ih
    | resume s s' before after c c' hq hs hr => exact hgoes hr ih

end PromiseMutex

end Js
