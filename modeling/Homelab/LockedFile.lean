import Homelab.PromiseMutex
import Mathlib.Data.List.Induction

/-! Calls that take turns at a file: each reads it, works out a new content, writes that to a
temporary file and renames this one onto the file. Every step may fail. -/
namespace Locked
open Js

/-- What a call makes of the content that it reads. -/
inductive Plan (Content Result Err : Type)
  | throws (e : Err)
  | keeps (r : Result)
  | writes (f : Content) (r : Result)

/-- How a call ends: it returns, it throws what its plan says, or a step has failed. -/
inductive Outcome (Result Err : Type)
  | returned (r : Result)
  | refused (e : Err)
  | failed (e : Err)

/-- What the caller gets. -/
def Outcome.result {Result Err : Type} : Outcome Result Err → Except Err Result
  | .returned r => .ok r
  | .refused e => .error e
  | .failed e => .error e

inductive Phase (Content Result Err : Type)
  | queued
  | reading
  | preparing (f : Content) (r : Result)
  | written (f : Content) (r : Result)
  | settled (o : Outcome Result Err)

structure Call (Content Op Result Err : Type) where
  op : Op
  phase : Phase Content Result Err

/-- The file, and the temporary one if it is complete. -/
structure OnDisk (Content : Type) where
  file : Content
  temp : Option Content

variable {Content Op Result Err : Type} (plan : Op → Content → Plan Content Result Err)

/-- What a plan leads to. -/
def Plan.phase : Plan Content Result Err → Phase Content Result Err
  | .throws e => .settled (.refused e)
  | .keeps r => .settled (.returned r)
  | .writes f r => .preparing f r

/-- One step of a call under the lock. Whenever a step fails, the temporary file may be in any
state. -/
inductive Resume (op : Op) : OnDisk Content → Phase Content Result Err → OnDisk Content →
    Phase Content Result Err → Prop
  | acquire (s : OnDisk Content) : Resume op s .queued s .reading
  | read (s : OnDisk Content) : Resume op s .reading s (plan op s.file).phase
  | unreadable (s : OnDisk Content) (e : Err) : Resume op s .reading s (.settled (.failed e))
  | prepare (s : OnDisk Content) (f : Content) (r : Result) (t : Option Content) :
      Resume op s (.preparing f r) { s with temp := t } (.preparing f r)
  | write (s : OnDisk Content) (f : Content) (r : Result) :
      Resume op s (.preparing f r) { s with temp := some f } (.written f r)
  | unwritable (s : OnDisk Content) (f : Content) (r : Result) (t : Option Content) (e : Err) :
      Resume op s (.preparing f r) { s with temp := t } (.settled (.failed e))
  | rename (s : OnDisk Content) (f g : Content) (r : Result) (h : s.temp = some g) :
      Resume op s (.written f r) ⟨g, none⟩ (.settled (.returned r))
  | stuck (s : OnDisk Content) (f : Content) (r : Result) (t : Option Content) (e : Err) :
      Resume op s (.written f r) { s with temp := t } (.settled (.failed e))

def Call.outcome? (c : Call Content Op Result Err) : Option (Op × Outcome Result Err) :=
  match c.phase with
  | .settled o => some (c.op, o)
  | _ => none

/-- The calls on one file, under its lock. -/
def lockedFile : PromiseMutex (OnDisk Content) (Call Content Op Result Err) where
  queued c := c.phase = .queued
  settled c := ∃ o, c.phase = .settled o
  resume s c s' c' := c'.op = c.op ∧ Resume plan c.op s c.phase s' c'.phase
  not_settled c hq := by
    rintro ⟨o, ho⟩
    rw [hq] at ho
    cases ho

/-- The calls that have settled, in the order of the lock. -/
def settledCalls (calls : List (Call Content Op Result Err)) : List (Op × Outcome Result Err) :=
  calls.filterMap Call.outcome?

/-- One call after the other, each from where those before it have led. -/
inductive OneByOne {State : Type} (Step : State → Op × Outcome Result Err → State → Prop) (a : State) :
    List (Op × Outcome Result Err) → State → Prop
  | nil : OneByOne Step a [] a
  | snoc {cs : List (Op × Outcome Result Err)} {b b' : State} {c : Op × Outcome Result Err}
      (h : OneByOne Step a cs b) (hstep : Step b c b') : OneByOne Step a (cs ++ [c]) b'

/-- A call on its own: one that throws leaves the file as it is. -/
def PlanStep (g : Content) (c : Op × Outcome Result Err) (g' : Content) : Prop :=
  match c.2 with
  | .returned r => (plan c.1 g = .keeps r ∧ g' = g) ∨ plan c.1 g = .writes g' r
  | .refused e => plan c.1 g = .throws e ∧ g' = g
  | .failed _ => g' = g

variable {plan} {f : Content} {s : OnDisk Content} {calls done : List (Call Content Op Result Err)}
  {c : Call Content Op Result Err}

theorem settledCalls_snoc : settledCalls (done ++ [c]) = settledCalls done ++ c.outcome?.toList := by
  rw [settledCalls, List.filterMap_append, settledCalls]
  cases h : c.outcome? with
  | none => rw [List.filterMap_cons_none h, List.filterMap_nil, Option.toList_none]
  | some o => rw [List.filterMap_cons_some h, List.filterMap_nil, Option.toList_some]

theorem outcome_settled {o : Outcome Result Err} (h : c.phase = .settled o) :
    settledCalls (done ++ [c]) = settledCalls done ++ [(c.op, o)] := by
  have houtcome : c.outcome? = some (c.op, o) := by rw [Call.outcome?, h]
  rw [settledCalls_snoc, houtcome, Option.toList_some]

/-- What the call that has the lock knows. -/
def Knows (plan : Op → Content → Plan Content Result Err) (s : OnDisk Content)
    (c : Call Content Op Result Err) : Prop :=
  match c.phase with
  | .reading => True
  | .preparing f r => plan c.op s.file = .writes f r
  | .written f r => plan c.op s.file = .writes f r ∧ s.temp = some f
  | _ => False

theorem knows_busy (h : Knows plan s c) : c.phase ≠ .queued ∧ ¬ ∃ o, c.phase = .settled o := by
  rw [Knows] at h
  constructor
  · intro hq
    rw [hq] at h
    exact h
  · rintro ⟨o, ho⟩
    rw [ho] at h
    exact h

theorem oneByOne_failed {e : Err} (h : OneByOne (PlanStep plan) f (settledCalls done) s.file)
    (hphase : c.phase = .settled (.failed e)) :
    OneByOne (PlanStep plan) f (settledCalls (done ++ [c])) s.file := by
  rw [outcome_settled hphase]
  exact .snoc h rfl

/-- What a plan that has been read leads to. -/
theorem oneByOne_read (h : OneByOne (PlanStep plan) f (settledCalls done) s.file)
    (hphase : c.phase = (plan c.op s.file).phase) :
    ((∃ o, c.phase = .settled o) ∧ OneByOne (PlanStep plan) f (settledCalls (done ++ [c])) s.file) ∨
      (OneByOne (PlanStep plan) f (settledCalls done) s.file ∧ Knows plan s c) := by
  cases hplan : plan c.op s.file with
  | throws e =>
    rw [hplan] at hphase
    rw [outcome_settled hphase]
    exact Or.inl ⟨⟨_, hphase⟩, .snoc h ⟨hplan, rfl⟩⟩
  | keeps r =>
    rw [hplan] at hphase
    rw [outcome_settled hphase]
    exact Or.inl ⟨⟨_, hphase⟩, .snoc h (Or.inl ⟨hplan, rfl⟩)⟩
  | writes g r =>
    rw [hplan] at hphase
    refine Or.inr ⟨h, ?_⟩
    rw [Knows, hphase]
    exact hplan

/-- A step of the call that has the lock: the calls that have settled have run one by one, and
the file is as the call knows it until it settles itself. -/
theorem oneByOne_resume {s' : OnDisk Content} {c' : Call Content Op Result Err}
    (h : OneByOne (PlanStep plan) f (settledCalls done) s.file) (hknows : Knows plan s c)
    (hop : c'.op = c.op) (hr : Resume plan c.op s c.phase s' c'.phase) :
    ((∃ o, c'.phase = .settled o) ∧ OneByOne (PlanStep plan) f (settledCalls (done ++ [c'])) s'.file) ∨
      (OneByOne (PlanStep plan) f (settledCalls done) s'.file ∧ Knows plan s' c') := by
  rw [← hop] at hr
  rw [Knows, ← hop] at hknows
  generalize hold : c.phase = phase at hr hknows
  generalize hnew : c'.phase = phase' at hr
  cases hr with
  | acquire => exact hknows.elim
  | read =>
    rw [← hnew]
    exact oneByOne_read h hnew
  | unreadable e => exact Or.inl ⟨⟨_, rfl⟩, oneByOne_failed h hnew⟩
  | prepare g r t =>
    refine Or.inr ⟨h, ?_⟩
    rw [Knows, hnew]
    exact hknows
  | write g r =>
    refine Or.inr ⟨h, ?_⟩
    rw [Knows, hnew]
    exact ⟨hknows, rfl⟩
  | unwritable g r t e => exact Or.inl ⟨⟨_, rfl⟩, oneByOne_failed (s := { s with temp := t }) h hnew⟩
  | rename g g' r htemp =>
    -- the temporary file is the one that this call has written
    obtain ⟨hplan, hwritten⟩ := hknows
    obtain rfl := Option.some.inj (hwritten.symm.trans htemp)
    rw [outcome_settled hnew]
    exact Or.inl ⟨⟨_, rfl⟩, .snoc h (Or.inr hplan)⟩
  | stuck g r t e => exact Or.inl ⟨⟨_, rfl⟩, oneByOne_failed (s := { s with temp := t }) h hnew⟩

/-- One call at a time, between the calls and while one has the lock. -/
def oneByOneInvariant (plan : Op → Content → Plan Content Result Err) (f : Content) :
    (lockedFile plan).SerialInvariant where
  Idle s done := OneByOne (PlanStep plan) f (settledCalls done) s.file
  Busy s done c := OneByOne (PlanStep plan) f (settledCalls done) s.file ∧ Knows plan s c
  enter := by
    rintro s done c s' c' h hq ⟨hop, hr⟩
    have hqueued : c.phase = .queued := hq
    rw [hqueued] at hr
    generalize hnew : c'.phase = phase' at hr
    cases hr
    refine Or.inr ⟨?_, ?_, h, ?_⟩
    · intro hcontra
      cases hnew.symm.trans hcontra
    · rintro ⟨o, hcontra⟩
      cases hnew.symm.trans hcontra
    · rw [Knows, hnew]
      trivial
  resume := by
    rintro s done c s' c' ⟨h, hknows⟩ ⟨hop, hr⟩
    rcases oneByOne_resume h hknows hop hr with hsettled | ⟨h', hknows'⟩
    · exact Or.inl hsettled
    · obtain ⟨hq, hs⟩ := knows_busy hknows'
      exact Or.inr ⟨hq, hs, h', hknows'⟩

/-- The calls that do not settle add nothing to the ones that have. -/
theorem settledCalls_append {rest : List (Call Content Op Result Err)}
    (h : ∀ c ∈ rest, ¬ ∃ o, c.phase = .settled o) :
    settledCalls (done ++ rest) = settledCalls done := by
  have hrest : rest.filterMap Call.outcome? = [] := by
    apply List.filterMap_eq_nil_iff.mpr
    intro c hc
    rw [Call.outcome?]
    cases hphase : c.phase with
    | settled o => exact absurd ⟨o, hphase⟩ (h c hc)
    | _ => rfl
  rw [settledCalls, List.filterMap_append, hrest, List.append_nil, settledCalls]

/-- In every interleaving and with any failures: the calls that have settled have run one by one,
in the order of the lock, and what is in the file is what they have left. -/
theorem oneByOne_of_runs {t : Option Content} (h : (lockedFile plan).Runs ⟨f, t⟩ (s, calls)) :
    OneByOne (PlanStep plan) f (settledCalls calls) s.file := by
  have hnothing : (oneByOneInvariant plan f).Idle ⟨f, t⟩ [] := OneByOne.nil
  have hserial := PromiseMutex.Runs.serial (oneByOneInvariant plan f) hnothing h
  have hwaits {c : Call Content Op Result Err} (hq : c.phase = .queued) :
      ¬ ∃ o, c.phase = .settled o := (lockedFile plan).not_settled c hq
  cases hserial with
  | idle _ done rest hd hr hidle =>
    rw [settledCalls_append fun c hc => hwaits (hr c hc)]
    exact hidle
  | busy _ done rest c hd hr hq hs hbusy =>
    rw [settledCalls_append]
    · exact hbusy.1
    · exact List.forall_mem_cons.mpr ⟨hs, fun b hb => hwaits (hr b hb)⟩

/-! ### Sequences of calls -/

section Sequences

variable {State State' : Type} {Step : State → Op × Outcome Result Err → State → Prop}
  {Step' : State' → Op × Outcome Result Err → State' → Prop} {a b : State}
  {cs ds : List (Op × Outcome Result Err)}

/-- What every call keeps holds after any number of calls. -/
theorem OneByOne.invariant {I : State → Prop} (h : OneByOne Step a cs b) (h0 : I a)
    (hstep : ∀ x c y, c ∈ cs → I x → Step x c y → I y) : I b := by
  induction h with
  | nil => exact h0
  | snoc _ hlast ih =>
    have hbefore := ih fun x c y hc => hstep x c y (List.mem_append_left _ hc)
    exact hstep _ _ _ (List.mem_append_right _ (List.mem_singleton_self _)) hbefore hlast

/-- What the calls do on another state, of which this one is a representation. -/
theorem OneByOne.simulates {R : State → State' → Prop} {a' : State'} (h : OneByOne Step a cs b)
    (h0 : R a a') (hstep : ∀ x x' c y, R x x' → Step x c y → ∃ y', Step' x' c y' ∧ R y y') :
    ∃ b', OneByOne Step' a' cs b' ∧ R b b' := by
  induction h with
  | nil => exact ⟨a', .nil, h0⟩
  | snoc _ hlast ih =>
    obtain ⟨x', hbefore, hx⟩ := ih
    obtain ⟨y', hlast', hy⟩ := hstep _ x' _ _ hx hlast
    exact ⟨y', .snoc hbefore hlast', hy⟩

/-- A sequence of calls can be cut anywhere. -/
theorem OneByOne.split (h : OneByOne Step a (cs ++ ds) b) :
    ∃ m, OneByOne Step a cs m ∧ OneByOne Step m ds b := by
  induction ds using List.reverseRecOn generalizing b with
  | nil =>
    rw [List.append_nil] at h
    exact ⟨b, h, .nil⟩
  | append_singleton ds d ih =>
    rw [← List.append_assoc] at h
    generalize hall : cs ++ ds ++ [d] = all at h
    cases h with
    | nil => exact absurd hall (by simp)
    | snoc hbefore hlast =>
      obtain ⟨rfl, hd⟩ := List.append_inj' hall rfl
      obtain rfl := List.singleton_inj.mp hd
      obtain ⟨m, hfirst, hrest⟩ := ih hbefore
      exact ⟨m, hfirst, .snoc hrest hlast⟩

/-- What one call in the midst of a sequence has done. -/
theorem OneByOne.at {c : Op × Outcome Result Err} (h : OneByOne Step a (cs ++ c :: ds) b) :
    ∃ x y, OneByOne Step a cs x ∧ Step x c y ∧ OneByOne Step y ds b := by
  have hcut : cs ++ c :: ds = (cs ++ [c]) ++ ds := by simp
  rw [hcut] at h
  obtain ⟨y, hfirst, hrest⟩ := h.split
  generalize hall : cs ++ [c] = all at hfirst
  cases hfirst with
  | nil => exact absurd hall (by simp)
  | snoc hbefore hlast =>
    obtain ⟨rfl, hc⟩ := List.append_inj' hall rfl
    obtain rfl := List.singleton_inj.mp hc
    exact ⟨_, y, hbefore, hlast, hrest⟩

end Sequences

/-! ### What the calls come to -/

section Sequentially

variable (plan)

/-- A call that runs alone, without any step failing: the content it leaves and its result. -/
def alone (f : Content) (op : Op) : Content × Except Err Result :=
  match plan op f with
  | .throws e => (f, .error e)
  | .keeps r => (f, .ok r)
  | .writes g r => (g, .ok r)

/-- The content after calls that run one after the other. -/
def sequentially (f : Content) (ops : List Op) : Content :=
  ops.foldl (fun f op => (alone plan f op).1) f

def returnedOp? (c : Op × Outcome Result Err) : Option Op :=
  match c.2 with
  | .returned _ => some c.1
  | _ => none

/-- The calls that have returned. -/
def returnedOps (cs : List (Op × Outcome Result Err)) : List Op := cs.filterMap returnedOp?

/-- The content is the one that the calls that have returned leave when they run one after the
other, and a call gets what it gets alone, unless a step of it has failed. -/
structure Sequential (f : Content) (cs : List (Op × Outcome Result Err)) (g : Content) : Prop where
  content : g = sequentially plan f (returnedOps cs)
  results : ∀ before c after, cs = before ++ c :: after → (¬ ∃ e, c.2 = .failed e) →
    c.2.result = (alone plan (sequentially plan f (returnedOps before)) c.1).2

variable {plan} {g g' : Content} {cs : List (Op × Outcome Result Err)} {c : Op × Outcome Result Err}

theorem sequentially_append {ops ops' : List Op} :
    sequentially plan f (ops ++ ops') = sequentially plan (sequentially plan f ops) ops' := by
  rw [sequentially, List.foldl_append]
  rfl

theorem returnedOps_append {ds : List (Op × Outcome Result Err)} :
    returnedOps (cs ++ ds) = returnedOps cs ++ returnedOps ds := by
  rw [returnedOps, List.filterMap_append]
  rfl

theorem planStep_alone (h : PlanStep plan g c g') :
    g' = sequentially plan g (returnedOps [c]) ∧
      ((¬ ∃ e, c.2 = .failed e) → c.2.result = (alone plan g c.1).2) := by
  rw [PlanStep] at h
  rw [returnedOps, List.filterMap_cons, returnedOp?]
  cases houtcome : c.2 with
  | returned r =>
    rw [houtcome] at h
    change g' = (alone plan g c.1).1 ∧ (_ → .ok r = (alone plan g c.1).2)
    rw [alone]
    rcases h with ⟨hkeeps, rfl⟩ | hwrites
    · rw [hkeeps]
      exact ⟨rfl, fun _ => rfl⟩
    · rw [hwrites]
      exact ⟨rfl, fun _ => rfl⟩
  | refused e =>
    rw [houtcome] at h
    refine ⟨h.2, fun _ => ?_⟩
    rw [alone, h.1]
    rfl
  | failed e =>
    rw [houtcome] at h
    exact ⟨h, fun hnot => absurd ⟨e, rfl⟩ hnot⟩

/-- Calls that run one by one come to what those that return come to alone. -/
theorem OneByOne.sequential (h : OneByOne (PlanStep plan) f cs g) : Sequential plan f cs g := by
  have hcontent : ∀ {cs g}, OneByOne (PlanStep plan) f cs g → g = sequentially plan f (returnedOps cs) := by
    intro cs g h
    induction h with
    | nil => rfl
    | snoc _ hlast ih =>
      have hnext := (planStep_alone hlast).1
      rw [hnext, returnedOps_append, sequentially_append, ← ih]
  refine ⟨hcontent h, ?_⟩
  rintro before c after rfl hfailed
  obtain ⟨x, y, hbefore, hstep, _⟩ := h.at
  rw [← hcontent hbefore]
  exact (planStep_alone hstep).2 hfailed

end Sequentially

/-! ### Calls that nothing disturbs -/

section Alone

variable {op : Op} {a s' : OnDisk Content}
  {phase phase' : Phase Content Result Err}

/-- The step that takes a call out of the queue once all before it have settled. -/
theorem Runs.enter_last (h : (lockedFile plan).Runs a (s, done ++ [⟨op, .queued⟩]))
    (hdone : ∀ b ∈ done, ∃ o, b.phase = .settled o) (hr : Resume plan op s .queued s' phase') :
    (lockedFile plan).Runs a (s', done ++ [⟨op, phase'⟩]) :=
  Relation.ReflTransGen.tail h
    (PromiseMutex.Step.enter (M := lockedFile plan) s s' done [] ⟨op, .queued⟩ ⟨op, phase'⟩ rfl hdone
      ⟨rfl, hr⟩)

/-- A step of the last call. -/
theorem Runs.resume_last (h : (lockedFile plan).Runs a (s, done ++ [⟨op, phase⟩]))
    (hq : phase ≠ .queued) (hs : ∀ o, phase ≠ .settled o) (hr : Resume plan op s phase s' phase') :
    (lockedFile plan).Runs a (s', done ++ [⟨op, phase'⟩]) := by
  have hbusy : ¬ (lockedFile plan).settled ⟨op, phase⟩ := by
    rintro ⟨o, ho⟩
    exact hs o ho
  exact Relation.ReflTransGen.tail h
    (PromiseMutex.Step.resume s s' done [] ⟨op, phase⟩ ⟨op, phase'⟩ hq hbusy ⟨rfl, hr⟩)

/-- It writes what it has planned. -/
theorem Runs.writes_last {t : Option Content} {g : Content} {r : Result}
    (h : (lockedFile plan).Runs a (⟨f, t⟩, done)) (hdone : ∀ b ∈ done, ∃ o, b.phase = .settled o)
    (hplan : plan op f = .writes g r) :
    (lockedFile plan).Runs a (⟨g, none⟩, done ++ [⟨op, .settled (.returned r)⟩]) := by
  have hcalled : (lockedFile plan).Runs a (⟨f, t⟩, done ++ [⟨op, .queued⟩]) :=
    Relation.ReflTransGen.tail h (PromiseMutex.Step.call (M := lockedFile plan) ⟨f, t⟩ done ⟨op, .queued⟩ rfl)
  have hlocked := Runs.enter_last hcalled hdone (.acquire _)
  have hread := Runs.resume_last hlocked (by simp) (by simp) (.read _)
  rw [hplan] at hread
  have hwritten := Runs.resume_last hread (by simp [Plan.phase]) (by simp [Plan.phase])
    (.write _ g r)
  exact Runs.resume_last hwritten (by simp) (by simp) (.rename _ g g r rfl)

end Alone

end Locked
