import Homelab.LockedFile

/-! Documents in a file that calls take turns at: a call reads the document, works out another
one and writes it. What the calls do to the file, they do to the document. -/
namespace Locked
open Js

/-- How a document is read, changed and written. A change may leave the document as it is. -/
structure DocStore (Content Doc Op Result Err : Type) where
  read : Content → Except Err Doc
  run : Op → Doc → Except Err (Option Doc × Result)
  write : Doc → Except Err Content

variable {Content Doc Op Result Err : Type} (S : DocStore Content Doc Op Result Err)

namespace DocStore

/-- What is written when a call is done with the document. -/
def finish (doc : Option Doc) (r : Result) : Plan Content Result Err :=
  match doc with
  | none => .keeps r
  | some doc =>
    match S.write doc with
    | .error e => .throws e
    | .ok f => .writes f r

/-- A call under the lock, up to the write. -/
def plan (op : Op) (f : Content) : Plan Content Result Err :=
  match S.read f with
  | .error e => .throws e
  | .ok doc =>
    match S.run op doc with
    | .error e => .throws e
    | .ok (doc', r) => S.finish doc' r

/-- What has been written is read again. -/
def ReadsBack : Prop := ∀ doc f, S.write doc = .ok f → S.read f = .ok doc

/-- A call on the document: one that throws leaves it as it is. -/
def Step (doc : Doc) (c : Op × Outcome Result Err) (doc' : Doc) : Prop :=
  match c.2 with
  | .returned r => ∃ out, S.run c.1 doc = .ok (out, r) ∧ doc' = out.getD doc ∧
      ∀ d, out = some d → ∃ f, S.write d = .ok f
  | .refused e => doc' = doc ∧
      (S.run c.1 doc = .error e ∨
        ∃ out r, S.run c.1 doc = .ok (some out, r) ∧ S.write out = .error e)
  | .failed _ => doc' = doc

variable {S} {f g : Content} {doc doc' : Doc} {op : Op} {r : Result} {e : Err}
  {cs : List (Op × Outcome Result Err)} {c : Op × Outcome Result Err}

/-- What a plan that has read the document comes to. -/
theorem plan_writes (hread : S.read f = .ok doc) (h : S.plan op f = .writes g r) :
    ∃ out, S.run op doc = .ok (some out, r) ∧ S.write out = .ok g := by
  rw [plan, hread] at h
  dsimp only at h
  rcases hrun : S.run op doc with e | ⟨out, r'⟩
  · rw [hrun] at h
    cases h
  · rw [hrun] at h
    cases out with
    | none => cases h
    | some out =>
      dsimp only [finish] at h
      cases hwrite : S.write out with
      | error e =>
        rw [hwrite] at h
        cases h
      | ok f' =>
        rw [hwrite] at h
        cases h
        exact ⟨out, rfl, hwrite⟩

theorem plan_keeps (hread : S.read f = .ok doc) (h : S.plan op f = .keeps r) :
    S.run op doc = .ok (none, r) := by
  rw [plan, hread] at h
  dsimp only at h
  rcases hrun : S.run op doc with e | ⟨out, r'⟩
  · rw [hrun] at h
    cases h
  · rw [hrun] at h
    cases out with
    | none =>
      cases h
      rfl
    | some out =>
      dsimp only [finish] at h
      cases hwrite : S.write out with
      | error e =>
        rw [hwrite] at h
        cases h
      | ok f' =>
        rw [hwrite] at h
        cases h

theorem plan_throws (hread : S.read f = .ok doc) (h : S.plan op f = .throws e) :
    S.run op doc = .error e ∨ ∃ out r, S.run op doc = .ok (some out, r) ∧ S.write out = .error e := by
  rw [plan, hread] at h
  dsimp only at h
  rcases hrun : S.run op doc with e' | ⟨out, r'⟩
  · rw [hrun] at h
    cases h
    exact Or.inl rfl
  · rw [hrun] at h
    cases out with
    | none => cases h
    | some out =>
      dsimp only [finish] at h
      cases hwrite : S.write out with
      | error e' =>
        rw [hwrite] at h
        cases h
        exact Or.inr ⟨out, r', rfl, hwrite⟩
      | ok f' =>
        rw [hwrite] at h
        cases h

/-- What a call does to a file that can be read, it does to the document. -/
theorem step_of_planStep (hback : S.ReadsBack) (hread : S.read f = .ok doc)
    (h : PlanStep S.plan f c g) : ∃ doc', S.Step doc c doc' ∧ S.read g = .ok doc' := by
  rw [PlanStep] at h
  cases houtcome : c.2 with
  | returned r =>
    rw [houtcome] at h
    rcases h with ⟨hkeeps, rfl⟩ | hwrites
    · have hrun := plan_keeps hread hkeeps
      refine ⟨doc, ?_, hread⟩
      rw [Step, houtcome]
      refine ⟨none, hrun, rfl, ?_⟩
      intro d hd
      cases hd
    · obtain ⟨out, hrun, hwrite⟩ := plan_writes hread hwrites
      refine ⟨out, ?_, hback out g hwrite⟩
      rw [Step, houtcome]
      refine ⟨some out, hrun, rfl, ?_⟩
      intro d hd
      cases hd
      exact ⟨g, hwrite⟩
  | refused e =>
    rw [houtcome] at h
    obtain ⟨hthrows, rfl⟩ := h
    refine ⟨doc, ?_, hread⟩
    rw [Step, houtcome]
    exact ⟨rfl, plan_throws hread hthrows⟩
  | failed e =>
    rw [houtcome] at h
    refine ⟨doc, ?_, ?_⟩
    · rw [Step, houtcome]
    · rw [h]
      exact hread

/-- Calls on a file that can be read are calls on the document in it. -/
theorem refines (hback : S.ReadsBack) (h : OneByOne (PlanStep S.plan) f cs g)
    (hread : S.read f = .ok doc) : ∃ doc', OneByOne S.Step doc cs doc' ∧ S.read g = .ok doc' := by
  apply h.simulates (R := fun f doc => S.read f = .ok doc) hread
  intro x x' c y hx hstep
  exact step_of_planStep hback hx hstep

/-- Calls on a file that cannot be read leave it as it is. -/
theorem unreadable (h : OneByOne (PlanStep S.plan) f cs g) (hread : S.read f = .error e) : g = f := by
  apply h.invariant (I := fun g => g = f) rfl
  intro x c y _ hx hstep
  have hthrows : S.plan c.1 f = .throws e := by rw [plan, hread]
  rw [PlanStep, hx, hthrows] at hstep
  cases houtcome : c.2 with
  | returned r =>
    rw [houtcome] at hstep
    rcases hstep with ⟨hkeeps, _⟩ | hwrites
    · cases hkeeps
    · cases hwrites
  | refused e' =>
    rw [houtcome] at hstep
    exact hstep.2
  | failed e' =>
    rw [houtcome] at hstep
    exact hstep

/-! ### Sequential runs -/

variable (S) in
/-- The calls that have returned, one after the other, leave the content; each call gets what it
gets in its turn, and in that turn it does to the document what `Keeps` says. -/
structure Linear (Inv : Doc → Prop) (Keeps : Op → Doc → Doc → Prop) (f : Content)
    (cs : List (Op × Outcome Result Err)) (g : Content) : Prop where
  sequential : Sequential S.plan f cs g
  document : ∃ doc, S.read g = .ok doc ∧ Inv doc
  turn : ∀ before c after, cs = before ++ c :: after → ∃ doc doc',
    S.read (sequentially S.plan f (returnedOps before)) = .ok doc ∧
    S.read (sequentially S.plan f (returnedOps (before ++ [c]))) = .ok doc' ∧
    S.Step doc c doc' ∧ Inv doc' ∧ Keeps c.1 doc doc'

/-- Calls that keep the invariant when they return keep it. -/
theorem step_keeps {Inv : Doc → Prop} {Keeps : Op → Doc → Doc → Prop} (hrefl : ∀ op doc, Keeps op doc doc)
    (hrun : ∀ op doc out r, Inv doc → S.run op doc = .ok (out, r) →
      (∀ d, out = some d → ∃ f, S.write d = .ok f) →
      Inv (out.getD doc) ∧ Keeps op doc (out.getD doc))
    (hdoc : Inv doc) (h : S.Step doc c doc') : Inv doc' ∧ Keeps c.1 doc doc' := by
  rw [Step] at h
  cases houtcome : c.2 with
  | returned r =>
    rw [houtcome] at h
    obtain ⟨out, hout, rfl, hwrite⟩ := h
    exact hrun c.1 doc out r hdoc hout hwrite
  | refused e =>
    rw [houtcome] at h
    obtain ⟨rfl, _⟩ := h
    exact ⟨hdoc, hrefl ..⟩
  | failed e =>
    rw [houtcome] at h
    dsimp only at h
    rw [h]
    exact ⟨hdoc, hrefl ..⟩

theorem linear {Inv : Doc → Prop} {Keeps : Op → Doc → Doc → Prop} (hback : S.ReadsBack)
    (hrefl : ∀ op doc, Keeps op doc doc)
    (hrun : ∀ op doc out r, Inv doc → S.run op doc = .ok (out, r) →
      (∀ d, out = some d → ∃ f, S.write d = .ok f) →
      Inv (out.getD doc) ∧ Keeps op doc (out.getD doc))
    (h : OneByOne (PlanStep S.plan) f cs g) (hread : S.read f = .ok doc) (hdoc : Inv doc) :
    S.Linear Inv Keeps f cs g := by
  have hinv {ds : List (Op × Outcome Result Err)} {d : Doc} (hd : OneByOne S.Step doc ds d) : Inv d :=
    hd.invariant hdoc fun x c y _ hx hstep => (step_keeps hrefl hrun hx hstep).1
  obtain ⟨doc', hsteps, hread'⟩ := refines hback h hread
  refine ⟨h.sequential, ⟨doc', hread', hinv hsteps⟩, ?_⟩
  rintro before c after rfl
  obtain ⟨x, y, hbefore, hstep, _⟩ := h.at
  obtain ⟨d, hd, hx⟩ := refines hback hbefore hread
  obtain ⟨d', hd', hy⟩ := step_of_planStep hback hx hstep
  have hkeeps := step_keeps hrefl hrun (hinv hd) hd'
  rw [← hbefore.sequential.content, ← (OneByOne.snoc hbefore hstep).sequential.content]
  exact ⟨d, d', hx, hy, hd', hkeeps⟩

end DocStore

end Locked
