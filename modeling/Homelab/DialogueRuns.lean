import Homelab.Dialogue

/-! Runs of a computation on a host that has a state: each answer may depend on the state and
change it. Triples give what holds after a run, whether it returns or throws. -/
namespace Dialogue

variable {Ask : Type} {Answer : Ask → Type} {ε δ α β σ : Type}

/-- A run to the end, from a state and to a state. -/
inductive Plays (Step : σ → ∀ q, Answer q → σ → Prop) :
    Dialogue Answer ε α → σ → Except ε α → σ → Prop
  | done (a : α) (s : σ) : Plays Step (.done a) s (.ok a) s
  | fail (e : ε) (s : σ) : Plays Step (.fail e) s (.error e) s
  | ask {q : Ask} {next : Answer q → Dialogue Answer ε α} {a : Answer q} {s s' s'' : σ}
      {r : Except ε α} (hstep : Step s q a s') (h : Plays Step (next a) s' r s'') :
      Plays Step (.ask q next) s r s''

variable {Step : σ → ∀ q, Answer q → σ → Prop} {m : Dialogue Answer ε α}
  {f : α → Dialogue Answer ε β} {s s' : σ}

theorem plays_done {a : α} {r : Except ε α} :
    Plays Step (.done a : Dialogue Answer ε α) s r s' ↔ r = .ok a ∧ s' = s := by
  constructor
  · intro h
    cases h
    exact ⟨rfl, rfl⟩
  · rintro ⟨rfl, rfl⟩
    exact .done a s'

theorem plays_fail {e : ε} {r : Except ε α} :
    Plays Step (.fail e : Dialogue Answer ε α) s r s' ↔ r = .error e ∧ s' = s := by
  constructor
  · intro h
    cases h
    exact ⟨rfl, rfl⟩
  · rintro ⟨rfl, rfl⟩
    exact .fail e s'

theorem plays_ask {q : Ask} {next : Answer q → Dialogue Answer ε α} {r : Except ε α} :
    Plays Step (.ask q next) s r s' ↔ ∃ a t, Step s q a t ∧ Plays Step (next a) t r s' := by
  constructor
  · intro h
    cases h with
    | ask hstep h => exact ⟨_, _, hstep, h⟩
  · rintro ⟨a, t, hstep, h⟩
    exact .ask hstep h

/-- A sequence throws in its first part, or runs its second part from where the first ends. -/
theorem plays_bind {r : Except ε β} : Plays Step (m.bind f) s r s' ↔
    (∃ e, Plays Step m s (.error e) s' ∧ r = .error e) ∨
    ∃ a t, Plays Step m s (.ok a) t ∧ Plays Step (f a) t r s' := by
  induction m generalizing s with
  | done a =>
    constructor
    · intro h
      exact Or.inr ⟨a, s, .done a s, h⟩
    · rintro (⟨e, h, _⟩ | ⟨b, t, h, hrest⟩)
      · cases h
      · cases h
        exact hrest
  | fail e =>
    constructor
    · intro h
      obtain ⟨rfl, rfl⟩ := plays_fail.mp h
      exact Or.inl ⟨e, .fail e s', rfl⟩
    · rintro (⟨e', h, rfl⟩ | ⟨b, t, h, _⟩)
      · cases h
        exact .fail e s'
      · cases h
  | ask q next ih =>
    constructor
    · intro h
      obtain ⟨a, t, hstep, hnext⟩ := plays_ask.mp h
      rcases (ih a).mp hnext with ⟨e, hthrows, rfl⟩ | ⟨b, t', hfirst, hrest⟩
      · exact Or.inl ⟨e, .ask hstep hthrows, rfl⟩
      · exact Or.inr ⟨b, t', .ask hstep hfirst, hrest⟩
    · rintro (⟨e, h, rfl⟩ | ⟨b, t', h, hrest⟩)
      · obtain ⟨a, t, hstep, hnext⟩ := plays_ask.mp h
        exact .ask hstep ((ih a).mpr (Or.inl ⟨e, hnext, rfl⟩))
      · obtain ⟨a, t, hstep, hnext⟩ := plays_ask.mp h
        exact .ask hstep ((ih a).mpr (Or.inr ⟨b, t', hnext, hrest⟩))

theorem plays_attempt {r : Except δ (Except ε α)} :
    Plays Step (m.attempt : Dialogue Answer δ (Except ε α)) s r s' ↔
      ∃ r', Plays Step m s r' s' ∧ r = .ok r' := by
  induction m generalizing s with
  | done a =>
    constructor
    · intro h
      obtain ⟨rfl, rfl⟩ := plays_done.mp h
      exact ⟨_, .done a s', rfl⟩
    · rintro ⟨r', h, rfl⟩
      cases h
      exact .done _ s'
  | fail e =>
    constructor
    · intro h
      obtain ⟨rfl, rfl⟩ := plays_done.mp h
      exact ⟨_, .fail e s', rfl⟩
    · rintro ⟨r', h, rfl⟩
      cases h
      exact .done _ s'
  | ask q next ih =>
    constructor
    · intro h
      obtain ⟨a, t, hstep, hnext⟩ := plays_ask.mp h
      obtain ⟨r', hrun, rfl⟩ := (ih a).mp hnext
      exact ⟨r', .ask hstep hrun, rfl⟩
    · rintro ⟨r', h, rfl⟩
      obtain ⟨a, t, hstep, hnext⟩ := plays_ask.mp h
      exact .ask hstep ((ih a).mpr ⟨r', hnext, rfl⟩)

theorem Plays.then {r : Except ε β} {a : α} {t : σ} (h : Plays Step m s (.ok a) t)
    (hrest : Plays Step (f a) t r s') : Plays Step (m.bind f) s r s' :=
  plays_bind.mpr (Or.inr ⟨a, t, h, hrest⟩)

theorem Plays.throws {e : ε} (h : Plays Step m s (.error e) s') :
    Plays Step (m.bind f) s (.error e) s' := plays_bind.mpr (Or.inl ⟨e, h, rfl⟩)

/-! ### Triples -/

/-- After every run from a state of `P`: what is returned satisfies `Q`, and what is thrown
`E`. -/
def Triple (Step : σ → ∀ q, Answer q → σ → Prop) (P : σ → Prop) (m : Dialogue Answer ε α)
    (Q : α → σ → Prop) (E : ε → σ → Prop) : Prop :=
  ∀ s r s', P s → Plays Step m s r s' →
    (∀ a, r = .ok a → Q a s') ∧ ∀ e, r = .error e → E e s'

variable {P P' : σ → Prop} {Q Q' : α → σ → Prop} {E E' : ε → σ → Prop}

theorem triple_done {a : α} (h : ∀ s, P s → Q a s) :
    Triple Step P (.done a : Dialogue Answer ε α) Q E := by
  intro s r s' hp hrun
  obtain ⟨rfl, rfl⟩ := plays_done.mp hrun
  refine ⟨fun b hb => ?_, fun e he => (by cases he)⟩
  rw [← Except.ok.inj hb]
  exact h _ hp

theorem triple_fail {e : ε} (h : ∀ s, P s → E e s) :
    Triple Step P (.fail e : Dialogue Answer ε α) Q E := by
  intro s r s' hp hrun
  obtain ⟨rfl, rfl⟩ := plays_fail.mp hrun
  refine ⟨fun b hb => (by cases hb), fun e' he => ?_⟩
  rw [← Except.error.inj he]
  exact h _ hp

/-- A question is answered, and the run goes on from where the answer leads. -/
theorem triple_ask {q : Ask} {next : Answer q → Dialogue Answer ε α}
    (h : ∀ a, Triple Step (fun t => ∃ s, P s ∧ Step s q a t) (next a) Q E) :
    Triple Step P (.ask q next) Q E := by
  intro s r s' hp hrun
  obtain ⟨a, t, hstep, hnext⟩ := plays_ask.mp hrun
  exact h a t r s' ⟨s, hp, hstep⟩ hnext

theorem triple_bind {R : β → σ → Prop} {m : Dialogue Answer ε β} {f : β → Dialogue Answer ε α}
    (hm : Triple Step P m R E) (hf : ∀ b, Triple Step (R b) (f b) Q E) :
    Triple Step P (m.bind f) Q E := by
  intro s r s' hp hrun
  rcases plays_bind.mp hrun with ⟨e, hthrows, rfl⟩ | ⟨b, t, hfirst, hrest⟩
  · have hthrown := (hm s _ s' hp hthrows).2 e rfl
    refine ⟨fun a ha => (by cases ha), fun e' he => ?_⟩
    rw [← Except.error.inj he]
    exact hthrown
  · exact hf b t r s' ((hm s _ t hp hfirst).1 b rfl) hrest

/-- `try`: what is returned and what is thrown are both results. -/
theorem triple_attempt {R : Except ε α → σ → Prop} {E : δ → σ → Prop}
    (h : Triple Step P m (fun a => R (.ok a)) fun e => R (.error e)) :
    Triple Step P (m.attempt : Dialogue Answer δ (Except ε α)) R E := by
  intro s r s' hp hrun
  obtain ⟨r', hrun', rfl⟩ := plays_attempt.mp hrun
  obtain ⟨hok, herror⟩ := h s r' s' hp hrun'
  refine ⟨fun a ha => ?_, fun e he => (by cases he)⟩
  rw [← Except.ok.inj ha]
  cases r' with
  | ok a => exact hok a rfl
  | error e => exact herror e rfl

/-- The rule of consequence. -/
theorem Triple.weaken (h : Triple Step P m Q E) (hpre : ∀ s, P' s → P s)
    (hpost : ∀ a s, Q a s → Q' a s) (hthrown : ∀ e s, E e s → E' e s) : Triple Step P' m Q' E' := by
  intro s r s' hp hrun
  obtain ⟨hok, herror⟩ := h s r s' (hpre s hp) hrun
  exact ⟨fun a ha => hpost a s' (hok a ha), fun e he => hthrown e s' (herror e he)⟩

end Dialogue
