import Mathlib.Data.Nat.Notation

/-! Computations that ask their host and go on with its answer, or throw. A host may answer
a question in any way that `May` allows; what was asked and answered is the log. -/

inductive Dialogue {Ask : Type} (Answer : Ask → Type) (ε α : Type)
  | done (a : α)
  | fail (e : ε)
  | ask (q : Ask) (next : Answer q → Dialogue Answer ε α)

namespace Dialogue

variable {Ask : Type} {Answer : Ask → Type} {ε δ α β : Type}

def bind : Dialogue Answer ε α → (α → Dialogue Answer ε β) → Dialogue Answer ε β
  | .done a, f => f a
  | .fail e, _ => .fail e
  | .ask q next, f => .ask q fun a => (next a).bind f

instance : Monad (Dialogue Answer ε) where
  pure := .done
  bind := bind

def put (q : Ask) : Dialogue Answer ε (Answer q) := .ask q .done

/-- `try { m } catch`: what `m` throws is its result. -/
def attempt : Dialogue Answer ε α → Dialogue Answer δ (Except ε α)
  | .done a => .done (.ok a)
  | .fail e => .done (.error e)
  | .ask q next => .ask q fun a => (next a).attempt

def give : Except ε α → Dialogue Answer ε α
  | .ok a => .done a
  | .error e => .fail e

@[simp] theorem pure_eq (a : α) : (pure a : Dialogue Answer ε α) = .done a := rfl

@[simp] theorem bind_eq (m : Dialogue Answer ε α) (f : α → Dialogue Answer ε β) :
    m >>= f = m.bind f := rfl

@[simp] theorem done_bind (a : α) (f : α → Dialogue Answer ε β) : (done a).bind f = f a := rfl

@[simp] theorem fail_bind (e : ε) (f : α → Dialogue Answer ε β) :
    (fail e : Dialogue Answer ε α).bind f = .fail e := rfl

@[simp] theorem ask_bind (q : Ask) (next : Answer q → Dialogue Answer ε α)
    (f : α → Dialogue Answer ε β) : (ask q next).bind f = .ask q fun a => (next a).bind f := rfl

theorem bind_assoc {γ : Type} (m : Dialogue Answer ε α) (f : α → Dialogue Answer ε β)
    (g : β → Dialogue Answer ε γ) : (m.bind f).bind g = m.bind fun a => (f a).bind g := by
  induction m with
  | done a => rfl
  | fail e => rfl
  | ask q next ih => rw [ask_bind, ask_bind, ask_bind, funext ih]

/-! ### Runs -/

/-- A question and what the host answered. -/
structure Exchange (Answer : Ask → Type) where
  ask : Ask
  answer : Answer ask

/-- A run to the end, with its log and its result. -/
inductive Talks (May : ∀ q, Answer q → Prop) :
    Dialogue Answer ε α → List (Exchange Answer) → Except ε α → Prop
  | done (a : α) : Talks May (.done a) [] (.ok a)
  | fail (e : ε) : Talks May (.fail e) [] (.error e)
  | ask {q : Ask} {next : Answer q → Dialogue Answer ε α} {a : Answer q}
      {log : List (Exchange Answer)} {r : Except ε α} (hmay : May q a)
      (h : Talks May (next a) log r) : Talks May (.ask q next) (⟨q, a⟩ :: log) r

variable {May : ∀ q, Answer q → Prop} {m : Dialogue Answer ε α} {f : α → Dialogue Answer ε β}
  {log : List (Exchange Answer)}

theorem talks_done {a : α} {r : Except ε α} :
    Talks May (.done a : Dialogue Answer ε α) log r ↔ log = [] ∧ r = .ok a := by
  constructor
  · intro h
    cases h
    exact ⟨rfl, rfl⟩
  · rintro ⟨rfl, rfl⟩
    exact .done a

theorem talks_fail {e : ε} {r : Except ε α} :
    Talks May (.fail e : Dialogue Answer ε α) log r ↔ log = [] ∧ r = .error e := by
  constructor
  · intro h
    cases h
    exact ⟨rfl, rfl⟩
  · rintro ⟨rfl, rfl⟩
    exact .fail e

theorem talks_ask {q : Ask} {next : Answer q → Dialogue Answer ε α} {r : Except ε α} :
    Talks May (.ask q next) log r ↔
      ∃ a rest, May q a ∧ Talks May (next a) rest r ∧ log = ⟨q, a⟩ :: rest := by
  constructor
  · intro h
    cases h with
    | ask hmay h => exact ⟨_, _, hmay, h, rfl⟩
  · rintro ⟨a, rest, hmay, h, rfl⟩
    exact .ask hmay h

/-- A sequence throws in its first part, or runs its second part after the first. -/
theorem talks_bind {r : Except ε β} : Talks May (m.bind f) log r ↔
    (∃ e, Talks May m log (.error e) ∧ r = .error e) ∨
    ∃ a first second, Talks May m first (.ok a) ∧ Talks May (f a) second r ∧
      log = first ++ second := by
  induction m generalizing log with
  | done a =>
    simp only [done_bind, talks_done, reduceCtorEq, and_false, false_and, exists_false, false_or,
      Except.ok.injEq]
    constructor
    · intro h
      exact ⟨a, [], log, ⟨rfl, rfl⟩, h, rfl⟩
    · rintro ⟨_, _, _, ⟨rfl, rfl⟩, h, rfl⟩
      exact h
  | fail e =>
    simp only [fail_bind, talks_fail, reduceCtorEq, and_false, false_and, exists_false, or_false,
      Except.error.injEq]
    constructor
    · rintro ⟨rfl, rfl⟩
      exact ⟨e, ⟨rfl, rfl⟩, rfl⟩
    · rintro ⟨_, ⟨rfl, rfl⟩, rfl⟩
      exact ⟨rfl, rfl⟩
  | ask q next ih =>
    simp only [ask_bind, talks_ask, ih]
    constructor
    · rintro ⟨a, rest, hmay, ⟨e, h, rfl⟩ | ⟨b, first, second, h, h', rfl⟩, rfl⟩
      · exact Or.inl ⟨e, ⟨a, rest, hmay, h, rfl⟩, rfl⟩
      · exact Or.inr ⟨b, _ :: first, second, ⟨a, first, hmay, h, rfl⟩, h', rfl⟩
    · rintro (⟨e, ⟨a, rest, hmay, h, rfl⟩, rfl⟩ | ⟨b, _, second, ⟨a, first, hmay, h, rfl⟩, h', rfl⟩)
      · exact ⟨a, rest, hmay, Or.inl ⟨e, h, rfl⟩, rfl⟩
      · exact ⟨a, first ++ second, hmay, Or.inr ⟨b, first, second, h, h', rfl⟩, rfl⟩

theorem talks_attempt {r : Except δ (Except ε α)} :
    Talks May (m.attempt : Dialogue Answer δ (Except ε α)) log r ↔
      ∃ r', Talks May m log r' ∧ r = .ok r' := by
  induction m generalizing log with
  | done a =>
    simp only [attempt, talks_done]
    constructor
    · rintro ⟨rfl, rfl⟩
      exact ⟨_, ⟨rfl, rfl⟩, rfl⟩
    · rintro ⟨_, ⟨rfl, rfl⟩, rfl⟩
      exact ⟨rfl, rfl⟩
  | fail e =>
    simp only [attempt, talks_done, talks_fail]
    constructor
    · rintro ⟨rfl, rfl⟩
      exact ⟨_, ⟨rfl, rfl⟩, rfl⟩
    · rintro ⟨_, ⟨rfl, rfl⟩, rfl⟩
      exact ⟨rfl, rfl⟩
  | ask q next ih =>
    simp only [attempt, talks_ask, ih]
    constructor
    · rintro ⟨a, rest, hmay, ⟨r', h, rfl⟩, rfl⟩
      exact ⟨r', ⟨a, rest, hmay, h, rfl⟩, rfl⟩
    · rintro ⟨r', ⟨a, rest, hmay, h, rfl⟩, rfl⟩
      exact ⟨a, rest, hmay, ⟨r', h, rfl⟩, rfl⟩

/-- A host that can answer every question lets every computation run to its end. -/
theorem talks_exists (hmay : ∀ q, ∃ a, May q a) (m : Dialogue Answer ε α) :
    ∃ log r, Talks May m log r := by
  induction m with
  | done a => exact ⟨[], _, .done a⟩
  | fail e => exact ⟨[], _, .fail e⟩
  | ask q next ih =>
    obtain ⟨a, ha⟩ := hmay q
    obtain ⟨log, r, h⟩ := ih a
    exact ⟨_, r, .ask ha h⟩

/-- A question that is asked first, and answered in this way, begins a run. -/
theorem talks_first (hmay : ∀ q, ∃ a, May q a) {q : Ask} {next : Answer q → Dialogue Answer ε α}
    {a : Answer q} (ha : May q a) : ∃ log r, Talks May (.ask q next) (⟨q, a⟩ :: log) r := by
  obtain ⟨log, r, h⟩ := talks_exists hmay (next a)
  exact ⟨log, r, .ask ha h⟩

/-! ### What can be asked -/

/-- Some run asks the question. -/
def Reaches (May : ∀ q, Answer q → Prop) (q : Ask) (m : Dialogue Answer ε α) : Prop :=
  ∃ log r, Talks May m log r ∧ ∃ x ∈ log, x.ask = q

theorem reaches_first (hmay : ∀ q, ∃ a, May q a) (q : Ask) (next : Answer q → Dialogue Answer ε α) :
    Reaches May q (.ask q next) := by
  obtain ⟨a, ha⟩ := hmay q
  obtain ⟨log, r, h⟩ := @talks_first _ _ _ _ _ hmay q next a ha
  exact ⟨_, r, h, ⟨q, a⟩, List.mem_cons_self .., rfl⟩

theorem Reaches.ask {q p : Ask} {next : Answer q → Dialogue Answer ε α} {a : Answer q} (ha : May q a)
    (h : Reaches May p (next a)) : Reaches May p (.ask q next) := by
  obtain ⟨log, r, hrun, x, hx, hask⟩ := h
  exact ⟨_, r, .ask ha hrun, x, List.mem_cons_of_mem _ hx, hask⟩

/-- What the first part of a sequence can ask, the sequence can. -/
theorem Reaches.bind (hmay : ∀ q, ∃ a, May q a) {q : Ask} (h : Reaches May q m) :
    Reaches May q (m.bind f) := by
  obtain ⟨log, r, hrun, x, hx, hask⟩ := h
  cases r with
  | error e => exact ⟨log, _, talks_bind.mpr (Or.inl ⟨e, hrun, rfl⟩), x, hx, hask⟩
  | ok a =>
    obtain ⟨second, r, hsecond⟩ := talks_exists hmay (f a)
    exact ⟨_, r, talks_bind.mpr (Or.inr ⟨a, log, second, hrun, hsecond, rfl⟩), x,
      List.mem_append_left _ hx, hask⟩

/-- What the second part can ask after a run of the first. -/
theorem Talks.reaches {q : Ask} {a : α} (hfirst : Talks May m log (.ok a))
    (h : Reaches May q (f a)) : Reaches May q (m.bind f) := by
  obtain ⟨second, r, hrun, x, hx, hask⟩ := h
  exact ⟨_, r, talks_bind.mpr (Or.inr ⟨a, log, second, hfirst, hrun, rfl⟩), x,
    List.mem_append_right _ hx, hask⟩

theorem Reaches.attempt {q : Ask} (h : Reaches May q m) :
    Reaches May q (m.attempt : Dialogue Answer δ (Except ε α)) := by
  obtain ⟨log, r, hrun, hasked⟩ := h
  exact ⟨log, _, talks_attempt.mpr ⟨r, hrun, rfl⟩, hasked⟩

/-! ### What is asked -/

/-- All that the computation can ask, whatever it is answered. -/
def Asks (P : Ask → Prop) : Dialogue Answer ε α → Prop
  | .done _ => True
  | .fail _ => True
  | .ask q next => P q ∧ ∀ a, (next a).Asks P

theorem asks_bind {P : Ask → Prop} (hm : m.Asks P) (hf : ∀ a, (f a).Asks P) : (m.bind f).Asks P := by
  induction m with
  | done a => exact hf a
  | fail e => trivial
  | ask q next ih => exact ⟨hm.1, fun a => ih a (hm.2 a)⟩

theorem asks_attempt {P : Ask → Prop} (hm : m.Asks P) :
    (m.attempt : Dialogue Answer δ (Except ε α)).Asks P := by
  induction m with
  | done a => trivial
  | fail e => trivial
  | ask q next ih => exact ⟨hm.1, fun a => ih a (hm.2 a)⟩

theorem Asks.weaken {P Q : Ask → Prop} (hPQ : ∀ q, P q → Q q) (hm : m.Asks P) : m.Asks Q := by
  induction m with
  | done a => trivial
  | fail e => trivial
  | ask q next ih => exact ⟨hPQ q hm.1, fun a => ih a (hm.2 a)⟩

theorem Asks.of_mem {P : Ask → Prop} {r : Except ε α} (hm : m.Asks P) (h : Talks May m log r) :
    ∀ x ∈ log, P x.ask ∧ May x.ask x.answer := by
  induction h with
  | done a => exact fun _ hx => absurd hx List.not_mem_nil
  | fail e => exact fun _ hx => absurd hx List.not_mem_nil
  | ask hmay _ ih => exact List.forall_mem_cons.mpr ⟨⟨hm.1, hmay⟩, ih (hm.2 _)⟩

/-! ### What cannot be left out -/

/-- Every run that does not throw has an exchange of the kind `S`. -/
def Surely (May : ∀ q, Answer q → Prop) (S : Exchange Answer → Prop) (m : Dialogue Answer ε α) :
    Prop := ∀ log a, Talks May m log (.ok a) → ∃ x ∈ log, S x

theorem surely_bind {S : Exchange Answer → Prop}
    (h : Surely May S m ∨ ∀ a, Surely May S (f a)) : Surely May S (m.bind f) := by
  intro log b hrun
  rcases talks_bind.mp hrun with ⟨e, _, hcontra⟩ | ⟨a, first, second, hfirst, hsecond, rfl⟩
  · cases hcontra
  · rcases h with hm | hf
    · obtain ⟨x, hx, hs⟩ := hm _ _ hfirst
      exact ⟨x, List.mem_append_left _ hx, hs⟩
    · obtain ⟨x, hx, hs⟩ := hf a _ _ hsecond
      exact ⟨x, List.mem_append_right _ hx, hs⟩

/-! ### What is returned -/

/-- Whatever is returned has the property. -/
def Returns (May : ∀ q, Answer q → Prop) (P : α → Prop) (m : Dialogue Answer ε α) : Prop :=
  ∀ log a, Talks May m log (.ok a) → P a

theorem returns_fail {P : α → Prop} (e : ε) : Returns May P (.fail e : Dialogue Answer ε α) := by
  intro log a h
  obtain ⟨_, hcontra⟩ := talks_fail.mp h
  cases hcontra

theorem returns_done {P : α → Prop} {a : α} (h : P a) :
    Returns May P (.done a : Dialogue Answer ε α) := by
  intro log b hrun
  obtain ⟨_, hb⟩ := talks_done.mp hrun
  rw [Except.ok.inj hb]
  exact h

theorem returns_bind {P : β → Prop} (h : ∀ a, Returns May P (f a)) :
    Returns May P (m.bind f) := by
  intro log b hrun
  rcases talks_bind.mp hrun with ⟨e, _, hcontra⟩ | ⟨a, first, second, _, hsecond, _⟩
  · cases hcontra
  · exact h a second b hsecond

theorem returns_bind_of {P : β → Prop} {Q : α → Prop} (hm : Returns May Q m)
    (h : ∀ a, Q a → Returns May P (f a)) : Returns May P (m.bind f) := by
  intro log b hrun
  rcases talks_bind.mp hrun with ⟨e, _, hcontra⟩ | ⟨a, first, second, hfirst, hsecond, _⟩
  · cases hcontra
  · exact h a (hm first a hfirst) second b hsecond

/-- Every run returns the value. -/
def Yields (May : ∀ q, Answer q → Prop) (a : α) (m : Dialogue Answer ε α) : Prop :=
  ∀ log r, Talks May m log r → r = .ok a

theorem yields_done (a : α) : Yields May a (.done a : Dialogue Answer ε α) :=
  fun _ _ h => (talks_done.mp h).2

theorem yields_ask {b : β} {q : Ask} {next : Answer q → Dialogue Answer ε β}
    (h : ∀ a, May q a → Yields May b (next a)) : Yields May b (.ask q next) := by
  intro log r hrun
  obtain ⟨a, rest, hmay, hrest, -⟩ := talks_ask.mp hrun
  exact h a hmay rest r hrest

theorem yields_bind {a : α} {b : β} (hm : Yields May a m) (hf : Yields May b (f a)) :
    Yields May b (m.bind f) := by
  intro log r hrun
  rcases talks_bind.mp hrun with ⟨e, hthrows, -⟩ | ⟨a', first, second, hfirst, hsecond, -⟩
  · cases hm log _ hthrows
  · cases hm first _ hfirst
    exact hf second r hsecond

/-- A run is one of every host that may give the answers of its log. -/
theorem Talks.of_log {May' : ∀ q, Answer q → Prop} {r : Except ε α} (h : Talks May m log r)
    (hlog : ∀ x ∈ log, May' x.ask x.answer) : Talks May' m log r := by
  induction h with
  | done a => exact .done a
  | fail e => exact .fail e
  | ask hmay _ ih =>
    obtain ⟨hfirst, hrest⟩ := List.forall_mem_cons.mp hlog
    exact .ask hfirst (ih hrest)

/-! ### What must have happened before -/

variable {G B : Exchange Answer → Prop} {log log' : List (Exchange Answer)}

/-- No exchange of the kind `B` comes before the first one of the kind `G`. -/
def NotBefore (G B : Exchange Answer → Prop) : List (Exchange Answer) → Prop
  | [] => True
  | x :: rest => ¬ B x ∧ (G x ∨ NotBefore G B rest)

theorem notBefore_of_none (h : ∀ x ∈ log, ¬ B x) : NotBefore G B log := by
  induction log with
  | nil => trivial
  | cons x rest ih =>
    obtain ⟨hx, hrest⟩ := List.forall_mem_cons.mp h
    exact ⟨hx, Or.inr (ih hrest)⟩

theorem notBefore_append (h : NotBefore G B log)
    (h' : (∃ x ∈ log, G x) ∨ NotBefore G B log') : NotBefore G B (log ++ log') := by
  induction log with
  | nil =>
    rcases h' with ⟨x, hx, _⟩ | h'
    · exact absurd hx List.not_mem_nil
    · exact h'
  | cons x rest ih =>
    refine ⟨h.1, ?_⟩
    rcases h.2 with hg | hrest
    · exact Or.inl hg
    · by_cases hx : G x
      · exact Or.inl hx
      · refine Or.inr (ih hrest ?_)
        rcases h' with ⟨y, hy, hg⟩ | h'
        · rcases List.mem_cons.mp hy with rfl | hy
          · exact absurd hg hx
          · exact Or.inl ⟨y, hy, hg⟩
        · exact Or.inr h'

/-- In a log with an exchange of the kind `B`, one of the kind `G` has come first. -/
theorem NotBefore.exists (h : NotBefore G B log) (hb : ∃ x ∈ log, B x) : ∃ x ∈ log, G x := by
  induction log with
  | nil =>
    obtain ⟨x, hx, _⟩ := hb
    exact absurd hx List.not_mem_nil
  | cons x rest ih =>
    rcases h.2 with hg | hrest
    · exact ⟨x, List.mem_cons_self .., hg⟩
    · obtain ⟨y, hy, hby⟩ := hb
      rcases List.mem_cons.mp hy with rfl | hy
      · exact absurd hby h.1
      · obtain ⟨z, hz, hg⟩ := ih hrest ⟨y, hy, hby⟩
        exact ⟨z, List.mem_cons_of_mem _ hz, hg⟩

end Dialogue
