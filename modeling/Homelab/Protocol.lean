import Homelab.Interleaving

/-! Protocols of computations: what one may ask depends on the phase it is in, and what it is answered
decides on the next phase. Tasks that run side by side keep to their protocol whatever the others do, so an
invariant may rely on the phases of all of them. -/
namespace Dialogue

variable {Query : Type} {Reply : Query → Type} {ε δ α β Phase : Type}

structure Discipline (Reply : Query → Type) (Phase : Type) where
  permits : Phase → Query → Prop
  after : Phase → ∀ q, Reply q → Phase

/-- Every question is permitted in its phase, whatever is answered; `Done` and `Failed` say in which phases
the computation may return or throw. -/
def FollowsFrom (P : Discipline Reply Phase) (Done : Phase → α → Prop) (Failed : Phase → ε → Prop)
    (p : Phase) : Dialogue Reply ε α → Prop
  | .done a => Done p a
  | .fail e => Failed p e
  | .ask q next => P.permits p q ∧ ∀ a, FollowsFrom P Done Failed (P.after p q a) (next a)

section Rules

variable {P : Discipline Reply Phase} {Done Done' : Phase → α → Prop} {Failed Failed' : Phase → ε → Prop}
  {p : Phase} {m : Dialogue Reply ε α}

theorem FollowsFrom.mono (hdone : ∀ p a, Done p a → Done' p a) (hfailed : ∀ p e, Failed p e → Failed' p e)
    (h : FollowsFrom P Done Failed p m) : FollowsFrom P Done' Failed' p m := by
  induction m generalizing p with
  | done a => exact hdone p a h
  | fail e => exact hfailed p e h
  | ask q next ih => exact ⟨h.1, fun a => ih a (h.2 a)⟩

/-- A sequence follows the protocol when its second part does, from wherever the first one may end. -/
theorem follows_bind {f : α → Dialogue Reply ε β} {Last : Phase → β → Prop}
    (h : FollowsFrom P (fun p a => FollowsFrom P Last Failed p (f a)) Failed p m) :
    FollowsFrom P Last Failed p (m.bind f) := by
  induction m generalizing p with
  | done a => exact h
  | fail e => exact h
  | ask q next ih => exact ⟨h.1, fun a => ih a (h.2 a)⟩

theorem follows_attempt {Last : Phase → Except ε α → Prop} {Never : Phase → δ → Prop}
    (h : FollowsFrom P (fun p a => Last p (.ok a)) (fun p e => Last p (.error e)) p m) :
    FollowsFrom P Last Never p m.attempt := by
  induction m generalizing p with
  | done a => exact h
  | fail e => exact h
  | ask q next ih => exact ⟨h.1, fun a => ih a (h.2 a)⟩

theorem follows_put {q : Query} {Last : Phase → Reply q → Prop} (hq : P.permits p q)
    (h : ∀ a, Last (P.after p q a) a) : FollowsFrom P Last Failed p (put q) :=
  ⟨hq, h⟩

theorem follows_give {r : Except ε α} (hok : ∀ a, r = .ok a → Done p a)
    (herror : ∀ e, r = .error e → Failed p e) :
    FollowsFrom P Done Failed p (give r : Dialogue Reply ε α) := by
  cases r with
  | ok a => exact hok a rfl
  | error e => exact herror e rfl

/-- From every phase on the computation follows the protocol. -/
def FollowsAnywhere (P : Discipline Reply Phase) (m : Dialogue Reply ε α) : Prop :=
  ∀ p, FollowsFrom P (fun _ _ => True) (fun _ _ => True) p m

theorem anywhere_done (a : α) : FollowsAnywhere P (.done a : Dialogue Reply ε α) := fun _ => trivial

theorem anywhere_fail (e : ε) : FollowsAnywhere P (.fail e : Dialogue Reply ε α) := fun _ => trivial

theorem anywhere_bind {f : α → Dialogue Reply ε β} (hm : FollowsAnywhere P m)
    (hf : ∀ a, FollowsAnywhere P (f a)) : FollowsAnywhere P (m.bind f) :=
  fun p => follows_bind ((hm p).mono (fun p a _ => hf a p) fun _ _ h => h)

theorem anywhere_attempt (hm : FollowsAnywhere P m) :
    FollowsAnywhere P (m.attempt : Dialogue Reply δ (Except ε α)) := fun p => follows_attempt (hm p)

theorem anywhere_put {q : Query} (hq : ∀ p, P.permits p q) :
    FollowsAnywhere P (put q : Dialogue Reply ε (Reply q)) := fun p => follows_put (hq p) fun _ => trivial

theorem anywhere_give (r : Except ε α) : FollowsAnywhere P (give r : Dialogue Reply ε α) :=
  fun _ => follows_give (fun _ _ => trivial) fun _ _ => trivial

/-- From every phase on the computation follows the protocol, and it ends in the phase that it began in. -/
def KeepsPhase (P : Discipline Reply Phase) (m : Dialogue Reply ε α) : Prop :=
  ∀ p, FollowsFrom P (fun p' _ => p' = p) (fun p' _ => p' = p) p m

theorem KeepsPhase.anywhere (h : KeepsPhase P m) : FollowsAnywhere P m :=
  fun p => (h p).mono (fun _ _ _ => trivial) fun _ _ _ => trivial

theorem keeps_done (a : α) : KeepsPhase P (.done a : Dialogue Reply ε α) := fun _ => rfl

theorem keeps_bind {f : α → Dialogue Reply ε β} (hm : KeepsPhase P m) (hf : ∀ a, KeepsPhase P (f a)) :
    KeepsPhase P (m.bind f) := by
  intro p
  apply follows_bind
  refine (hm p).mono ?_ fun _ _ h => h
  rintro _ a rfl
  exact hf a _

theorem keeps_put {q : Query} (hq : ∀ p, P.permits p q) (hafter : ∀ p a, P.after p q a = p) :
    KeepsPhase P (put q : Dialogue Reply ε (Reply q)) := fun p => follows_put (hq p) fun a => hafter p a

theorem keeps_give (r : Except ε α) : KeepsPhase P (give r : Dialogue Reply ε α) :=
  fun _ => follows_give (fun _ _ => rfl) fun _ _ => rfl

/-- A part that keeps its phase, before the rest -/
theorem follows_bind_keeps {f : α → Dialogue Reply ε β} {Last : Phase → β → Prop} (hm : KeepsPhase P m)
    (hfail : ∀ e, Failed p e) (hf : ∀ a, FollowsFrom P Last Failed p (f a)) :
    FollowsFrom P Last Failed p (m.bind f) := by
  apply follows_bind
  apply (hm p).mono
  · rintro _ a rfl
    exact hf a
  · rintro _ e rfl
    exact hfail e

end Rules

/-! ### Tasks side by side -/

variable {Task Shared Effect : Type} [DecidableEq Task]

/-- The host with the phases of all tasks beside what they share -/
def Host.watch (host : Host Task Shared Effect Reply) (P : Discipline Reply Phase) :
    Host Task (Shared × (Task → Phase)) (Effect × Exchange Reply) Reply where
  may s i q a e := host.may s.1 i q a e.1 ∧ e.2 = ⟨q, a⟩
  act i e s := (host.act i e.1 s.1, Function.update s.2 i (P.after (s.2 i) e.2.ask e.2.answer))

variable {host : Host Task Shared Effect Reply} {P : Discipline Reply Phase} {Done : Phase → α → Prop}
  {Failed : Phase → ε → Prop}

/-- A condition on the turns of watched tasks: on what is shared and all phases, the task with what it asks
and what it does next, the answer and the effect -/
abbrev TurnCondition (Task Shared Effect Phase : Type) (Reply : Query → Type) (ε α : Type) :=
  Side Task (Shared × (Task → Phase)) Reply ε α → Task → ∀ q, Reply q → Effect × Exchange Reply → Prop

variable {C : TurnCondition Task Shared Effect Phase Reply ε α}
  {s t : Side Task (Shared × (Task → Phase)) Reply ε α}

def AllFollow (P : Discipline Reply Phase) (Done : Phase → α → Prop) (Failed : Phase → ε → Prop)
    (s : Side Task (Shared × (Task → Phase)) Reply ε α) : Prop :=
  ∀ i, FollowsFrom P Done Failed (s.shared.2 i) (s.tasks i)

theorem AllFollow.turn (hs : AllFollow P Done Failed s) (h : Turn (host.watch P) C s t) :
    AllFollow P Done Failed t := by
  cases h with
  | answer i htask a e hmay hc =>
    intro j
    change FollowsFrom P Done Failed (Function.update s.shared.2 i _ j) (Function.update s.tasks i _ j)
    by_cases hij : j = i
    · subst hij
      have hnext := hs j
      rw [htask] at hnext
      rw [Function.update_self, Function.update_self, hmay.2]
      exact hnext.2 a
    · rw [Function.update_of_ne hij, Function.update_of_ne hij]
      exact hs j

/-- In every interleaving the tasks follow the protocol, and what is kept by the turns of tasks that follow it
holds. -/
theorem Interleaves.follows {Inv : Shared → (Task → Phase) → Prop} (h : Interleaves (host.watch P) C s t)
    (hstart : AllFollow P Done Failed s) (hinv : Inv s.shared.1 s.shared.2)
    (hturn : ∀ (s : Side Task (Shared × (Task → Phase)) Reply ε α) i q a e, Inv s.shared.1 s.shared.2 →
      P.permits (s.shared.2 i) q → host.may s.shared.1 i q a e → C s i q a (e, ⟨q, a⟩) →
      Inv (host.act i e s.shared.1) (Function.update s.shared.2 i (P.after (s.shared.2 i) q a))) :
    AllFollow P Done Failed t ∧ Inv t.shared.1 t.shared.2 := by
  induction h with
  | refl => exact ⟨hstart, hinv⟩
  | tail _ ht ih =>
    obtain ⟨hfollow, hinv⟩ := ih
    refine ⟨hfollow.turn ht, ?_⟩
    cases ht with
    | answer i htask a e hmay hc =>
      have hpermits := hfollow i
      rw [htask] at hpermits
      obtain ⟨effect, exchange⟩ := e
      obtain ⟨hmay, rfl⟩ := hmay
      exact hturn _ i _ a effect hinv hpermits.1 hmay hc

/-- A watched task is answered. -/
theorem Interleaves.answered (h : Interleaves (host.watch P) C s t) {i : Task} {q : Query}
    {next : Reply q → Dialogue Reply ε α} (htask : t.tasks i = .ask q next) (a : Reply q) (e : Effect)
    (hmay : host.may t.shared.1 i q a e) (hc : C t i q a (e, ⟨q, a⟩)) :
    Interleaves (host.watch P) C s
      ⟨(host.watch P).act i (e, ⟨q, a⟩) t.shared, Function.update t.tasks i (next a)⟩ :=
  h.turn htask a (e, ⟨q, a⟩) ⟨hmay, rfl⟩ hc

/-- The answers of a host, with what was asked and answered -/
def watching (respond : Shared → ∀ q, Reply q × Effect) (s : Shared × (Task → Phase)) (q : Query) :
    Reply q × (Effect × Exchange Reply) :=
  let (a, e) := respond s.1 q
  (a, (e, ⟨q, a⟩))

theorem may_watching {respond : Shared → ∀ q, Reply q × Effect}
    (hmay : ∀ shared i q, host.may shared i q (respond shared q).1 (respond shared q).2)
    (s : Shared × (Task → Phase)) (i : Task) (q : Query) :
    (host.watch P).may s i q (watching respond s q).1 (watching respond s q).2 := ⟨hmay s.1 i q, rfl⟩

end Dialogue
