import Homelab.Dialogue
import Mathlib.Data.Set.Basic
import Mathlib.Logic.Relation

/-! Computations that run side by side on one host. A task that is answered has an effect on what all of
them share; each holds some of that, and what it holds when it returns decides on its result. -/
namespace Dialogue

variable {Query : Type} {Reply : Query → Type} {ε α β Res : Type}

/-! ### What a computation holds -/

/-- Whatever is returned has the property of what is held by then. An answer leaves all that was held, and
what `Gives` says. -/
def Secures (Gives : ∀ q, Reply q → Set Res → Prop) (P : Set Res → α → Prop) (W : Set Res) :
    Dialogue Reply ε α → Prop
  | .done a => P W a
  | .fail _ => True
  | .ask q next => ∀ a W', W ⊆ W' → Gives q a W' → Secures Gives P W' (next a)

variable {Gives : ∀ q, Reply q → Set Res → Prop} {P : Set Res → α → Prop} {W W' : Set Res}

theorem Secures.mono (hP : ∀ a V V', V ⊆ V' → P V a → P V' a) (hW : W ⊆ W') {m : Dialogue Reply ε α}
    (h : Secures Gives P W m) : Secures Gives P W' m := by
  cases m with
  | done a => exact hP a W W' hW h
  | fail e => trivial
  | ask q next =>
    intro a V hV hgives
    exact h a V (hW.trans hV) hgives

theorem secures_bind {Q : Set Res → β → Prop} {f : α → Dialogue Reply ε β} {m : Dialogue Reply ε α}
    (h : Secures Gives (fun V a => Secures Gives Q V (f a)) W m) : Secures Gives Q W (m.bind f) := by
  induction m generalizing W with
  | done a => exact h
  | fail e => trivial
  | ask q next ih =>
    intro a V hV hgives
    exact ih a (h a V hV hgives)

/-! ### Tasks side by side -/

variable {Task Shared Effect : Type}

structure Side (Task Shared : Type) (Reply : Query → Type) (ε α : Type) where
  shared : Shared
  tasks : Task → Dialogue Reply ε α

/-- What the host may do with what is shared when it answers a task, and what an effect does to it -/
structure Host (Task Shared Effect : Type) (Reply : Query → Type) where
  may : Shared → Task → ∀ q, Reply q → Effect → Prop
  act : Task → Effect → Shared → Shared

variable [DecidableEq Task] {host : Host Task Shared Effect Reply}
  {C : Side Task Shared Reply ε α → Task → ∀ q, Reply q → Effect → Prop} {s t : Side Task Shared Reply ε α}

/-- One task is answered, and the answer and its effect meet the condition. -/
inductive Turn (host : Host Task Shared Effect Reply)
    (C : Side Task Shared Reply ε α → Task → ∀ q, Reply q → Effect → Prop) :
    Side Task Shared Reply ε α → Side Task Shared Reply ε α → Prop
  | answer (s : Side Task Shared Reply ε α) (i : Task) {q : Query} {next : Reply q → Dialogue Reply ε α}
      (htask : s.tasks i = .ask q next) (a : Reply q) (e : Effect) (hmay : host.may s.shared i q a e)
      (hc : C s i q a e) : Turn host C s ⟨host.act i e s.shared, Function.update s.tasks i (next a)⟩

/-- Any number of turns, in any order -/
def Interleaves (host : Host Task Shared Effect Reply)
    (C : Side Task Shared Reply ε α → Task → ∀ q, Reply q → Effect → Prop) :
    Side Task Shared Reply ε α → Side Task Shared Reply ε α → Prop := Relation.ReflTransGen (Turn host C)

theorem Interleaves.turn (h : Interleaves host C s t) {i : Task} {q : Query}
    {next : Reply q → Dialogue Reply ε α}
    (htask : t.tasks i = .ask q next) (a : Reply q) (e : Effect) (hmay : host.may t.shared i q a e)
    (hc : C t i q a e) :
    Interleaves host C s ⟨host.act i e t.shared, Function.update t.tasks i (next a)⟩ :=
  h.tail (.answer t i htask a e hmay hc)

theorem Interleaves.weaken {D : Side Task Shared Reply ε α → Task → ∀ q, Reply q → Effect → Prop}
    (hCD : ∀ s i q a e, C s i q a e → D s i q a e) (h : Interleaves host C s t) : Interleaves host D s t := by
  induction h with
  | refl => exact .refl
  | tail _ hturn ih =>
    cases hturn with
    | answer i htask a e hmay hc => exact ih.turn htask a e hmay (hCD _ _ _ _ _ hc)

/-! ### Schedules -/

/-- The turn of a task on a host that answers as `respond` says -/
def Side.play (host : Host Task Shared Effect Reply) (respond : Shared → ∀ q, Reply q × Effect)
    (s : Side Task Shared Reply ε α) (i : Task) : Side Task Shared Reply ε α :=
  match s.tasks i with
  | .ask q next =>
    let (a, e) := respond s.shared q
    ⟨host.act i e s.shared, Function.update s.tasks i (next a)⟩
  | _ => s

/-- The tasks take their turns in the order of a list. -/
theorem Interleaves.plays {respond : Shared → ∀ q, Reply q × Effect}
    (hmay : ∀ shared i q, host.may shared i q (respond shared q).1 (respond shared q).2)
    (hc : ∀ s i q, C s i q (respond s.shared q).1 (respond s.shared q).2) (h : Interleaves host C s t)
    (schedule : List Task) : Interleaves host C s (schedule.foldl (Side.play host respond) t) := by
  induction schedule generalizing t with
  | nil => exact h
  | cons i schedule ih =>
    apply ih
    rw [Side.play]
    split
    next q next htask => exact h.turn htask _ _ (hmay _ _ _) (hc _ _ _)
    · exact h

/-- An answer gives its task what it should, and takes nothing from a task that goes on or has returned. -/
structure Fair (host : Host Task Shared Effect Reply) (held : Shared → Task → Set Res)
    (Gives : ∀ q, Reply q → Set Res → Prop)
    (C : Side Task Shared Reply ε α → Task → ∀ q, Reply q → Effect → Prop) : Prop where
  keeps : ∀ s i q a e, host.may s.shared i q a e → C s i q a e →
    held s.shared i ⊆ held (host.act i e s.shared) i
  gives : ∀ s i q a e, host.may s.shared i q a e → C s i q a e → Gives q a (held (host.act i e s.shared) i)
  leaves : ∀ s i q a e, host.may s.shared i q a e → C s i q a e → ∀ j, j ≠ i →
    held s.shared j ⊆ held (host.act i e s.shared) j ∨ ∃ message, s.tasks j = .fail message

/-- Under fair turns every task holds what it needs, in every interleaving. -/
theorem Interleaves.secures {held : Shared → Task → Set Res} (hfair : Fair host held Gives C)
    (hP : ∀ a V V', V ⊆ V' → P V a → P V' a) (h : Interleaves host C s t)
    (hstart : ∀ i, Secures Gives P (held s.shared i) (s.tasks i)) (i : Task) :
    Secures Gives P (held t.shared i) (t.tasks i) := by
  induction h generalizing i with
  | refl => exact hstart i
  | tail _ hturn ih =>
    cases hturn with
    | answer j htask a e hmay hc =>
      by_cases hij : i = j
      · -- the task that is answered goes on with what it holds now
        subst hij
        have hnext := ih i
        rw [htask] at hnext
        dsimp only
        rw [Function.update_self]
        exact hnext a _ (hfair.keeps _ _ _ _ _ hmay hc) (hfair.gives _ _ _ _ _ hmay hc)
      · dsimp only
        rw [Function.update_of_ne hij]
        rcases hfair.leaves _ _ _ _ _ hmay hc i hij with hkept | ⟨message, hfailed⟩
        · exact (ih i).mono hP hkept
        · rw [hfailed]
          trivial

end Dialogue
