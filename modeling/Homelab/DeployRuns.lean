import Homelab.DeployBackend
import Homelab.DialogueRuns

/-! Triples of what the deploy backends have in common, on any host with a state. -/
namespace Homelab
open Js Dialogue

variable {σ α β : Type} {Step : σ → ∀ q, DeployAnswer q → σ → Prop} {P : σ → Prop}
  {Q : α → σ → Prop} {E F : DeployStop → σ → Prop}

/-- What has to hold after a call, whether it is answered or rejected. -/
theorem triple_call {q : DeployAsk} {answer : DeployAnswer q → Except DeployFailure α}
    (hok : ∀ s s' a v, P s → Step s q a s' → answer a = .ok v → Q v s')
    (herror : ∀ s s' a e, P s → Step s q a s' → answer a = .error e → E (.thrown e) s') :
    Triple Step P (Dialogue.ask q fun a => Deploy.settle (answer a) : Deploy α) Q E := by
  apply triple_ask
  intro a
  cases hanswer : answer a with
  | ok v =>
    apply triple_done
    rintro s' ⟨s, hp, hstep⟩
    exact hok s s' a v hp hstep hanswer
  | error e =>
    apply triple_fail
    rintro s' ⟨s, hp, hstep⟩
    exact herror s s' a e hp hstep hanswer

theorem triple_check {x : Except DeployError α} (hok : ∀ v s, P s → x = .ok v → Q v s)
    (herror : ∀ e s, P s → x = .error e → E (.thrown (.deploy e)) s) :
    Triple Step P (Deploy.check x) Q E := by
  cases x with
  | ok v => exact triple_done fun s hp => hok v s hp rfl
  | error e => exact triple_fail fun s hp => herror e s hp rfl

/-- What comes after a check may use that it has been passed. -/
theorem triple_check_bind {x : Except DeployError β} {f : β → Deploy α}
    (hok : ∀ v, x = .ok v → Triple Step P (f v) Q E)
    (herror : ∀ e s, P s → E (.thrown (.deploy e)) s) :
    Triple Step P ((Deploy.check x).bind f) Q E := by
  cases x with
  | ok v => exact hok v rfl
  | error e => exact triple_fail (herror e)

theorem triple_orThrow {x : Except JsString α} (hok : ∀ v s, P s → x = .ok v → Q v s)
    (herror : ∀ message s, P s → x = .error message → E (.thrown (.error message)) s) :
    Triple Step P (Deploy.orThrow x) Q E := by
  cases x with
  | ok v => exact triple_done fun s hp => hok v s hp rfl
  | error message => exact triple_fail fun s hp => herror message s hp rfl

theorem triple_templateOf {v : JsValue} {Q : JsString → σ → Prop} (hok : ∀ s, P s → Q v.coerce s)
    (herror : ∀ s, P s → E (.thrown (.error coercionMessage)) s) :
    Triple Step P (templateOf v) Q E := by
  rw [templateOf]
  split_ifs
  · exact triple_fail herror
  · exact triple_done hok

/-- What comes after a template has its text. -/
theorem triple_templateOf_bind {v : JsValue} {f : JsString → Deploy α}
    (hok : Triple Step P (f v.coerce) Q E)
    (herror : ∀ s, P s → E (.thrown (.error coercionMessage)) s) :
    Triple Step P ((templateOf v).bind f) Q E := by
  rw [templateOf]
  split_ifs
  · exact triple_fail herror
  · exact hok

/-- `try { m } catch (e) { handle(e) }` -/
theorem triple_catching {m : Deploy α} {handle : DeployFailure → Deploy α}
    (hm : Triple Step P m Q F) (hpolling : ∀ s, F .polling s → E .polling s)
    (hhandle : ∀ e, Triple Step (F (.thrown e)) (handle e) Q E) :
    Triple Step P (Deploy.catching m handle) Q E := by
  let R (r : Except DeployStop α) (s : σ) : Prop :=
    (∀ a, r = .ok a → Q a s) ∧ ∀ e, r = .error e → F e s
  have hattempt : Triple Step P (m.attempt : Deploy (Except DeployStop α)) R E := by
    apply triple_attempt
    refine hm.weaken (fun _ hp => hp) ?_ ?_
    · intro a s hq
      exact ⟨fun b hb => Except.ok.inj hb ▸ hq, fun e he => (by cases he)⟩
    · intro e s he
      exact ⟨fun b hb => (by cases hb), fun e' he' => Except.error.inj he' ▸ he⟩
  apply triple_bind hattempt
  intro r
  cases r with
  | ok a => exact triple_done fun s hs => hs.1 a rfl
  | error stop =>
    cases stop with
    | thrown e => exact (hhandle e).weaken (fun s hs => hs.2 _ rfl) (fun _ _ h => h) fun _ _ h => h
    | polling => exact triple_fail fun s hs => hpolling s (hs.2 _ rfl)

/-- What `m` throws is a message. -/
theorem triple_failureOf {m : Deploy Unit} {Q : Option JsString → σ → Prop}
    (hm : Triple Step P m (fun _ s => Q none s) F)
    (hpolling : ∀ s, F .polling s → E .polling s)
    (hthrown : ∀ e s, F (.thrown e) s → Q (some e.message) s) :
    Triple Step P (Deploy.failureOf m) Q E := by
  apply triple_catching (F := F)
  · exact triple_bind hm fun _ => triple_done fun s hs => hs
  · exact hpolling
  · exact fun e => triple_done (hthrown e)

/-! ### Runs -/

variable {s s' : σ} {m : Deploy α}

theorem plays_call {q : DeployAsk} {answer : DeployAnswer q → Except DeployFailure α}
    {a : DeployAnswer q} {v : α} (hstep : Step s q a s') (hanswer : answer a = .ok v) :
    Plays Step (Dialogue.ask q fun a => Deploy.settle (answer a) : Deploy α) s (.ok v) s' := by
  refine .ask hstep ?_
  rw [hanswer]
  exact .done v s'

theorem plays_rejected {q : DeployAsk} {answer : DeployAnswer q → Except DeployFailure α}
    {a : DeployAnswer q} {e : DeployFailure} (hstep : Step s q a s') (hanswer : answer a = .error e) :
    Plays Step (Dialogue.ask q fun a => Deploy.settle (answer a) : Deploy α) s
      (.error (.thrown e)) s' := by
  refine .ask hstep ?_
  rw [hanswer]
  exact .fail _ s'

theorem plays_catching_ok {handle : DeployFailure → Deploy α} {a : α}
    (h : Plays Step m s (.ok a) s') : Plays Step (Deploy.catching m handle) s (.ok a) s' :=
  (plays_attempt.mpr ⟨_, h, rfl⟩).then (.done a s')

theorem plays_catching_thrown {handle : DeployFailure → Deploy α} {e : DeployFailure} {t : σ}
    {r : Except DeployStop α} (h : Plays Step m s (.error (.thrown e)) t)
    (hhandle : Plays Step (handle e) t r s') : Plays Step (Deploy.catching m handle) s r s' :=
  (plays_attempt.mpr ⟨_, h, rfl⟩).then hhandle

end Homelab
