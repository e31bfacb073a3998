import Mathlib.Order.Defs.Unbundled
import Mathlib.Tactic.SplitIfs

/-! Computations with a state that may throw: `EStateM`, where what was done before
a throw stays done. A preorder on states that every step respects is respected by
the run; a view of the state that is kept is the preorder of equal views. -/
namespace Effect

variable {σ ε α β γ δ : Type}

/-- The state a run ends in, whether it returned or threw. -/
def after : EStateM.Result ε σ α → σ
  | .ok _ s => s
  | .error _ s => s

@[simp] theorem after_ok (a : α) (s : σ) : after (.ok a s : EStateM.Result ε σ α) = s := rfl

@[simp] theorem after_error (e : ε) (s : σ) : after (.error e s : EStateM.Result ε σ α) = s := rfl

/-- The value, or the error thrown. -/
def give : Except ε α → EStateM ε σ α
  | .ok a => pure a
  | .error e => throw e

/-- `try { m } finally { last }`: what `last` throws comes instead of the result. -/
def ensuring (m : EStateM ε σ α) (last : EStateM ε σ Unit) : EStateM ε σ α := do
  let r ← tryCatch (Except.ok <$> m) fun e => pure (Except.error e)
  last
  give r

theorem run_bind_ok {m : EStateM ε σ α} {s t : σ} {a : α} (h : m.run s = .ok a t)
    (f : α → EStateM ε σ β) : (m >>= f).run s = (f a).run t := by
  rw [EStateM.run_bind, h]

theorem run_bind_error {m : EStateM ε σ α} {s t : σ} {e : ε} (h : m.run s = .error e t)
    (f : α → EStateM ε σ β) : (m >>= f).run s = .error e t := by
  rw [EStateM.run_bind, h]

theorem run_map_ok {m : EStateM ε σ α} {s t : σ} {a : α} (h : m.run s = .ok a t) (f : α → β) :
    (f <$> m).run s = .ok (f a) t := by
  change EStateM.map f m s = _
  rw [EStateM.run] at h
  rw [EStateM.map, h]

theorem run_map_error {m : EStateM ε σ α} {s t : σ} {e : ε} (h : m.run s = .error e t) (f : α → β) :
    (f <$> m).run s = .error e t := by
  change EStateM.map f m s = _
  rw [EStateM.run] at h
  rw [EStateM.map, h]

theorem after_map (f : α → β) (m : EStateM ε σ α) (s : σ) :
    after ((f <$> m).run s) = after (m.run s) := by
  cases hr : m.run s with
  | ok a t => rw [run_map_ok hr, after_ok, after_ok]
  | error e t => rw [run_map_error hr, after_error, after_error]

theorem run_tryCatch_ok {m : EStateM ε σ α} {s t : σ} {a : α} (h : m.run s = .ok a t)
    (handle : ε → EStateM ε σ α) : (tryCatch m handle).run s = .ok a t := by
  change EStateM.tryCatch m handle s = _
  unfold EStateM.tryCatch
  rw [EStateM.run] at h
  rw [h]

theorem run_tryCatch_error {m : EStateM ε σ α} {s t : σ} {e : ε} (h : m.run s = .error e t)
    (handle : ε → EStateM ε σ α) : (tryCatch m handle).run s = (handle e).run t := by
  change EStateM.tryCatch m handle s = _
  unfold EStateM.tryCatch
  rw [EStateM.run] at h
  rw [h]
  rfl

theorem run_ensuring_ok {m : EStateM ε σ α} {s t : σ} {a : α} (h : m.run s = .ok a t)
    (last : EStateM ε σ Unit) : (ensuring m last).run s = (last >>= fun _ => pure a).run t := by
  rw [ensuring, run_bind_ok (run_tryCatch_ok (run_map_ok h _) _)]
  rfl

theorem run_ensuring_error {m : EStateM ε σ α} {s t : σ} {e : ε} (h : m.run s = .error e t)
    (last : EStateM ε σ Unit) : (ensuring m last).run s = (last >>= fun _ => throw e).run t := by
  have hcaught : (tryCatch (Except.ok <$> m) fun e => pure (Except.error e)).run s =
      .ok (Except.error e) t := run_tryCatch_error (run_map_error h _) _
  rw [ensuring, run_bind_ok hcaught]
  rfl

/-- Every run of `m` ends in a state related to the one it started in. -/
structure Within (R : σ → σ → Prop) (m : EStateM ε σ α) : Prop where
  rel : ∀ s, R s (after (m.run s))

namespace Within

variable {R : σ → σ → Prop}

theorem update (f : σ → σ) (h : ∀ s, R s (f s)) :
    Within R (modify f : EStateM ε σ PUnit) := ⟨fun s => h s⟩

theorem map (f : α → β) {m : EStateM ε σ α} (hm : Within R m) : Within R (f <$> m) :=
  ⟨fun s => (after_map f m s).symm ▸ hm.rel s⟩

theorem ite (p : Prop) [Decidable p] {m m' : EStateM ε σ α} (hm : Within R m)
    (hm' : Within R m') : Within R (if p then m else m') := by
  split_ifs
  · exact hm
  · exact hm'

variable [IsPreorder σ R]

theorem pure (a : α) : Within R (Pure.pure a : EStateM ε σ α) := ⟨fun s => refl_of R s⟩

theorem get : Within R (MonadState.get : EStateM ε σ σ) := ⟨fun s => refl_of R s⟩

theorem throw (e : ε) : Within R (MonadExcept.throw e : EStateM ε σ α) :=
  ⟨fun s => refl_of R s⟩

theorem give (r : Except ε α) : Within R (Effect.give r : EStateM ε σ α) := by
  cases r with
  | ok a => exact pure a
  | error e => exact throw e

theorem bind_at {m : EStateM ε σ α} {f : α → EStateM ε σ β} {s : σ} (hs : R s (after (m.run s)))
    (hf : ∀ a, Within R (f a)) : R s (after ((m >>= f).run s)) := by
  cases hr : m.run s with
  | ok a t =>
    rw [hr] at hs
    rw [run_bind_ok hr]
    exact trans_of R hs ((hf a).rel t)
  | error e t =>
    rw [hr] at hs
    rw [run_bind_error hr]
    exact hs

theorem bind {m : EStateM ε σ α} {f : α → EStateM ε σ β} (hm : Within R m)
    (hf : ∀ a, Within R (f a)) : Within R (m >>= f) := ⟨fun s => bind_at (hm.rel s) hf⟩

theorem tryCatch_at {m : EStateM ε σ α} {handle : ε → EStateM ε σ α} {s : σ}
    (hs : R s (after (m.run s))) (hh : ∀ e, Within R (handle e)) :
    R s (after ((tryCatch m handle).run s)) := by
  cases hr : m.run s with
  | ok a t =>
    rw [hr] at hs
    rw [run_tryCatch_ok hr]
    exact hs
  | error e t =>
    rw [hr] at hs
    rw [run_tryCatch_error hr]
    exact trans_of R hs ((hh e).rel t)

theorem tryCatch {m : EStateM ε σ α} {handle : ε → EStateM ε σ α} (hm : Within R m)
    (hh : ∀ e, Within R (handle e)) : Within R (MonadExcept.tryCatch m handle) :=
  ⟨fun s => tryCatch_at (hm.rel s) hh⟩

end Within

/-- The view is the same in both states. -/
def Same (view : σ → γ) (s t : σ) : Prop := view t = view s

instance (view : σ → γ) : IsPreorder σ (Same view) where
  refl _ := rfl
  trans _ _ _ hab hbc := Eq.trans hbc hab

/-- What holds of the first state holds of the second. -/
def Stays (P : σ → Prop) (s t : σ) : Prop := P s → P t

instance (P : σ → Prop) : IsPreorder σ (Stays P) where
  refl _ := id
  trans _ _ _ hab hbc := fun h => hbc (hab h)

/-- Every run of `m` leaves the view as it was. -/
abbrev Keeps (view : σ → γ) (m : EStateM ε σ α) : Prop := Within (Same view) m

/-- What holds where the first part ended holds at the end, if the rest leaves it. -/
theorem holds_bind {P : σ → Prop} {m : EStateM ε σ α} {f : α → EStateM ε σ β} {s : σ}
    (hm : P (after (m.run s))) (hf : ∀ a, Within (Stays P) (f a)) : P (after ((m >>= f).run s)) := by
  cases hr : m.run s with
  | ok a t =>
    rw [hr] at hm
    rw [run_bind_ok hr]
    exact (hf a).rel t hm
  | error e t =>
    rw [hr] at hm
    rw [run_bind_error hr]
    exact hm

theorem holds_tryCatch {P : σ → Prop} {m : EStateM ε σ α} {handle : ε → EStateM ε σ α} {s : σ}
    (hm : P (after (m.run s))) (hh : ∀ e, Within (Stays P) (handle e)) :
    P (after ((tryCatch m handle).run s)) := by
  cases hr : m.run s with
  | ok a t =>
    rw [hr] at hm
    rw [run_tryCatch_ok hr]
    exact hm
  | error e t =>
    rw [hr] at hm
    rw [run_tryCatch_error hr]
    exact (hh e).rel t hm

/-- A view that is kept goes on to satisfy what it satisfied. -/
theorem Keeps.stays {view : σ → γ} {m : EStateM ε σ α} (hm : Keeps view m) (P : γ → Prop) :
    Within (Stays fun s => P (view s)) m := by
  constructor
  intro s hs
  have hview : view (after (m.run s)) = view s := hm.rel s
  change P (view (after (m.run s)))
  rwa [hview]

theorem Keeps.comp {view : σ → γ} (f : γ → δ) {m : EStateM ε σ α} (hm : Keeps view m) :
    Keeps (fun s => f (view s)) m :=
  ⟨fun s => congrArg f (hm.rel s)⟩

end Effect
