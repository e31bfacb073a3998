import Homelab.PromiseMutex
import Homelab.Traces
import Mathlib.Logic.Function.Basic

/-! `fileMutex`: the chains of promises that the calls of `acquire` wait on, one for each path, with every order in
which the runtime settles them and the holders release. -/
namespace Homelab

/-! ### Calls and promises -/

/-- A call of `acquire`: its path, and the call whose promise it has found in the map, if there was one -/
structure AcquireCall (Path : Type) where
  path : Path
  previous : Option ℕ
deriving DecidableEq

/-- A call waits for its predecessor's promise, holds the path, or has called what it was given to release it,
by which `own` is fulfilled. -/
inductive HolderStage
  | waiting
  | holding
  | released
deriving DecidableEq

/-- `previous.then(() => own)`: it waits for `previous`, follows `own`, or is fulfilled. -/
inductive TailStage
  | pending
  | following
  | fulfilled
deriving DecidableEq

/-- The map, by the calls whose promises it holds, and the calls in the order in which they were made -/
structure MutexState (Path : Type) where
  chains : Path → Option ℕ
  calls : List (AcquireCall Path)
  holder : ℕ → HolderStage
  tail : ℕ → TailStage

def MutexState.fresh {Path : Type} : MutexState Path :=
  ⟨fun _ => none, [], fun _ => .waiting, fun _ => .pending⟩

/-- `acquire` is called; or the runtime lets a call go on from `await previous`, runs the callback of its `then`, or
fulfils its promise after `own`; or its holder releases. -/
inductive MutexEvent (Path : Type)
  | acquire (path : Path)
  | grant (call : ℕ)
  | follow (call : ℕ)
  | settle (call : ℕ)
  | release (call : ℕ)
deriving DecidableEq

section Steps

variable {Path : Type}

/-- The promise that a call waits for is fulfilled; `Promise.resolve()` is. -/
def MutexState.ready (s : MutexState Path) (c : AcquireCall Path) : Prop := ∀ m ∈ c.previous, s.tail m = .fulfilled

variable [DecidableEq Path]

/-- `acquire` up to its `await` -/
def MutexState.acquire (s : MutexState Path) (path : Path) : MutexState Path :=
  { s with
    calls := s.calls ++ [⟨path, s.chains path⟩]
    chains := Function.update s.chains path (some s.calls.length) }

/-- All that can happen to a mutex -/
def fileMutex (Path : Type) [DecidableEq Path] : Automaton (MutexState Path) (MutexEvent Path) where
  allowed s e :=
    match e with
    | .acquire _ => True
    | .grant n => ∃ c, s.calls[n]? = some c ∧ s.holder n = .waiting ∧ s.ready c
    | .follow n => ∃ c, s.calls[n]? = some c ∧ s.tail n = .pending ∧ s.ready c
    | .settle n => s.tail n = .following ∧ s.holder n = .released
    | .release n => s.holder n = .holding
  next s e :=
    match e with
    | .acquire path => s.acquire path
    | .grant n => { s with holder := Function.update s.holder n .holding }
    | .follow n => { s with tail := Function.update s.tail n .following }
    | .settle n => { s with tail := Function.update s.tail n .fulfilled }
    | .release n => { s with holder := Function.update s.holder n .released }

instance decidableReady (s : MutexState Path) (c : AcquireCall Path) : Decidable (s.ready c) :=
  inferInstanceAs (Decidable (∀ m ∈ c.previous, s.tail m = .fulfilled))

instance decidableAllowed (s : MutexState Path) (e : MutexEvent Path) : Decidable ((fileMutex Path).allowed s e) :=
  match e with
  | .acquire _ => isTrue trivial
  | .grant n => inferInstanceAs (Decidable (∃ c ∈ s.calls[n]?, s.holder n = .waiting ∧ s.ready c))
  | .follow n => inferInstanceAs (Decidable (∃ c ∈ s.calls[n]?, s.tail n = .pending ∧ s.ready c))
  | .settle n => inferInstanceAs (Decidable (s.tail n = .following ∧ s.holder n = .released))
  | .release n => inferInstanceAs (Decidable (s.holder n = .holding))

end Steps

/-! ### The chains of calls -/

section Chains

variable {Path : Type} {s : MutexState Path}

/-- A call waits for the last call on its path before it, and the map has the last call on each path. -/
structure ChainedCalls (s : MutexState Path) : Prop where
  latest : ∀ {n : ℕ} {c : AcquireCall Path}, s.calls[n]? = some c → ∃ m ≥ n, s.chains c.path = some m
  chains : ∀ {p m}, s.chains p = some m → ∃ c, s.calls[m]? = some c ∧ c.path = p
  earlier : ∀ {n j : ℕ} {c d : AcquireCall Path}, s.calls[n]? = some c → j < n → s.calls[j]? = some d →
    d.path = c.path → ∃ m ≥ j, c.previous = some m
  previous : ∀ {n m : ℕ} {c : AcquireCall Path}, s.calls[n]? = some c → c.previous = some m →
    m < n ∧ ∃ d, s.calls[m]? = some d ∧ d.path = c.path

/-- No stage is reached before what it waits for, and only calls that were made have left the first one. -/
structure PacedCalls (s : MutexState Path) : Prop where
  held : ∀ {n}, s.holder n ≠ .waiting → ∃ c, s.calls[n]? = some c ∧ s.ready c
  followed : ∀ {n}, s.tail n ≠ .pending → ∃ c, s.calls[n]? = some c ∧ s.ready c
  settled : ∀ {n}, s.tail n = .fulfilled → s.holder n = .released

/-- What is true of a mutex after any events -/
structure MutexInvariant (s : MutexState Path) : Prop where
  chained : ChainedCalls s
  paced : PacedCalls s

theorem mutexInvariant_fresh : MutexInvariant (.fresh : MutexState Path) where
  chained := ⟨nofun, nofun, nofun, nofun⟩
  paced := ⟨fun hne => absurd rfl hne, fun hne => absurd rfl hne, nofun⟩

/-- Behind a promise that is fulfilled all calls on its path up to its own have released. -/
theorem MutexInvariant.released_of_fulfilled (h : MutexInvariant s) {m : ℕ} {c : AcquireCall Path}
    (hc : s.calls[m]? = some c) (hm : s.tail m = .fulfilled) :
    ∀ {j d}, j ≤ m → s.calls[j]? = some d → d.path = c.path → s.holder j = .released := by
  induction m using Nat.strong_induction_on generalizing c with
  | _ m ih =>
    intro j d hj hd hpath
    obtain rfl | hlt := Nat.eq_or_lt_of_le hj
    · exact h.paced.settled hm
    · -- the promise before it is fulfilled as well, and is that of `j` or of a later call
      obtain ⟨m', hm', hprevious⟩ := h.chained.earlier hc hlt hd hpath
      obtain ⟨c', hc', hready⟩ := h.paced.followed (n := m) (by rw [hm]; nofun)
      obtain rfl := Option.some.inj (hc.symm.trans hc')
      obtain ⟨hbefore, b, hb, hbpath⟩ := h.chained.previous hc hprevious
      exact ih m' hbefore hb (hready m' hprevious) hm' hd (hpath.trans hbpath.symm)

/-- When the turn of a call has come, the calls before it on its path have all released. -/
theorem MutexInvariant.released_of_ready (h : MutexInvariant s) {n : ℕ} {c : AcquireCall Path}
    (hc : s.calls[n]? = some c) (hready : s.ready c) {j : ℕ} {d : AcquireCall Path} (hj : j < n) (hd : s.calls[j]? = some d)
    (hpath : d.path = c.path) : s.holder j = .released := by
  obtain ⟨m, hm, hprevious⟩ := h.chained.earlier hc hj hd hpath
  obtain ⟨-, b, hb, hbpath⟩ := h.chained.previous hc hprevious
  exact h.released_of_fulfilled hb (hready m hprevious) hm hd (hpath.trans hbpath.symm)

theorem MutexInvariant.released_before (h : MutexInvariant s) {n : ℕ} {c : AcquireCall Path} (hc : s.calls[n]? = some c)
    (hn : s.holder n ≠ .waiting) {j : ℕ} {d : AcquireCall Path} (hj : j < n) (hd : s.calls[j]? = some d)
    (hpath : d.path = c.path) : s.holder j = .released := by
  obtain ⟨c', hc', hready⟩ := h.paced.held hn
  obtain rfl := Option.some.inj (hc.symm.trans hc')
  exact h.released_of_ready hc hready hj hd hpath

theorem MutexInvariant.exclusive (h : MutexInvariant s) {n m : ℕ} {c d : AcquireCall Path}
    (hc : s.calls[n]? = some c) (hd : s.calls[m]? = some d) (hpath : c.path = d.path)
    (hn : s.holder n = .holding) (hm : s.holder m = .holding) : n = m := by
  obtain hlt | heq | hlt := Nat.lt_trichotomy n m
  · cases hn.symm.trans (h.released_before hd (by rw [hm]; nofun) hlt hc hpath)
  · exact heq
  · cases hm.symm.trans (h.released_before hc (by rw [hn]; nofun) hlt hd hpath.symm)

/-! ### What an event changes -/

variable [DecidableEq Path] {e : MutexEvent Path} {n : ℕ}

theorem getElem?_concat {α : Type} {l : List α} {a b : α} {n : ℕ} (h : (l ++ [a])[n]? = some b) :
    l[n]? = some b ∨ n = l.length ∧ b = a := by
  rw [List.getElem?_append] at h
  split_ifs at h with hn
  · exact .inl h
  · rw [List.getElem?_singleton] at h
    split_ifs at h with h0
    exact .inr ⟨by omega, (Option.some.inj h).symm⟩

theorem length_of_getElem? {α : Type} {l : List α} {a : α} {n : ℕ} (h : l[n]? = some a) : n < l.length :=
  (List.getElem?_eq_some_iff.mp h).1

theorem chained_acquire (h : ChainedCalls s) (path : Path) : ChainedCalls (s.acquire path) := by
  have hold {n : ℕ} {c : AcquireCall Path} (hc : s.calls[n]? = some c) :
      (s.acquire path).calls[n]? = some c := by
    rw [← hc]
    exact List.getElem?_append_left (length_of_getElem? hc)
  constructor
  case latest =>
    intro n c hc
    by_cases hpath : c.path = path
    · -- the call that is made now
      refine ⟨s.calls.length, ?_, by rw [hpath]; exact Function.update_self _ _ _⟩
      obtain hc | ⟨rfl, -⟩ := getElem?_concat hc
      · exact (length_of_getElem? hc).le
      · exact le_rfl
    · obtain hc | ⟨-, rfl⟩ := getElem?_concat hc
      · obtain ⟨m, hm, hchain⟩ := h.latest hc
        exact ⟨m, hm, (Function.update_of_ne hpath _ _).trans hchain⟩
      · exact absurd rfl hpath
  case chains =>
    intro p m hp
    by_cases hpath : p = path
    · rw [hpath] at hp ⊢
      change Function.update s.chains path (some s.calls.length) path = some m at hp
      rw [Function.update_self] at hp
      obtain rfl := Option.some.inj hp
      exact ⟨⟨path, s.chains path⟩, List.getElem?_concat_length, rfl⟩
    · obtain ⟨c, hc, hcpath⟩ := h.chains ((Function.update_of_ne hpath _ _).symm.trans hp)
      exact ⟨c, hold hc, hcpath⟩
  case earlier =>
    intro n j c d hc hj hd hpath
    obtain hd | ⟨rfl, -⟩ := getElem?_concat hd
    · obtain hc | ⟨rfl, rfl⟩ := getElem?_concat hc
      · exact h.earlier hc hj hd hpath
      · -- the map has a call that is no earlier than `j`
        obtain ⟨m, hm, hchain⟩ := h.latest hd
        rw [hpath] at hchain
        exact ⟨m, hm, hchain⟩
    · obtain hc | ⟨rfl, -⟩ := getElem?_concat hc
      · have := length_of_getElem? hc
        omega
      · omega
  case previous =>
    intro n m c hc hprevious
    obtain hc | ⟨rfl, rfl⟩ := getElem?_concat hc
    · obtain ⟨hm, d, hd, hpath⟩ := h.previous hc hprevious
      exact ⟨hm, d, hold hd, hpath⟩
    · obtain ⟨d, hd, hpath⟩ := h.chains hprevious
      exact ⟨length_of_getElem? hd, d, hold hd, hpath⟩

theorem chained_next (h : ChainedCalls s) (e : MutexEvent Path) : ChainedCalls ((fileMutex Path).next s e) := by
  cases e with
  | acquire path => exact chained_acquire h path
  | _ => exact ⟨h.latest, h.chains, h.earlier, h.previous⟩

theorem calls_next {c : AcquireCall Path} (e : MutexEvent Path) (hc : s.calls[n]? = some c) :
    ((fileMutex Path).next s e).calls[n]? = some c := by
  cases e with
  | acquire path =>
    rw [← hc]
    exact List.getElem?_append_left (length_of_getElem? hc)
  | _ => exact hc

/-- A call goes from waiting to holding once its turn has come, and on to having released. -/
theorem holder_next (h : (fileMutex Path).allowed s e) (n : ℕ) :
    ((fileMutex Path).next s e).holder n = s.holder n ∨
      (e = .grant n ∧ s.holder n = .waiting ∧ ((fileMutex Path).next s e).holder n = .holding ∧
        ∃ c, s.calls[n]? = some c ∧ s.ready c) ∨
      (e = .release n ∧ s.holder n = .holding ∧ ((fileMutex Path).next s e).holder n = .released) := by
  cases e with
  | grant j =>
    obtain ⟨c, hc, hwaiting, hready⟩ := h
    by_cases hj : n = j
    · rw [← hj] at hc hwaiting ⊢
      exact .inr (.inl ⟨rfl, hwaiting, Function.update_self _ _ _, c, hc, hready⟩)
    · exact .inl (Function.update_of_ne hj _ _)
  | release j =>
    by_cases hj : n = j
    · rw [← hj] at h ⊢
      exact .inr (.inr ⟨rfl, h, Function.update_self _ _ _⟩)
    · exact .inl (Function.update_of_ne hj _ _)
  | _ => exact .inl rfl

/-- The promise that a call leaves goes from pending to following `own`, and is fulfilled after that. -/
theorem tail_next (h : (fileMutex Path).allowed s e) (n : ℕ) :
    ((fileMutex Path).next s e).tail n = s.tail n ∨
      (e = .follow n ∧ s.tail n = .pending ∧ ((fileMutex Path).next s e).tail n = .following ∧
        ∃ c, s.calls[n]? = some c ∧ s.ready c) ∨
      (e = .settle n ∧ s.tail n = .following ∧ ((fileMutex Path).next s e).tail n = .fulfilled ∧
        s.holder n = .released) := by
  cases e with
  | follow j =>
    obtain ⟨c, hc, hpending, hready⟩ := h
    by_cases hj : n = j
    · rw [← hj] at hc hpending ⊢
      exact .inr (.inl ⟨rfl, hpending, Function.update_self _ _ _, c, hc, hready⟩)
    · exact .inl (Function.update_of_ne hj _ _)
  | settle j =>
    by_cases hj : n = j
    · rw [← hj] at h ⊢
      exact .inr (.inr ⟨rfl, h.1, Function.update_self _ _ _, h.2⟩)
    · exact .inl (Function.update_of_ne hj _ _)
  | _ => exact .inl rfl

theorem released_stable (n : ℕ) : (fileMutex Path).Stable fun s => s.holder n = .released := by
  intro s e hn h
  obtain hsame | ⟨-, hwaiting, -⟩ | ⟨-, hholding, -⟩ := holder_next h n
  · exact hsame.trans hn
  · cases hn.symm.trans hwaiting
  · cases hn.symm.trans hholding

theorem fulfilled_stable (n : ℕ) : (fileMutex Path).Stable fun s => s.tail n = .fulfilled := by
  intro s e hn h
  obtain hsame | ⟨-, hpending, -⟩ | ⟨-, hfollowing, -⟩ := tail_next h n
  · exact hsame.trans hn
  · cases hn.symm.trans hpending
  · cases hn.symm.trans hfollowing

theorem ready_stable (c : AcquireCall Path) : (fileMutex Path).Stable fun s => s.ready c :=
  fun s e hc h m hm => fulfilled_stable m s e (hc m hm) h

theorem paced_next (h : PacedCalls s) (hallowed : (fileMutex Path).allowed s e) :
    PacedCalls ((fileMutex Path).next s e) := by
  have hlater {n : ℕ} (hn : ∃ c, s.calls[n]? = some c ∧ s.ready c) :
      ∃ c, ((fileMutex Path).next s e).calls[n]? = some c ∧ ((fileMutex Path).next s e).ready c := by
    obtain ⟨c, hc, hready⟩ := hn
    exact ⟨c, calls_next e hc, ready_stable c s e hready hallowed⟩
  constructor
  case held =>
    intro n hn
    obtain hsame | ⟨-, -, -, hready⟩ | ⟨-, hholding, -⟩ := holder_next hallowed n
    · rw [hsame] at hn
      exact hlater (h.held hn)
    · exact hlater hready
    · exact hlater (h.held (by rw [hholding]; nofun))
  case followed =>
    intro n hn
    obtain hsame | ⟨-, -, -, hready⟩ | ⟨-, hfollowing, -⟩ := tail_next hallowed n
    · rw [hsame] at hn
      exact hlater (h.followed hn)
    · exact hlater hready
    · exact hlater (h.followed (by rw [hfollowing]; nofun))
  case settled =>
    intro n hn
    have hreleased : s.holder n = .released := by
      obtain hsame | ⟨-, -, hfollowing, -⟩ | ⟨-, -, -, hreleased⟩ := tail_next hallowed n
      · exact h.settled (hsame.symm.trans hn)
      · cases hn.symm.trans hfollowing
      · exact hreleased
    exact released_stable n s e hreleased hallowed

theorem mutexInvariant_next (h : MutexInvariant s) (hallowed : (fileMutex Path).allowed s e) :
    MutexInvariant ((fileMutex Path).next s e) :=
  ⟨chained_next h.chained e, paced_next h.paced hallowed⟩

theorem mutexInvariant_reached (h : (fileMutex Path).Reaches Automaton.anyEvent .fresh s) : MutexInvariant s :=
  h.invariant mutexInvariant_fresh fun _ _ hs hallowed _ => mutexInvariant_next hs hallowed

/-! ### What holds at any moment -/

/-- The call that an event is about, if it was made before -/
def MutexEvent.call : MutexEvent Path → Option ℕ
  | .acquire _ => none
  | .grant n => some n
  | .follow n => some n
  | .settle n => some n
  | .release n => some n

/-- The path that an event is about -/
def MutexState.pathOf (s : MutexState Path) : MutexEvent Path → Option Path
  | .acquire path => some path
  | e => (e.call.bind (s.calls[·]?)).map AcquireCall.path

/-- At most one call holds a path, no call has had it before the calls made before it have released it, and what
a call may do next does not change with an event on another path. -/
structure MutexLaws (s : MutexState Path) : Prop where
  exclusive : ∀ {n m : ℕ} {c d : AcquireCall Path}, s.calls[n]? = some c → s.calls[m]? = some d → c.path = d.path →
    s.holder n = .holding → s.holder m = .holding → n = m
  inOrder : ∀ {n m : ℕ} {c d : AcquireCall Path}, s.calls[n]? = some c → s.calls[m]? = some d → c.path = d.path →
    n < m → s.holder m ≠ .waiting → s.holder n = .released
  apart : ∀ {e g : MutexEvent Path} {n : ℕ} {c : AcquireCall Path}, s.calls[n]? = some c →
    (fileMutex Path).allowed s e → s.pathOf e ≠ some c.path → g.call = some n →
    ((fileMutex Path).allowed ((fileMutex Path).next s e) g ↔ (fileMutex Path).allowed s g)

/-- An event on another path changes no stage of a call or of a call that it waits for. -/
theorem stages_of_other_path {j : ℕ} {d : AcquireCall Path} (hd : s.calls[j]? = some d)
    (h : (fileMutex Path).allowed s e) (hother : s.pathOf e ≠ some d.path) :
    ((fileMutex Path).next s e).holder j = s.holder j ∧ ((fileMutex Path).next s e).tail j = s.tail j := by
  have hcall : e.call ≠ some j := fun hj => by
    refine hother ?_
    cases e with
    | acquire path => cases hj
    | _ =>
      obtain rfl := Option.some.inj hj
      simp only [MutexState.pathOf, MutexEvent.call, Option.bind_some, hd, Option.map_some]
  constructor
  · obtain hsame | ⟨rfl, -⟩ | ⟨rfl, -⟩ := holder_next h j
    · exact hsame
    · exact absurd rfl hcall
    · exact absurd rfl hcall
  · obtain hsame | ⟨rfl, -⟩ | ⟨rfl, -⟩ := tail_next h j
    · exact hsame
    · exact absurd rfl hcall
    · exact absurd rfl hcall

theorem MutexInvariant.apart (h : MutexInvariant s) {g : MutexEvent Path} {c : AcquireCall Path}
    (hc : s.calls[n]? = some c) (hallowed : (fileMutex Path).allowed s e) (hother : s.pathOf e ≠ some c.path)
    (hg : g.call = some n) :
    (fileMutex Path).allowed ((fileMutex Path).next s e) g ↔ (fileMutex Path).allowed s g := by
  obtain ⟨hholder, htail⟩ := stages_of_other_path hc hallowed hother
  have hnext := calls_next e hc
  have hready : ((fileMutex Path).next s e).ready c ↔ s.ready c := by
    refine forall₂_congr fun m hm => ?_
    obtain ⟨-, d, hd, hpath⟩ := h.chained.previous hc hm
    rw [(stages_of_other_path hd hallowed (by rwa [hpath])).2]
  have hturn {P : Prop} : (∃ c', ((fileMutex Path).next s e).calls[n]? = some c' ∧ P ∧
      ((fileMutex Path).next s e).ready c') ↔ ∃ c', s.calls[n]? = some c' ∧ P ∧ s.ready c' := by
    rw [hnext, hc]
    simp only [Option.some.injEq, exists_eq_left', hready]
  cases g with
  | acquire path => cases hg
  | grant j =>
    obtain rfl := Option.some.inj hg
    change (∃ c', _ ∧ ((fileMutex Path).next s e).holder j = _ ∧ _) ↔ _
    rw [hholder]
    exact hturn
  | follow j =>
    obtain rfl := Option.some.inj hg
    change (∃ c', _ ∧ ((fileMutex Path).next s e).tail j = _ ∧ _) ↔ _
    rw [htail]
    exact hturn
  | settle j =>
    obtain rfl := Option.some.inj hg
    change ((fileMutex Path).next s e).tail j = _ ∧ ((fileMutex Path).next s e).holder j = _ ↔ _
    rw [hholder, htail]
    exact Iff.rfl
  | release j =>
    obtain rfl := Option.some.inj hg
    change ((fileMutex Path).next s e).holder j = _ ↔ _
    rw [hholder]
    exact Iff.rfl

theorem MutexInvariant.laws (h : MutexInvariant s) : MutexLaws s where
  exclusive := h.exclusive
  inOrder hc hd hpath hlt hm := h.released_before hd hm hlt hc hpath
  apart := h.apart

/-! ### The calls on one path are a queue -/

/-- A call waits for its turn, holds the path, and releases it. -/
def pathQueue : Js.PromiseMutex Unit HolderStage where
  queued c := c = .waiting
  settled c := c = .released
  resume _ c _ c' := c = .waiting ∧ c' = .holding ∨ c = .holding ∧ c' = .released
  not_settled c hwaiting hreleased := by
    rw [hwaiting] at hreleased
    cases hreleased

/-- The calls on a path -/
def MutexState.onPath (s : MutexState Path) (p : Path) : List ℕ :=
  (List.range s.calls.length).filter fun n => s.calls[n]?.any fun c => c.path = p

/-- Their stages -/
def MutexState.queue (s : MutexState Path) (p : Path) : List HolderStage := (s.onPath p).map s.holder

theorem mem_onPath {p : Path} : n ∈ s.onPath p ↔ ∃ c, s.calls[n]? = some c ∧ c.path = p := by
  rw [MutexState.onPath, List.mem_filter, List.mem_range, Option.any_eq_true]
  constructor
  · intro ⟨_, c, hc, hpath⟩
    exact ⟨c, hc, of_decide_eq_true hpath⟩
  · intro ⟨c, hc, hpath⟩
    exact ⟨length_of_getElem? hc, c, hc, decide_eq_true hpath⟩

theorem onPath_sorted (s : MutexState Path) (p : Path) : (s.onPath p).Pairwise (· < ·) :=
  List.pairwise_lt_range.filter _

theorem onPath_acquire (s : MutexState Path) (path p : Path) :
    (s.acquire path).onPath p = s.onPath p ++ if path = p then [s.calls.length] else [] := by
  have hlength : (s.acquire path).calls.length = s.calls.length+1 := List.length_append
  have hlast : (s.acquire path).calls[s.calls.length]? = some ⟨path, s.chains path⟩ := List.getElem?_concat_length
  have hold : (List.range s.calls.length).filter (fun n => (s.acquire path).calls[n]?.any fun c => c.path = p) =
      s.onPath p := by
    refine List.filter_congr fun n hn => ?_
    have hcall : (s.acquire path).calls[n]? = s.calls[n]? := List.getElem?_append_left (List.mem_range.mp hn)
    rw [hcall]
  rw [MutexState.onPath, hlength, List.range_succ, List.filter_append, hold, List.filter_cons, List.filter_nil, hlast,
    Option.any_some]
  by_cases hpath : path = p
  · rw [if_pos hpath, if_pos (decide_eq_true hpath)]
  · rw [if_neg hpath, if_neg]
    exact fun h => hpath (of_decide_eq_true h)

/-- Another stage of one call is another stage at its place in the queue. -/
theorem queue_update {p : Path} (stage : HolderStage) (hn : n ∈ s.onPath p) : ∃ before after : List HolderStage,
    s.queue p = before ++ s.holder n :: after ∧
      (s.onPath p).map (Function.update s.holder n stage) = before ++ stage :: after ∧
      ∀ b ∈ before, ∃ j < n, j ∈ s.onPath p ∧ s.holder j = b := by
  obtain ⟨before, after, hsplit⟩ := List.append_of_mem hn
  have hsorted := onPath_sorted s p
  rw [hsplit, List.pairwise_append, List.pairwise_cons] at hsorted
  obtain ⟨-, ⟨hafter, -⟩, hbefore⟩ := hsorted
  have hlt (j : ℕ) (hj : j ∈ before) : j < n := hbefore j hj n List.mem_cons_self
  have hothers (l : List ℕ) (hl : ∀ j ∈ l, j ≠ n) : l.map (Function.update s.holder n stage) = l.map s.holder :=
    List.map_congr_left fun j hj => Function.update_of_ne (hl j hj) _ _
  refine ⟨before.map s.holder, after.map s.holder, ?_, ?_, ?_⟩
  · rw [MutexState.queue, hsplit, List.map_append, List.map_cons]
  · rw [hsplit, List.map_append, List.map_cons, Function.update_self, hothers before fun j hj => (hlt j hj).ne,
      hothers after fun j hj => (hafter j hj).ne']
  · intro b hb
    obtain ⟨j, hj, rfl⟩ := List.mem_map.mp hb
    refine ⟨j, hlt j hj, ?_, rfl⟩
    rw [hsplit]
    exact List.mem_append_left _ hj

theorem queue_untouched {p : Path} (stage : HolderStage) (hn : n ∉ s.onPath p) :
    (s.onPath p).map (Function.update s.holder n stage) = s.queue p :=
  List.map_congr_left fun _ hj => Function.update_of_ne (ne_of_mem_of_not_mem hj hn) _ _

theorem queue_next (h : MutexInvariant s) (hallowed : (fileMutex Path).allowed s e) (p : Path) :
    ((fileMutex Path).next s e).queue p = s.queue p ∨
      pathQueue.Step ((), s.queue p) ((), ((fileMutex Path).next s e).queue p) := by
  cases e with
  | acquire path =>
    have hqueue : (s.acquire path).queue p = ((s.acquire path).onPath p).map s.holder := rfl
    change (s.acquire path).queue p = _ ∨ pathQueue.Step _ ((), (s.acquire path).queue p)
    rw [hqueue, onPath_acquire, List.map_append]
    split_ifs
    · -- no stage of a call is left before the call is made
      have hwaiting : s.holder s.calls.length = .waiting := by
        by_contra hne
        obtain ⟨c, hc, -⟩ := h.paced.held hne
        exact lt_irrefl _ (length_of_getElem? hc)
      rw [List.map_singleton, hwaiting]
      exact .inr (.call () (s.queue p) .waiting rfl)
    · rw [List.map_nil, List.append_nil]
      exact .inl rfl
  | grant n =>
    change (s.onPath p).map (Function.update s.holder n .holding) = _ ∨
      pathQueue.Step _ ((), (s.onPath p).map (Function.update s.holder n .holding))
    by_cases hn : n ∈ s.onPath p
    · obtain ⟨c, hc, hwaiting, hready⟩ := hallowed
      obtain ⟨c', hc', hpath⟩ := mem_onPath.mp hn
      obtain rfl := Option.some.inj (hc.symm.trans hc')
      obtain ⟨before, after, hqueue, hnext, hbefore⟩ := queue_update .holding hn
      have hreleased : ∀ b ∈ before, pathQueue.settled b := by
        intro b hb
        obtain ⟨j, hj, hmem, rfl⟩ := hbefore b hb
        obtain ⟨d, hd, hdpath⟩ := mem_onPath.mp hmem
        exact h.released_of_ready hc hready hj hd (hdpath.trans hpath.symm)
      rw [hqueue, hnext, hwaiting]
      exact .inr (.enter () () before after .waiting .holding rfl hreleased (.inl ⟨rfl, rfl⟩))
    · exact .inl (queue_untouched _ hn)
  | release n =>
    change (s.onPath p).map (Function.update s.holder n .released) = _ ∨
      pathQueue.Step _ ((), (s.onPath p).map (Function.update s.holder n .released))
    by_cases hn : n ∈ s.onPath p
    · obtain ⟨before, after, hqueue, hnext, -⟩ := queue_update .released hn
      have hholding : s.holder n = .holding := hallowed
      rw [hqueue, hnext, hholding]
      exact .inr (.resume () () before after .holding .released nofun nofun (.inr ⟨rfl, rfl⟩))
    · exact .inl (queue_untouched _ hn)
  | follow n => exact .inl rfl
  | settle n => exact .inl rfl

/-- The calls on a path run one at a time in the order in which they were made, as `lockedFile` takes for granted. -/
theorem queue_runs (h : (fileMutex Path).Reaches Automaton.anyEvent .fresh s) (p : Path) :
    pathQueue.Runs () ((), s.queue p) := by
  have hrun : MutexInvariant s ∧ pathQueue.Runs () ((), s.queue p) := by
    refine h.invariant (I := fun s => MutexInvariant s ∧ pathQueue.Runs () ((), s.queue p))
      ⟨mutexInvariant_fresh, .refl⟩ ?_
    intro s e ⟨hinv, hruns⟩ hallowed _
    refine ⟨mutexInvariant_next hinv hallowed, ?_⟩
    obtain hsame | hstep := queue_next hinv hallowed p
    · rwa [hsame]
    · exact hruns.tail hstep
  exact hrun.2

end Chains

/-! ### Every call is granted -/

section Liveness

variable {Path : Type} [DecidableEq Path] {p : Path} {r : (fileMutex Path).Trace .fresh} {n k : ℕ}
  {c : AcquireCall Path}

/-- The runtime runs the promise jobs of the calls on a path. -/
def RunsJobs (r : (fileMutex Path).Trace .fresh) (p : Path) : Prop :=
  ∀ k n c, (r.state k).calls[n]? = some c → c.path = p → r.Fair (.grant n) ∧ r.Fair (.follow n) ∧ r.Fair (.settle n)

/-- Every holder of a path releases it in the end. -/
def Releases (r : (fileMutex Path).Trace .fresh) (p : Path) : Prop :=
  ∀ k n, (r.state k).holder n = .holding → (∃ c, (r.state k).calls[n]? = some c ∧ c.path = p) →
    r.Eventually k fun s => s.holder n = .released

theorem calls_stable (n : ℕ) (c : AcquireCall Path) : (fileMutex Path).Stable fun s => s.calls[n]? = some c :=
  fun _ e hc _ => calls_next e hc

/-- A call whose turn has come is granted. -/
theorem eventually_granted (hfair : r.Fair (.grant n)) (hc : (r.state k).calls[n]? = some c)
    (hready : (r.state k).ready c) : r.Eventually k fun s => s.holder n ≠ .waiting := by
  by_cases hwaiting : (r.state k).holder n = .waiting
  · refine hfair.eventually
      (P := fun s => s.calls[n]? = some c ∧ s.holder n = .waiting ∧ s.ready c) ?_ ?_ ?_ ⟨hc, hwaiting, hready⟩
    · intro s hs
      exact ⟨c, hs⟩
    · intro s e hne ⟨hc, hwaiting, hready⟩ hallowed
      obtain hsame | ⟨hgrant, -⟩ | ⟨-, hholding, -⟩ := holder_next hallowed n
      · exact .inl ⟨calls_next e hc, hsame.trans hwaiting, ready_stable c s e hready hallowed⟩
      · exact absurd hgrant hne
      · cases hwaiting.symm.trans hholding
    · intro s _ hstill
      cases (Function.update_self _ _ _).symm.trans hstill
  · exact .now hwaiting

/-- The promise of a call whose turn has come follows `own`. -/
theorem eventually_followed (hfair : r.Fair (.follow n)) (hc : (r.state k).calls[n]? = some c)
    (hready : (r.state k).ready c) : r.Eventually k fun s => s.tail n ≠ .pending := by
  by_cases hpending : (r.state k).tail n = .pending
  · refine hfair.eventually
      (P := fun s => s.calls[n]? = some c ∧ s.tail n = .pending ∧ s.ready c) ?_ ?_ ?_ ⟨hc, hpending, hready⟩
    · intro s hs
      exact ⟨c, hs⟩
    · intro s e hne ⟨hc, hpending, hready⟩ hallowed
      obtain hsame | ⟨hfollow, -⟩ | ⟨-, hfollowing, -⟩ := tail_next hallowed n
      · exact .inl ⟨calls_next e hc, hsame.trans hpending, ready_stable c s e hready hallowed⟩
      · exact absurd hfollow hne
      · cases hpending.symm.trans hfollowing
    · intro s _ hstill
      cases (Function.update_self _ _ _).symm.trans hstill
  · exact .now hpending

/-- A promise that follows `own` is fulfilled once its holder has released. -/
theorem eventually_settled (hfair : r.Fair (.settle n)) (htail : (r.state k).tail n ≠ .pending)
    (hreleased : (r.state k).holder n = .released) : r.Eventually k fun s => s.tail n = .fulfilled := by
  cases hstage : (r.state k).tail n with
  | pending => exact absurd hstage htail
  | fulfilled => exact .now hstage
  | following =>
    refine hfair.eventually
      (P := fun s => s.tail n = .following ∧ s.holder n = .released) ?_ ?_ ?_ ⟨hstage, hreleased⟩
    · intro s hs
      exact hs
    · intro s e hne ⟨hfollowing, hreleased⟩ hallowed
      obtain hsame | ⟨-, hpending, -⟩ | ⟨hsettle, -⟩ := tail_next hallowed n
      · exact .inl ⟨hsame.trans hfollowing, released_stable n s e hreleased hallowed⟩
      · cases hfollowing.symm.trans hpending
      · exact absurd hsettle hne
    · intro s _
      exact Function.update_self _ _ _

/-- The promise that a call waits for is fulfilled in the end, if those of the calls before it are. -/
theorem eventually_ready (hc : (r.state k).calls[n]? = some c) (hpath : c.path = p)
    (hbefore : ∀ m < n, ∀ d, (r.state k).calls[m]? = some d → d.path = p →
      r.Eventually k fun s => s.tail m = .fulfilled) : r.Eventually k fun s => s.ready c := by
  have hinv := mutexInvariant_reached (r.reaches k)
  cases hprevious : c.previous with
  | none =>
    refine .now fun m hm => ?_
    rw [hprevious] at hm
    cases hm
  | some m =>
    obtain ⟨hlt, d, hd, hdpath⟩ := hinv.chained.previous hc hprevious
    refine (hbefore m hlt d hd (hdpath.trans hpath)).mono fun s hs j hj => ?_
    rw [hprevious] at hj
    obtain rfl := Option.some.inj hj
    exact hs

/-- By induction along the chain, every promise that is left on the path is fulfilled. -/
theorem eventually_fulfilled (hjobs : RunsJobs r p) (hreleases : Releases r p) (hc : (r.state k).calls[n]? = some c)
    (hpath : c.path = p) : r.Eventually k fun s => s.tail n = .fulfilled := by
  induction n using Nat.strong_induction_on generalizing c with
  | _ n ih =>
    obtain ⟨hgrant, hfollow, hsettle⟩ := hjobs k n c hc hpath
    -- its turn comes, since the promises before it are fulfilled
    refine (eventually_ready hc hpath fun m hm d hd hdpath => ih m hm hd hdpath).trans fun m hm hready => ?_
    have hcm : (r.state m).calls[n]? = some c := (calls_stable n c).lasts hc hm
    -- then it is granted, and its holder releases
    have hheld : r.Eventually m fun s => s.holder n = .released := by
      refine (eventually_granted hgrant hcm hready).trans fun i hi hgranted => ?_
      have hci : (r.state i).calls[n]? = some c := (calls_stable n c).lasts hcm hi
      cases hstage : (r.state i).holder n with
      | waiting => exact absurd hstage hgranted
      | holding => exact hreleases i n hstage ⟨c, hci, hpath⟩
      | released => exact .now hstage
    -- and the promise that it leaves follows `own`, which is fulfilled by then
    refine hheld.trans fun i hi hreleased => ?_
    have hfollowed := eventually_followed hfollow ((calls_stable n c).lasts hcm hi)
      ((ready_stable c).lasts hready hi)
    refine hfollowed.trans fun j hj htail => ?_
    exact eventually_settled hsettle htail ((released_stable n).lasts hreleased hj)

/-- However the calls, the runtime and the holders take turns, the laws hold at every moment, and if the holders of a
path release it then every call on it is granted, whatever the holders of other paths do. -/
theorem fileMutex_correct (r : (fileMutex Path).Trace .fresh) :
    (∀ k, MutexLaws (r.state k)) ∧
      ∀ p, RunsJobs r p → Releases r p → ∀ k n c, (r.state k).calls[n]? = some c → c.path = p →
        r.Eventually k fun s => s.holder n ≠ .waiting := by
  constructor
  · intro k
    exact (mutexInvariant_reached (r.reaches k)).laws
  · intro p hjobs hreleases k n c hc hpath
    have hready : r.Eventually k fun s => s.ready c :=
      eventually_ready hc hpath fun m _ d hd hdpath => eventually_fulfilled hjobs hreleases hd hdpath
    refine hready.trans fun m hm hready => ?_
    exact eventually_granted (hjobs k n c hc hpath).1 ((calls_stable n c).lasts hc hm) hready

end Liveness

/-- Two calls on one path, the second of which waits for the first -/
def twoCalls : List (MutexEvent String) :=
  [.acquire "inventory.yaml", .acquire "inventory.yaml", .grant 0, .follow 0, .release 0, .settle 0,
    .grant 1, .follow 1, .release 1, .settle 1]

theorem twoCalls_permitted : (fileMutex String).Permits Automaton.anyEvent .fresh twoCalls := by decide +kernel

def twoHolders : (fileMutex String).Trace .fresh := .ofList twoCalls twoCalls_permitted

theorem twoHolders_last (k : ℕ) : twoHolders.state (max k 10) = (fileMutex String).after .fresh twoCalls := by
  change (fileMutex String).after .fresh (twoCalls.take (max k 10)) = _
  rw [List.take_of_length_le (le_max_right k 10)]

theorem twoHolders_made {k n : ℕ} {c : AcquireCall String} (hc : (twoHolders.state k).calls[n]? = some c) : n < 2 := by
  have hlast := (calls_stable n c).lasts hc (le_max_left k 10)
  rw [twoHolders_last] at hlast
  exact length_of_getElem? hlast

/-- Both calls have gone through all of their stages. -/
theorem twoHolders_rest {n : ℕ} (hn : n < 2) :
    ((fileMutex String).after .fresh twoCalls).holder n = .released ∧
      ((fileMutex String).after .fresh twoCalls).tail n = .fulfilled := by
  obtain rfl | rfl : n = 0 ∨ n = 1 := by omega
  · decide +kernel
  · decide +kernel

theorem twoHolders_runsJobs (p : String) : RunsJobs twoHolders p := by
  intro k n c hc _
  obtain ⟨hholder, htail⟩ := twoHolders_rest (twoHolders_made hc)
  refine ⟨Automaton.Trace.ofList_fair _ ?_, Automaton.Trace.ofList_fair _ ?_, Automaton.Trace.ofList_fair _ ?_⟩
  · intro ⟨_, _, hwaiting, _⟩
    cases hholder.symm.trans hwaiting
  · intro ⟨_, _, hpending, _⟩
    cases htail.symm.trans hpending
  · intro ⟨hfollowing, _⟩
    cases htail.symm.trans hfollowing

theorem twoHolders_releases (p : String) : Releases twoHolders p := by
  intro k n _ ⟨c, hc, _⟩
  refine ⟨max k 10, le_max_left k 10, ?_⟩
  rw [twoHolders_last]
  exact (twoHolders_rest (twoHolders_made hc)).1

theorem fileMutex_correct_twoHolders : twoHolders.Eventually 2 fun s => s.holder 1 ≠ .waiting := by
  refine (fileMutex_correct twoHolders).2 "inventory.yaml" (twoHolders_runsJobs _) (twoHolders_releases _) 2 1
    ⟨"inventory.yaml", some 0⟩ ?_ rfl
  decide +kernel

end Homelab
