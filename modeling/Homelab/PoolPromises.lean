import Homelab.PoolCapacity

/-! The connects in flight. Nothing is awaited between the look at `inflight` and the entry made in
it, and only the call that made the entry deletes it, so a `createAndConnect` that has not settled
is always the one in flight for its platform. -/
namespace Homelab
open Js

/-- One place of a list is replaced: what stands where afterwards. -/
theorem getElem?_set_cases {α : Type} {l : List α} {i k : ℕ} {a b : α} (h : (l.set i a)[k]? = some b) :
    (k = i ∧ b = a) ∨ (k ≠ i ∧ l[k]? = some b) := by
  by_cases hk : i = k
  · subst hk
    have hlt : i < l.length := by
      have hlt := (List.getElem?_eq_some_iff.mp h).1
      rwa [List.length_set] at hlt
    rw [List.getElem?_set_self hlt] at h
    exact .inl ⟨rfl, (Option.some.inj h).symm⟩
  · rw [List.getElem?_set_ne hk] at h
    exact .inr ⟨Ne.symm hk, h⟩

theorem getElem?_snoc_cases {α : Type} {l : List α} {k : ℕ} {a b : α} (h : (l ++ [a])[k]? = some b) :
    (k = l.length ∧ b = a) ∨ l[k]? = some b := by
  rw [List.getElem?_append] at h
  by_cases hk : k < l.length
  · rw [if_pos hk] at h
    exact .inr h
  · rw [if_neg hk] at h
    have hlast := (List.getElem?_eq_some_iff.mp h).1
    rw [List.length_singleton] at hlast
    have hzero : k - l.length = 0 := by omega
    rw [hzero] at h
    exact .inl ⟨by omega, (Option.some.inj h).symm⟩

theorem getElem?_snoc_of_some {α : Type} {l : List α} {k : ℕ} {a b : α} (h : l[k]? = some b) :
    (l ++ [a])[k]? = some b := by
  rw [List.getElem?_append_left (List.getElem?_eq_some_iff.mp h).1]
  exact h

/-- A key is deleted from an association list. -/
theorem lookup_filter_ne {l : List (JsString × ℕ)} {id id' : JsString} (h : id' ≠ id) :
    (l.filter fun f => f.1 ≠ id).lookup id' = l.lookup id' := by
  induction l with
  | nil => rfl
  | cons f l ih =>
    obtain ⟨k, p⟩ := f
    by_cases hk : k = id
    · have hother : (id' == k) = false := by
        rw [hk]
        exact beq_false_of_ne h
      rw [List.filter_cons_of_neg (by simpa using hk), List.lookup_cons, hother]
      exact ih
    · rw [List.filter_cons_of_pos (by simpa using hk), List.lookup_cons, List.lookup_cons, ih]

namespace Pool

/-- What holds of the promises and of the calls that wait for them. -/
structure Promises (s : Pool) : Prop where
  /-- A creation that has not settled is in flight. -/
  listed : ∀ (p : ℕ) (cr : Creation), s.creations[p]? = some cr → cr.settled = false →
    s.inflight? cr.id = some p
  known : ∀ (id : JsString) (p : ℕ), s.inflight? id = some p →
    ∃ cr : Creation, s.creations[p]? = some cr ∧ cr.id = id
  waits : ∀ (i : ℕ) (call : GetCall) (p : ℕ), s.calls[i]? = some call → call.phase = .waiting p →
    ∃ cr : Creation, s.creations[p]? = some cr ∧ cr.id = call.id
  /-- The call that has begun a creation has not deleted the entry while it waits. -/
  owns : ∀ (i : ℕ) (call : GetCall) (p : ℕ) (cr : Creation), s.calls[i]? = some call →
    call.phase = .waiting p → s.creations[p]? = some cr → cr.owner = i → s.inflight? call.id = some p
  owner : ∀ (p : ℕ) (cr : Creation), s.creations[p]? = some cr →
    ∃ call : GetCall, s.calls[cr.owner]? = some call ∧ call.phase ≠ .evicting

variable {cfg : PoolConfig} {s s' : Pool} {id : JsString}

/-- At most one creation of a platform has not settled. -/
theorem Promises.single (h : s.Promises) {p q : ℕ} {cr cr' : Creation}
    (hp : s.creations[p]? = some cr) (hq : s.creations[q]? = some cr') (hid : cr.id = cr'.id)
    (hcr : cr.settled = false) (hcr' : cr'.settled = false) : p = q := by
  have hfirst := h.listed p cr hp hcr
  have hsecond := h.listed q cr' hq hcr'
  rw [hid, hsecond] at hfirst
  exact (Option.some.inj hfirst).symm

theorem promises_empty : empty.Promises where
  listed p cr hp := by cases hp
  known id p hp := by cases hp
  waits i call p hi := by cases hi
  owns i call p cr hi := by cases hi
  owner p cr hp := by cases hp

theorem promises_congr (h : s.Promises) (hinflight : s'.inflight = s.inflight)
    (hcreations : s'.creations = s.creations) (hcalls : s'.calls = s.calls) : s'.Promises where
  listed := by
    rw [hcreations]
    simp only [inflight?, hinflight]
    exact h.listed
  known := by
    rw [hcreations]
    simp only [inflight?, hinflight]
    exact h.known
  waits := by
    rw [hcreations, hcalls]
    exact h.waits
  owns := by
    rw [hcreations, hcalls]
    simp only [inflight?, hinflight]
    exact h.owns
  owner := by
    rw [hcreations, hcalls]
    exact h.owner

/-- A creation goes on, or settles. -/
theorem promises_setCreation (h : s.Promises) {p : ℕ} {cr : Creation}
    (hp : s.creations[p]? = some cr) (cr' : Creation) (hid : cr'.id = cr.id) (howner : cr'.owner = cr.owner)
    (hsettled : cr'.settled = false → cr.settled = false) : (s.setCreation p cr').Promises := by
  -- what the new creation `x` at `q` was before
  have hbefore (q : ℕ) (x : Creation) (hq : (s.creations.set p cr')[q]? = some x) :
      ∃ y, s.creations[q]? = some y ∧ x.id = y.id ∧ x.owner = y.owner ∧
        (x.settled = false → y.settled = false) := by
    rcases getElem?_set_cases hq with ⟨rfl, rfl⟩ | ⟨-, hq⟩
    · exact ⟨cr, hp, hid, howner, hsettled⟩
    · exact ⟨x, hq, rfl, rfl, fun hx => hx⟩
  have hafter (q : ℕ) (y : Creation) (hq : s.creations[q]? = some y) :
      ∃ x, (s.creations.set p cr')[q]? = some x ∧ x.id = y.id := by
    by_cases hpq : p = q
    · subst hpq
      obtain rfl : cr = y := Option.some.inj (hp.symm.trans hq)
      exact ⟨cr', List.getElem?_set_self (List.getElem?_eq_some_iff.mp hp).1, hid⟩
    · exact ⟨y, by rw [List.getElem?_set_ne hpq]; exact hq, rfl⟩
  constructor
  · intro q x hq hx
    obtain ⟨y, hy, hxid, -, hopen⟩ := hbefore q x hq
    rw [hxid]
    exact h.listed q y hy (hopen hx)
  · intro k q hq
    obtain ⟨y, hy, hyid⟩ := h.known k q hq
    obtain ⟨x, hx, hxid⟩ := hafter q y hy
    exact ⟨x, hx, hxid.trans hyid⟩
  · intro i call q hi hphase
    obtain ⟨y, hy, hyid⟩ := h.waits i call q hi hphase
    obtain ⟨x, hx, hxid⟩ := hafter q y hy
    exact ⟨x, hx, hxid.trans hyid⟩
  · intro i call q x hi hphase hq hx
    obtain ⟨y, hy, -, hxowner, -⟩ := hbefore q x hq
    exact h.owns i call q y hi hphase hy (hxowner.symm.trans hx)
  · intro q x hq
    obtain ⟨y, hy, -, hxowner, -⟩ := hbefore q x hq
    rw [hxowner]
    exact h.owner q y hy

/-- More becomes known of the calls. -/
theorem promises_mapCalls (h : s.Promises) {f : GetCall → GetCall}
    (hf : ∀ call, (f call).id = call.id ∧ (f call).phase = call.phase) :
    Promises { s with calls := s.calls.map f } := by
  have hbefore (i : ℕ) (call : GetCall) (hi : (s.calls.map f)[i]? = some call) :
      ∃ call', s.calls[i]? = some call' ∧ call.id = call'.id ∧ call.phase = call'.phase := by
    rw [List.getElem?_map, Option.map_eq_some_iff] at hi
    obtain ⟨call', hcall', rfl⟩ := hi
    exact ⟨call', hcall', hf call'⟩
  constructor
  · exact h.listed
  · exact h.known
  · intro i call p hi hphase
    obtain ⟨call', hcall', hid, hsame⟩ := hbefore i call hi
    rw [hid]
    exact h.waits i call' p hcall' (hsame.symm.trans hphase)
  · intro i call p cr hi hphase hp howner
    obtain ⟨call', hcall', hid, hsame⟩ := hbefore i call hi
    rw [hid]
    exact h.owns i call' p cr hcall' (hsame.symm.trans hphase) hp howner
  · intro p cr hp
    obtain ⟨call, hcall, hphase⟩ := h.owner p cr hp
    refine ⟨f call, ?_, ?_⟩
    · change (s.calls.map f)[cr.owner]? = _
      rw [List.getElem?_map, hcall]
      rfl
    · rw [(hf call).2]
      exact hphase

/-- A call that does not wait for a promise comes in. -/
theorem promises_snocCall (h : s.Promises) (call : GetCall) (hphase : ∀ p, call.phase ≠ .waiting p) :
    Promises { s with calls := s.calls ++ [call] } := by
  constructor
  · exact h.listed
  · exact h.known
  · intro i call' p hi hwaits
    rcases getElem?_snoc_cases hi with ⟨-, rfl⟩ | hi
    · exact absurd hwaits (hphase p)
    · exact h.waits i call' p hi hwaits
  · intro i call' p cr hi hwaits
    rcases getElem?_snoc_cases hi with ⟨-, rfl⟩ | hi
    · exact absurd hwaits (hphase p)
    · exact h.owns i call' p cr hi hwaits
  · intro p cr hp
    obtain ⟨call', hcall', hnot⟩ := h.owner p cr hp
    exact ⟨call', getElem?_snoc_of_some hcall', hnot⟩

/-- The connection of a creation is made: the creation is not settled by that. -/
theorem promises_connect (h : s.Promises) (p : ℕ) : (s.connect p).Promises := by
  rw [connect]
  split
  · next id owner hp =>
    have hset := promises_setCreation h hp ⟨id, owner, .connecting s.conns.length⟩ rfl rfl fun _ => rfl
    have hmapped := promises_mapCalls (f := fun call => if call.id = id && s.isOpen call then
      { call with overlapped := s.conns.length :: call.overlapped } else call) hset (by
        intro call
        split_ifs <;> exact ⟨rfl, rfl⟩)
    exact promises_congr hmapped rfl rfl rfl
  · exact h

/-- The call that evicted waits for a promise, which is in flight. -/
theorem promises_join (h : s.Promises) {i p : ℕ} {l : List ℕ}
    (hi : s.calls[i]? = some ⟨id, .evicting, l⟩) (hp : s.inflight? id = some p) :
    Promises { s with calls := s.calls.set i ⟨id, .waiting p, l⟩ } := by
  constructor
  · exact h.listed
  · exact h.known
  · intro k call q hk hphase
    rcases getElem?_set_cases hk with ⟨rfl, rfl⟩ | ⟨-, hk⟩
    · cases hphase
      exact h.known id p hp
    · exact h.waits k call q hk hphase
  · intro k call q cr hk hphase hq howner
    rcases getElem?_set_cases hk with ⟨rfl, rfl⟩ | ⟨-, hk⟩
    · cases hphase
      exact hp
    · exact h.owns k call q cr hk hphase hq howner
  · intro q cr hq
    obtain ⟨call, hcall, hphase⟩ := h.owner q cr hq
    by_cases hown : i = cr.owner
    · refine ⟨⟨id, .waiting p, l⟩, ?_, by intro hevicting; cases hevicting⟩
      rw [← hown]
      exact List.getElem?_set_self (List.getElem?_eq_some_iff.mp hi).1
    · refine ⟨call, ?_, hphase⟩
      change (s.calls.set i _)[cr.owner]? = _
      rw [List.getElem?_set_ne hown]
      exact hcall

theorem inflight?_snoc {inflight : List (JsString × ℕ)} {p : ℕ} (hfree : inflight.lookup id = none)
    (k : JsString) :
    (inflight ++ [(id, p)]).lookup k = if k = id then some p else inflight.lookup k := by
  rw [List.lookup_append]
  by_cases hk : k = id
  · rw [if_pos hk, hk, hfree, Option.none_or, List.lookup_cons_self]
  · have hother : (k == id) = false := beq_false_of_ne hk
    rw [if_neg hk, List.lookup_cons, hother]
    exact Option.or_none

/-- A creation begins, when none of its platform is in flight. -/
theorem promises_begin (h : s.Promises) {i : ℕ} {l : List ℕ}
    (hi : s.calls[i]? = some ⟨id, .evicting, l⟩) (hfree : s.inflight? id = none) :
    Promises { s with
      creations := s.creations ++ [⟨id, i, .evicting⟩]
      inflight := s.inflight ++ [(id, s.creations.length)]
      calls := s.calls.set i ⟨id, .waiting s.creations.length, l⟩ } := by
  have hlookup := inflight?_snoc (p := s.creations.length) hfree
  -- what was in flight still is, as nothing of this platform was
  have hkept (k : JsString) (p : ℕ) (hp : s.inflight? k = some p) :
      (s.inflight ++ [(id, s.creations.length)]).lookup k = some p := by
    rw [hlookup]
    by_cases hk : k = id
    · rw [hk, hfree] at hp
      cases hp
    · rw [if_neg hk]
      exact hp
  constructor
  · intro p cr hp hcr
    rcases getElem?_snoc_cases hp with ⟨rfl, rfl⟩ | hp
    · change (s.inflight ++ [(id, s.creations.length)]).lookup id = _
      rw [hlookup, if_pos rfl]
    · exact hkept cr.id p (h.listed p cr hp hcr)
  · intro k p hk
    change (s.inflight ++ [(id, s.creations.length)]).lookup k = some p at hk
    rw [hlookup] at hk
    split_ifs at hk with hid
    · obtain rfl : s.creations.length = p := Option.some.inj hk
      exact ⟨⟨id, i, .evicting⟩, List.getElem?_concat_length .., hid.symm⟩
    · obtain ⟨cr, hcr, hcrid⟩ := h.known k p hk
      exact ⟨cr, getElem?_snoc_of_some hcr, hcrid⟩
  · intro k call p hk hphase
    rcases getElem?_set_cases hk with ⟨rfl, rfl⟩ | ⟨-, hk⟩
    · cases hphase
      exact ⟨⟨id, k, .evicting⟩, List.getElem?_concat_length .., rfl⟩
    · obtain ⟨cr, hcr, hcrid⟩ := h.waits k call p hk hphase
      exact ⟨cr, getElem?_snoc_of_some hcr, hcrid⟩
  · intro k call p cr hk hphase hp howner
    rcases getElem?_set_cases hk with ⟨rfl, rfl⟩ | ⟨hne, hk⟩
    · cases hphase
      change (s.inflight ++ [(id, s.creations.length)]).lookup id = _
      rw [hlookup, if_pos rfl]
    · rcases getElem?_snoc_cases hp with ⟨-, rfl⟩ | hp
      · exact absurd howner.symm hne
      · exact hkept call.id p (h.owns k call p cr hk hphase hp howner)
  · intro p cr hp
    rcases getElem?_snoc_cases hp with ⟨-, rfl⟩ | hp
    · refine ⟨⟨id, .waiting s.creations.length, l⟩, ?_, by intro hevicting; cases hevicting⟩
      exact List.getElem?_set_self (List.getElem?_eq_some_iff.mp hi).1
    · obtain ⟨call, hcall, hphase⟩ := h.owner p cr hp
      have hown : i ≠ cr.owner := by
        rintro rfl
        obtain rfl : ⟨id, .evicting, l⟩ = call := Option.some.inj (hi.symm.trans hcall)
        exact hphase rfl
      refine ⟨call, ?_, hphase⟩
      change (s.calls.set i _)[cr.owner]? = _
      rw [List.getElem?_set_ne hown]
      exact hcall

theorem promises_remove (h : s.Promises) (e : PoolEntry) (reason : DisconnectReason) (audits : Bool)
    (next : After) : (s.remove e reason audits next).Promises :=
  promises_congr h rfl rfl rfl

theorem promises_joinOrCreate (h : s.Promises) (i : ℕ) : (s.joinOrCreate cfg i).Promises := by
  rw [joinOrCreate]
  split
  · next id l hi =>
    cases hinflight : s.inflight? id with
    | some p => exact promises_join h hi hinflight
    | none =>
      have hbegun := promises_begin h hi hinflight
      dsimp only
      rw [create]
      split_ifs
      · split
        · exact promises_remove hbegun _ _ _ _
        · exact promises_connect hbegun _
      · exact promises_connect hbegun _
  · exact h

theorem promises_reap (h : s.Promises) (ids : List JsString) : (s.reap cfg ids).Promises := by
  induction ids with
  | nil => exact h
  | cons id ids ih =>
    rw [reap]
    cases s.pooled? id with
    | none => exact ih
    | some e =>
      dsimp only
      split_ifs
      · exact promises_remove h _ _ _ _
      · exact ih

theorem promises_closeAll (h : s.Promises) (ids : List JsString) : (s.closeAll ids).Promises := by
  induction ids with
  | nil => exact h
  | cons id ids ih =>
    rw [closeAll]
    cases s.pooled? id with
    | none => exact ih
    | some e => exact promises_remove h _ _ _ _

theorem promises_getConnection (h : s.Promises) : (s.getConnection cfg id).Promises := by
  have hcalled (phase : CallPhase) (hphase : ∀ p, phase ≠ .waiting p) :=
    promises_snocCall h ⟨id, phase, s.connecting id⟩ hphase
  have hevicting := hcalled .evicting (by intro p hp; cases hp)
  rw [getConnection]
  cases s.pooled? id with
  | none => exact promises_joinOrCreate hevicting _
  | some e =>
    dsimp only
    split_ifs
    · exact promises_remove hevicting _ _ _ _
    · exact promises_congr (hcalled (.returned e.conn) (by intro p hp; cases hp)) rfl rfl rfl

/-- A call goes on when its promise has settled. Only the call that owns the entry deletes it, and
no other creation of the platform is in flight then. -/
theorem promises_callSettles (h : s.Promises) (i : ℕ) : (s.callSettles i).Promises := by
  rw [callSettles]
  split
  case h_2 => exact h
  next id p l hi =>
  split
  case h_1 => exact h
  next cr hp =>
  -- the call is settled from now on, and its entry is gone if it was its own
  have hsettles (phase : CallPhase) (hphase : ∀ q, phase ≠ .waiting q) (hnot : phase ≠ .evicting)
      (hcr : cr.settled = true) :
      Promises { s with
        inflight := if cr.owner = i then s.inflight.filter fun f => f.1 ≠ id else s.inflight
        calls := s.calls.set i ⟨id, phase, l⟩ } := by
    have hmine (hown : cr.owner = i) : s.inflight? id = some p := h.owns i _ p cr hi rfl hp hown
    have hkept (k : JsString) (q : ℕ) (hq : s.inflight? k = some q) (hne : q ≠ p) :
        (if cr.owner = i then s.inflight.filter fun f => f.1 ≠ id else s.inflight).lookup k = some q := by
      split_ifs with hown
      · have hother : k ≠ id := by
          rintro rfl
          exact hne (Option.some.inj (hq.symm.trans (hmine hown)))
        rw [lookup_filter_ne hother]
        exact hq
      · exact hq
    constructor
    · intro q x hq hx
      apply hkept x.id q (h.listed q x hq hx)
      rintro rfl
      obtain rfl : cr = x := Option.some.inj (hp.symm.trans hq)
      rw [hcr] at hx
      cases hx
    · intro k q hq
      apply h.known k q
      change (if cr.owner = i then s.inflight.filter fun f => f.1 ≠ id else s.inflight).lookup k =
        some q at hq
      split_ifs at hq with hown
      · by_cases hk : k = id
        · rw [hk, List.lookup_eq_some_iff] at hq
          obtain ⟨l₁, l₂, hl, -⟩ := hq
          have hmem : (id, q) ∈ s.inflight.filter fun f => f.1 ≠ id := by
            rw [hl]
            exact List.mem_append_right _ (List.mem_cons_self ..)
          simp at hmem
        · rw [lookup_filter_ne hk] at hq
          exact hq
      · exact hq
    · intro k call q hk hwaits
      rcases getElem?_set_cases hk with ⟨-, rfl⟩ | ⟨-, hk⟩
      · exact absurd hwaits (hphase q)
      · exact h.waits k call q hk hwaits
    · intro k call q x hk hwaits hq hown
      rcases getElem?_set_cases hk with ⟨-, rfl⟩ | ⟨hne, hk⟩
      · exact absurd hwaits (hphase q)
      · have hlisted := h.owns k call q x hk hwaits hq hown
        by_cases hqp : q = p
        · subst hqp
          obtain rfl : cr = x := Option.some.inj (hp.symm.trans hq)
          change (if cr.owner = i then _ else _ : List (JsString × ℕ)).lookup call.id = _
          rw [if_neg (by rw [hown]; exact hne)]
          exact hlisted
        · exact hkept call.id q hlisted hqp
    · intro q x hq
      obtain ⟨call, hcall, hevicting⟩ := h.owner q x hq
      by_cases hown : i = x.owner
      · refine ⟨⟨id, phase, l⟩, ?_, hnot⟩
        rw [← hown]
        exact List.getElem?_set_self (List.getElem?_eq_some_iff.mp hi).1
      · refine ⟨call, ?_, hevicting⟩
        change (s.calls.set i _)[x.owner]? = _
        rw [List.getElem?_set_ne hown]
        exact hcall
  dsimp only
  split
  · next c hphase =>
    have hreturned := hsettles (.returned c) (by intro q hq; cases hq) (by intro hq; cases hq)
      (by rw [Creation.settled, hphase])
    split_ifs at hreturned ⊢ <;> exact hreturned
  · next hphase =>
    have hrejected := hsettles .rejected (by intro q hq; cases hq) (by intro hq; cases hq)
      (by rw [Creation.settled, hphase])
    split_ifs at hrejected ⊢ <;> exact hrejected
  · exact h

theorem promises_audit (h : s.Promises) (event : PoolAudit) (ok : Bool) : (s.audit event ok).Promises := by
  rw [audit]
  split_ifs
  · exact promises_congr h rfl rfl rfl
  · exact h

theorem insert_frame (id : JsString) (c : ℕ) : (s.insert id c).inflight = s.inflight ∧
    (s.insert id c).creations = s.creations ∧ (s.insert id c).calls = s.calls ∧
    (s.insert id c).conns = s.conns ∧ (s.insert id c).removals = s.removals := by
  rw [insert]
  split <;> exact ⟨rfl, rfl, rfl, rfl, rfl⟩

theorem audit_frame (event : PoolAudit) (ok : Bool) : (s.audit event ok).inflight = s.inflight ∧
    (s.audit event ok).creations = s.creations ∧ (s.audit event ok).calls = s.calls ∧
    (s.audit event ok).conns = s.conns ∧ (s.audit event ok).removals = s.removals ∧
    (s.audit event ok).entries = s.entries := by
  rw [audit]
  split_ifs <;> exact ⟨rfl, rfl, rfl, rfl, rfl, rfl⟩

theorem promises_connectSettles (h : s.Promises) (p : ℕ) (outcome : ConnectOutcome) :
    (s.connectSettles cfg p outcome).Promises := by
  rw [connectSettles]
  split
  case h_2 => exact h
  next id owner c hp =>
  cases outcome with
  | connected =>
    obtain ⟨hinflight, hcreations, hcalls, -, -⟩ := insert_frame (s := s.setStatus c .connected) id c
    apply promises_setCreation (promises_congr h hinflight hcreations hcalls)
    · rw [hcreations]
      exact hp
    · rfl
    · rfl
    · exact fun _ => rfl
  | refused =>
    have hfailed : (s.setStatus c .failed).Promises := promises_congr h rfl rfl rfl
    exact promises_setCreation hfailed hp _ rfl rfl fun _ => rfl
  | factoryThrew =>
    have hfailed : (s.setStatus c .failed).Promises := promises_congr h rfl rfl rfl
    exact promises_setCreation hfailed hp _ rfl rfl fun _ => rfl

theorem promises_creationAppendSettles (h : s.Promises) (p : ℕ) (ok : Bool) :
    (s.creationAppendSettles p ok).Promises := by
  have hset (cr cr' : Creation) (event : PoolAudit) (hp : s.creations[p]? = some cr) (hid : cr'.id = cr.id)
      (howner : cr'.owner = cr.owner) (hopen : cr.settled = false) :
      ((s.audit event ok).setCreation p cr').Promises := by
    rw [← (audit_frame event ok).2.1] at hp
    exact promises_setCreation (promises_audit h event ok) hp cr' hid howner fun _ => hopen
  rw [creationAppendSettles]
  split
  · next hp => exact hset _ _ _ hp rfl rfl rfl
  · next hp => exact hset _ _ _ hp rfl rfl rfl
  · exact h

theorem promises_goesOn (h : s.Promises) (j : ℕ) : (s.goesOn cfg j).Promises := by
  rw [goesOn]
  split
  · next next hj =>
    have hended : (s.setRemoval j .ended).Promises := promises_congr h rfl rfl rfl
    cases next with
    | get i => exact promises_joinOrCreate hended i
    | create p => exact promises_connect hended p
    | reap ids => exact promises_reap hended ids
    | close ids => exact promises_closeAll hended ids
  · exact h

theorem promises_next (h : s.Promises) (event : PoolEvent) : (s.next cfg event).Promises := by
  cases event with
  | tick ms => exact promises_congr h rfl rfl rfl
  | getConnection id => exact promises_getConnection h
  | release id => exact promises_congr h rfl rfl rfl
  | reapIdle => exact promises_reap h _
  | closeAll => exact promises_closeAll h _
  | disconnectSettles j ok =>
    change (s.disconnectSettles j ok).Promises
    rw [disconnectSettles]
    split
    · cases ok <;> exact promises_congr h rfl rfl rfl
    · exact h
  | closedAppendSettles j ok =>
    change (s.closedAppendSettles j ok).Promises
    rw [closedAppendSettles]
    split
    · exact promises_congr (promises_audit h _ ok) rfl rfl rfl
    · exact h
  | goesOn j => exact promises_goesOn h j
  | connectSettles p outcome => exact promises_connectSettles h p outcome
  | creationAppendSettles p ok => exact promises_creationAppendSettles h p ok
  | callSettles i => exact promises_callSettles h i
  | execStart c =>
    change (s.execStart c).Promises
    rw [execStart]
    split_ifs
    · exact promises_congr h rfl rfl rfl
    · exact h
  | execEnd c => exact promises_congr h rfl rfl rfl

end Pool

end Homelab
