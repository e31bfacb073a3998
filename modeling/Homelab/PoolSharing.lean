import Homelab.PoolHousing

/-! One connection for each platform, and the same for all that wait for it. `getConnection` looks at
the map before it awaits an eviction and not again after it, so it can connect to a platform that
has a connected connection; while no connect begins like this, nothing is shared wrongly or lost. -/
namespace Homelab
open Js

namespace Pool

/-- The connect of the connection has failed. -/
def failed (s : Pool) (c : ℕ) : Bool := (s.conns[c]?).any fun conn => conn.status = .failed

def isConnected (s : Pool) (id : JsString) : Bool :=
  s.conns.any fun conn => conn.id = id && conn.status = .connected

/-- A `createAndConnect` that begins need not evict, or finds nothing to evict. -/
def hasPlace (cfg : PoolConfig) (s : Pool) : Bool :=
  s.entries.length < cfg.maxConnections || s.entries.isEmpty

/-- The platform to which the event begins to connect. -/
def connects (cfg : PoolConfig) (s : Pool) : PoolEvent → Option JsString
  | .getConnection id =>
    if (s.pooled? id).isNone && (s.inflight? id).isNone && s.hasPlace cfg then some id else none
  | .goesOn j =>
    match s.removals[j]? with
    | some (.resuming (.get i)) =>
      match s.calls[i]? with
      | some ⟨id, .evicting, _⟩ =>
        if (s.inflight? id).isNone && s.hasPlace cfg then some id else none
      | _ => none
    | some (.resuming (.create p)) =>
      match s.creations[p]? with
      | some ⟨id, _, .evicting⟩ => some id
      | _ => none
    | _ => none
  | _ => none

/-- The connection of the connect in flight. -/
def inflightConn? (s : Pool) (id : JsString) : Option ℕ :=
  (s.inflight? id).bind fun p => (s.creations[p]?).bind Creation.conn?

/-- A `getConnection` that goes on after its eviction has overlapped no connect that has succeeded,
other than the one in flight. -/
def rejoins (s : Pool) : PoolEvent → Bool
  | .goesOn j =>
    match s.removals[j]? with
    | some (.resuming (.get i)) =>
      match s.calls[i]? with
      | some ⟨id, .evicting, overlapped⟩ =>
        overlapped.all fun c => s.failed c || s.inflightConn? id = some c
      | _ => true
    | _ => true
  | _ => true

def Creation.opened (cr : Creation) : Bool :=
  match cr.phase with
  | .appendingOpened _ => true
  | _ => false

/-- No disconnect fails, and no append of `connection_opened`. -/
def succeeds (s : Pool) : PoolEvent → Bool
  | .disconnectSettles _ ok => ok
  | .creationAppendSettles p ok => ok || !(s.creations[p]?).any Creation.opened
  | _ => true

/-- A connect begins only when no connection of its platform is connected, a call that has evicted
goes on with the connect that it has overlapped, and nothing that the pool relies on fails. -/
def Orderly (cfg : PoolConfig) (s : Pool) (e : PoolEvent) : Prop :=
  ((s.connects cfg e).all fun id => !s.isConnected id) = true ∧ s.rejoins e = true ∧ s.succeeds e = true

instance (cfg : PoolConfig) (s : Pool) (e : PoolEvent) : Decidable (Orderly cfg s e) :=
  inferInstanceAs (Decidable (_ ∧ _))

/-- Each platform has at most one connected connection. -/
def OneEach (s : Pool) : Prop :=
  ∀ (c c' : ℕ) (conn conn' : PooledConn), s.conns[c]? = some conn → s.conns[c']? = some conn' →
    conn.status = .connected → conn'.status = .connected → conn.id = conn'.id → c = c'

/-- A call that has ended has returned the connection of each connect that it has overlapped, unless
that connect has failed. -/
def Shared (s : Pool) : Prop :=
  ∀ call ∈ s.calls, call.settled = true → ∀ c ∈ call.overlapped,
    s.failed c = true ∨ call.phase = .returned c

/-- Each connected connection is in the map. -/
def NoneLeaked (s : Pool) : Prop :=
  ∀ (c : ℕ) (conn : PooledConn), s.conns[c]? = some conn → conn.status = .connected →
    ∃ e ∈ s.entries, e.conn = c

/-- The connection that a call has got, or is to get as far as is known. -/
def result? (s : Pool) (call : GetCall) : Option ℕ :=
  match call.phase with
  | .waiting p => (s.creations[p]?).bind Creation.conn?
  | .returned c => some c
  | _ => none

/-- The call gets what it has overlapped. -/
def Suits (s : Pool) (call : GetCall) : Prop :=
  call.phase ≠ .evicting → ∀ c ∈ call.overlapped, s.failed c = true ∨ s.result? call = some c

structure Tidy (s : Pool) : Prop where
  promises : s.Promises
  housed : s.Housed
  suits : ∀ call ∈ s.calls, s.Suits call

variable {cfg : PoolConfig} {s s' : Pool} {id : JsString}

theorem failed_iff {c : ℕ} : s.failed c = true ↔ ∃ x, s.standing c = some (x, .failed) := by
  rw [failed, standing]
  cases s.conns[c]? with
  | none => simp
  | some conn => simp [Prod.ext_iff]

theorem vacant_of_not_isConnected (h : s.isConnected id = false) : s.Vacant id := by
  intro c hc
  rw [standing, Option.map_eq_some_iff] at hc
  obtain ⟨conn, hconn, hstands⟩ := hc
  rw [Prod.mk.injEq] at hstands
  have hnone := List.any_eq_false.mp h conn (List.mem_of_getElem? hconn)
  rw [decide_eq_true hstands.1, decide_eq_true hstands.2] at hnone
  exact hnone rfl

theorem mem_connecting {c : ℕ} (h : c ∈ s.connecting id) : s.standing c = some (id, .connecting) := by
  rw [connecting, List.mem_filter] at h
  obtain ⟨-, hc⟩ := h
  rw [standing]
  cases hconn : s.conns[c]? with
  | none =>
    rw [hconn] at hc
    cases hc
  | some conn =>
    rw [hconn] at hc
    simpa using hc

/-- A connection that is connecting is that of the connect in flight. -/
theorem Tidy.inflightConn? (h : s.Tidy) {c : ℕ} (hc : c ∈ s.connecting id) :
    s.inflightConn? id = some c := by
  obtain ⟨p, owner, hp⟩ := h.housed.made id c (mem_connecting hc)
  have hlisted := h.promises.listed p _ hp rfl
  rw [Pool.inflightConn?, hlisted, Option.bind_some, hp]
  rfl

theorem suits_congr {call : GetCall} (h : s.Suits call)
    (hfailed : ∀ c, s.failed c = true → s'.failed c = true)
    (hresult : ∀ c, s.result? call = some c → s'.failed c = true ∨ s'.result? call = some c) :
    s'.Suits call := by
  intro hphase c hc
  rcases h hphase c hc with hfail | hgets
  · exact .inl (hfailed c hfail)
  · exact hresult c hgets

/-- Nothing changes that the calls or the connections depend on. -/
theorem tidy_congr (h : s.Tidy) (hinflight : s'.inflight = s.inflight)
    (hcreations : s'.creations = s.creations)
    (hcalls : s'.calls = s.calls) (hstanding : ∀ c, s'.standing c = s.standing c)
    (hplaced : s'.placed = s.placed) (hparting : s'.parting = s.parting) : s'.Tidy where
  promises := promises_congr h.promises hinflight hcreations hcalls
  housed := housed_congr h.housed hstanding hcreations hplaced hparting
  suits call hcall := by
    rw [hcalls] at hcall
    apply suits_congr (h.suits call hcall)
    · intro c hc
      rw [failed_iff, hstanding, ← failed_iff]
      exact hc
    · intro c hc
      rw [result?, hcreations]
      exact .inr hc

theorem tidy_empty : empty.Tidy where
  promises := promises_empty
  housed := housed_empty
  suits call hcall := by cases hcall

/-! ### What the events do -/

theorem tidy_remove (h : s.Tidy) {e : PoolEntry} (he : e ∈ s.entries) (reason : DisconnectReason)
    (audits : Bool) (next : After) : (s.remove e reason audits next).Tidy where
  promises := promises_remove h.promises e reason audits next
  housed := housed_remove h.housed he reason audits next
  suits := h.suits

/-- A connect begins: the calls that wait for it, and no others, get its connection. -/
theorem tidy_connect (h : s.Tidy) (p : ℕ)
    (hvacant : ∀ (id : JsString) (owner : ℕ), s.creations[p]? = some ⟨id, owner, .evicting⟩ → s.Vacant id) :
    (s.connect p).Tidy where
  promises := promises_connect h.promises p
  housed := housed_connect h.promises h.housed p hvacant
  suits := by
    -- without a creation at this point nothing happens
    by_cases hcr : ∃ (id : JsString) (owner : ℕ), s.creations[p]? = some ⟨id, owner, .evicting⟩
    swap
    · have hsame : s.connect p = s := by
        rw [connect]
        split
        · next id owner hcr' => exact absurd ⟨id, owner, hcr'⟩ hcr
        · rfl
      rw [hsame]
      exact h.suits
    obtain ⟨id, owner, hcr⟩ := hcr
    have hcreations := connect_creations hcr
    have hcalls : (s.connect p).calls = s.calls.map fun call => if call.id = id && s.isOpen call then
        { call with overlapped := s.conns.length :: call.overlapped } else call := by
      rw [connect, hcr]
    have hfailed (c : ℕ) (hc : s.failed c = true) : (s.connect p).failed c = true := by
      rw [failed_iff] at hc ⊢
      obtain ⟨x, hx⟩ := hc
      rw [standing_connect hcr, if_neg (standing_lt hx).ne]
      exact ⟨x, hx⟩
    have hmade : (s.connect p).creations[p]? = some ⟨id, owner, .connecting s.conns.length⟩ := by
      rw [hcreations]
      exact List.getElem?_set_self (List.getElem?_eq_some_iff.mp hcr).1
    rw [hcalls]
    intro called hcalled
    obtain ⟨call, hcall, rfl⟩ := List.mem_map.mp hcalled
    obtain ⟨i, hi⟩ := List.getElem?_of_mem hcall
    have hsuits := h.suits call hcall
    split_ifs with hopen
    -- an open call of the id waits for this creation, the only one of the id that is not settled
    · rw [Bool.and_eq_true, decide_eq_true_eq] at hopen
      obtain ⟨hid, hopen⟩ := hopen
      intro hphase c hc
      have hwaits : call.phase = .waiting p := by
        rw [isOpen] at hopen
        cases hcase : call.phase with
        | evicting => exact absurd hcase hphase
        | waiting q =>
          rw [hcase] at hopen
          obtain ⟨cr, hq, hcrid⟩ := h.promises.waits i call q hi hcase
          dsimp only at hopen
          rw [hq] at hopen
          have hunsettled : cr.settled = false := by simpa using hopen
          rw [h.promises.single hcr hq (hid.symm.trans hcrid.symm) rfl hunsettled]
        | returned c' =>
          rw [hcase] at hopen
          cases hopen
        | rejected =>
          rw [hcase] at hopen
          cases hopen
      rcases List.mem_cons.mp hc with rfl | hc
      · refine .inr ?_
        rw [result?]
        dsimp only
        rw [hwaits]
        dsimp only
        rw [hmade]
        rfl
      · rcases hsuits hphase c hc with hfail | hgets
        · exact .inl (hfailed c hfail)
        · rw [result?, hwaits] at hgets
          dsimp only at hgets
          rw [hcr] at hgets
          cases hgets
    · apply suits_congr hsuits hfailed
      intro c hc
      refine .inr ?_
      rw [result?] at hc ⊢
      cases hcase : call.phase with
      | waiting q =>
        rw [hcase] at hc
        dsimp only at hc ⊢
        have hne : p ≠ q := by
          rintro rfl
          rw [hcr] at hc
          cases hc
        rw [hcreations, List.getElem?_set_ne hne]
        exact hc
      | returned c' =>
        rw [hcase] at hc
        exact hc
      | evicting =>
        rw [hcase] at hc
        cases hc
      | rejected =>
        rw [hcase] at hc
        cases hc

/-- What the calls wait for is still there when a creation has come in. -/
theorem result?_snoc (hp : s.Promises) {call : GetCall} (hcall : call ∈ s.calls) {cr : Creation} {c : ℕ}
    (hc : s.result? call = some c) (hcreations : s'.creations = s.creations ++ [cr]) :
    s'.result? call = some c := by
  obtain ⟨i, hi⟩ := List.getElem?_of_mem hcall
  rw [result?] at hc ⊢
  cases hcase : call.phase with
  | waiting q =>
    rw [hcase] at hc
    dsimp only at hc ⊢
    obtain ⟨x, hx, -⟩ := hp.waits i call q hi hcase
    rw [hcreations, getElem?_snoc_of_some hx, ← hx]
    exact hc
  | returned c' =>
    rw [hcase] at hc
    exact hc
  | evicting =>
    rw [hcase] at hc
    cases hc
  | rejected =>
    rw [hcase] at hc
    cases hc

/-- A creation begins, for a call that has overlapped no connect but failed ones. -/
theorem tidy_begin (h : s.Tidy) {i : ℕ} {l : List ℕ} (hi : s.calls[i]? = some ⟨id, .evicting, l⟩)
    (hfree : s.inflight? id = none) (hl : ∀ c ∈ l, s.failed c = true) :
    Tidy { s with
      creations := s.creations ++ [⟨id, i, .evicting⟩]
      inflight := s.inflight ++ [(id, s.creations.length)]
      calls := s.calls.set i ⟨id, .waiting s.creations.length, l⟩ } where
  promises := promises_begin h.promises hi hfree
  housed := housed_begin h.housed rfl (fun _ => rfl) rfl rfl
  suits := by
    apply Automaton.forall_set
    · intro call hcall
      apply suits_congr (h.suits call hcall)
      · exact fun _ hc => hc
      · intro c hc
        exact .inr (result?_snoc h.promises hcall hc rfl)
    · intro _ c hc
      exact .inl (hl c hc)

theorem tidy_joinOrCreate (h : s.Tidy) {i : ℕ}
    (hl : ∀ (id : JsString) (l : List ℕ), s.calls[i]? = some ⟨id, .evicting, l⟩ → ∀ c ∈ l,
      s.failed c = true ∨ s.inflightConn? id = some c)
    (hvacant : ∀ (id : JsString) (l : List ℕ), s.calls[i]? = some ⟨id, .evicting, l⟩ →
      s.inflight? id = none → s.hasPlace cfg = true → s.Vacant id) : (s.joinOrCreate cfg i).Tidy := by
  rw [joinOrCreate]
  split
  case h_2 => exact h
  next id l hi =>
  have hoverlapped := hl id l hi
  cases hinflight : s.inflight? id with
  | some p =>
    constructor
    · exact promises_join h.promises hi hinflight
    · exact housed_congr h.housed (fun _ => rfl) rfl rfl rfl
    · apply Automaton.forall_set h.suits
      intro _ c hc
      rcases hoverlapped c hc with hfail | hgets
      · exact .inl hfail
      · rw [inflightConn?, hinflight] at hgets
        exact .inr hgets
  | none =>
    have hfailed : ∀ c ∈ l, s.failed c = true := by
      intro c hc
      rcases hoverlapped c hc with hfail | hgets
      · exact hfail
      · rw [inflightConn?, hinflight] at hgets
        cases hgets
    have hbegun := tidy_begin h hi hinflight hfailed
    have hlast : (s.creations ++ [(⟨id, i, .evicting⟩ : Creation)])[s.creations.length]? =
        some ⟨id, i, .evicting⟩ := List.getElem?_concat_length ..
    -- the new creation connects at once when there is a place
    have hconnect (hplace : s.hasPlace cfg = true) : (Pool.connect { s with
        creations := s.creations ++ [⟨id, i, .evicting⟩]
        inflight := s.inflight ++ [(id, s.creations.length)]
        calls := s.calls.set i ⟨id, .waiting s.creations.length, l⟩ } s.creations.length).Tidy := by
      apply tidy_connect hbegun
      intro id' owner hcr
      obtain rfl : id = id' := congrArg Creation.id (Option.some.inj (hlast.symm.trans hcr))
      exact hvacant id l hi hinflight hplace
    dsimp only
    rw [create]
    split_ifs with hfull
    · cases holdest : oldest s.entries with
      | some e => exact tidy_remove hbegun (oldest_mem holdest) _ _ _
      | none =>
        apply hconnect
        rw [hasPlace, oldest_none holdest]
        exact Bool.or_true _
    · apply hconnect
      have hroom : s.entries.length < cfg.maxConnections := Nat.lt_of_not_le hfull
      rw [hasPlace, decide_eq_true hroom]
      rfl

theorem tidy_reap (h : s.Tidy) (ids : List JsString) : (s.reap cfg ids).Tidy := by
  induction ids with
  | nil => exact h
  | cons k ids ih =>
    rw [reap]
    cases hentry : s.pooled? k with
    | none => exact ih
    | some e =>
      dsimp only
      split_ifs
      · exact tidy_remove h (pooled?_mem hentry).1 _ _ _
      · exact ih

theorem tidy_closeAll (h : s.Tidy) (ids : List JsString) : (s.closeAll ids).Tidy := by
  induction ids with
  | nil => exact h
  | cons k ids ih =>
    rw [closeAll]
    cases hentry : s.pooled? k with
    | none => exact ih
    | some e => exact tidy_remove h (pooled?_mem hentry).1 _ _ _

theorem tidy_snocCall (h : s.Tidy) {call : GetCall} (hphase : ∀ p, call.phase ≠ .waiting p)
    (hsuits : s.Suits call) : Tidy { s with calls := s.calls ++ [call] } where
  promises := promises_snocCall h.promises _ hphase
  housed := housed_congr h.housed (fun _ => rfl) rfl rfl rfl
  suits := Automaton.forall_snoc h.suits hsuits

theorem placed_stamp : (s.stamp id).placed = s.placed := by
  change (s.entries.map _).map _ = s.entries.map _
  rw [List.map_map]
  apply List.map_congr_left
  intro e _
  dsimp only [Function.comp_apply]
  split_ifs <;> rfl

theorem tidy_getConnection (h : s.Tidy) (ho : Orderly cfg s (.getConnection id)) :
    (s.getConnection cfg id).Tidy := by
  have hevicting : Tidy { s with calls := s.calls ++ [⟨id, .evicting, s.connecting id⟩] } := by
    apply tidy_snocCall h
    · intro p hp
      cases hp
    · intro hnot
      exact absurd rfl hnot
  rw [getConnection]
  cases hentry : s.pooled? id with
  | none =>
    have hlast : (s.calls ++ [(⟨id, .evicting, s.connecting id⟩ : GetCall)])[s.calls.length]? =
        some ⟨id, .evicting, s.connecting id⟩ := List.getElem?_concat_length ..
    apply tidy_joinOrCreate hevicting
    · intro id' l hi c hc
      cases hlast.symm.trans hi
      exact .inr (h.inflightConn? hc)
    · intro id' l hi hinflight hplace
      cases hlast.symm.trans hi
      have hfree : s.inflight? id = none := hinflight
      have hroom : s.hasPlace cfg = true := hplace
      have hcondition := ho.1
      rw [connects, hentry, hfree, hroom] at hcondition
      have hnone : s.Vacant id := vacant_of_not_isConnected (by simpa using hcondition)
      exact hnone
  | some e =>
    obtain ⟨he, heid⟩ := pooled?_mem hentry
    dsimp only
    split_ifs
    · exact tidy_remove hevicting he _ _ _
    · have hreturned : Tidy { s with calls := s.calls ++ [⟨id, .returned e.conn, s.connecting id⟩] } := by
        apply tidy_snocCall h
        · intro p hp
          cases hp
        · intro _ c hc
          -- a platform with a pooled connection has none that is connecting
          have hin : (e.id, e.conn) ∈ s.placed := List.mem_map.mpr ⟨e, he, rfl⟩
          have hconnected := h.housed.pooled _ _ hin
          rw [heid] at hconnected
          have hsame := h.housed.alone id c e.conn _ _ (mem_connecting hc) hconnected rfl rfl
          exact .inr (congrArg some hsame.symm)
      exact tidy_congr hreturned rfl rfl rfl (fun _ => rfl) placed_stamp rfl

theorem tidy_setRemoval (h : s.Tidy) {j : ℕ} {r r' : Removal} (hj : s.removals[j]? = some r)
    (hr : r.parting? = none) (hr' : r'.parting? = none) : (s.setRemoval j r').Tidy where
  promises := promises_congr h.promises rfl rfl rfl
  housed := housed_setRemoval h.housed hj hr hr'
  suits := h.suits

theorem tidy_goesOn (h : s.Tidy) {j : ℕ} (ho : Orderly cfg s (.goesOn j)) : (s.goesOn cfg j).Tidy := by
  obtain ⟨hvacant, hrejoins, -⟩ := ho
  rw [goesOn]
  split
  case h_2 => exact h
  next next hj =>
  have hended : (s.setRemoval j .ended).Tidy := tidy_setRemoval h hj rfl rfl
  rw [connects, hj] at hvacant
  rw [rejoins, hj] at hrejoins
  cases next with
  | get i =>
    apply tidy_joinOrCreate hended
    · intro id l hi c hc
      have hcall : s.calls[i]? = some ⟨id, .evicting, l⟩ := hi
      dsimp only at hrejoins
      rw [hcall] at hrejoins
      have hgets := List.all_eq_true.mp hrejoins c hc
      rw [Bool.or_eq_true, decide_eq_true_eq] at hgets
      exact hgets
    · intro id l hi hinflight hplace
      have hcall : s.calls[i]? = some ⟨id, .evicting, l⟩ := hi
      have hfree : s.inflight? id = none := hinflight
      have hroom : s.hasPlace cfg = true := hplace
      dsimp only at hvacant
      rw [hcall] at hvacant
      dsimp only at hvacant
      rw [hfree, hroom] at hvacant
      have hnone : s.Vacant id := vacant_of_not_isConnected (by simpa using hvacant)
      exact hnone
  | create p =>
    apply tidy_connect hended
    intro id owner hcr
    have hcreation : s.creations[p]? = some ⟨id, owner, .evicting⟩ := hcr
    dsimp only at hvacant
    rw [hcreation] at hvacant
    have hnone : s.Vacant id := vacant_of_not_isConnected (by simpa using hvacant)
    exact hnone
  | reap ids => exact tidy_reap hended ids
  | close ids => exact tidy_closeAll hended ids

theorem tidy_disconnectSettles (h : s.Tidy) (j : ℕ) : (s.disconnectSettles j true).Tidy := by
  rw [disconnectSettles]
  split
  case h_2 => exact h
  next id c audits next hj =>
  have hnext : (if audits = true then Removal.appending id c next else .resuming next).parting? = none := by
    cases audits <;> rfl
  rw [if_pos rfl]
  constructor
  · exact promises_congr h.promises rfl rfl rfl
  · exact housed_disconnected h.housed hj rfl hnext
  · intro call hcall
    apply suits_congr (h.suits call hcall)
    · intro k hk
      rw [failed_iff] at hk ⊢
      obtain ⟨x, hx⟩ := hk
      have hne : c ≠ k := by
        rintro rfl
        obtain ⟨y, hy⟩ := h.housed.leaving c (List.mem_filterMap.mpr ⟨_, List.mem_of_getElem? hj, rfl⟩)
        rw [hx] at hy
        rcases hy with hy | hy <;> cases hy
      refine ⟨x, ?_⟩
      change (s.setStatus c .disconnected).standing k = _
      rw [standing_setStatus, if_neg hne]
      exact hx
    · exact fun k hk => .inr hk

theorem tidy_audit (h : s.Tidy) (event : PoolAudit) (ok : Bool) : (s.audit event ok).Tidy := by
  rw [audit]
  split_ifs
  · exact tidy_congr h rfl rfl rfl (fun _ => rfl) rfl rfl
  · exact h

theorem tidy_closedAppendSettles (h : s.Tidy) (j : ℕ) (ok : Bool) : (s.closedAppendSettles j ok).Tidy := by
  rw [closedAppendSettles]
  split
  · next id c next hj =>
    apply tidy_setRemoval (tidy_audit h _ ok)
    · rw [(audit_frame _ ok).2.2.2.2.1]
      exact hj
    · rfl
    · rfl
  · exact h

/-- The connection that the calls get from a creation that goes on. -/
theorem result?_set {p : ℕ} {cr : Creation} (hp : s.creations[p]? = some cr) (cr' : Creation)
    (hcreations : s'.creations = s.creations.set p cr')
    (hconn : ∀ c, cr.conn? = some c → s'.failed c = true ∨ cr'.conn? = some c) (call : GetCall) (c : ℕ)
    (hc : s.result? call = some c) : s'.failed c = true ∨ s'.result? call = some c := by
  rw [result?] at hc ⊢
  cases hcase : call.phase with
  | waiting q =>
    rw [hcase] at hc
    dsimp only at hc ⊢
    rw [hcreations]
    by_cases hpq : p = q
    · subst hpq
      rw [List.getElem?_set_self (List.getElem?_eq_some_iff.mp hp).1, Option.bind_some]
      rw [hp, Option.bind_some] at hc
      exact hconn c hc
    · rw [List.getElem?_set_ne hpq]
      exact .inr hc
  | returned c' =>
    rw [hcase] at hc
    exact .inr hc
  | evicting =>
    rw [hcase] at hc
    cases hc
  | rejected =>
    rw [hcase] at hc
    cases hc

theorem insert_standing (id : JsString) (c k : ℕ) : (s.insert id c).standing k = s.standing k :=
  standing_congr (insert_frame id c).2.2.2.1 k

theorem insert_parting (c : ℕ) : (s.insert id c).parting = s.parting := by
  rw [parting, parting, (insert_frame id c).2.2.2.2]

/-- A connection comes into a map that has none of its platform. -/
theorem insert_placed {c : ℕ} (h : ∀ k, (id, k) ∉ s.placed) :
    (s.insert id c).placed = s.placed ++ [(id, c)] := by
  rw [insert]
  cases hentry : s.pooled? id with
  | none =>
    change (s.entries ++ [_]).map _ = _
    rw [List.map_append]
    rfl
  | some e =>
    obtain ⟨he, rfl⟩ := pooled?_mem hentry
    exact absurd (List.mem_map.mpr ⟨e, he, rfl⟩) (h e.conn)

theorem tidy_connectSettles (h : s.Tidy) (p : ℕ) (outcome : ConnectOutcome) :
    (s.connectSettles cfg p outcome).Tidy := by
  have hpromises : (s.connectSettles cfg p outcome).Promises :=
    promises_connectSettles h.promises p outcome
  rw [connectSettles] at hpromises ⊢
  split
  case h_2 => exact h
  next id owner c hp =>
  rw [hp] at hpromises
  have hwas := h.housed.making p id owner c hp
  -- the connection was connecting, so none of the others changes
  have hfailed (st : ConnStatus) (k : ℕ) (hk : s.failed k = true) : (s.setStatus c st).failed k = true := by
    rw [failed_iff] at hk ⊢
    obtain ⟨x, hx⟩ := hk
    have hne : c ≠ k := by
      rintro rfl
      rw [hwas] at hx
      cases hx
    rw [standing_setStatus, if_neg hne]
    exact ⟨x, hx⟩
  have hnow : (s.setStatus c .failed).failed c = true := by
    rw [failed_iff]
    refine ⟨id, ?_⟩
    rw [standing_setStatus, if_pos rfl, hwas]
    rfl
  -- a connect that fails leaves its connection to nobody
  have hrefuse {phase : CreationPhase} (hphase : phase = .appendingFailed c ∨ phase = .rejected)
      (hpromises : ((s.setStatus c .failed).setCreation p ⟨id, owner, phase⟩).Promises) :
      ((s.setStatus c .failed).setCreation p ⟨id, owner, phase⟩).Tidy := by
    refine ⟨hpromises, ?_, ?_⟩
    · apply housed_settle h.promises h.housed hp .failed phase (.inr rfl)
      · rintro k rfl
        rcases hphase with hk | hk <;> cases hk
      · rintro k rfl
        rcases hphase with hk | hk <;> cases hk
        exact ⟨rfl, rfl⟩
      · exact fun _ => rfl
      · rfl
      · rfl
      · rfl
    · intro call hcall
      apply suits_congr (h.suits call hcall)
      · exact hfailed .failed
      · apply result?_set hp ⟨id, owner, phase⟩ rfl
        intro k hk
        cases hk
        exact .inl hnow
  cases outcome with
  | connected =>
    refine ⟨hpromises, ?_, ?_⟩
    · have hfree (k : ℕ) : (id, k) ∉ (s.setStatus c .connected).placed := by
        intro hk
        have hin : (id, k) ∈ s.placed := hk
        have hconnected := h.housed.pooled id k hin
        obtain rfl := h.housed.alone id c k _ _ hwas hconnected rfl rfl
        rw [hwas] at hconnected
        cases hconnected
      apply housed_settle h.promises h.housed hp .connected
        (if cfg.audited then .appendingOpened c else .fulfilled c) (.inl rfl)
      · intro k hk
        split_ifs at hk
      · intro k hk
        split_ifs at hk
      · intro k
        exact insert_standing id c k
      · change ((s.setStatus c .connected).insert id c).creations.set p _ = _
        rw [(insert_frame id c).2.1]
        rfl
      · exact insert_placed hfree
      · exact insert_parting c
    · intro call hcall
      have hin : call ∈ s.calls := by
        have hcalls := (insert_frame (s := s.setStatus c .connected) id c).2.2.1
        change call ∈ ((s.setStatus c .connected).insert id c).calls at hcall
        rw [hcalls] at hcall
        exact hcall
      apply suits_congr (h.suits call hin)
      · intro k hk
        have hkept := hfailed .connected k hk
        rw [failed_iff, ← insert_standing (s := s.setStatus c .connected) id c k, ← failed_iff] at hkept
        exact hkept
      · apply result?_set hp ⟨id, owner, if cfg.audited then .appendingOpened c else .fulfilled c⟩
        · change ((s.setStatus c .connected).insert id c).creations.set p _ = _
          rw [(insert_frame id c).2.1]
          rfl
        · intro k hk
          cases hk
          refine .inr ?_
          cases cfg.audited <;> rfl
  | refused =>
    apply hrefuse _ hpromises
    split_ifs
    · exact .inl rfl
    · exact .inr rfl
  | factoryThrew => exact hrefuse (.inr rfl) hpromises

theorem tidy_setCreation (h : s.Tidy) {p : ℕ} {cr cr' : Creation} (hp : s.creations[p]? = some cr)
    (hpromises : (s.setCreation p cr').Promises) (hcr : ∀ c, cr.phase ≠ .connecting c)
    (hcr' : ∀ c, cr'.phase ≠ .connecting c ∧ cr'.phase ≠ .appendingFailed c)
    (hconn : ∀ c, cr.conn? = some c → s.failed c = true ∨ cr'.conn? = some c) :
    (s.setCreation p cr').Tidy where
  promises := hpromises
  housed := housed_setCreation h.housed hp hcr (fun c => (hcr' c).1) fun c hc => absurd hc (hcr' c).2
  suits call hcall := by
    apply suits_congr (h.suits call hcall)
    · exact fun _ hc => hc
    · apply result?_set hp cr' rfl
      exact hconn

theorem tidy_creationAppendSettles (h : s.Tidy) {p : ℕ} {ok : Bool}
    (ho : s.succeeds (.creationAppendSettles p ok) = true) : (s.creationAppendSettles p ok).Tidy := by
  have hpromises := promises_creationAppendSettles h.promises p ok
  rw [creationAppendSettles] at hpromises ⊢
  split
  · next id owner c hp =>
    rw [hp] at hpromises
    rw [succeeds, hp] at ho
    obtain rfl : ok = true := by simpa [Creation.opened] using ho
    rw [← (audit_frame (.connectionOpened id) true).2.1] at hp
    apply tidy_setCreation (tidy_audit h _ _) hp
    · exact hpromises
    · intro k hk
      cases hk
    · intro k
      constructor
      · intro hk
        cases hk
      · intro hk
        cases hk
    · exact fun k hk => .inr hk
  · next id owner c hp =>
    rw [hp] at hpromises
    have hrefused := h.housed.refused p id owner c hp
    rw [← (audit_frame (.connectionFailed id) ok).2.1] at hp
    apply tidy_setCreation (tidy_audit h _ ok) hp
    · exact hpromises
    · intro k hk
      cases hk
    · intro k
      constructor
      · intro hk
        cases hk
      · intro hk
        cases hk
    · intro k hk
      cases hk
      refine .inl ?_
      rw [failed_iff, standing_congr (audit_frame _ ok).2.2.2.1]
      exact ⟨id, hrefused⟩
  · exact h

/-- A call gets the result of its promise. -/
theorem tidy_callSettles (h : s.Tidy) (i : ℕ) : (s.callSettles i).Tidy := by
  have hpromises := promises_callSettles h.promises i
  have hsame : ∃ calls inflight, s.callSettles i = { s with calls := calls, inflight := inflight } ∧
      ∀ call ∈ calls, s.Suits call := by
    rw [callSettles]
    split
    case h_2 => exact ⟨s.calls, s.inflight, rfl, h.suits⟩
    next id p l hi =>
    split
    case h_1 => exact ⟨s.calls, s.inflight, rfl, h.suits⟩
    next cr hp =>
    have hsuits := h.suits _ (List.mem_of_getElem? hi)
    have hset (phase : CallPhase) (hphase : ∀ c, cr.conn? = some c → phase = .returned c) :
        ∀ call ∈ s.calls.set i ⟨id, phase, l⟩, s.Suits call := by
      apply Automaton.forall_set h.suits
      intro _ c hc
      rcases hsuits (by intro hcall; cases hcall) c hc with hfail | hgets
      · exact .inl hfail
      · rw [result?] at hgets
        dsimp only at hgets
        rw [hp, Option.bind_some] at hgets
        rw [result?, hphase c hgets]
        exact .inr rfl
    dsimp only
    split
    · next c hphase =>
      have hreturned := hset (.returned c) (by
        intro k hk
        rw [Creation.conn?, hphase] at hk
        cases hk
        rfl)
      split_ifs <;> exact ⟨_, _, rfl, hreturned⟩
    · next hphase =>
      have hrejected := hset .rejected (by
        intro k hk
        rw [Creation.conn?, hphase] at hk
        cases hk)
      split_ifs <;> exact ⟨_, _, rfl, hrejected⟩
    · exact ⟨s.calls, s.inflight, rfl, h.suits⟩
  obtain ⟨calls, inflight, hstate, hsuits⟩ := hsame
  rw [hstate] at hpromises ⊢
  exact ⟨hpromises, housed_congr h.housed (fun _ => rfl) rfl rfl rfl, hsuits⟩

theorem tidy_next {event : PoolEvent} (h : s.Tidy) (ho : Orderly cfg s event) :
    (s.next cfg event).Tidy := by
  cases event with
  | tick ms => exact tidy_congr h rfl rfl rfl (fun _ => rfl) rfl rfl
  | getConnection id => exact tidy_getConnection h ho
  | release id => exact tidy_congr h rfl rfl rfl (fun _ => rfl) placed_stamp rfl
  | reapIdle => exact tidy_reap h _
  | closeAll => exact tidy_closeAll h _
  | disconnectSettles j ok =>
    obtain rfl : ok = true := ho.2.2
    exact tidy_disconnectSettles h j
  | closedAppendSettles j ok => exact tidy_closedAppendSettles h j ok
  | goesOn j => exact tidy_goesOn h ho
  | connectSettles p outcome => exact tidy_connectSettles h p outcome
  | creationAppendSettles p ok => exact tidy_creationAppendSettles h ho.2.2
  | callSettles i => exact tidy_callSettles h i
  | execStart c =>
    change (s.execStart c).Tidy
    rw [execStart]
    split_ifs
    · exact tidy_congr h rfl rfl rfl (standing_modify fun _ => ⟨rfl, rfl⟩) rfl rfl
    · exact h
  | execEnd c =>
    have hstanding := standing_modify (s := s) (c := c) (f := fun conn => if conn.running = 0 then conn else
      { conn with running := conn.running-1, lastExecEnd := some s.now }) (by
        intro conn
        split_ifs <;> exact ⟨rfl, rfl⟩)
    exact tidy_congr h rfl rfl rfl hstanding rfl rfl

theorem Tidy.oneEach (h : s.Tidy) : s.OneEach := by
  intro c c' conn conn' hc hc' hst hst' hid
  have hstands : s.standing c = some (conn.id, .connected) := by rw [standing, hc, Option.map_some, hst]
  have hstands' : s.standing c' = some (conn.id, .connected) := by
    rw [standing, hc', Option.map_some, hst', hid]
  exact h.housed.alone conn.id c c' _ _ hstands hstands' rfl rfl

theorem Tidy.shared (h : s.Tidy) : s.Shared := by
  intro call hcall hsettled c hc
  rw [GetCall.settled] at hsettled
  cases hcase : call.phase with
  | evicting =>
    rw [hcase] at hsettled
    cases hsettled
  | waiting p =>
    rw [hcase] at hsettled
    cases hsettled
  | returned c' =>
    rcases h.suits call hcall (by rw [hcase]; intro hphase; cases hphase) c hc with hfail | hgets
    · exact .inl hfail
    · rw [result?, hcase] at hgets
      exact .inr (congrArg CallPhase.returned (Option.some.inj hgets))
  | rejected =>
    rcases h.suits call hcall (by rw [hcase]; intro hphase; cases hphase) c hc with hfail | hgets
    · exact .inl hfail
    · rw [result?, hcase] at hgets
      cases hgets

theorem Tidy.noneLeaked (h : s.Tidy) (hsettled : s.Settled) : s.NoneLeaked := by
  intro c conn hc hst
  have hstands : s.standing c = some (conn.id, .connected) := by rw [standing, hc, Option.map_some, hst]
  rcases h.housed.covered conn.id c hstands with ⟨k, hk⟩ | hpart
  · obtain ⟨e, he, hpair⟩ := List.mem_map.mp hk
    exact ⟨e, he, congrArg Prod.snd hpair⟩
  · obtain ⟨r, hr, hparting⟩ := List.mem_filterMap.mp hpart
    rw [hsettled.removals r hr] at hparting
    cases hparting

end Pool

/-- Every platform has at most one connected connection, all that overlap a connect get its
connection, and once nothing is under way none is lost: in every run in which no connect begins
beside a connected connection, calls go on with the connect that they have overlapped, and neither
a disconnect nor the append of `connection_opened` fails. -/
theorem pool_shares (cfg : PoolConfig) (s : Pool)
    (h : (poolMachine cfg).Reaches (Pool.Orderly cfg) .empty s) :
    s.OneEach ∧ s.Shared ∧ (s.Settled → s.NoneLeaked) := by
  have htidy : s.Tidy := by
    apply h.invariant (I := Pool.Tidy)
    · exact Pool.tidy_empty
    · intro x e hx _ ho
      exact Pool.tidy_next hx ho
  exact ⟨htidy.oneEach, htidy.shared, htidy.noneLeaked⟩

/-- A stale connection is replaced, and a second call joins the connect. -/
def replacedStaleEvents : List PoolEvent :=
  [.getConnection (js "a"), .connectSettles 0 .connected, .creationAppendSettles 0 true, .callSettles 0,
    .tick 300001, .getConnection (js "a"), .disconnectSettles 0 true, .closedAppendSettles 0 true,
    .goesOn 0, .getConnection (js "a"), .connectSettles 1 .connected, .creationAppendSettles 1 true,
    .callSettles 1, .callSettles 2, .closeAll, .disconnectSettles 1 true, .goesOn 1]

theorem pool_shares_replaced_stale :
    let s := (poolMachine singlePool).after .empty replacedStaleEvents
    s.OneEach ∧ s.Shared ∧ (s.Settled → s.NoneLeaked) :=
  pool_shares singlePool _ (Automaton.Permits.reaches (C := Pool.Orderly singlePool) (by decide))

/-- A call waits for the eviction of a stale connection while another one connects anew; then it
connects once more, and its connection takes the place of the other one in the map. -/
def twiceConnectedEvents : List PoolEvent :=
  [.getConnection (js "a"), .connectSettles 0 .connected, .creationAppendSettles 0 true, .callSettles 0,
    .tick 300001, .getConnection (js "a"), .getConnection (js "a"), .connectSettles 1 .connected,
    .creationAppendSettles 1 true, .callSettles 2, .disconnectSettles 0 true, .closedAppendSettles 0 true,
    .goesOn 0, .connectSettles 2 .connected, .creationAppendSettles 2 true, .callSettles 1, .closeAll,
    .disconnectSettles 1 true, .goesOn 1]

theorem pool_leaks : ¬ ∀ s, (poolMachine ⟨300000, 2, true⟩).Reaches Automaton.anyEvent .empty s →
    s.OneEach ∧ s.Shared ∧ (s.Settled → s.NoneLeaked) := by
  intro h
  have hreaches : (poolMachine ⟨300000, 2, true⟩).Permits Automaton.anyEvent .empty twiceConnectedEvents := by
    repeat' constructor
  obtain ⟨-, -, hleaks⟩ := h _ hreaches.reaches
  obtain ⟨e, he, -⟩ := hleaks ⟨by decide, by decide, by decide⟩ 1 ⟨js "a", .connected, 0, none⟩
    (by decide) rfl
  have hempty : ((poolMachine ⟨300000, 2, true⟩).after .empty twiceConnectedEvents).entries = [] := by decide
  rw [hempty] at he
  cases he

end Homelab
