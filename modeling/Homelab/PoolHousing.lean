import Homelab.PoolPromises

/-! Where the connections are. While no connect begins for a platform that has a connected one, each
platform has at most one connection that is connecting or connected, and every connected one is in
the map or about to be disconnected. -/
namespace Homelab
open Js

/-- The connection is connecting or connected. -/
def ConnStatus.live : ConnStatus → Bool
  | .connecting => true
  | .connected => true
  | _ => false

/-- The connection that a removal is about to disconnect. -/
def Removal.parting? : Removal → Option ℕ
  | .disconnecting _ c _ _ => some c
  | _ => none

namespace Pool

/-- The platform and the status of a connection. -/
def standing (s : Pool) (c : ℕ) : Option (JsString × ConnStatus) :=
  (s.conns[c]?).map fun conn => (conn.id, conn.status)

/-- The platforms and the connections of the map. -/
def placed (s : Pool) : List (JsString × ℕ) := s.entries.map fun e => (e.id, e.conn)

/-- The connections that are about to be disconnected. -/
def parting (s : Pool) : List ℕ := s.removals.filterMap Removal.parting?

structure Housed (s : Pool) : Prop where
  alone : ∀ (id : JsString) (c c' : ℕ) (st st' : ConnStatus), s.standing c = some (id, st) →
    s.standing c' = some (id, st') → st.live = true → st'.live = true → c = c'
  made : ∀ (id : JsString) (c : ℕ), s.standing c = some (id, .connecting) →
    ∃ p owner : ℕ, s.creations[p]? = some ⟨id, owner, .connecting c⟩
  making : ∀ (p : ℕ) (id : JsString) (owner c : ℕ), s.creations[p]? = some ⟨id, owner, .connecting c⟩ →
    s.standing c = some (id, .connecting)
  refused : ∀ (p : ℕ) (id : JsString) (owner c : ℕ),
    s.creations[p]? = some ⟨id, owner, .appendingFailed c⟩ → s.standing c = some (id, .failed)
  pooled : ∀ (id : JsString) (c : ℕ), (id, c) ∈ s.placed → s.standing c = some (id, .connected)
  apart : ∀ (id : JsString) (c : ℕ), (id, c) ∈ s.placed → c ∉ s.parting
  leaving : ∀ c ∈ s.parting, ∃ id, s.standing c = some (id, .connected) ∨
    s.standing c = some (id, .disconnected)
  covered : ∀ (id : JsString) (c : ℕ), s.standing c = some (id, .connected) →
    (∃ k, (k, c) ∈ s.placed) ∨ c ∈ s.parting

variable {cfg : PoolConfig} {s s' : Pool} {id : JsString}

theorem standing_lt {c : ℕ} {x : JsString × ConnStatus} (h : s.standing c = some x) :
    c < s.conns.length := by
  rw [standing, Option.map_eq_some_iff] at h
  obtain ⟨conn, hconn, -⟩ := h
  exact (List.getElem?_eq_some_iff.mp hconn).1

theorem standing_congr (h : s'.conns = s.conns) (c : ℕ) : s'.standing c = s.standing c := by
  rw [standing, standing, h]

theorem standing_setStatus (c : ℕ) (st : ConnStatus) (k : ℕ) : (s.setStatus c st).standing k =
    if c = k then (s.standing k).map fun x => (x.1, st) else s.standing k := by
  rw [standing, standing]
  change ((s.conns.modify c fun conn => { conn with status := st })[k]?).map _ = _
  rw [List.getElem?_modify]
  by_cases hk : c = k
  · rw [if_pos hk]
    cases s.conns[k]? with
    | none => rfl
    | some conn => simp [hk]
  · rw [if_neg hk]
    cases s.conns[k]? with
    | none => rfl
    | some conn => simp [hk]

/-- A command begins or ends: the connection keeps its platform and its status. -/
theorem standing_modify {c : ℕ} {f : PooledConn → PooledConn}
    (hf : ∀ conn, (f conn).id = conn.id ∧ (f conn).status = conn.status) (k : ℕ) :
    standing { s with conns := s.conns.modify c f } k = s.standing k := by
  rw [standing, standing]
  change ((s.conns.modify c f)[k]?).map _ = _
  rw [List.getElem?_modify]
  cases s.conns[k]? with
  | none => rfl
  | some conn =>
    by_cases hk : c = k
    · simp [hk, hf conn]
    · simp [hk]

theorem housed_empty : empty.Housed where
  alone id c c' st st' hc := by cases hc
  made id c hc := by cases hc
  making p id owner c hp := by cases hp
  refused p id owner c hp := by cases hp
  pooled id c hc := by cases hc
  apart id c hc := by cases hc
  leaving c hc := by cases hc
  covered id c hc := by cases hc

theorem housed_congr (h : s.Housed) (hstanding : ∀ c, s'.standing c = s.standing c)
    (hcreations : s'.creations = s.creations) (hplaced : s'.placed = s.placed)
    (hparting : s'.parting = s.parting) : s'.Housed := by
  constructor
  · simp only [hstanding]
    exact h.alone
  · simp only [hstanding, hcreations]
    exact h.made
  · simp only [hstanding, hcreations]
    exact h.making
  · simp only [hstanding, hcreations]
    exact h.refused
  · simp only [hstanding, hplaced]
    exact h.pooled
  · simp only [hplaced, hparting]
    exact h.apart
  · simp only [hstanding, hparting]
    exact h.leaving
  · simp only [hstanding, hplaced, hparting]
    exact h.covered

/-- An entry that is in the map leaves it, and its connection is about to be disconnected. -/
theorem housed_remove (h : s.Housed) {e : PoolEntry} (he : e ∈ s.entries) (reason : DisconnectReason)
    (audits : Bool) (next : After) : (s.remove e reason audits next).Housed := by
  have hplaced (k : JsString) (c : ℕ) : (k, c) ∈ (s.remove e reason audits next).placed ↔
      (k, c) ∈ s.placed ∧ k ≠ e.id := by
    change (k, c) ∈ (s.entries.filter fun e' => e'.id ≠ e.id).map (fun e => (e.id, e.conn)) ↔
      (k, c) ∈ s.entries.map (fun e => (e.id, e.conn)) ∧ k ≠ e.id
    simp only [List.mem_map, List.mem_filter, Prod.mk.injEq, decide_eq_true_eq]
    constructor
    · rintro ⟨e', ⟨he', hne⟩, rfl, rfl⟩
      exact ⟨⟨e', he', rfl, rfl⟩, hne⟩
    · rintro ⟨⟨e', he', rfl, rfl⟩, hne⟩
      exact ⟨e', ⟨he', hne⟩, rfl, rfl⟩
  have hparting : (s.remove e reason audits next).parting = s.parting ++ [e.conn] := by
    change (s.removals ++ [Removal.disconnecting e.id e.conn audits next]).filterMap _ = _
    rw [List.filterMap_append]
    rfl
  have hin : (e.id, e.conn) ∈ s.placed := List.mem_map.mpr ⟨e, he, rfl⟩
  have hconnected := h.pooled e.id e.conn hin
  constructor
  · exact h.alone
  · exact h.made
  · exact h.making
  · exact h.refused
  · intro k c hc
    exact h.pooled k c ((hplaced k c).mp hc).1
  · intro k c hc hpart
    obtain ⟨hc, hne⟩ := (hplaced k c).mp hc
    rw [hparting, List.mem_append, List.mem_singleton] at hpart
    rcases hpart with hpart | rfl
    · exact h.apart k c hc hpart
    · have hsame := (h.pooled k e.conn hc).symm.trans hconnected
      cases hsame
      exact hne rfl
  · intro c hc
    rw [hparting, List.mem_append, List.mem_singleton] at hc
    rcases hc with hc | rfl
    · exact h.leaving c hc
    · exact ⟨e.id, .inl hconnected⟩
  · intro k c hc
    rw [hparting, List.mem_append, List.mem_singleton]
    rcases h.covered k c hc with ⟨k', hk'⟩ | hpart
    · by_cases hid : k' = e.id
      · subst hid
        have hsame := h.alone e.id c e.conn .connected .connected (h.pooled _ _ hk') hconnected rfl rfl
        exact .inr (.inr hsame)
      · exact .inl ⟨k', (hplaced k' c).mpr ⟨hk', hid⟩⟩
    · exact .inr (.inl hpart)

/-- A removal goes on, when its connection needs it no longer. -/
theorem mem_parting_setRemoval {j c : ℕ} {r r' : Removal} (hj : s.removals[j]? = some r)
    (hr : r.parting? ≠ some c) (hr' : r'.parting? ≠ some c) :
    c ∈ (s.setRemoval j r').parting ↔ c ∈ s.parting := by
  change c ∈ (s.removals.set j r').filterMap _ ↔ c ∈ s.removals.filterMap _
  rw [List.mem_filterMap, List.mem_filterMap]
  constructor
  · rintro ⟨x, hx, hxc⟩
    rcases List.mem_or_eq_of_mem_set hx with hx | rfl
    · exact ⟨x, hx, hxc⟩
    · exact absurd hxc hr'
  · rintro ⟨x, hx, hxc⟩
    obtain ⟨k, hk⟩ := List.getElem?_of_mem hx
    have hne : j ≠ k := by
      rintro rfl
      obtain rfl : r = x := Option.some.inj (hj.symm.trans hk)
      exact hr hxc
    rw [← List.getElem?_set_ne (a := r') hne] at hk
    exact ⟨x, List.mem_of_getElem? hk, hxc⟩

/-- A removal that has disconnected its connection goes on. -/
theorem housed_setRemoval (h : s.Housed) {j : ℕ} {r r' : Removal} (hj : s.removals[j]? = some r)
    (hr : r.parting? = none) (hr' : r'.parting? = none) : (s.setRemoval j r').Housed := by
  have hparting (c : ℕ) : c ∈ (s.setRemoval j r').parting ↔ c ∈ s.parting := by
    apply mem_parting_setRemoval hj
    · rw [hr]
      intro hc
      cases hc
    · rw [hr']
      intro hc
      cases hc
  constructor
  · exact h.alone
  · exact h.made
  · exact h.making
  · exact h.refused
  · exact h.pooled
  · intro k c hc hpart
    exact h.apart k c hc ((hparting c).mp hpart)
  · intro c hc
    exact h.leaving c ((hparting c).mp hc)
  · intro k c hc
    rw [hparting]
    exact h.covered k c hc

/-- The connection of a removal is disconnected. -/
theorem housed_disconnected (h : s.Housed) {j c : ℕ} {r r' : Removal} (hj : s.removals[j]? = some r)
    (hr : r.parting? = some c) (hr' : r'.parting? = none) :
    ((s.setStatus c .disconnected).setRemoval j r').Housed := by
  have hpart : c ∈ s.parting := List.mem_filterMap.mpr ⟨r, List.mem_of_getElem? hj, hr⟩
  have hstands (k : ℕ) (hk : c ≠ k) :
      ((s.setStatus c .disconnected).setRemoval j r').standing k = s.standing k := by
    change (s.setStatus c .disconnected).standing k = _
    rw [standing_setStatus, if_neg hk]
  obtain ⟨id₀, hwas⟩ := h.leaving c hpart
  have hstood : ∃ st, s.standing c = some (id₀, st) ∧ st ≠ .connecting ∧ st ≠ .failed := by
    rcases hwas with hwas | hwas
    · exact ⟨_, hwas, by decide, by decide⟩
    · exact ⟨_, hwas, by decide, by decide⟩
  obtain ⟨st₀, hst₀, hconnecting, hfailed⟩ := hstood
  have hnow : ((s.setStatus c .disconnected).setRemoval j r').standing c = some (id₀, .disconnected) := by
    change (s.setStatus c .disconnected).standing c = _
    rw [standing_setStatus, if_pos rfl, hst₀]
    rfl
  -- what holds of a connection with another status than `disconnected` has held before
  have hbefore (k : ℕ) (x : JsString) (st : ConnStatus) (hst : st ≠ .disconnected)
      (hk : ((s.setStatus c .disconnected).setRemoval j r').standing k = some (x, st)) :
      c ≠ k ∧ s.standing k = some (x, st) := by
    by_cases hck : c = k
    · subst hck
      rw [hnow] at hk
      cases hk
      exact absurd rfl hst
    · rw [hstands k hck] at hk
      exact ⟨hck, hk⟩
  have hother (k : ℕ) (x : JsString) (st : ConnStatus) (hk : s.standing k = some (x, st))
      (hst : st = .connecting ∨ st = .failed) : c ≠ k := by
    rintro rfl
    rw [hst₀] at hk
    cases hk
    rcases hst with rfl | rfl
    · exact hconnecting rfl
    · exact hfailed rfl
  have hremaining (k : ℕ) (hk : c ≠ k) :
      k ∈ ((s.setStatus c .disconnected).setRemoval j r').parting ↔ k ∈ s.parting := by
    apply mem_parting_setRemoval (s := s.setStatus c .disconnected) hj
    · rw [hr]
      intro hc
      exact hk (Option.some.inj hc)
    · rw [hr']
      intro hc
      cases hc
  constructor
  · intro x k k' st st' hk hk' hlive hlive'
    have hne : st ≠ .disconnected := by
      rintro rfl
      cases hlive
    have hne' : st' ≠ .disconnected := by
      rintro rfl
      cases hlive'
    exact h.alone x k k' st st' (hbefore k x st hne hk).2 (hbefore k' x st' hne' hk').2 hlive hlive'
  · intro x k hk
    exact h.made x k (hbefore k x _ (by decide) hk).2
  · intro p x owner k hp
    have hk := h.making p x owner k hp
    rw [hstands k (hother k x _ hk (.inl rfl))]
    exact hk
  · intro p x owner k hp
    have hk := h.refused p x owner k hp
    rw [hstands k (hother k x _ hk (.inr rfl))]
    exact hk
  · intro x k hk
    have hne : c ≠ k := by
      rintro rfl
      exact h.apart x c hk hpart
    rw [hstands k hne]
    exact h.pooled x k hk
  · intro x k hk hkpart
    have hne : c ≠ k := by
      rintro rfl
      exact h.apart x c hk hpart
    exact h.apart x k hk ((hremaining k hne).mp hkpart)
  · intro k hk
    by_cases hck : c = k
    · subst hck
      exact ⟨id₀, .inr hnow⟩
    · rw [hstands k hck]
      exact h.leaving k ((hremaining k hck).mp hk)
  · intro x k hk
    obtain ⟨hck, hwasConnected⟩ := hbefore k x _ (by decide) hk
    rw [hremaining k hck]
    exact h.covered x k hwasConnected

/-- No connection of the platform is connected. -/
def Vacant (s : Pool) (id : JsString) : Prop := ∀ c, s.standing c ≠ some (id, .connected)

/-- A creation that has not made its connection is the only one of its platform, so none of its
connections is connecting. -/
theorem not_connecting (hp : s.Promises) (h : s.Housed) {p owner : ℕ}
    (hcr : s.creations[p]? = some ⟨id, owner, .evicting⟩) (c : ℕ) :
    s.standing c ≠ some (id, .connecting) := by
  intro hc
  obtain ⟨q, owner', hq⟩ := h.made id c hc
  obtain rfl : p = q := hp.single hcr hq rfl rfl rfl
  rw [hcr] at hq
  cases hq

theorem standing_connect {p owner : ℕ} (hcr : s.creations[p]? = some ⟨id, owner, .evicting⟩) (k : ℕ) :
    (s.connect p).standing k =
      if k = s.conns.length then some (id, .connecting) else s.standing k := by
  rw [connect, hcr]
  change ((s.conns ++ [(⟨id, .connecting, 0, none⟩ : PooledConn)])[k]?).map _ = _
  by_cases hk : k = s.conns.length
  · rw [if_pos hk, hk, List.getElem?_concat_length]
    rfl
  · rw [if_neg hk, standing]
    by_cases hlt : k < s.conns.length
    · rw [List.getElem?_append_left hlt]
    · have hlen : (s.conns ++ [(⟨id, .connecting, 0, none⟩ : PooledConn)]).length ≤ k := by
        rw [List.length_append, List.length_singleton]
        omega
      rw [List.getElem?_eq_none hlen, List.getElem?_eq_none (by omega)]

theorem connect_creations {p owner : ℕ} (hcr : s.creations[p]? = some ⟨id, owner, .evicting⟩) :
    (s.connect p).creations = s.creations.set p ⟨id, owner, .connecting s.conns.length⟩ := by
  rw [connect, hcr]

/-- The connection of a creation is made, when no connection of its platform is connected. -/
theorem housed_connect (hp : s.Promises) (h : s.Housed) (p : ℕ)
    (hvacant : ∀ (id : JsString) (owner : ℕ), s.creations[p]? = some ⟨id, owner, .evicting⟩ → s.Vacant id) :
    (s.connect p).Housed := by
  by_cases hcr : ∃ (id : JsString) (owner : ℕ), s.creations[p]? = some ⟨id, owner, .evicting⟩
  swap
  · have hsame : s.connect p = s := by
      rw [connect]
      split
      · next id owner hcr' => exact absurd ⟨id, owner, hcr'⟩ hcr
      · rfl
    rw [hsame]
    exact h
  obtain ⟨id, owner, hcr⟩ := hcr
  have hstands := standing_connect hcr
  have hcreations := connect_creations hcr
  have hplaced : (s.connect p).placed = s.placed := by
    rw [connect, hcr]
    rfl
  have hparting : (s.connect p).parting = s.parting := by
    rw [connect, hcr]
    rfl
  have hkept (k : ℕ) (x : JsString × ConnStatus) (hk : s.standing k = some x) :
      (s.connect p).standing k = some x := by
    rw [hstands, if_neg (standing_lt hk).ne]
    exact hk
  -- no connection of the platform is live besides the new one
  have hnone (k : ℕ) (st : ConnStatus) (hk : s.standing k = some (id, st)) : st.live = false := by
    cases st with
    | connecting => exact absurd hk (not_connecting hp h hcr k)
    | connected => exact absurd hk (hvacant id owner hcr k)
    | failed => rfl
    | disconnected => rfl
  have hnow (k : ℕ) (x : JsString) (st : ConnStatus) (hk : (s.connect p).standing k = some (x, st)) :
      (k = s.conns.length ∧ x = id ∧ st = .connecting) ∨ s.standing k = some (x, st) := by
    rw [hstands] at hk
    split_ifs at hk with hlast
    · cases hk
      exact .inl ⟨hlast, rfl, rfl⟩
    · exact .inr hk
  constructor
  · intro x k k' st st' hk hk' hlive hlive'
    rcases hnow k x st hk with ⟨rfl, rfl, rfl⟩ | hk
    · rcases hnow k' x st' hk' with ⟨rfl, -, -⟩ | hk'
      · rfl
      · rw [hnone k' st' hk'] at hlive'
        cases hlive'
    · rcases hnow k' x st' hk' with ⟨-, rfl, -⟩ | hk'
      · rw [hnone k st hk] at hlive
        cases hlive
      · exact h.alone x k k' st st' hk hk' hlive hlive'
  · intro x k hk
    rw [hcreations]
    rcases hnow k x _ hk with ⟨rfl, rfl, -⟩ | hk
    · exact ⟨p, owner, List.getElem?_set_self (List.getElem?_eq_some_iff.mp hcr).1⟩
    · obtain ⟨q, owner', hq⟩ := h.made x k hk
      have hne : p ≠ q := by
        rintro rfl
        rw [hcr] at hq
        cases hq
      exact ⟨q, owner', by rw [List.getElem?_set_ne hne]; exact hq⟩
  · intro q x owner' k hq
    rw [hcreations] at hq
    rcases getElem?_set_cases hq with ⟨rfl, hsame⟩ | ⟨-, hq⟩
    · cases hsame
      rw [hstands, if_pos rfl]
    · exact hkept k _ (h.making q x owner' k hq)
  · intro q x owner' k hq
    rw [hcreations] at hq
    rcases getElem?_set_cases hq with ⟨rfl, hsame⟩ | ⟨-, hq⟩
    · cases hsame
    · exact hkept k _ (h.refused q x owner' k hq)
  · intro x k hk
    rw [hplaced] at hk
    exact hkept k _ (h.pooled x k hk)
  · intro x k hk
    rw [hplaced] at hk
    rw [hparting]
    exact h.apart x k hk
  · intro k hk
    rw [hparting] at hk
    obtain ⟨x, hx⟩ := h.leaving k hk
    rcases hx with hx | hx
    · exact ⟨x, .inl (hkept k _ hx)⟩
    · exact ⟨x, .inr (hkept k _ hx)⟩
  · intro x k hk
    rw [hplaced, hparting]
    rcases hnow k x _ hk with ⟨-, -, hconnecting⟩ | hk
    · cases hconnecting
    · exact h.covered x k hk

/-- A creation begins: it has no connection yet. -/
theorem housed_begin (h : s.Housed) {i : ℕ} (hcreations : s'.creations = s.creations ++ [⟨id, i, .evicting⟩])
    (hstanding : ∀ c, s'.standing c = s.standing c) (hplaced : s'.placed = s.placed)
    (hparting : s'.parting = s.parting) : s'.Housed := by
  have hbefore : Pool.Housed { s' with creations := s.creations } :=
    housed_congr h hstanding rfl hplaced hparting
  constructor
  · exact hbefore.alone
  · intro x c hc
    obtain ⟨p, owner, hp⟩ := hbefore.made x c hc
    rw [hcreations]
    exact ⟨p, owner, getElem?_snoc_of_some hp⟩
  · intro p x owner c hp
    rw [hcreations] at hp
    rcases getElem?_snoc_cases hp with ⟨-, hsame⟩ | hp
    · cases hsame
    · exact hbefore.making p x owner c hp
  · intro p x owner c hp
    rw [hcreations] at hp
    rcases getElem?_snoc_cases hp with ⟨-, hsame⟩ | hp
    · cases hsame
    · exact hbefore.refused p x owner c hp
  · exact hbefore.pooled
  · exact hbefore.apart
  · exact hbefore.leaving
  · exact hbefore.covered

/-- A creation that is not connecting goes on. -/
theorem housed_setCreation (h : s.Housed) {p : ℕ} {cr cr' : Creation} (hp : s.creations[p]? = some cr)
    (hcr : ∀ c, cr.phase ≠ .connecting c) (hcr' : ∀ c, cr'.phase ≠ .connecting c)
    (hrefused : ∀ c, cr'.phase = .appendingFailed c → s.standing c = some (cr'.id, .failed)) :
    (s.setCreation p cr').Housed := by
  constructor
  · exact h.alone
  · intro x c hc
    obtain ⟨q, owner, hq⟩ := h.made x c hc
    have hne : p ≠ q := by
      rintro rfl
      obtain rfl : cr = _ := Option.some.inj (hp.symm.trans hq)
      exact hcr c rfl
    refine ⟨q, owner, ?_⟩
    change (s.creations.set p cr')[q]? = _
    rw [List.getElem?_set_ne hne]
    exact hq
  · intro q x owner c hq
    rcases getElem?_set_cases hq with ⟨-, rfl⟩ | ⟨-, hq⟩
    · exact absurd rfl (hcr' c)
    · exact h.making q x owner c hq
  · intro q x owner c hq
    rcases getElem?_set_cases hq with ⟨-, rfl⟩ | ⟨-, hq⟩
    · exact hrefused c rfl
    · exact h.refused q x owner c hq
  · exact h.pooled
  · exact h.apart
  · exact h.leaving
  · exact h.covered

/-- The connect of a creation ends: its connection gets the status `st`, and it is in the map from
then on when it is connected. -/
theorem housed_settle (hs : s.Promises) (h : s.Housed) {p owner c : ℕ}
    (hp : s.creations[p]? = some ⟨id, owner, .connecting c⟩) (st : ConnStatus) (phase : CreationPhase)
    (hst : st = .connected ∨ st = .failed) (hphase : ∀ k, phase ≠ .connecting k)
    (hrefused : ∀ k, phase = .appendingFailed k → st = .failed ∧ k = c)
    (hstanding : ∀ k, s'.standing k = (s.setStatus c st).standing k)
    (hcreations : s'.creations = s.creations.set p ⟨id, owner, phase⟩)
    (hplaced : s'.placed = if st = .connected then s.placed ++ [(id, c)] else s.placed)
    (hparting : s'.parting = s.parting) : s'.Housed := by
  have hwas := h.making p id owner c hp
  have hnow : s'.standing c = some (id, st) := by
    rw [hstanding, standing_setStatus, if_pos rfl, hwas]
    rfl
  have hkept (k : ℕ) (hk : k ≠ c) : s'.standing k = s.standing k := by
    rw [hstanding, standing_setStatus, if_neg (Ne.symm hk)]
  have hstands (k : ℕ) (x : JsString) (st' : ConnStatus) (hk : s'.standing k = some (x, st')) :
      (k = c ∧ x = id ∧ st' = st) ∨ (k ≠ c ∧ s.standing k = some (x, st')) := by
    by_cases hkc : k = c
    · rw [hkc, hnow] at hk
      cases hk
      exact .inl ⟨hkc, rfl, rfl⟩
    · rw [hkept k hkc] at hk
      exact .inr ⟨hkc, hk⟩
  have hne (k : ℕ) (x : JsString) (st' : ConnStatus) (hk : s.standing k = some (x, st'))
      (hst' : st' ≠ .connecting) : k ≠ c := by
    rintro rfl
    rw [hwas] at hk
    cases hk
    exact hst' rfl
  have hinPlace (x : JsString) (k : ℕ) (hk : (x, k) ∈ s'.placed) :
      (x = id ∧ k = c ∧ st = .connected) ∨ (x, k) ∈ s.placed := by
    rw [hplaced] at hk
    split_ifs at hk with hconnected
    · rw [List.mem_append, List.mem_singleton, Prod.mk.injEq] at hk
      rcases hk with hk | ⟨rfl, rfl⟩
      · exact .inr hk
      · exact .inl ⟨rfl, rfl, hconnected⟩
    · exact .inr hk
  have hstays (x : JsString) (k : ℕ) (hk : (x, k) ∈ s.placed) : (x, k) ∈ s'.placed := by
    rw [hplaced]
    split_ifs
    · exact List.mem_append_left _ hk
    · exact hk
  have hnotParting : c ∉ s.parting := by
    intro hpart
    obtain ⟨x, hx⟩ := h.leaving c hpart
    rcases hx with hx | hx
    · exact hne c x _ hx (by decide) rfl
    · exact hne c x _ hx (by decide) rfl
  constructor
  · intro x k k' st₁ st₂ hk hk' hlive hlive'
    rcases hstands k x st₁ hk with ⟨rfl, rfl, -⟩ | ⟨-, hk⟩
    · rcases hstands k' x st₂ hk' with ⟨rfl, -, -⟩ | ⟨-, hk'⟩
      · rfl
      · exact h.alone x k k' .connecting st₂ hwas hk' rfl hlive'
    · rcases hstands k' x st₂ hk' with ⟨rfl, rfl, -⟩ | ⟨-, hk'⟩
      · exact h.alone x k k' st₁ .connecting hk hwas hlive rfl
      · exact h.alone x k k' st₁ st₂ hk hk' hlive hlive'
  · intro x k hk
    rcases hstands k x _ hk with ⟨-, -, rfl⟩ | ⟨hkc, hk⟩
    · rcases hst with hst | hst
      · cases hst
      · cases hst
    · obtain ⟨q, owner', hq⟩ := h.made x k hk
      have hpq : p ≠ q := by
        rintro rfl
        rw [hp] at hq
        cases hq
        exact hkc rfl
      refine ⟨q, owner', ?_⟩
      rw [hcreations, List.getElem?_set_ne hpq]
      exact hq
  · intro q x owner' k hq
    rw [hcreations] at hq
    rcases getElem?_set_cases hq with ⟨-, hsame⟩ | ⟨hqp, hq⟩
    · exact absurd (congrArg Creation.phase hsame).symm (hphase k)
    · have hk := h.making q x owner' k hq
      have hkc : k ≠ c := by
        -- the connection belongs to one creation: two of its platform would both be in flight
        rintro rfl
        rw [hwas] at hk
        cases hk
        exact hqp (hs.single hq hp rfl rfl rfl)
      rw [hkept k hkc]
      exact hk
  · intro q x owner' k hq
    rw [hcreations] at hq
    rcases getElem?_set_cases hq with ⟨-, hsame⟩ | ⟨-, hq⟩
    · obtain ⟨rfl, rfl⟩ := hrefused k (congrArg Creation.phase hsame).symm
      cases hsame
      exact hnow
    · have hk := h.refused q x owner' k hq
      rw [hkept k (hne k x _ hk (by decide))]
      exact hk
  · intro x k hk
    rcases hinPlace x k hk with ⟨rfl, rfl, rfl⟩ | hk
    · exact hnow
    · have hconnected := h.pooled x k hk
      rw [hkept k (hne k x _ hconnected (by decide))]
      exact hconnected
  · intro x k hk hpart
    rw [hparting] at hpart
    rcases hinPlace x k hk with ⟨-, rfl, -⟩ | hk
    · exact hnotParting hpart
    · exact h.apart x k hk hpart
  · intro k hk
    rw [hparting] at hk
    have hkc : k ≠ c := by
      rintro rfl
      exact hnotParting hk
    rw [hkept k hkc]
    exact h.leaving k hk
  · intro x k hk
    rw [hparting]
    rcases hstands k x _ hk with ⟨rfl, rfl, hconnected⟩ | ⟨-, hk⟩
    · refine .inl ⟨x, ?_⟩
      rw [hplaced, if_pos hconnected.symm]
      exact List.mem_append_right _ (List.mem_singleton_self _)
    · rcases h.covered x k hk with ⟨y, hy⟩ | hpart
      · exact .inl ⟨y, hstays y k hy⟩
      · exact .inr hpart

end Pool

end Homelab
