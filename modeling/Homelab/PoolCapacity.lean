import Homelab.ConnectionPool

/-! The number of pooled connections. `createAndConnect` looks at it before it waits for the connect,
and the connection comes into the map after that, so the limit holds while the connections that
are still to come are counted. -/
namespace Homelab
open Js

/-- One place of a list is replaced: what it counted for, and what it counts for now. -/
theorem countP_set_some {α : Type} {p : α → Bool} {l : List α} {i : ℕ} {x a : α} (h : l[i]? = some x) :
    (l.set i a).countP p + (if p x then 1 else 0) = l.countP p + (if p a then 1 else 0) := by
  obtain ⟨hi, hx⟩ := List.getElem?_eq_some_iff.mp h
  rw [List.countP_set hi, hx]
  by_cases hp : p x = true
  · have hpos : 0 < l.countP p := List.countP_pos_iff.mpr ⟨x, hx ▸ List.getElem_mem hi, hp⟩
    rw [if_pos hp]
    omega
  · rw [if_neg hp]
    omega

namespace Pool

/-- The creations whose connections are still to come into the map. -/
def creating (s : Pool) : ℕ := s.creations.countP Creation.inserts

/-- The pooled connections and those that are to come. -/
def load (s : Pool) : ℕ := s.entries.length + s.creating

/-- The event begins a `createAndConnect`. -/
def begins (s : Pool) : PoolEvent → Bool
  | .getConnection id => (s.pooled? id).isNone && (s.inflight? id).isNone
  | .goesOn j =>
    match s.removals[j]? with
    | some (.resuming (.get i)) =>
      match s.calls[i]? with
      | some ⟨id, .evicting, _⟩ => (s.inflight? id).isNone
      | _ => false
    | _ => false
  | _ => false

/-- The entries that a `createAndConnect` finds, or leaves when it evicts one. -/
def entriesLeft (cfg : PoolConfig) (s : Pool) : ℕ :=
  if cfg.maxConnections ≤ s.entries.length then s.entries.length-1 else s.entries.length

/-- A `createAndConnect` begins only when there is room beside the entries that are left and the
connections that are to come. -/
def HasRoom (cfg : PoolConfig) (s : Pool) (e : PoolEvent) : Prop :=
  s.begins e = true → s.entriesLeft cfg + s.creating < cfg.maxConnections

instance (cfg : PoolConfig) (s : Pool) (e : PoolEvent) : Decidable (HasRoom cfg s e) :=
  inferInstanceAs (Decidable (_ → _))

variable {cfg : PoolConfig} {s : Pool} {e : PoolEntry} {id : JsString}

theorem pooled?_mem (h : s.pooled? id = some e) : e ∈ s.entries ∧ e.id = id := by
  refine ⟨List.mem_of_find?_eq_some h, ?_⟩
  have hid := List.find?_some h
  exact of_decide_eq_true hid

theorem oldest_mem : ∀ {es : List PoolEntry}, oldest es = some e → e ∈ es
  | [], h => by cases h
  | x :: es, h => by
    rw [oldest] at h
    cases hrest : oldest es with
    | none =>
      rw [hrest] at h
      cases h
      exact List.mem_cons_self ..
    | some o =>
      rw [hrest] at h
      dsimp only at h
      split_ifs at h
      · cases h
        exact List.mem_cons_of_mem _ (oldest_mem hrest)
      · cases h
        exact List.mem_cons_self ..

theorem oldest_none : ∀ {es : List PoolEntry}, oldest es = none → es = []
  | [], _ => rfl
  | x :: es, h => by
    rw [oldest] at h
    cases hrest : oldest es with
    | none =>
      rw [hrest] at h
      cases h
    | some o =>
      rw [hrest] at h
      dsimp only at h
      split_ifs at h

theorem load_remove (h : e ∈ s.entries) (reason : DisconnectReason) (audits : Bool) (next : After) :
    (s.remove e reason audits next).load + 1 ≤ s.load := by
  have hless : (s.entries.filter fun e' => e'.id ≠ e.id).length < s.entries.length := by
    apply List.length_filter_lt_length_iff_exists.mpr
    exact ⟨e, h, by simp⟩
  change (s.entries.filter fun e' => e'.id ≠ e.id).length + s.creating + 1 ≤ s.entries.length + s.creating
  omega

theorem load_connect (p : ℕ) : (s.connect p).load = s.load := by
  rw [connect]
  split
  · next id owner hp =>
    have hcount := countP_set_some (p := Creation.inserts) (a := ⟨id, owner, .connecting s.conns.length⟩) hp
    have hsame : (s.creations.set p ⟨id, owner, .connecting s.conns.length⟩).countP Creation.inserts =
        s.creations.countP Creation.inserts := by
      simpa [Creation.inserts] using hcount
    exact congrArg (s.entries.length + ·) hsame
  · rfl

/-- What a creation adds is one connection that is to come, and it evicts when the pool is full. -/
theorem load_create {i : ℕ} {overlapped : List ℕ} (hmax : 1 ≤ cfg.maxConnections) :
    (s.create cfg i id overlapped).load ≤ s.entriesLeft cfg + s.creating + 1 := by
  rw [create, entriesLeft]
  set s' : Pool := { s with
    creations := s.creations ++ [⟨id, i, .evicting⟩]
    inflight := s.inflight ++ [(id, s.creations.length)]
    calls := s.calls.set i ⟨id, .waiting s.creations.length, overlapped⟩ } with hs'
  have hload : s'.load = s.entries.length + s.creating + 1 := by
    have hcount : (s.creations ++ [(⟨id, i, .evicting⟩ : Creation)]).countP Creation.inserts =
        s.creating + 1 := by
      rw [List.countP_append]
      rfl
    exact congrArg (s.entries.length + ·) hcount
  by_cases hfull : cfg.maxConnections ≤ s.entries.length
  · rw [if_pos hfull, if_pos hfull]
    cases holdest : oldest s.entries with
    | none =>
      have hempty := oldest_none holdest
      rw [hempty, List.length_nil] at hfull
      omega
    | some e =>
      have hless := load_remove (s := s') (oldest_mem holdest) .full cfg.audited (.create s.creations.length)
      change (s'.remove e .full cfg.audited (.create s.creations.length)).load ≤ _
      omega
  · rw [if_neg hfull, if_neg hfull]
    change (s'.connect s.creations.length).load ≤ _
    rw [load_connect, hload]

theorem load_reap (ids : List JsString) : (s.reap cfg ids).load ≤ s.load := by
  induction ids with
  | nil => exact Nat.le_refl _
  | cons id ids ih =>
    rw [reap]
    cases hentry : s.pooled? id with
    | none => exact ih
    | some e =>
      dsimp only
      split_ifs
      · have hless := load_remove (pooled?_mem hentry).1 .stale cfg.audited (.reap ids)
        exact Nat.le_of_succ_le hless
      · exact ih

theorem load_closeAll (ids : List JsString) : (s.closeAll ids).load ≤ s.load := by
  induction ids with
  | nil => exact Nat.le_refl _
  | cons id ids ih =>
    rw [closeAll]
    cases hentry : s.pooled? id with
    | none => exact ih
    | some e =>
      have hless := load_remove (pooled?_mem hentry).1 .closing false (.close ids)
      exact Nat.le_of_succ_le hless

theorem load_joinOrCreate {i : ℕ} (hmax : 1 ≤ cfg.maxConnections) (hload : s.load ≤ cfg.maxConnections)
    (hroom : ∀ id overlapped, s.calls[i]? = some ⟨id, .evicting, overlapped⟩ → s.inflight? id = none →
      s.entriesLeft cfg + s.creating < cfg.maxConnections) :
    (s.joinOrCreate cfg i).load ≤ cfg.maxConnections := by
  rw [joinOrCreate]
  split
  · next id overlapped hcall =>
    cases hinflight : s.inflight? id with
    | some p => exact hload
    | none =>
      have hbelow := hroom id overlapped hcall hinflight
      have hcreated : (s.create cfg i id overlapped).load ≤ s.entriesLeft cfg + s.creating + 1 :=
        load_create hmax
      dsimp only
      omega
  · exact hload

theorem load_getConnection (hmax : 1 ≤ cfg.maxConnections) (hload : s.load ≤ cfg.maxConnections)
    (hroom : HasRoom cfg s (.getConnection id)) :
    (s.getConnection cfg id).load ≤ cfg.maxConnections := by
  rw [getConnection]
  cases hentry : s.pooled? id with
  | some e =>
    dsimp only
    split_ifs
    · have hless := load_remove (s := { s with calls := s.calls ++ [⟨id, .evicting, s.connecting id⟩] })
        (pooled?_mem hentry).1 .stale cfg.audited (.get s.calls.length)
      exact (Nat.le_of_succ_le hless).trans hload
    · change (s.entries.map _).length + s.creating ≤ _
      rw [List.length_map]
      exact hload
  | none =>
    apply load_joinOrCreate (s := { s with calls := s.calls ++ [⟨id, .evicting, s.connecting id⟩] })
      hmax hload
    intro id' overlapped hcall hinflight
    have hlast : (s.calls ++ [(⟨id, .evicting, s.connecting id⟩ : GetCall)])[s.calls.length]? =
        some ⟨id, .evicting, s.connecting id⟩ := List.getElem?_concat_length ..
    obtain rfl : id = id' := congrArg GetCall.id (Option.some.inj (hlast.symm.trans hcall))
    have hfree : s.inflight? id = none := hinflight
    apply hroom
    rw [begins, hentry, hfree]
    rfl

theorem load_insert (c : ℕ) : (s.insert id c).load ≤ s.load + 1 := by
  rw [insert]
  cases s.pooled? id with
  | some e =>
    change (s.entries.map _).length + s.creating ≤ s.load + 1
    rw [List.length_map]
    exact Nat.le_succ _
  | none =>
    change (s.entries ++ [_]).length + s.creating ≤ s.load + 1
    rw [List.length_append, List.length_singleton, load]
    omega

/-- A creation that goes on. -/
theorem load_setCreation {p : ℕ} {cr : Creation} (h : s.creations[p]? = some cr) (cr' : Creation) :
    (s.setCreation p cr').load + (if cr.inserts then 1 else 0) =
      s.load + (if cr'.inserts then 1 else 0) := by
  have hcount := countP_set_some (p := Creation.inserts) (a := cr') h
  change s.entries.length + (s.creations.set p cr').countP Creation.inserts + _ =
    s.entries.length + s.creations.countP Creation.inserts + _
  omega

theorem load_connectSettles (p : ℕ) (outcome : ConnectOutcome) :
    (s.connectSettles cfg p outcome).load ≤ s.load := by
  rw [connectSettles]
  split
  · next id owner c hp =>
    cases outcome with
    | connected =>
      have hinsert : ((s.setStatus c .connected).insert id c).load ≤ (s.setStatus c .connected).load + 1 :=
        load_insert c
      have hcreations : ((s.setStatus c .connected).insert id c).creations[p]? =
          some ⟨id, owner, .connecting c⟩ := by
        rw [insert]
        split <;> exact hp
      have hset := load_setCreation hcreations ⟨id, owner, if cfg.audited then .appendingOpened c else
        .fulfilled c⟩
      have hcounted : (⟨id, owner, .connecting c⟩ : Creation).inserts = true := rfl
      have hdone : (⟨id, owner, if cfg.audited then .appendingOpened c else .fulfilled c⟩ :
          Creation).inserts = false := by
        cases cfg.audited <;> rfl
      have hsame : (s.setStatus c .connected).load = s.load := rfl
      rw [hcounted, hdone] at hset
      dsimp only
      simp only [↓reduceIte, Bool.false_eq_true] at hset
      omega
    | refused =>
      have hset := load_setCreation (s := s.setStatus c .failed) hp ⟨id, owner, if cfg.audited then
        .appendingFailed c else .rejected⟩
      have hcounted : (⟨id, owner, .connecting c⟩ : Creation).inserts = true := rfl
      have hdone : (⟨id, owner, if cfg.audited then .appendingFailed c else .rejected⟩ :
          Creation).inserts = false := by
        cases cfg.audited <;> rfl
      have hsame : (s.setStatus c .failed).load = s.load := rfl
      rw [hcounted, hdone] at hset
      simp only [↓reduceIte, Bool.false_eq_true] at hset
      dsimp only
      omega
    | factoryThrew =>
      have hset := load_setCreation (s := s.setStatus c .failed) hp ⟨id, owner, .rejected⟩
      have hsame : (s.setStatus c .failed).load = s.load := rfl
      simp only [Creation.inserts, ↓reduceIte, Bool.false_eq_true] at hset
      dsimp only
      omega
  · exact Nat.le_refl _

theorem load_creationAppendSettles (p : ℕ) (ok : Bool) :
    (s.creationAppendSettles p ok).load = s.load := by
  have haudit (event : PoolAudit) : (s.audit event ok).creations = s.creations ∧
      (s.audit event ok).load = s.load := by
    rw [audit]
    split_ifs <;> exact ⟨rfl, rfl⟩
  rw [creationAppendSettles]
  split
  · next id owner c hp =>
    obtain ⟨hcreations, hload⟩ := haudit (.connectionOpened id)
    rw [← hcreations] at hp
    have hset := load_setCreation hp ⟨id, owner, if ok then .fulfilled c else .rejected⟩
    have hdone : (⟨id, owner, if ok then .fulfilled c else .rejected⟩ : Creation).inserts = false := by
      cases ok <;> rfl
    rw [hdone, hload] at hset
    exact hset
  · next id owner c hp =>
    obtain ⟨hcreations, hload⟩ := haudit (.connectionFailed id)
    rw [← hcreations] at hp
    have hset := load_setCreation hp ⟨id, owner, .rejected⟩
    rw [hload] at hset
    exact hset
  · rfl

theorem load_goesOn {j : ℕ} (hmax : 1 ≤ cfg.maxConnections) (hload : s.load ≤ cfg.maxConnections)
    (hroom : HasRoom cfg s (.goesOn j)) : (s.goesOn cfg j).load ≤ cfg.maxConnections := by
  rw [goesOn]
  split
  · next next hj =>
    cases next with
    | get i =>
      apply load_joinOrCreate (s := s.setRemoval j .ended) hmax hload
      intro id overlapped hcall hinflight
      have hcaller : s.calls[i]? = some ⟨id, .evicting, overlapped⟩ := hcall
      have hfree : s.inflight? id = none := hinflight
      apply hroom
      rw [begins, hj]
      dsimp only
      rw [hcaller]
      dsimp only
      rw [hfree]
      rfl
    | create p =>
      change ((s.setRemoval j .ended).connect p).load ≤ _
      rw [load_connect]
      exact hload
    | reap ids => exact (load_reap (s := s.setRemoval j .ended) ids).trans hload
    | close ids => exact (load_closeAll (s := s.setRemoval j .ended) ids).trans hload
  · exact hload

/-- An event that has room for what it begins. -/
theorem load_next {event : PoolEvent} (hmax : 1 ≤ cfg.maxConnections)
    (hload : s.load ≤ cfg.maxConnections) (hroom : HasRoom cfg s event) :
    (s.next cfg event).load ≤ cfg.maxConnections := by
  cases event with
  | tick ms => exact hload
  | getConnection id => exact load_getConnection hmax hload hroom
  | release id =>
    change (s.entries.map _).length + s.creating ≤ _
    rw [List.length_map]
    exact hload
  | reapIdle => exact (load_reap _).trans hload
  | closeAll => exact (load_closeAll _).trans hload
  | disconnectSettles j ok =>
    change (s.disconnectSettles j ok).load ≤ _
    rw [disconnectSettles]
    split
    · cases ok <;> exact hload
    · exact hload
  | closedAppendSettles j ok =>
    change (s.closedAppendSettles j ok).load ≤ _
    rw [closedAppendSettles]
    split
    · cases ok <;> exact hload
    · exact hload
  | goesOn j => exact load_goesOn hmax hload hroom
  | connectSettles p outcome => exact (load_connectSettles p outcome).trans hload
  | creationAppendSettles p ok => exact (load_creationAppendSettles p ok).trans_le hload
  | callSettles i =>
    obtain ⟨calls, inflight, hsame⟩ := callSettles_eq (s := s) i
    change (s.callSettles i).load ≤ _
    rw [hsame]
    exact hload
  | execStart c =>
    change (s.execStart c).load ≤ _
    rw [execStart]
    split_ifs <;> exact hload
  | execEnd c => exact hload

end Pool

/-- The pool holds no more than `maxConnections`, in every run in which each `createAndConnect`
begins with room for its connection. -/
theorem pool_within_capacity (cfg : PoolConfig) (hmax : 1 ≤ cfg.maxConnections) (s : Pool)
    (h : (poolMachine cfg).Reaches (Pool.HasRoom cfg) .empty s) :
    s.entries.length ≤ cfg.maxConnections := by
  have hload : s.load ≤ cfg.maxConnections := by
    apply h.invariant (I := fun s => s.load ≤ cfg.maxConnections)
    · exact Nat.zero_le _
    · intro x e hx _ hroom
      exact Pool.load_next hmax hx hroom
  exact (Nat.le_add_right _ _).trans hload

def singlePool : PoolConfig := ⟨300000, 1, true⟩

/-- Two connections, one after the other. -/
def oneByOneEvents : List PoolEvent :=
  [.getConnection (js "a"), .connectSettles 0 .connected, .creationAppendSettles 0 true,
    .callSettles 0, .getConnection (js "b"), .disconnectSettles 0 true, .closedAppendSettles 0 true,
    .goesOn 0, .connectSettles 1 .connected]

theorem pool_within_capacity_one_by_one :
    ((poolMachine singlePool).after .empty oneByOneEvents).entries.length ≤ 1 :=
  pool_within_capacity singlePool (by decide) _
    (Automaton.Permits.reaches (C := Pool.HasRoom singlePool) (by decide))

/-- Two connects overlap, and both find room for one. -/
def overlappingEvents : List PoolEvent :=
  [.getConnection (js "a"), .getConnection (js "b"), .connectSettles 0 .connected,
    .connectSettles 1 .connected]

theorem pool_exceeds_capacity :
    ¬ ∀ s, (poolMachine singlePool).Reaches Automaton.anyEvent .empty s →
      s.entries.length ≤ singlePool.maxConnections := by
  intro h
  have hreaches : (poolMachine singlePool).Permits Automaton.anyEvent .empty overlappingEvents :=
    ⟨trivial, trivial, trivial, trivial, trivial, trivial, trivial, trivial, trivial⟩
  have hexceeds := h _ hreaches.reaches
  revert hexceeds
  decide

end Homelab
