import Homelab.PoolCapacity

/-! What the audit log says of the pooled connections: each opened one is pooled, closed in the log,
or one of those that left the map without an entry in the log. -/
namespace Homelab
open Js

/-- The promise is about to append `connection_opened`. -/
def Creation.toOpen (id : JsString) (cr : Creation) : Bool :=
  match cr.phase with
  | .appendingOpened _ => cr.id = id
  | _ => false

/-- The removal is to append `connection_closed`. -/
def Removal.toClose (id : JsString) : Removal → Bool
  | .disconnecting id' _ audits _ => audits && id' = id
  | .appending id' _ _ => id' = id
  | _ => false

namespace Pool

def keys (s : Pool) : List JsString := s.entries.map PoolEntry.id

def opened (id : JsString) (s : Pool) : ℕ := s.trail.count (.connectionOpened id)

def closed (id : JsString) (s : Pool) : ℕ := s.trail.count (.connectionClosed id)

/-- The pooled connections to the platform. -/
def live (id : JsString) (s : Pool) : ℕ := s.keys.count id

/-- What is opened beyond what is closed and what is pooled, appends that are to come included. -/
def surplus (id : JsString) (s : Pool) : ℤ :=
  (s.opened id + s.creations.countP (Creation.toOpen id) : ℕ) -
    (s.closed id + s.removals.countP (Removal.toClose id) + s.live id : ℕ)

/-- The entry that a `closeAll` removes next. -/
def closes (s : Pool) (ids : List JsString) : Option JsString :=
  ids.find? fun id => (s.pooled? id).isSome

/-- The event takes a connection to the platform out of the map, and nothing will be appended for
it: a `closeAll` removes it, or another one takes its place. -/
def unaudited (id : JsString) (s : Pool) : PoolEvent → Bool
  | .closeAll => s.closes s.keys = some id
  | .goesOn j =>
    match s.removals[j]? with
    | some (.resuming (.close ids)) => s.closes ids = some id
    | _ => false
  | .connectSettles p .connected =>
    match s.creations[p]? with
    | some ⟨id', _, .connecting _⟩ => id' = id && (s.pooled? id).isSome
    | _ => false
  | _ => false

/-- The events of a run that take a connection to the platform out of the map unaudited. -/
def lost (cfg : PoolConfig) (id : JsString) : Pool → List PoolEvent → ℕ
  | _, [] => 0
  | s, e :: es => (if s.unaudited id e then 1 else 0) + lost cfg id (s.next cfg e) es

variable {cfg : PoolConfig} {s : Pool} {e : PoolEntry} {id : JsString}

/-! ### One entry for each platform -/

theorem keys_stamp : (s.stamp id).keys = s.keys := by
  rw [keys, stamp, List.map_map]
  apply List.map_congr_left
  intro e _
  change (if e.id = id then { e with lastUsedAt := s.now } else e).id = e.id
  split_ifs <;> rfl

theorem keys_remove (reason : DisconnectReason) (audits : Bool) (next : After) :
    (s.remove e reason audits next).keys = s.keys.filter fun k => k ≠ e.id := by
  rw [keys, keys, List.filter_map]
  rfl

theorem pooled?_isSome : (s.pooled? id).isSome = true ↔ id ∈ s.keys := by
  rw [pooled?, List.find?_isSome, keys, List.mem_map]
  constructor
  · rintro ⟨e, he, hid⟩
    exact ⟨e, he, of_decide_eq_true hid⟩
  · rintro ⟨e, he, hid⟩
    exact ⟨e, he, decide_eq_true hid⟩

theorem keys_insert (c : ℕ) :
    (s.insert id c).keys = if (s.pooled? id).isSome then s.keys else s.keys ++ [id] := by
  rw [insert]
  cases s.pooled? id with
  | some e =>
    change (s.entries.map _).map PoolEntry.id = s.entries.map PoolEntry.id
    rw [List.map_map]
    apply List.map_congr_left
    intro e' _
    change (if e'.id = id then (⟨id, c, s.now⟩ : PoolEntry) else e').id = e'.id
    split_ifs with h
    · exact h.symm
    · rfl
  | none => exact List.map_append ..

theorem live_of_mem (hunique : s.keys.Nodup) (h : e ∈ s.entries) : s.live e.id = 1 :=
  List.count_eq_one_of_mem hunique (List.mem_map_of_mem h)

/-! ### What an event does to the surplus -/

theorem surplus_remove (hunique : s.keys.Nodup) (h : e ∈ s.entries) (reason : DisconnectReason)
    (audits : Bool) (next : After) :
    (s.remove e reason audits next).surplus id =
      s.surplus id + if !audits && e.id = id then 1 else 0 := by
  have hopened : (s.remove e reason audits next).opened id = s.opened id := rfl
  have hclosed : (s.remove e reason audits next).closed id = s.closed id := rfl
  have hcreations : (s.remove e reason audits next).creations = s.creations := rfl
  have hremovals : (s.remove e reason audits next).removals.countP (Removal.toClose id) =
      s.removals.countP (Removal.toClose id) + if audits && e.id = id then 1 else 0 := by
    change (s.removals ++ [_]).countP _ = _
    rw [List.countP_append, List.countP_singleton]
    rfl
  have hlive : (s.remove e reason audits next).live id + (if e.id = id then 1 else 0) = s.live id := by
    rw [live, keys_remove]
    by_cases hid : e.id = id
    · rw [if_pos hid, ← hid, live_of_mem hunique h, List.count_eq_zero_of_not_mem]
      simp
    · rw [if_neg hid, List.count_filter (by simpa using fun h => hid h.symm)]
      rfl
  rw [surplus, surplus, hopened, hclosed, hcreations, hremovals, ← hlive]
  by_cases hid : e.id = id
  · cases audits <;> simp [hid] <;> omega
  · simp [hid]

/-- A step that touches none of what is counted. -/
theorem surplus_congr {s' : Pool} (htrail : s'.trail = s.trail) (hkeys : s'.keys = s.keys)
    (hcreations : s'.creations.countP (Creation.toOpen id) = s.creations.countP (Creation.toOpen id))
    (hremovals : s'.removals.countP (Removal.toClose id) = s.removals.countP (Removal.toClose id)) :
    s'.surplus id = s.surplus id := by
  rw [surplus, surplus, opened, opened, closed, closed, live, live, htrail, hkeys, hcreations, hremovals]

theorem connect_toOpen (p : ℕ) :
    (s.connect p).creations.countP (Creation.toOpen id) = s.creations.countP (Creation.toOpen id) := by
  rw [connect]
  split
  · next id' owner hp =>
    have hcount := countP_set_some (p := Creation.toOpen id)
      (a := ⟨id', owner, .connecting s.conns.length⟩) hp
    exact hcount
  · rfl

theorem connect_frame (p : ℕ) : (s.connect p).trail = s.trail ∧ (s.connect p).entries = s.entries ∧
    (s.connect p).removals = s.removals := by
  rw [connect]
  split <;> exact ⟨rfl, rfl, rfl⟩

theorem surplus_connect (p : ℕ) : (s.connect p).surplus id = s.surplus id := by
  obtain ⟨htrail, hentries, hremovals⟩ := connect_frame (s := s) p
  apply surplus_congr htrail
  · rw [keys, hentries, keys]
  · exact connect_toOpen p
  · rw [hremovals]

/-- What every event does: the keys stay apart, and the surplus grows by what is lost. -/
structure Accounts (id : JsString) (s s' : Pool) (lost : Bool) : Prop where
  unique : s.keys.Nodup → s'.keys.Nodup
  surplus : s.keys.Nodup → s'.surplus id = s.surplus id + if lost then 1 else 0

theorem accounts_refl : Accounts id s s false := ⟨fun h => h, fun _ => (add_zero _).symm⟩

theorem accounts_remove (h : e ∈ s.entries) (reason : DisconnectReason) (audits : Bool) (next : After) :
    Accounts id s (s.remove e reason audits next) (!audits && e.id = id) where
  unique hunique := by
    rw [keys_remove]
    exact hunique.filter _
  surplus hunique := surplus_remove hunique h reason audits next

theorem accounts_evict (haudited : cfg.audited = true) (h : e ∈ s.entries) (reason : DisconnectReason)
    (next : After) : Accounts id s (s.evict cfg e reason next) false := by
  have hremove : Accounts id s (s.remove e reason cfg.audited next) (!cfg.audited && e.id = id) :=
    accounts_remove h reason cfg.audited next
  rw [haudited] at hremove
  rw [evict, haudited]
  exact hremove

/-- A step that leaves the map and the counts as they are. -/
theorem accounts_congr {s' : Pool} (htrail : s'.trail = s.trail) (hkeys : s'.keys = s.keys)
    (hcreations : s'.creations.countP (Creation.toOpen id) = s.creations.countP (Creation.toOpen id))
    (hremovals : s'.removals.countP (Removal.toClose id) = s.removals.countP (Removal.toClose id)) :
    Accounts id s s' false where
  unique hunique := hkeys ▸ hunique
  surplus _ := (surplus_congr htrail hkeys hcreations hremovals).trans (add_zero _).symm

theorem Accounts.trans {s' s'' : Pool} {lost : Bool} (h : Accounts id s s' false)
    (h' : Accounts id s' s'' lost) : Accounts id s s'' lost where
  unique hunique := h'.unique (h.unique hunique)
  surplus hunique := by
    have hfirst := h.surplus hunique
    rw [if_neg Bool.false_ne_true, add_zero] at hfirst
    rw [h'.surplus (h.unique hunique), hfirst]

theorem accounts_connect (p : ℕ) : Accounts id s (s.connect p) false where
  unique hunique := by
    rw [keys, (connect_frame p).2.1]
    exact hunique
  surplus _ := (surplus_connect p).trans (add_zero _).symm

theorem accounts_create {i : ℕ} {id' : JsString} {overlapped : List ℕ} (haudited : cfg.audited = true) :
    Accounts id s (s.create cfg i id' overlapped) false := by
  rw [create]
  set s' : Pool := { s with
    creations := s.creations ++ [⟨id', i, .evicting⟩]
    inflight := s.inflight ++ [(id', s.creations.length)]
    calls := s.calls.set i ⟨id', .waiting s.creations.length, overlapped⟩ } with hs'
  have htrail : s'.trail = s.trail := rfl
  have hkeys : s'.keys = s.keys := rfl
  have hremovals : s'.removals = s.removals := rfl
  have hbegun : Accounts id s s' false := by
    apply accounts_congr htrail hkeys _ (by rw [hremovals])
    rw [hs', List.countP_append, List.countP_singleton]
    rfl
  apply hbegun.trans
  split_ifs
  · cases holdest : oldest s.entries with
    | none => exact accounts_connect _
    | some e =>
      have hmem : e ∈ s'.entries := oldest_mem holdest
      exact accounts_evict haudited hmem .full _
  · exact accounts_connect _

theorem accounts_joinOrCreate {i : ℕ} (haudited : cfg.audited = true) :
    Accounts id s (s.joinOrCreate cfg i) false := by
  rw [joinOrCreate]
  split
  · split
    · exact accounts_congr rfl rfl rfl rfl
    · exact accounts_create haudited
  · exact accounts_refl

theorem accounts_reap (haudited : cfg.audited = true) (ids : List JsString) :
    Accounts id s (s.reap cfg ids) false := by
  induction ids with
  | nil => exact accounts_refl
  | cons k ids ih =>
    rw [reap]
    cases hentry : s.pooled? k with
    | none => exact ih
    | some e =>
      dsimp only
      split_ifs
      · exact accounts_evict haudited (pooled?_mem hentry).1 .stale _
      · exact ih

theorem accounts_closeAll (ids : List JsString) :
    Accounts id s (s.closeAll ids) (s.closes ids = some id) := by
  induction ids with
  | nil => exact accounts_refl
  | cons k ids ih =>
    rw [closeAll, closes, List.find?_cons]
    cases hentry : s.pooled? k with
    | none => exact ih
    | some e =>
      obtain ⟨hmem, hk⟩ := pooled?_mem hentry
      have hremove : Accounts id s (s.remove e .closing false (.close ids)) (!false && e.id = id) :=
        accounts_remove hmem .closing false (.close ids)
      have hsame : decide (some k = some id) = (!false && decide (e.id = id)) := by
        rw [hk]
        simp
      dsimp only [Option.isSome_some]
      rw [hsame]
      exact hremove

theorem accounts_setRemoval {j : ℕ} {r r' : Removal} (hj : s.removals[j]? = some r)
    (hsame : r.toClose id = r'.toClose id) : Accounts id s (s.setRemoval j r') false := by
  have hcount := countP_set_some (p := Removal.toClose id) (a := r') hj
  rw [hsame] at hcount
  exact accounts_congr (rfl : (s.setRemoval j r').trail = s.trail) rfl rfl (Nat.add_right_cancel hcount)

theorem accounts_goesOn {j : ℕ} (haudited : cfg.audited = true) :
    Accounts id s (s.goesOn cfg j) (s.unaudited id (.goesOn j)) := by
  rw [goesOn, unaudited]
  cases hj : s.removals[j]? with
  | none => exact accounts_refl
  | some r =>
    cases r with
    | resuming next =>
      have hended : Accounts id s (s.setRemoval j .ended) false := accounts_setRemoval hj rfl
      cases next with
      | get i => exact hended.trans (accounts_joinOrCreate haudited)
      | create p => exact hended.trans (accounts_connect p)
      | reap ids => exact hended.trans (accounts_reap haudited ids)
      | close ids => exact hended.trans (accounts_closeAll ids)
    | _ => exact accounts_refl

theorem accounts_disconnectSettles (j : ℕ) (ok : Bool) :
    Accounts id s (s.disconnectSettles j ok) false := by
  rw [disconnectSettles]
  split
  · next id' c audits next hj =>
    have hstatus : Accounts id s (if ok then s.setStatus c .disconnected else s) false := by
      split_ifs
      · exact accounts_congr rfl rfl rfl rfl
      · exact accounts_refl
    have hremovals : (if ok then s.setStatus c .disconnected else s).removals[j]? =
        some (.disconnecting id' c audits next) := by
      split_ifs <;> exact hj
    apply hstatus.trans
    apply accounts_setRemoval hremovals
    cases audits <;> rfl
  · exact accounts_refl

theorem accounts_closedAppendSettles (j : ℕ) :
    Accounts id s (s.closedAppendSettles j true) false := by
  rw [closedAppendSettles]
  split
  · next id' c next hj =>
    set s' := (s.audit (.connectionClosed id') true).setRemoval j (.resuming next) with hs'
    have htrail : s'.trail = .connectionClosed id' :: s.trail := rfl
    have hkeys : s'.keys = s.keys := rfl
    have hcreations : s'.creations = s.creations := rfl
    have hremovals : s'.removals = s.removals.set j (.resuming next) := rfl
    refine ⟨fun hunique => hunique, fun _ => ?_⟩
    -- the append that was to come is there
    have hcount := countP_set_some (p := Removal.toClose id) (a := Removal.resuming next) hj
    have hclosed : s'.closed id = s.closed id + if id' = id then 1 else 0 := by
      rw [closed, htrail, List.count_cons]
      simp [closed]
    have hopened : s'.opened id = s.opened id := by
      rw [opened, htrail, List.count_cons]
      simp [opened]
    rw [surplus, surplus, hclosed, hopened, live, live, hkeys, hcreations, hremovals]
    simp only [Removal.toClose, decide_eq_true_eq, Bool.false_eq_true, if_false] at hcount ⊢
    omega
  · exact accounts_refl

theorem accounts_creationAppendSettles (p : ℕ) :
    Accounts id s (s.creationAppendSettles p true) false := by
  rw [creationAppendSettles]
  split
  · next id' owner c hp =>
    set s' := (s.audit (.connectionOpened id') true).setCreation p
      ⟨id', owner, if true then .fulfilled c else .rejected⟩ with hs'
    have htrail : s'.trail = .connectionOpened id' :: s.trail := rfl
    have hkeys : s'.keys = s.keys := rfl
    have hremovals : s'.removals = s.removals := rfl
    have hcreations : s'.creations = s.creations.set p ⟨id', owner, .fulfilled c⟩ := rfl
    refine ⟨fun hunique => hunique, fun _ => ?_⟩
    have hcount := countP_set_some (p := Creation.toOpen id) (a := ⟨id', owner, .fulfilled c⟩) hp
    have hopened : s'.opened id = s.opened id + if id' = id then 1 else 0 := by
      rw [opened, htrail, List.count_cons]
      simp [opened]
    have hclosed : s'.closed id = s.closed id := by
      rw [closed, htrail, List.count_cons]
      simp [closed]
    rw [surplus, surplus, hclosed, hopened, live, live, hkeys, hcreations, hremovals]
    simp only [Creation.toOpen, decide_eq_true_eq, Bool.false_eq_true, if_false] at hcount ⊢
    omega
  · next id' owner c hp =>
    have hcount := countP_set_some (p := Creation.toOpen id) (a := ⟨id', owner, .rejected⟩) hp
    have htrail : ((s.audit (.connectionFailed id') true).setCreation p ⟨id', owner, .rejected⟩).trail =
        .connectionFailed id' :: s.trail := rfl
    refine ⟨fun hunique => hunique, fun _ => ?_⟩
    rw [surplus, surplus, opened, closed, htrail, List.count_cons, List.count_cons]
    change ((s.trail.count (.connectionOpened id) + 0 +
        (s.creations.set p ⟨id', owner, .rejected⟩).countP (Creation.toOpen id) : ℕ) : ℤ) -
      ((s.trail.count (.connectionClosed id) + 0 + _ + _ : ℕ) : ℤ) = _
    rw [show (s.creations.set p ⟨id', owner, .rejected⟩).countP (Creation.toOpen id) =
      s.creations.countP (Creation.toOpen id) from hcount]
    exact (add_zero _).symm
  · exact accounts_refl

/-- A connect that succeeds puts its connection into the map, where there may be one already. -/
theorem accounts_connected {p c owner : ℕ} {id' : JsString} (haudited : cfg.audited = true)
    (hp : s.creations[p]? = some ⟨id', owner, .connecting c⟩) :
    Accounts id s (((s.setStatus c .connected).insert id' c).setCreation p
      ⟨id', owner, if cfg.audited then .appendingOpened c else .fulfilled c⟩)
      (id' = id && (s.pooled? id).isSome) := by
  rw [haudited, if_pos rfl]
  set s' := ((s.setStatus c .connected).insert id' c).setCreation p ⟨id', owner, .appendingOpened c⟩
    with hs'
  have hinsert : ((s.setStatus c .connected).insert id' c).trail = s.trail ∧
      ((s.setStatus c .connected).insert id' c).removals = s.removals ∧
      ((s.setStatus c .connected).insert id' c).creations = s.creations := by
    rw [insert]
    split <;> exact ⟨rfl, rfl, rfl⟩
  -- `Map.set` adds a key only where there was none
  have hkeys : s'.keys = if (s.pooled? id').isSome then s.keys else s.keys ++ [id'] :=
    keys_insert (s := s.setStatus c .connected) c
  have hcount := countP_set_some (p := Creation.toOpen id) (a := ⟨id', owner, .appendingOpened c⟩) hp
  constructor
  · intro hunique
    rw [hkeys]
    split_ifs with hmem
    · exact hunique
    · rw [pooled?_isSome] at hmem
      exact List.Nodup.append hunique (List.nodup_singleton _) (List.disjoint_singleton.mpr hmem)
  · intro _
    have hopened : s'.opened id = s.opened id := congrArg (List.count _) hinsert.1
    have hclosed : s'.closed id = s.closed id := congrArg (List.count _) hinsert.1
    have hremovals : s'.removals = s.removals := hinsert.2.1
    have hcreations : s'.creations = s.creations.set p ⟨id', owner, .appendingOpened c⟩ :=
      congrArg (List.set · p _) hinsert.2.2
    have hbefore : (⟨id', owner, .connecting c⟩ : Creation).toOpen id = false := rfl
    have hafter : (⟨id', owner, .appendingOpened c⟩ : Creation).toOpen id = decide (id' = id) := rfl
    rw [hbefore, hafter, if_neg Bool.false_ne_true, add_zero] at hcount
    rw [surplus, surplus, hopened, hclosed, hremovals, hcreations, hcount, live, live, hkeys]
    by_cases hid : id' = id
    · rw [hid]
      by_cases hmem : (s.pooled? id).isSome = true
      · simp only [hmem, decide_true, if_true, Bool.and_self]
        omega
      · rw [if_neg hmem, List.count_append, List.count_singleton_self]
        simp only [hmem, decide_true, if_true, Bool.and_false, Bool.false_eq_true, if_false]
        omega
    · have hkept : (if (s.pooled? id').isSome then s.keys else s.keys ++ [id']).count id =
          s.keys.count id := by
        split_ifs
        · rfl
        · rw [List.count_append, List.count_singleton, if_neg (by simpa using hid), Nat.add_zero]
      rw [hkept]
      simp only [hid, decide_false, Bool.false_and, Bool.false_eq_true, if_false]
      omega

theorem accounts_connectSettles (haudited : cfg.audited = true) (p : ℕ) (outcome : ConnectOutcome) :
    Accounts id s (s.connectSettles cfg p outcome) (s.unaudited id (.connectSettles p outcome)) := by
  rw [connectSettles]
  split
  · next id' owner c hp =>
    have hfailed {cr : Creation} (hcr : cr.toOpen id = false) :
        Accounts id s ((s.setStatus c .failed).setCreation p cr) false := by
      have hcount := countP_set_some (p := Creation.toOpen id) (a := cr) hp
      rw [hcr] at hcount
      exact accounts_congr (rfl : ((s.setStatus c .failed).setCreation p cr).trail = s.trail) rfl
        hcount rfl
    cases outcome with
    | connected =>
      rw [unaudited, hp]
      exact accounts_connected haudited hp
    | refused =>
      apply hfailed
      cases cfg.audited <;> rfl
    | factoryThrew => exact hfailed rfl
  · next hother =>
    have hnone : s.unaudited id (.connectSettles p outcome) = false := by
      cases outcome with
      | connected =>
        rw [unaudited]
        split
        · next id' owner c hp => exact absurd hp (hother id' owner c)
        · rfl
      | _ => rfl
    rw [hnone]
    exact accounts_refl

theorem accounts_getConnection {id' : JsString} (haudited : cfg.audited = true) :
    Accounts id s (s.getConnection cfg id') false := by
  have hcalled (calls : List GetCall) : Accounts id s { s with calls := calls } false :=
    accounts_congr rfl rfl rfl rfl
  rw [getConnection]
  cases hentry : s.pooled? id' with
  | some e =>
    dsimp only
    split_ifs
    · refine (hcalled (s.calls ++ [⟨id', .evicting, s.connecting id'⟩])).trans ?_
      exact accounts_evict (s := { s with calls := s.calls ++ [⟨id', .evicting, s.connecting id'⟩] })
        haudited (pooled?_mem hentry).1 .stale _
    · exact accounts_congr rfl keys_stamp rfl rfl
  | none =>
    refine (hcalled (s.calls ++ [⟨id', .evicting, s.connecting id'⟩])).trans ?_
    exact accounts_joinOrCreate haudited

/-- The event is no append that fails. -/
def appends : PoolEvent → Bool
  | .closedAppendSettles _ ok => ok
  | .creationAppendSettles _ ok => ok
  | _ => true

theorem accounts_next {event : PoolEvent} (haudited : cfg.audited = true)
    (happends : appends event = true) :
    Accounts id s (s.next cfg event) (s.unaudited id event) := by
  cases event with
  | tick ms => exact accounts_congr rfl rfl rfl rfl
  | getConnection id' => exact accounts_getConnection haudited
  | release id' => exact accounts_congr rfl keys_stamp rfl rfl
  | reapIdle => exact accounts_reap haudited _
  | closeAll => exact accounts_closeAll _
  | disconnectSettles j ok => exact accounts_disconnectSettles j ok
  | closedAppendSettles j ok =>
    obtain rfl : ok = true := happends
    exact accounts_closedAppendSettles j
  | goesOn j => exact accounts_goesOn haudited
  | connectSettles p outcome => exact accounts_connectSettles haudited p outcome
  | creationAppendSettles p ok =>
    obtain rfl : ok = true := happends
    exact accounts_creationAppendSettles p
  | callSettles i =>
    obtain ⟨calls, inflight, hsame⟩ := callSettles_eq (s := s) i
    change Accounts id s (s.callSettles i) false
    rw [hsame]
    exact accounts_congr rfl rfl rfl rfl
  | execStart c =>
    change Accounts id s (s.execStart c) false
    rw [execStart]
    split_ifs
    · exact accounts_congr rfl rfl rfl rfl
    · exact accounts_refl
  | execEnd c => exact accounts_congr rfl rfl rfl rfl

/-- A run, whatever is lost on the way. -/
theorem surplus_after (haudited : cfg.audited = true) {es : List PoolEvent}
    (happends : ∀ e ∈ es, appends e = true) (hunique : s.keys.Nodup) :
    ((poolMachine cfg).after s es).keys.Nodup ∧
      ((poolMachine cfg).after s es).surplus id = s.surplus id + lost cfg id s es := by
  induction es generalizing s with
  | nil => exact ⟨hunique, (add_zero _).symm⟩
  | cons e es ih =>
    obtain ⟨hhead, htail⟩ := List.forall_mem_cons.mp happends
    have hstep : Accounts id s (s.next cfg e) (unaudited id s e) := accounts_next haudited hhead
    obtain ⟨hkeys, hrest⟩ := ih htail (hstep.unique hunique)
    refine ⟨hkeys, hrest.trans ?_⟩
    have hstep' := hstep.surplus hunique
    rw [hstep', lost]
    push_cast
    ring

theorem Settled.surplus (h : s.Settled) : s.surplus id = s.opened id - (s.closed id + s.live id : ℕ) := by
  have hcreations : s.creations.countP (Creation.toOpen id) = 0 := by
    apply List.countP_eq_zero.mpr
    intro cr hcr hopen
    have hsettled := h.creations cr hcr
    obtain ⟨id', owner, phase⟩ := cr
    cases phase with
    | appendingOpened c => cases hsettled
    | _ => cases hopen
  have hremovals : s.removals.countP (Removal.toClose id) = 0 := by
    apply List.countP_eq_zero.mpr
    intro r hr hclose
    rw [h.removals r hr] at hclose
    cases hclose
  rw [Pool.surplus, hcreations, hremovals]
  rfl

end Pool

/-- Once all calls have settled, the log pairs the connections of each platform exactly when none of
them was removed by `closeAll` or overwritten in the map. -/
theorem trail_pairs_iff (cfg : PoolConfig) (haudited : cfg.audited = true) (es : List PoolEvent)
    (happends : ∀ e ∈ es, Pool.appends e = true) (s : Pool) (hs : s = (poolMachine cfg).after .empty es)
    (hsettled : s.Settled) :
    (∀ id, s.live id ≤ 1 ∧ (s.opened id - s.closed id : ℤ) = s.live id) ↔
      ∀ id, Pool.lost cfg id .empty es = 0 := by
  apply forall_congr'
  intro id
  have hempty : Pool.empty.keys.Nodup := List.nodup_nil
  obtain ⟨hunique, hsurplus⟩ : ((poolMachine cfg).after .empty es).keys.Nodup ∧
      ((poolMachine cfg).after .empty es).surplus id =
        Pool.empty.surplus id + Pool.lost cfg id .empty es :=
    Pool.surplus_after haudited happends hempty
  rw [← hs] at hunique hsurplus
  rw [hsettled.surplus] at hsurplus
  have hstart : Pool.empty.surplus id = 0 := rfl
  rw [hstart] at hsurplus
  have hlive : s.live id ≤ 1 := List.nodup_iff_count_le_one.mp hunique id
  constructor
  · rintro ⟨_, hpairs⟩
    omega
  · intro hlost
    exact ⟨hlive, by omega⟩

/-- A connection is opened and removed by `closeAll`. -/
def closedEvents : List PoolEvent :=
  [.getConnection (js "a"), .connectSettles 0 .connected, .creationAppendSettles 0 true,
    .callSettles 0, .closeAll, .disconnectSettles 0 true, .goesOn 0]

/-- A connection is opened, and another takes its place when the pool is full. -/
def replacedEvents : List PoolEvent := oneByOneEvents ++ [.creationAppendSettles 1 true, .callSettles 1]

theorem trail_pairs_replaced :
    (∀ id, ((poolMachine singlePool).after .empty replacedEvents).live id ≤ 1 ∧
      (((poolMachine singlePool).after .empty replacedEvents).opened id -
        ((poolMachine singlePool).after .empty replacedEvents).closed id : ℤ) =
          ((poolMachine singlePool).after .empty replacedEvents).live id) ↔
      ∀ id, Pool.lost singlePool id .empty replacedEvents = 0 :=
  trail_pairs_iff singlePool rfl replacedEvents (by decide) _ rfl
    ⟨by decide, by decide, by decide⟩

/-- A connection that `closeAll` has removed stays open in the log. -/
theorem trail_pairs_fails : ¬ ∀ (es : List PoolEvent) (s : Pool),
    (∀ e ∈ es, Pool.appends e = true) → s = (poolMachine singlePool).after .empty es → s.Settled →
      ∀ id, s.live id ≤ 1 ∧ (s.opened id - s.closed id : ℤ) = s.live id := by
  intro h
  have hpairs := h closedEvents _ (by decide) rfl ⟨by decide, by decide, by decide⟩ (js "a")
  revert hpairs
  decide

end Homelab
