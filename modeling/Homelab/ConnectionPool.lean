import Homelab.Automaton
import Homelab.JsNumber

/-! `ConnectionPool` between the awaits: the map of pooled connections, the map of connects in
flight, and the calls that wait for a connect, a disconnect or an append to the audit log. -/
namespace Homelab
open Js

/-! ### Connections -/

inductive ConnStatus
  | connecting
  | failed
  | connected
  | disconnected
deriving DecidableEq

/-- A connection that the factory has made, and the commands that its users run on it. -/
structure PooledConn where
  id : JsString
  status : ConnStatus
  running : ℕ
  lastExecEnd : Option ℕ
deriving DecidableEq

structure PoolEntry where
  id : JsString
  conn : ℕ
  lastUsedAt : ℕ
deriving DecidableEq

/-- Why a connection is disconnected: it is stale, the pool is full, or `closeAll`. -/
inductive DisconnectReason
  | stale
  | full
  | closing
deriving DecidableEq

/-- A call of `disconnect`, and the connection at that time. -/
structure Disconnect where
  conn : ℕ
  reason : DisconnectReason
  time : ℕ
  running : ℕ
  lastExecEnd : Option ℕ
deriving DecidableEq

inductive PoolAudit
  | connectionOpened (id : JsString)
  | connectionClosed (id : JsString)
  | connectionFailed (id : JsString)
deriving DecidableEq

/-! ### Calls -/

/-- What goes on when a connection has been removed: a `getConnection`, a `createAndConnect`, a
`reapIdle` or a `closeAll`, the last two with the ids that are left of their loops. -/
inductive After
  | get (i : ℕ)
  | create (p : ℕ)
  | reap (ids : List JsString)
  | close (ids : List JsString)
deriving DecidableEq

/-- A removal: it waits for the disconnect, and if it is audited for the append. -/
inductive Removal
  | disconnecting (id : JsString) (conn : ℕ) (audits : Bool) (next : After)
  | appending (id : JsString) (conn : ℕ) (next : After)
  | resuming (next : After)
  | ended
deriving DecidableEq

inductive CreationPhase
  | evicting
  | connecting (conn : ℕ)
  | appendingFailed (conn : ℕ)
  | appendingOpened (conn : ℕ)
  | fulfilled (conn : ℕ)
  | rejected
deriving DecidableEq

/-- The promise of a `createAndConnect`, and the call that has begun it. -/
structure Creation where
  id : JsString
  owner : ℕ
  phase : CreationPhase
deriving DecidableEq

def Creation.settled (cr : Creation) : Bool :=
  match cr.phase with
  | .fulfilled _ => true
  | .rejected => true
  | _ => false

/-- A creation that has not put its connection into the map. -/
def Creation.inserts (cr : Creation) : Bool :=
  match cr.phase with
  | .evicting => true
  | .connecting _ => true
  | _ => false

/-- The connection of the creation, once the factory has made it. -/
def Creation.conn? (cr : Creation) : Option ℕ :=
  match cr.phase with
  | .connecting c => some c
  | .appendingFailed c => some c
  | .appendingOpened c => some c
  | .fulfilled c => some c
  | _ => none

inductive CallPhase
  | evicting
  | waiting (p : ℕ)
  | returned (conn : ℕ)
  | rejected
deriving DecidableEq

/-- A `getConnection`, and the connections to its platform whose connects it has overlapped. -/
structure GetCall where
  id : JsString
  phase : CallPhase
  overlapped : List ℕ
deriving DecidableEq

def GetCall.settled (call : GetCall) : Bool :=
  match call.phase with
  | .returned _ => true
  | .rejected => true
  | _ => false

/-! ### The pool -/

structure PoolConfig where
  idleTimeoutMs : ℕ
  maxConnections : ℕ
  audited : Bool

structure Pool where
  now : ℕ
  entries : List PoolEntry
  inflight : List (JsString × ℕ)
  conns : List PooledConn
  calls : List GetCall
  creations : List Creation
  removals : List Removal
  trail : List PoolAudit
  disconnects : List Disconnect
deriving DecidableEq

def Pool.empty : Pool := ⟨0, [], [], [], [], [], [], [], []⟩

namespace Pool

variable (cfg : PoolConfig) (s : Pool)

def pooled? (id : JsString) : Option PoolEntry := s.entries.find? fun e => e.id = id

/-- `inflight.get(id)` -/
def inflight? (id : JsString) : Option ℕ := s.inflight.lookup id

def isStale (e : PoolEntry) : Bool := e.lastUsedAt+cfg.idleTimeoutMs < s.now

def stamp (id : JsString) : Pool :=
  { s with entries := s.entries.map fun e => if e.id = id then { e with lastUsedAt := s.now } else e }

/-- `entries.set(id, { conn, lastUsedAt: now })` -/
def insert (id : JsString) (c : ℕ) : Pool :=
  match s.pooled? id with
  | some _ => { s with entries := s.entries.map fun e => if e.id = id then ⟨id, c, s.now⟩ else e }
  | none => { s with entries := s.entries ++ [⟨id, c, s.now⟩] }

/-- The entry leaves the map, and `disconnect` is called on its connection. -/
def remove (e : PoolEntry) (reason : DisconnectReason) (audits : Bool) (next : After) : Pool :=
  let conn := s.conns.getD e.conn ⟨e.id, .failed, 0, none⟩
  { s with
    entries := s.entries.filter fun e' => e'.id ≠ e.id
    removals := s.removals ++ [.disconnecting e.id e.conn audits next]
    disconnects := ⟨e.conn, reason, s.now, conn.running, conn.lastExecEnd⟩ :: s.disconnects }

/-- `evict`, for an entry that is in the map -/
def evict (e : PoolEntry) (reason : DisconnectReason) (next : After) : Pool :=
  s.remove e reason cfg.audited next

/-- The entry that `evictLRU` finds: the first of those used least recently. -/
def oldest : List PoolEntry → Option PoolEntry
  | [] => none
  | e :: es =>
    match oldest es with
    | none => some e
    | some o => if o.lastUsedAt < e.lastUsedAt then some o else some e

/-- The call has not got its result: it evicts, or its promise is not settled. -/
def isOpen (call : GetCall) : Bool :=
  match call.phase with
  | .evicting => true
  | .waiting p => (s.creations[p]?).any fun cr => !cr.settled
  | _ => false

/-- `createAndConnect` from the factory on. -/
def connect (p : ℕ) : Pool :=
  match s.creations[p]? with
  | some ⟨id, owner, .evicting⟩ =>
    let c := s.conns.length
    { s with
      conns := s.conns ++ [⟨id, .connecting, 0, none⟩]
      creations := s.creations.set p ⟨id, owner, .connecting c⟩
      calls := s.calls.map fun call =>
        if call.id = id && s.isOpen call then { call with overlapped := c :: call.overlapped }
        else call }
  | _ => s

/-- `createAndConnect` for the call `i`, which waits for it. -/
def create (i : ℕ) (id : JsString) (overlapped : List ℕ) : Pool :=
  let p := s.creations.length
  let s' : Pool := { s with
    creations := s.creations ++ [⟨id, i, .evicting⟩]
    inflight := s.inflight ++ [(id, p)]
    calls := s.calls.set i ⟨id, .waiting p, overlapped⟩ }
  if cfg.maxConnections ≤ s.entries.length then
    match oldest s.entries with
    | some e => s'.evict cfg e .full (.create p)
    | none => s'.connect p
  else s'.connect p

/-- `getConnection` from the look at `inflight` on. -/
def joinOrCreate (i : ℕ) : Pool :=
  match s.calls[i]? with
  | some ⟨id, .evicting, overlapped⟩ =>
    match s.inflight? id with
    | some p => { s with calls := s.calls.set i ⟨id, .waiting p, overlapped⟩ }
    | none => s.create cfg i id overlapped
  | _ => s

/-- The connections to a platform whose connects are under way. -/
def connecting (id : JsString) : List ℕ :=
  (List.range s.conns.length).filter fun c =>
    (s.conns[c]?).any fun conn => conn.id = id && conn.status = .connecting

def getConnection (id : JsString) : Pool :=
  let i := s.calls.length
  let called (phase : CallPhase) : List GetCall := s.calls ++ [⟨id, phase, s.connecting id⟩]
  match s.pooled? id with
  | some e =>
    if s.isStale cfg e then { s with calls := called .evicting }.evict cfg e .stale (.get i)
    else { s.stamp id with calls := called (.returned e.conn) }
  | none => { s with calls := called .evicting }.joinOrCreate cfg i

/-- The loop of `reapIdle`, up to the next await. -/
def reap : List JsString → Pool
  | [] => s
  | id :: ids =>
    match s.pooled? id with
    | some e => if s.isStale cfg e then s.evict cfg e .stale (.reap ids) else reap ids
    | none => reap ids

/-- The loop of `closeAll`, up to the next await. -/
def closeAll : List JsString → Pool
  | [] => s
  | id :: ids =>
    match s.pooled? id with
    | some e => s.remove e .closing false (.close ids)
    | none => closeAll ids

def goOn : After → Pool
  | .get i => s.joinOrCreate cfg i
  | .create p => s.connect p
  | .reap ids => s.reap cfg ids
  | .close ids => s.closeAll ids

def setStatus (c : ℕ) (status : ConnStatus) : Pool :=
  { s with conns := s.conns.modify c fun conn => { conn with status := status } }

def setRemoval (j : ℕ) (r : Removal) : Pool := { s with removals := s.removals.set j r }

def setCreation (p : ℕ) (cr : Creation) : Pool := { s with creations := s.creations.set p cr }

def audit (event : PoolAudit) (ok : Bool) : Pool :=
  if ok then { s with trail := event :: s.trail } else s

end Pool

/-! ### Events -/

/-- How `conn.connect()` ends; the factory may have thrown instead. -/
inductive ConnectOutcome
  | connected
  | refused
  | factoryThrew

inductive PoolEvent
  | tick (ms : ℕ)
  | getConnection (id : JsString)
  | release (id : JsString)
  | reapIdle
  | closeAll
  | disconnectSettles (j : ℕ) (ok : Bool)
  | closedAppendSettles (j : ℕ) (ok : Bool)
  | goesOn (j : ℕ)
  | connectSettles (p : ℕ) (outcome : ConnectOutcome)
  | creationAppendSettles (p : ℕ) (ok : Bool)
  | callSettles (i : ℕ)
  | execStart (c : ℕ)
  | execEnd (c : ℕ)

namespace Pool

variable (cfg : PoolConfig) (s : Pool)

def disconnectSettles (j : ℕ) (ok : Bool) : Pool :=
  match s.removals[j]? with
  | some (.disconnecting id c audits next) =>
    (if ok then s.setStatus c .disconnected else s).setRemoval j
      (if audits then .appending id c next else .resuming next)
  | _ => s

def closedAppendSettles (j : ℕ) (ok : Bool) : Pool :=
  match s.removals[j]? with
  | some (.appending id _ next) =>
    (s.audit (.connectionClosed id) ok).setRemoval j (.resuming next)
  | _ => s

def goesOn (j : ℕ) : Pool :=
  match s.removals[j]? with
  | some (.resuming next) => (s.setRemoval j .ended).goOn cfg next
  | _ => s

def connectSettles (p : ℕ) (outcome : ConnectOutcome) : Pool :=
  match s.creations[p]? with
  | some ⟨id, owner, .connecting c⟩ =>
    match outcome with
    | .connected => ((s.setStatus c .connected).insert id c).setCreation p
        ⟨id, owner, if cfg.audited then .appendingOpened c else .fulfilled c⟩
    | .refused => (s.setStatus c .failed).setCreation p
        ⟨id, owner, if cfg.audited then .appendingFailed c else .rejected⟩
    | .factoryThrew => (s.setStatus c .failed).setCreation p ⟨id, owner, .rejected⟩
  | _ => s

def creationAppendSettles (p : ℕ) (ok : Bool) : Pool :=
  match s.creations[p]? with
  | some ⟨id, owner, .appendingOpened c⟩ =>
    (s.audit (.connectionOpened id) ok).setCreation p
      ⟨id, owner, if ok then .fulfilled c else .rejected⟩
  | some ⟨id, owner, .appendingFailed _⟩ =>
    (s.audit (.connectionFailed id) ok).setCreation p ⟨id, owner, .rejected⟩
  | _ => s

/-- A call goes on when its promise is settled; the one that has begun it clears `inflight`. -/
def callSettles (i : ℕ) : Pool :=
  match s.calls[i]? with
  | some ⟨id, .waiting p, overlapped⟩ =>
    match s.creations[p]? with
    | none => s
    | some cr =>
      let s' := if cr.owner = i then { s with inflight := s.inflight.filter fun f => f.1 ≠ id } else s
      match cr.phase with
      | .fulfilled c => { s' with calls := s.calls.set i ⟨id, .returned c, overlapped⟩ }
      | .rejected => { s' with calls := s.calls.set i ⟨id, .rejected, overlapped⟩ }
      | _ => s
  | _ => s

/-- Some call has returned the connection. -/
def handedOut (c : ℕ) : Bool := s.calls.any fun call => call.phase = .returned c

def execStart (c : ℕ) : Pool :=
  if s.handedOut c then
    { s with conns := s.conns.modify c fun conn => { conn with running := conn.running+1 } }
  else s

def execEnd (c : ℕ) : Pool :=
  { s with conns := s.conns.modify c fun conn =>
      if conn.running = 0 then conn
      else { conn with running := conn.running-1, lastExecEnd := some s.now } }

def next : PoolEvent → Pool
  | .tick ms => { s with now := s.now+ms }
  | .getConnection id => s.getConnection cfg id
  | .release id => s.stamp id
  | .reapIdle => s.reap cfg (s.entries.map PoolEntry.id)
  | .closeAll => s.closeAll (s.entries.map PoolEntry.id)
  | .disconnectSettles j ok => s.disconnectSettles j ok
  | .closedAppendSettles j ok => s.closedAppendSettles j ok
  | .goesOn j => s.goesOn cfg j
  | .connectSettles p outcome => s.connectSettles cfg p outcome
  | .creationAppendSettles p ok => s.creationAppendSettles p ok
  | .callSettles i => s.callSettles i
  | .execStart c => s.execStart c
  | .execEnd c => s.execEnd c

variable {s}

/-- A call that goes on changes only what is known of the calls. -/
theorem callSettles_eq (i : ℕ) : ∃ calls inflight,
    s.callSettles i = { s with calls := calls, inflight := inflight } := by
  rw [callSettles]
  split
  · split
    · exact ⟨s.calls, s.inflight, rfl⟩
    · dsimp only
      split
      · split_ifs <;> exact ⟨_, _, rfl⟩
      · split_ifs <;> exact ⟨_, _, rfl⟩
      · exact ⟨s.calls, s.inflight, rfl⟩
  · exact ⟨s.calls, s.inflight, rfl⟩

end Pool

/-- No call waits, and no removal is under way. -/
structure Pool.Settled (s : Pool) : Prop where
  calls : ∀ call ∈ s.calls, call.settled = true
  creations : ∀ cr ∈ s.creations, cr.settled = true
  removals : ∀ r ∈ s.removals, r = .ended

/-- The pool, its callers, and what settles what they wait for, in any order. An event that finds
nothing to act on changes nothing. -/
def poolMachine (cfg : PoolConfig) : Automaton Pool PoolEvent where
  allowed _ _ := True
  next s e := s.next cfg e

instance (cfg : PoolConfig) (s : Pool) (e : PoolEvent) : Decidable ((poolMachine cfg).allowed s e) :=
  isTrue trivial

end Homelab
