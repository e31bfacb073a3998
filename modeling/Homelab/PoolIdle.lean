import Homelab.PoolCapacity

/-! Which connections the pool takes for idle: it goes by the last hand-out or release, and knows
nothing of the commands that run on a connection. -/
namespace Homelab
open Js

/-- A command runs on the connection, or has ended less than `idleTimeoutMs` ago. -/
def PooledConn.inUse (cfg : PoolConfig) (now : ℕ) (conn : PooledConn) : Bool :=
  conn.running ≠ 0 || conn.lastExecEnd.any fun time => now < time+cfg.idleTimeoutMs

/-- The connection was in use when it was disconnected. -/
def Disconnect.inUse (cfg : PoolConfig) (d : Disconnect) : Bool :=
  d.running ≠ 0 || d.lastExecEnd.any fun time => d.time < time+cfg.idleTimeoutMs

namespace Pool

/-- The pool looks for stale entries. -/
def looks : PoolEvent → Bool
  | .getConnection _ => true
  | .reapIdle => true
  | .goesOn _ => true
  | _ => false

/-- Each pooled connection that is in use was handed out or released at most `idleTimeoutMs` ago. -/
def UsersStamp (cfg : PoolConfig) (s : Pool) (e : PoolEvent) : Prop :=
  looks e = true → ∀ entry ∈ s.entries,
    (s.conns[entry.conn]?).any (PooledConn.inUse cfg s.now) = true → s.isStale cfg entry = false

instance (cfg : PoolConfig) (s : Pool) (e : PoolEvent) : Decidable (UsersStamp cfg s e) :=
  inferInstanceAs (Decidable (_ → _))

/-- No connection in use was disconnected as a stale one. -/
def SparesUsed (cfg : PoolConfig) (s : Pool) : Prop :=
  ∀ d ∈ s.disconnects, d.reason = .stale → d.inUse cfg = false

variable {cfg : PoolConfig} {s : Pool} {e : PoolEntry} {id : JsString}

/-- A disconnect of a connection that is not in use, or for another reason. -/
theorem sparesUsed_remove (h : s.SparesUsed cfg) {reason : DisconnectReason} {audits : Bool} {next : After}
    (hidle : reason = .stale → (s.conns[e.conn]?).any (PooledConn.inUse cfg s.now) = false) :
    (s.remove e reason audits next).SparesUsed cfg := by
  intro d hd hreason
  rcases List.mem_cons.mp hd with rfl | hd
  · have hconn := hidle hreason
    rw [Disconnect.inUse, List.getD_eq_getElem?_getD]
    cases hfound : s.conns[e.conn]? with
    | none => rfl
    | some conn =>
      rw [hfound] at hconn
      exact hconn
  · exact h d hd hreason

theorem connect_disconnects (p : ℕ) : (s.connect p).disconnects = s.disconnects := by
  rw [connect]
  split <;> rfl

theorem sparesUsed_congr {s' : Pool} (h : s.SparesUsed cfg) (hsame : s'.disconnects = s.disconnects) :
    s'.SparesUsed cfg := by
  rw [SparesUsed, hsame]
  exact h

theorem sparesUsed_joinOrCreate {i : ℕ} (h : s.SparesUsed cfg) :
    (s.joinOrCreate cfg i).SparesUsed cfg := by
  rw [joinOrCreate]
  split
  · split
    · exact h
    · rw [create]
      split_ifs
      · split
        · apply sparesUsed_remove
          · exact h
          · intro hfull
            cases hfull
        · exact sparesUsed_congr h (connect_disconnects _)
      · exact sparesUsed_congr h (connect_disconnects _)
  · exact h

/-- A stale entry is one of a connection that is not in use. -/
theorem not_inUse_of_stale (hstamp : ∀ entry ∈ s.entries,
      (s.conns[entry.conn]?).any (PooledConn.inUse cfg s.now) = true → s.isStale cfg entry = false)
    (he : e ∈ s.entries) (hstale : s.isStale cfg e = true) :
    (s.conns[e.conn]?).any (PooledConn.inUse cfg s.now) = false := by
  by_contra hused
  rw [Bool.not_eq_false] at hused
  rw [hstamp e he hused] at hstale
  cases hstale

theorem sparesUsed_reap (h : s.SparesUsed cfg) (hstamp : ∀ entry ∈ s.entries,
      (s.conns[entry.conn]?).any (PooledConn.inUse cfg s.now) = true → s.isStale cfg entry = false)
    (ids : List JsString) : (s.reap cfg ids).SparesUsed cfg := by
  induction ids with
  | nil => exact h
  | cons k ids ih =>
    rw [reap]
    cases hentry : s.pooled? k with
    | none => exact ih
    | some e =>
      dsimp only
      split_ifs with hstale
      · exact sparesUsed_remove h fun _ => not_inUse_of_stale hstamp (pooled?_mem hentry).1 hstale
      · exact ih

theorem sparesUsed_closeAll (h : s.SparesUsed cfg) (ids : List JsString) :
    (s.closeAll ids).SparesUsed cfg := by
  induction ids with
  | nil => exact h
  | cons k ids ih =>
    rw [closeAll]
    cases hentry : s.pooled? k with
    | none => exact ih
    | some e =>
      apply sparesUsed_remove h
      intro hclosing
      cases hclosing

theorem insert_disconnects (c : ℕ) : (s.insert id c).disconnects = s.disconnects := by
  rw [insert]
  split <;> rfl

theorem audit_disconnects (event : PoolAudit) (ok : Bool) :
    (s.audit event ok).disconnects = s.disconnects := by
  rw [audit]
  split_ifs <;> rfl

theorem sparesUsed_next {event : PoolEvent} (h : s.SparesUsed cfg) (hstamp : UsersStamp cfg s event) :
    (s.next cfg event).SparesUsed cfg := by
  -- what is stale is not in use when each use is stamped; the other events disconnect nothing, or spare what is in use
  cases event with
  | tick ms => exact h
  | getConnection id =>
    change (s.getConnection cfg id).SparesUsed cfg
    rw [getConnection]
    cases hentry : s.pooled? id with
    | some e =>
      dsimp only
      split_ifs with hstale
      · have hspared : (s.evict cfg e .stale (.get s.calls.length)).SparesUsed cfg :=
          sparesUsed_remove h fun _ => not_inUse_of_stale (hstamp rfl) (pooled?_mem hentry).1 hstale
        exact hspared
      · exact h
    | none => exact sparesUsed_joinOrCreate (s := { s with calls := s.calls ++ [_] }) h
  | release id => exact h
  | reapIdle => exact sparesUsed_reap h (hstamp rfl) _
  | closeAll => exact sparesUsed_closeAll h _
  | disconnectSettles j ok =>
    change (s.disconnectSettles j ok).SparesUsed cfg
    rw [disconnectSettles]
    split
    · cases ok <;> exact h
    · exact h
  | closedAppendSettles j ok =>
    change (s.closedAppendSettles j ok).SparesUsed cfg
    rw [closedAppendSettles]
    split
    · exact sparesUsed_congr h (audit_disconnects _ ok)
    · exact h
  | goesOn j =>
    change (s.goesOn cfg j).SparesUsed cfg
    rw [goesOn]
    split
    · next next hj =>
      have hended : (s.setRemoval j .ended).SparesUsed cfg := h
      cases next with
      | get i => exact sparesUsed_joinOrCreate hended
      | create p => exact sparesUsed_congr hended (connect_disconnects p)
      | reap ids => exact sparesUsed_reap hended (hstamp rfl) ids
      | close ids => exact sparesUsed_closeAll hended ids
    · exact h
  | connectSettles p outcome =>
    change (s.connectSettles cfg p outcome).SparesUsed cfg
    rw [connectSettles]
    split
    · cases outcome with
      | connected => exact sparesUsed_congr h (insert_disconnects (s := s.setStatus _ _) _)
      | _ => exact h
    · exact h
  | creationAppendSettles p ok =>
    change (s.creationAppendSettles p ok).SparesUsed cfg
    rw [creationAppendSettles]
    split
    · exact sparesUsed_congr h (audit_disconnects _ ok)
    · exact sparesUsed_congr h (audit_disconnects _ ok)
    · exact h
  | callSettles i =>
    obtain ⟨calls, inflight, hsame⟩ := callSettles_eq (s := s) i
    change (s.callSettles i).SparesUsed cfg
    rw [hsame]
    exact h
  | execStart c =>
    change (s.execStart c).SparesUsed cfg
    rw [execStart]
    split_ifs <;> exact h
  | execEnd c => exact h

end Pool

/-- A command runs and ends, the connection is released, and the reaper looks later. -/
def releasedEvents : List PoolEvent :=
  [.getConnection (js "a"), .connectSettles 0 .connected, .creationAppendSettles 0 true, .callSettles 0,
    .execStart 0, .tick 200000, .execEnd 0, .release (js "a"), .tick 300001, .reapIdle]

/-- A command runs for longer than the idle timeout. -/
def longCommandEvents : List PoolEvent :=
  [.getConnection (js "a"), .connectSettles 0 .connected, .creationAppendSettles 0 true, .callSettles 0,
    .execStart 0, .tick 300001, .reapIdle]

end Homelab
