import Homelab.ClockLifecycle
import Homelab.Onlookers
import Mathlib.Data.Prod.Lex

/-! `start` and `stop` of any number of `ClockStore`s on one directory: each call does one file operation after
the other, and the others have their turns between them. -/
namespace Homelab
open Js Path Automaton Script

deriving instance DecidableEq for ClockKind

/-! ### Calls -/

inductive ClockRequest
  | start (kind : ClockKind) (key : JsString) (metadata : List (JsString × JsString))
  | stop (idOrComposite : JsString)

inductive ClockOutcome
  | started (id : JsString)
  | stopped (result : Option StopResult)
  | thrown (e : ClockError)

/-- What a call awaits: the listing of the directory, the first of the files that `listAll` has yet to read
when it has read some clocks, the one file that `stop` reads by its id, or the write or the unlink of a file -/
inductive ClockStage
  | listing
  | reading (id : JsString) (todo : List JsString) (out : List Clock)
  | fetching
  | writing (clock : Clock)
  | unlinking (clock : Clock) (stoppedAt : ℤ)
  | done (outcome : ClockOutcome)

structure ClockCall where
  request : ClockRequest
  stage : ClockStage

def ClockStage.isDone : ClockStage → Bool
  | .done _ => true
  | _ => false

def ClockStage.isListing : ClockStage → Bool
  | .listing => true
  | _ => false

/-- Whether the operation succeeds, what a listing lists, and the time and the random bytes that are drawn
before the next operation -/
structure ClockAnswer where
  ok : Bool
  entries : List JsString
  now : ℤ
  random : Vector UInt8 4

/-- The name of the file in its directory -/
def ClockFile.entry (f : ClockFile) : JsString := f.path.getLastD []

/-- The id that `listAll` reads an entry by. The temporary files of a write are passed over. -/
def entryId (entry : JsString) : Option JsString :=
  if js ".json" <:+ entry then some (entry.take (entry.length-5)) else none

/-- `findByKey`, over the clocks that `listAll` returns -/
def findClock (kind key : JsString) (clocks : List Clock) : Option Clock :=
  clocks.find? fun clock => clock.kind.text = kind ∧ clock.key = key

namespace ClockRequest

/-- What comes before the first `await` -/
def begin : ClockRequest → ClockStage
  | .start kind key _ =>
    if isSafeComposite (composite kind key) then .listing
    else .done (.thrown (.invalidKey (composite kind key)))
  | .stop idOrComposite =>
    if includes (js "--") idOrComposite then .fetching
    else if includes (js ":") idOrComposite then .listing
    else .done (.stopped none)

def found (now : ℤ) : Option Clock → ClockStage
  | none => .done (.stopped none)
  | some clock => .unlinking clock now

/-- What comes after `listAll` -/
def scanned (a : ClockAnswer) (out : List Clock) : ClockRequest → ClockStage
  | .start kind key metadata =>
    match findClock kind.text key out with
    | some _ => .done (.thrown (.alreadyRunning kind key))
    | none => .writing ⟨clockId kind key a.random, kind, key, a.now, metadata⟩
  | .stop idOrComposite =>
    let colon := idOrComposite.idxOf 0x3A
    found a.now (findClock (idOrComposite.take colon) (idOrComposite.drop (colon+1)) out)

/-- The loop of `listAll` -/
def readOn (a : ClockAnswer) (request : ClockRequest) (out : List Clock) : List JsString → ClockStage
  | [] => request.scanned a out
  | id :: todo => .reading id todo out

/-- The id that `stop` reads by -/
def id : ClockRequest → JsString
  | .start .. => []
  | .stop idOrComposite => idOrComposite

end ClockRequest

namespace ClockHost

variable (host : ClockHost)

def failed (request : ClockRequest) : ClockCall := ⟨request, .done (.thrown .io)⟩

/-- The next operation of a call, up to the one after it -/
def turn (c : ClockCall) (a : ClockAnswer) (files : List ClockFile) : ClockCall × List ClockFile :=
  match c.stage with
  | .listing =>
    (if a.ok then ⟨c.request, c.request.readOn a [] (a.entries.filterMap entryId)⟩
      else failed c.request, files)
  | .reading id todo out =>
    (if a.ok then ⟨c.request, c.request.readOn a (out ++ (host.readById id files).toList) todo⟩
      else failed c.request, files)
  | .fetching =>
    (if a.ok then ⟨c.request, ClockRequest.found a.now (host.readById c.request.id files)⟩
      else failed c.request, files)
  | .writing clock =>
    if a.ok then
      (⟨c.request, .done (.started clock.id)⟩,
        files.filter (fun f => f.path ≠ host.pathFor clock.id) ++ [⟨host.pathFor clock.id, clock⟩])
    else (failed c.request, files)
  | .unlinking clock stoppedAt =>
    -- that the file cannot be unlinked is ignored
    (⟨c.request, .done (.stopped (some ⟨clock.startedAt, stoppedAt-clock.startedAt, clock.metadata⟩))⟩,
      if a.ok then files.filter fun f => f.path ≠ host.pathFor clock.id else files)
  | .done _ => (c, files)

/-- A listing lists the entries of the directory in any order. -/
def clockScript : Script (List ClockFile) ClockRequest ClockCall ClockAnswer where
  begin request _ := ⟨request, request.begin⟩
  returned c := c.stage.isDone
  may c a files := c.stage.isListing = true → a.ok = true → a.entries.Perm (files.map ClockFile.entry)
  turn c a files := host.turn c a files

variable {host}

theorem turn_listing (request : ClockRequest) {a : ClockAnswer} (hok : a.ok = true) (files : List ClockFile) :
    host.turn ⟨request, .listing⟩ a files =
      (⟨request, request.readOn a [] (a.entries.filterMap entryId)⟩, files) := by
  rw [turn, hok]
  rfl

theorem turn_reading (request : ClockRequest) {a : ClockAnswer} (hok : a.ok = true) (id : JsString)
    (todo : List JsString) (out : List Clock) (files : List ClockFile) :
    host.turn ⟨request, .reading id todo out⟩ a files =
      (⟨request, request.readOn a (out ++ (host.readById id files).toList) todo⟩, files) := by
  rw [turn, hok]
  rfl

theorem turn_fetching (request : ClockRequest) {a : ClockAnswer} (hok : a.ok = true)
    (files : List ClockFile) :
    host.turn ⟨request, .fetching⟩ a files =
      (⟨request, ClockRequest.found a.now (host.readById request.id files)⟩, files) := by
  rw [turn, hok]
  rfl

theorem turn_writing (request : ClockRequest) {a : ClockAnswer} (hok : a.ok = true) (clock : Clock)
    (files : List ClockFile) : host.turn ⟨request, .writing clock⟩ a files =
      (⟨request, .done (.started clock.id)⟩,
        files.filter (fun f => f.path ≠ host.pathFor clock.id) ++ [⟨host.pathFor clock.id, clock⟩]) := by
  rw [turn, hok]
  rfl

theorem turn_unlinking (request : ClockRequest) {a : ClockAnswer} (hok : a.ok = true) (clock : Clock)
    (stoppedAt : ℤ) (files : List ClockFile) : host.turn ⟨request, .unlinking clock stoppedAt⟩ a files =
      (⟨request, .done (.stopped (some ⟨clock.startedAt, stoppedAt-clock.startedAt, clock.metadata⟩))⟩,
        files.filter fun f => f.path ≠ host.pathFor clock.id) := by
  rw [turn, hok]
  rfl

instance (c : ClockCall) (a : ClockAnswer) (files : List ClockFile) :
    Decidable (host.clockScript.may c a files) :=
  inferInstanceAs (Decidable (c.stage.isListing = true → a.ok = true → a.entries.Perm _))

end ClockHost

/-! ### The directory -/

/-- A clock of the kind and key runs. -/
def ClockRunning (kind : ClockKind) (key : JsString) (files : List ClockFile) : Prop :=
  ∃ f ∈ files, f.clock.kind = kind ∧ f.clock.key = key

def OnePerKey (files : List ClockFile) : Prop := (files.map fun f => (f.clock.kind, f.clock.key)).Nodup

/-- The file is where `start` puts its clock. -/
structure ClockFile.Stored (host : ClockHost) (f : ClockFile) : Prop where
  safe : isSafeComposite (composite f.clock.kind f.clock.key) = true
  named : ∃ random, f.clock.id = clockId f.clock.kind f.clock.key random
  placed : f.path = host.pathFor f.clock.id

structure ClockDirectory (host : ClockHost) (files : List ClockFile) : Prop where
  stored : ∀ f ∈ files, f.Stored host
  unique : OnePerKey files

variable {host : ClockHost} {files : List ClockFile} {kind : ClockKind} {key id : JsString} {f g : ClockFile}
  {clock : Clock} {request : ClockRequest} {a : ClockAnswer} {out : List Clock}

theorem ClockFile.Stored.no_slash (h : f.Stored host) : slash ∉ f.clock.id := by
  obtain ⟨random, hrandom⟩ := h.named
  rw [hrandom]
  exact no_slash_clockId (no_slash_of_safe h.safe) random

theorem entryId_of_stored (h : f.Stored host) : entryId f.entry = some f.clock.id := by
  have hentry : f.entry = f.clock.id ++ js ".json" := by
    rw [ClockFile.entry, h.placed, pathFor_of_no_slash h.no_slash]
    exact List.getLastD_concat
  rw [entryId, hentry, if_pos (List.suffix_append _ _), List.length_append]
  exact congrArg some (List.take_left)

/-- An id is none of `kind:key`: what follows the kind is a dash in the one and a colon in the other. -/
theorem clockId_ne_composite {kind' : ClockKind} {key' : JsString} (random : Vector UInt8 4) :
    clockId kind key random ≠ composite kind' key' := by
  intro h
  simp only [clockId, composite, List.append_assoc] at h
  obtain rfl := kind_of_append h
  -- the kinds are the same, and the unit after them is not
  have htail := congrArg List.head? (List.append_cancel_left h)
  exact absurd (Option.some.inj htail) (by decide)

namespace ClockDirectory

theorem eq_of_key (h : ClockDirectory host files) (hf : f ∈ files) (hg : g ∈ files)
    (hkind : f.clock.kind = g.clock.kind) (hkey : f.clock.key = g.clock.key) : f = g :=
  List.inj_on_of_nodup_map h.unique hf hg (Prod.ext hkind hkey)

theorem eq_of_id (h : ClockDirectory host files) (hf : f ∈ files) (hg : g ∈ files)
    (hid : f.clock.id = g.clock.id) : f = g := by
  obtain ⟨random, hrandom⟩ := (h.stored f hf).named
  obtain ⟨random', hrandom'⟩ := (h.stored g hg).named
  rw [hrandom, hrandom'] at hid
  obtain ⟨hkind, hkey⟩ := clockId_inj hid
  exact h.eq_of_key hf hg hkind hkey

/-- The file of an id without a slash is that of the clock with this id. -/
theorem id_of_path (h : ClockDirectory host files) (hid : slash ∉ id) (hf : f ∈ files)
    (hpath : f.path = host.pathFor id) : f.clock.id = id := by
  have hstored := h.stored f hf
  rw [hstored.placed] at hpath
  exact eq_of_pathFor_eq hstored.no_slash hid hpath

theorem readById_of_mem (h : ClockDirectory host files) (hf : f ∈ files) :
    host.readById f.clock.id files = some f.clock := by
  have hstored := h.stored f hf
  rw [ClockHost.readById]
  cases hfind : files.find? fun g => g.path = host.pathFor f.clock.id with
  | none =>
    have hnone := List.find?_eq_none.mp hfind f hf
    exact absurd (decide_eq_true hstored.placed) hnone
  | some g =>
    have hfound := List.find?_some hfind
    have hpath := of_decide_eq_true hfound
    have hg := List.mem_of_find?_eq_some hfind
    have hid := h.id_of_path hstored.no_slash hg hpath
    rw [h.eq_of_id hg hf hid]

/-- What is read by an id without a slash is the clock of a file of the directory. -/
theorem readById_some (h : ClockDirectory host files) (hid : slash ∉ id)
    (hread : host.readById id files = some clock) : ∃ f ∈ files, f.clock = clock ∧ f.clock.id = id := by
  rw [ClockHost.readById] at hread
  cases hfind : files.find? fun g => g.path = host.pathFor id with
  | none =>
    rw [hfind] at hread
    have hinside : (host.pathFor id).dropLast = locate host.cwd host.dir := by
      rw [pathFor_of_no_slash hid, List.dropLast_concat]
    dsimp only at hread
    rw [if_pos hinside] at hread
    cases hread
  | some g =>
    rw [hfind] at hread
    have hg := List.mem_of_find?_eq_some hfind
    have hfound := List.find?_some hfind
    have hpath := of_decide_eq_true hfound
    exact ⟨g, hg, Option.some.inj hread, h.id_of_path hid hg hpath⟩

/-- No file is found by a kind and key: `stop` returns `null` for them when they have two dashes in a row,
whatever clocks run. -/
theorem readById_composite (h : ClockDirectory host files)
    (hsafe : isSafeComposite (composite kind key) = true) :
    host.readById (composite kind key) files = none := by
  cases hread : host.readById (composite kind key) files with
  | none => rfl
  | some clock =>
    obtain ⟨f, hf, -, hid⟩ := h.readById_some (no_slash_composite hsafe) hread
    obtain ⟨random, hrandom⟩ := (h.stored f hf).named
    rw [hrandom] at hid
    exact absurd hid (clockId_ne_composite random)

theorem filter (h : ClockDirectory host files) (p : ClockFile → Bool) :
    ClockDirectory host (files.filter p) where
  stored f hf := h.stored f (List.mem_of_mem_filter hf)
  unique := h.unique.sublist (List.filter_sublist.map _)

/-- A write leaves the files of the other kinds and keys. -/
theorem filter_written (h : ClockDirectory host files) (hid : slash ∉ clock.id)
    (hclock : ∃ random, clock.id = clockId clock.kind clock.key random)
    (hfree : ¬ ClockRunning clock.kind clock.key files) :
    files.filter (fun f => f.path ≠ host.pathFor clock.id) = files := by
  rw [List.filter_eq_self]
  intro f hf
  apply decide_eq_true
  intro hpath
  obtain ⟨random, hrandom⟩ := (h.stored f hf).named
  obtain ⟨random', hrandom'⟩ := hclock
  have heq := h.id_of_path hid hf hpath
  rw [hrandom, hrandom'] at heq
  exact hfree ⟨f, hf, clockId_inj heq⟩

theorem snoc (h : ClockDirectory host files) (hf : f.Stored host)
    (hfree : ¬ ClockRunning f.clock.kind f.clock.key files) : ClockDirectory host (files ++ [f]) where
  stored := forall_snoc h.stored hf
  unique := by
    apply Records.unique_snoc h.unique
    intro hmem
    obtain ⟨g, hg, hkey⟩ := List.mem_map.mp hmem
    exact hfree ⟨g, hg, congrArg Prod.fst hkey, congrArg Prod.snd hkey⟩

end ClockDirectory

/-! ### A call that no other one overlaps -/

/-- The call has its turns one after the other. -/
def ClockHost.alone (host : ClockHost) (answers : List ClockAnswer) (c : ClockCall) (files : List ClockFile) :
    ClockCall × List ClockFile := answers.foldl (fun now a => host.turn now.1 a now.2) (c, files)

theorem alone_cons (answers : List ClockAnswer) (c : ClockCall) :
    host.alone (a :: answers) c files = host.alone answers (host.turn c a files).1 (host.turn c a files).2 := rfl

theorem alone_done (answers : List ClockAnswer) (outcome : ClockOutcome) :
    host.alone answers ⟨request, .done outcome⟩ files = (⟨request, .done outcome⟩, files) := by
  induction answers with
  | nil => rfl
  | cons a answers ih => exact ih

/-- `listAll` reads all clocks of a directory that stays as it is. -/
theorem alone_reading (hok : a.ok = true) {fs : List ClockFile}
    (hread : ∀ f ∈ fs, host.readById f.clock.id files = some f.clock) (rest : List ClockAnswer) :
    host.alone (List.replicate fs.length a ++ rest)
        ⟨request, request.readOn a out (fs.map fun f => f.clock.id)⟩ files =
      host.alone rest ⟨request, request.scanned a (out ++ fs.map fun f => f.clock)⟩ files := by
  induction fs generalizing out with
  | nil =>
    have hout : out ++ [].map (fun f : ClockFile => f.clock) = out := List.append_nil out
    rw [hout]
    rfl
  | cons f fs ih =>
    have hrest (g : ClockFile) (hg : g ∈ fs) : host.readById g.clock.id files = some g.clock :=
      hread g (List.mem_cons_of_mem _ hg)
    -- one turn reads one file, and its clock is added to those that have been read
    rw [List.length_cons, List.replicate_succ, List.cons_append, alone_cons, List.map_cons,
      ClockRequest.readOn,
      ClockHost.turn_reading _ hok, hread f List.mem_cons_self, ih hrest, List.append_assoc]
    rfl

/-- The turns of a call: the listing, the files, and the last operation -/
def undisturbed (a : ClockAnswer) (files : List ClockFile) : List ClockAnswer :=
  a :: (List.replicate files.length a ++ [a])

theorem alone_listing (h : ClockDirectory host files) (hok : a.ok = true)
    (hentries : a.entries = files.map ClockFile.entry) :
    host.alone (undisturbed a files) ⟨request, .listing⟩ files =
      host.alone [a] ⟨request, request.scanned a (files.map fun f => f.clock)⟩ files := by
  have hids : a.entries.filterMap entryId = files.map fun f => f.clock.id := by
    rw [hentries, List.filterMap_map, ← List.filterMap_eq_map]
    apply List.filterMap_congr
    intro f hf
    exact entryId_of_stored (h.stored f hf)
  rw [undisturbed, alone_cons, ClockHost.turn_listing _ hok, hids, alone_reading hok
    (fun f hf => h.readById_of_mem hf), List.nil_append]

/-- A start that nothing overlaps is `ClockHost.start`. -/
theorem start_alone (h : ClockDirectory host files) (hok : a.ok = true)
    (hentries : a.entries = files.map ClockFile.entry) (metadata : List (JsString × JsString)) :
    host.alone (undisturbed a files) (host.clockScript.begin (.start kind key metadata) files) files =
      match host.start ⟨true, true, true⟩ kind key metadata a.now a.random files with
      | .ok files' => (⟨.start kind key metadata, .done (.started (clockId kind key a.random))⟩, files')
      | .error e => (⟨.start kind key metadata, .done (.thrown e)⟩, files) := by
  change host.alone _ ⟨_, ClockRequest.begin (.start kind key metadata)⟩ files = _
  rw [ClockHost.start, ClockRequest.begin]
  cases hsafe : isSafeComposite (composite kind key) with
  | false => exact alone_done _ _
  | true =>
    have hfound : ClockHost.findByKey kind.text key files =
        findClock kind.text key (files.map fun f => f.clock) := rfl
    rw [if_pos rfl, alone_listing h hok hentries, ClockRequest.scanned, hfound]
    cases findClock kind.text key (files.map fun f => f.clock) with
    | some clock => exact alone_done _ _
    | none =>
      rw [alone_cons, ClockHost.turn_writing _ hok]
      rfl

/-- A stop that nothing overlaps is `ClockHost.stop`. -/
theorem stop_alone (h : ClockDirectory host files) (hok : a.ok = true)
    (hentries : a.entries = files.map ClockFile.entry) (text : JsString) :
    ∃ result files', host.stop ⟨true, true, true⟩ a.now text files = .ok (result, files') ∧
      host.alone (undisturbed a files) (host.clockScript.begin (.stop text) files) files =
        (⟨.stop text, .done (.stopped result)⟩, files') := by
  -- what comes after the clock is looked up
  have hlast (clock : Option Clock) (hclock : host.lookUp text files = clock) :
      ∃ result files', host.stop ⟨true, true, true⟩ a.now text files = .ok (result, files') ∧
        ∀ answers, host.alone (a :: answers) ⟨.stop text, ClockRequest.found a.now clock⟩ files =
          (⟨.stop text, .done (.stopped result)⟩, files') := by
    rw [ClockHost.stop, hclock, Bool.not_true, Bool.and_false]
    cases clock with
    | none => exact ⟨_, _, rfl, fun answers => alone_done _ _⟩
    | some clock =>
      refine ⟨_, _, rfl, fun answers => ?_⟩
      rw [alone_cons, ClockRequest.found, ClockHost.turn_unlinking _ hok]
      exact alone_done _ _
  change ∃ result files', _ ∧ host.alone _ ⟨_, ClockRequest.begin (.stop text)⟩ files = _
  rw [ClockRequest.begin]
  split_ifs with hdashes hcolon
  · have hlook : host.lookUp text files = host.readById text files := by rw [ClockHost.lookUp, if_pos hdashes]
    obtain ⟨result, files', hstop, halone⟩ := hlast _ hlook
    refine ⟨result, files', hstop, ?_⟩
    rw [undisturbed, alone_cons, ClockHost.turn_fetching _ hok]
    -- the one read of the file is followed by the unlink, whatever else is in the directory
    cases files <;> exact halone _
  · have hlook : host.lookUp text files = findClock (text.take (text.idxOf 0x3A))
        (text.drop (text.idxOf 0x3A + 1)) (files.map fun f => f.clock) := by
      rw [ClockHost.lookUp, if_neg hdashes, if_pos hcolon]
      rfl
    obtain ⟨result, files', hstop, halone⟩ := hlast _ hlook
    refine ⟨result, files', hstop, ?_⟩
    rw [alone_listing h hok hentries]
    exact halone []
  · have hlook : host.lookUp text files = none := by rw [ClockHost.lookUp, if_neg hdashes, if_neg hcolon]
    obtain ⟨result, files', hstop, halone⟩ := hlast none hlook
    exact ⟨result, files', hstop, halone _⟩

/-! ### Every call returns -/

/-- What a call has still to do: the listing, then the reading, then the one last operation -/
def ClockStage.rank : ClockStage → ℕ ×ₗ ℕ
  | .listing => toLex (2, 0)
  | .reading _ todo _ => toLex (1, todo.length)
  | .fetching => toLex (1, 0)
  | .writing _ => toLex (0, 1)
  | .unlinking .. => toLex (0, 1)
  | .done _ => toLex (0, 0)

theorem rank_found (now : ℤ) (clock : Option Clock) (n : ℕ) :
    (ClockRequest.found now clock).rank < toLex (1, n) := by
  cases clock <;> exact Prod.Lex.toLex_lt_toLex.mpr (.inl Nat.zero_lt_one)

theorem rank_scanned (n : ℕ) : (request.scanned a out).rank < toLex (1, n) := by
  cases request with
  | start kind key metadata =>
    rw [ClockRequest.scanned]
    split <;> exact Prod.Lex.toLex_lt_toLex.mpr (.inl Nat.zero_lt_one)
  | stop text => exact rank_found _ _ n

theorem rank_readOn (todo : List JsString) : (request.readOn a out todo).rank ≤ toLex (1, todo.length-1) := by
  cases todo with
  | nil => exact (rank_scanned 0).le
  | cons id todo => exact le_rfl

theorem rank_thrown {stage : ClockStage} (h : stage.isDone = false) (e : ClockError) :
    (ClockStage.done (.thrown e)).rank < stage.rank := by
  cases stage with
  | done outcome => cases h
  | listing => exact Prod.Lex.toLex_lt_toLex.mpr (.inl Nat.zero_lt_two)
  | reading id todo out => exact Prod.Lex.toLex_lt_toLex.mpr (.inl Nat.zero_lt_one)
  | fetching => exact Prod.Lex.toLex_lt_toLex.mpr (.inl Nat.zero_lt_one)
  | writing clock => exact Prod.Lex.toLex_lt_toLex.mpr (.inr ⟨rfl, Nat.zero_lt_one⟩)
  | unlinking clock stoppedAt => exact Prod.Lex.toLex_lt_toLex.mpr (.inr ⟨rfl, Nat.zero_lt_one⟩)

/-- Every turn brings a call nearer to its return. -/
theorem rank_turn (c : ClockCall) (a : ClockAnswer) (files : List ClockFile) (h : c.stage.isDone = false) :
    (host.turn c a files).1.stage.rank < c.stage.rank := by
  obtain ⟨request, stage⟩ := c
  -- an operation that fails ends the call, but for an unlink, which ends it anyhow
  cases hok : a.ok with
  | false =>
    have hfailed := rank_thrown h .io
    cases stage with
    | done outcome => cases h
    | listing =>
      rw [ClockHost.turn, hok]
      exact hfailed
    | reading id todo out =>
      rw [ClockHost.turn, hok]
      exact hfailed
    | fetching =>
      rw [ClockHost.turn, hok]
      exact hfailed
    | writing clock =>
      rw [ClockHost.turn, hok]
      exact hfailed
    | unlinking clock stoppedAt => exact hfailed
  | true =>
    cases stage with
    | done outcome => cases h
    | listing =>
      rw [ClockHost.turn_listing _ hok]
      exact (rank_readOn _).trans_lt (Prod.Lex.toLex_lt_toLex.mpr (.inl Nat.one_lt_two))
    | reading id todo out =>
      rw [ClockHost.turn_reading _ hok]
      cases todo with
      | nil => exact rank_scanned 0
      | cons id' todo => exact Prod.Lex.toLex_lt_toLex.mpr (.inr ⟨rfl, Nat.lt_succ_self _⟩)
    | fetching =>
      rw [ClockHost.turn_fetching _ hok]
      exact rank_found _ _ 0
    | writing clock =>
      rw [ClockHost.turn_writing _ hok]
      exact Prod.Lex.toLex_lt_toLex.mpr (.inr ⟨rfl, Nat.zero_lt_one⟩)
    | unlinking clock stoppedAt => exact Prod.Lex.toLex_lt_toLex.mpr (.inr ⟨rfl, Nat.zero_lt_one⟩)

/-- A call that has its turns returns, whatever the others do between them. -/
theorem clock_call_returns (host : ClockHost) (calls : ℕ → ClockCall)
    (hturns : ∀ n, (calls n).stage.isDone = false →
      ∃ answer files, calls (n+1) = (host.turn (calls n) answer files).1) :
    ∃ n, (calls n).stage.isDone = true := by
  have hrank (c : ClockCall) (a : ClockAnswer) (files : List ClockFile)
      (hrunning : host.clockScript.returned c = false) :
      (host.clockScript.turn c a files).1.stage.rank < c.stage.rank := rank_turn c a files hrunning
  exact Script.returns_of_rank (fun c => c.stage.rank) hrank calls hturns

end Homelab
