import Homelab.ClockCalls

/-! One running clock for each kind and key, and the clocks that `stop` finds, for calls of `ClockStore`s on
one directory in any order of their file operations. -/
namespace Homelab
open Js Path Automaton Script

/-! ### What the calls are to do -/

/-- The text asks for the clock: it is its id, or its kind and key with a colon between them. -/
def Clock.AskedBy (text : JsString) (c : Clock) : Prop := text = c.id ∨ text = composite c.kind c.key

/-- An id that `start` returns, or the kind and a key that it accepts -/
def Addresses (text : JsString) : Prop :=
  ∃ kind key, isSafeComposite (composite kind key) = true ∧
    (text = composite kind key ∨ ∃ random, text = clockId kind key random)

/-- What `start` may do, given the directories that there were while it ran, the latest first: it throws
`ClockAlreadyRunning` only if a clock of the kind and key ran, and otherwise there was a time with none. -/
def StartRight (kind : ClockKind) (key : JsString) (metadata : List (JsString × JsString))
    (seen : List (List ClockFile)) : ClockOutcome → Prop
  | .started id =>
    (∃ files ∈ seen, ¬ ClockRunning kind key files) ∧
      ∃ files ∈ seen.head?, ∃ f ∈ files,
        f.clock.id = id ∧ f.clock.kind = kind ∧ f.clock.key = key ∧ f.clock.metadata = metadata
  | .thrown (.alreadyRunning kind' key') => kind' = kind ∧ key' = key ∧
    ∃ files ∈ seen, ClockRunning kind key files
  | .thrown (.invalidKey _) => isSafeComposite (composite kind key) = false
  | .thrown .io => ∃ files ∈ seen, ¬ ClockRunning kind key files
  | .stopped _ => False

/-- What `stop` may do: it returns what a clock that it was asked for was started with, and that clock is gone,
or there was a time with no such clock. -/
def StopRight (text : JsString) (seen : List (List ClockFile)) : ClockOutcome → Prop
  | .stopped (some result) =>
    ∃ files ∈ seen, ∃ f ∈ files, f.clock.AskedBy text ∧ result.startedAt = f.clock.startedAt ∧
      result.metadata = f.clock.metadata ∧ ∀ left ∈ seen.head?, ∀ g ∈ left, g.clock.id ≠ f.clock.id
  | .stopped none => ∃ files ∈ seen, ∀ f ∈ files, ¬ f.clock.AskedBy text
  | _ => False

def ClockRequest.Right (seen : List (List ClockFile)) (outcome : ClockOutcome) : ClockRequest → Prop
  | .start kind key metadata => StartRight kind key metadata seen outcome
  | .stop text => Addresses text → StopRight text seen outcome

/-- No kind and key has two clocks, and all calls that have returned have done what they are to do. -/
structure ClocksIdentified (s : Scene (List ClockFile) ClockCall) : Prop where
  unique : OnePerKey s.shared
  right : ∀ o ∈ s.onlookers, ∀ outcome, o.call.stage = .done outcome → o.call.request.Right o.seen outcome

/-- No text with two dashes in a row is given to `stop` for the kind and key of a clock that runs. The
operations succeed, and none writes a clock of a kind and key that another call has written a clock of. -/
def orderlyCalls : Condition (List ClockFile) ClockRequest ClockCall ClockAnswer where
  begins request files :=
    includes (js "--") request.id = true → ∀ f ∈ files, request.id ≠ composite f.clock.kind f.clock.key
  turns c a files :=
    match c.stage with
    | .writing clock => a.ok = true → ∀ f ∈ files, (f.clock.kind, f.clock.key) ≠ (clock.kind, clock.key)
    | _ => a.ok = true

instance (request : ClockRequest) (files : List ClockFile) : Decidable (orderlyCalls.begins request files) :=
  inferInstanceAs (Decidable (includes (js "--") request.id = true → ∀ f ∈ files, request.id ≠ composite _ _))

instance (c : ClockCall) (a : ClockAnswer) (files : List ClockFile) :
    Decidable (orderlyCalls.turns c a files) :=
  match c with
  | ⟨_, .writing clock⟩ =>
    inferInstanceAs (Decidable (a.ok = true →
      ∀ f ∈ files, (f.clock.kind, f.clock.key) ≠ (clock.kind, clock.key)))
  | ⟨_, .listing⟩ => inferInstanceAs (Decidable (a.ok = true))
  | ⟨_, .reading ..⟩ => inferInstanceAs (Decidable (a.ok = true))
  | ⟨_, .fetching⟩ => inferInstanceAs (Decidable (a.ok = true))
  | ⟨_, .unlinking ..⟩ => inferInstanceAs (Decidable (a.ok = true))
  | ⟨_, .done _⟩ => inferInstanceAs (Decidable (a.ok = true))

/-! ### Scans -/

/-- What `listAll` has read and has yet to read. Each clock of the directory is among them, unless there was a
time with no clock of its kind and key. -/
structure ClockScan (todo : List JsString) (out : List Clock) (files : List ClockFile)
    (seen : List (List ClockFile)) : Prop where
  plain : ∀ id ∈ todo, slash ∉ id
  read : ∀ clock ∈ out, ∃ files ∈ seen, ∃ f ∈ files, f.clock = clock
  covers : ∀ f ∈ files, (∃ files ∈ seen, ¬ ClockRunning f.clock.kind f.clock.key files) ∨
    f.clock.id ∈ todo ∨ f.clock ∈ out

/-- What a turn does to the directory -/
def Moves (files files' : List ClockFile) : Prop :=
  files' ⊆ files ∨ ∃ f, files' = files ++ [f] ∧ ¬ ClockRunning f.clock.kind f.clock.key files

variable {host : ClockHost} {files files' : List ClockFile} {seen : List (List ClockFile)} {kind : ClockKind}
  {key id text : JsString} {f g : ClockFile} {clock : Clock} {todo : List JsString} {out : List Clock}
  {a : ClockAnswer}

theorem ClockScan.listed (h : ClockDirectory host files) {entries : List JsString}
    (hentries : entries.Perm (files.map ClockFile.entry)) :
    ClockScan (entries.filterMap entryId) [] files seen where
  plain id hid := by
    obtain ⟨entry, hentry, hread⟩ := List.mem_filterMap.mp hid
    obtain ⟨f, hf, rfl⟩ := List.mem_map.mp (hentries.subset hentry)
    rw [entryId_of_stored (h.stored f hf)] at hread
    obtain rfl := Option.some.inj hread
    exact (h.stored f hf).no_slash
  read clock hclock := absurd hclock List.not_mem_nil
  covers f hf := by
    have hentry : f.entry ∈ entries := hentries.symm.subset (List.mem_map_of_mem hf)
    exact .inr (.inl (List.mem_filterMap.mpr ⟨_, hentry, entryId_of_stored (h.stored f hf)⟩))

/-- The loop reads one more file. -/
theorem ClockScan.next (h : ClockDirectory host files) (hseen : files ∈ seen)
    (hscan : ClockScan (id :: todo) out files seen) :
    ClockScan todo (out ++ (host.readById id files).toList) files seen where
  plain id' hid' := hscan.plain id' (List.mem_cons_of_mem _ hid')
  read clock hclock := by
    rcases List.mem_append.mp hclock with hold | hnew
    · exact hscan.read clock hold
    · have hread : host.readById id files = some clock := Option.mem_toList.mp hnew
      obtain ⟨f, hf, hclock, -⟩ := h.readById_some (hscan.plain id List.mem_cons_self) hread
      exact ⟨files, hseen, f, hf, hclock⟩
  covers f hf := by
    rcases hscan.covers f hf with hnone | htodo | hout
    · exact .inl hnone
    · rcases List.mem_cons.mp htodo with rfl | htodo
      · have hread := h.readById_of_mem hf
        refine .inr (.inr (List.mem_append_right _ ?_))
        rw [hread]
        exact List.mem_singleton_self _
      · exact .inr (.inl htodo)
    · exact .inr (.inr (List.mem_append_left _ hout))

theorem ClockScan.mono (h : ClockScan todo out files seen) : ClockScan todo out files (files' :: seen) where
  plain := h.plain
  read clock hclock := by
    obtain ⟨earlier, hearlier, hf⟩ := h.read clock hclock
    exact ⟨earlier, List.mem_cons_of_mem _ hearlier, hf⟩
  covers f hf := by
    refine (h.covers f hf).imp_left ?_
    rintro ⟨earlier, hearlier, hnone⟩
    exact ⟨earlier, List.mem_cons_of_mem _ hearlier, hnone⟩

/-- A file that another call writes is of a kind and key that had no clock until then. -/
theorem ClockScan.watch (hseen : files ∈ seen) (hmoves : Moves files files')
    (h : ClockScan todo out files seen) :
    ClockScan todo out files' (files' :: seen) where
  plain := h.plain
  read := h.mono.read
  covers f hf := by
    have hlater : ClockScan todo out files (files' :: seen) := h.mono
    have hold (hmem : f ∈ files) := hlater.covers f hmem
    -- the directory has lost files, or it has gained one of which there was none
    rcases hmoves with hsub | ⟨g, rfl, hfree⟩
    · exact hold (hsub hf)
    · rcases List.mem_append.mp hf with hmem | hnew
      · exact hold hmem
      · rw [List.mem_singleton.mp hnew]
        exact .inl ⟨files, List.mem_cons_of_mem _ hseen, hfree⟩

/-- When all has been read and no clock of a kind and key found, there was a time with none. -/
theorem ClockScan.absent (hseen : files ∈ seen) (h : ClockScan [] out files seen)
    (hfind : findClock kind.text key out = none) : ∃ files ∈ seen, ¬ ClockRunning kind key files := by
  by_cases hruns : ClockRunning kind key files
  -- a clock that runs now has been read, unless there was a time without it
  · obtain ⟨f, hf, rfl, rfl⟩ := hruns
    rcases h.covers f hf with hnone | htodo | hout
    · exact hnone
    · exact absurd htodo List.not_mem_nil
    · exact absurd (decide_eq_true ⟨rfl, rfl⟩) (List.find?_eq_none.mp hfind f.clock hout)
  · exact ⟨files, hseen, hruns⟩

theorem ClockScan.found (h : ClockScan todo out files seen)
    (hfind : findClock kind.text key out = some clock) :
    (∃ files ∈ seen, ∃ f ∈ files, f.clock = clock) ∧ clock.kind = kind ∧ clock.key = key := by
  have hread := h.read clock (List.mem_of_find?_eq_some hfind)
  have hfound := List.find?_some hfind
  obtain ⟨hkind, hkey⟩ := of_decide_eq_true hfound
  have htext : clock.kind.text ++ [] = kind.text ++ [] := congrArg (· ++ []) hkind
  exact ⟨hread, kind_of_append htext, hkey⟩

/-! ### Promises -/

/-- What is kept of a call under way -/
def ClockCall.Keeps (c : ClockCall) (files : List ClockFile) (seen : List (List ClockFile)) : Prop :=
  match c.request, c.stage with
  | .start kind key _, .listing => isSafeComposite (composite kind key) = true
  | .start kind key _, .reading id todo out =>
    isSafeComposite (composite kind key) = true ∧ ClockScan (id :: todo) out files seen
  | .start kind key metadata, .writing clock =>
    isSafeComposite (composite kind key) = true ∧ (∃ random, clock.id = clockId kind key random) ∧
      clock.kind = kind ∧ clock.key = key ∧ clock.metadata = metadata ∧
      ∃ files ∈ seen, ¬ ClockRunning kind key files
  | .stop text, .listing => includes (js "--") text = false
  | .stop text, .reading id todo out => includes (js "--") text = false ∧
    ClockScan (id :: todo) out files seen
  | .stop text, .fetching =>
    ∀ kind key, text = composite kind key → ∃ files ∈ seen, ¬ ClockRunning kind key files
  | .stop text, .unlinking clock _ =>
    Addresses text → clock.AskedBy text ∧ ∃ files ∈ seen, ∃ f ∈ files, f.clock = clock
  | _, _ => False

def clockPromise : Promise (List ClockFile) ClockCall where
  running c files seen := c.Keeps files seen
  done c seen := ∀ outcome, c.stage = .done outcome → c.request.Right seen outcome

/-- The call keeps its promise in this directory. -/
def ClockHost.Holds (host : ClockHost) (files : List ClockFile) (c : ClockCall)
    (seen : List (List ClockFile)) :
    Prop := clockPromise.HoldsFor host.clockScript (ClockDirectory host) files ⟨c, seen⟩

variable {request : ClockRequest} {stage : ClockStage} {outcome : ClockOutcome}
  {metadata : List (JsString × JsString)}

theorem holds_done (h : request.Right seen outcome) : host.Holds files ⟨request, .done outcome⟩ seen := by
  intro outcome' heq
  obtain rfl := ClockStage.done.inj heq
  exact h

theorem holds_running (hstage : stage.isDone = false) (hsees : Sees (ClockDirectory host) files seen)
    (h : ClockCall.Keeps ⟨request, stage⟩ files seen) : host.Holds files ⟨request, stage⟩ seen := by
  rw [ClockHost.Holds, Promise.HoldsFor]
  have hrunning : host.clockScript.returned ⟨request, stage⟩ = false := hstage
  rw [hrunning]
  exact ⟨hsees, h⟩

theorem start_scanned (hsafe : isSafeComposite (composite kind key) = true)
    (hsees : Sees (ClockDirectory host) files seen) (hscan : ClockScan [] out files seen) :
    host.Holds files ⟨.start kind key metadata, (ClockRequest.start kind key metadata).scanned a
      out⟩ seen := by
  rw [ClockRequest.scanned]
  cases hfind : findClock kind.text key out with
  | none =>
    have hnone := hscan.absent hsees.now hfind
    exact holds_running rfl hsees ⟨hsafe, ⟨a.random, rfl⟩, rfl, rfl, rfl, hnone⟩
  | some clock =>
    obtain ⟨⟨files', hfiles', f, hf, rfl⟩, hkey⟩ := hscan.found hfind
    exact holds_done ⟨rfl, rfl, files', hfiles', f, hf, hkey⟩

/-- The kind and the key are what comes before the first colon and what comes after it. -/
theorem findClock_composite (kind : ClockKind) (key : JsString) (out : List Clock) :
    findClock ((composite kind key).take ((composite kind key).idxOf 0x3A))
      ((composite kind key).drop ((composite kind key).idxOf 0x3A + 1)) out =
        findClock kind.text key out := by
  cases kind <;> rfl

theorem includes_clockId (random : Vector UInt8 4) : includes (js "--") (clockId kind key random) = true :=
  decide_eq_true ⟨kind.text, key ++ js "--" ++ hexText random.toList, by
    simp only [clockId, List.append_assoc]⟩

/-- No clock of a directory without the kind and key is asked for by them. -/
theorem not_askedBy (h : ClockDirectory host files) (hnone : ¬ ClockRunning kind key files) :
    ∀ f ∈ files, ¬ f.clock.AskedBy (composite kind key) := by
  rintro f hf (hid | hcomposite)
  · obtain ⟨random, hrandom⟩ := (h.stored f hf).named
    rw [hrandom] at hid
    exact clockId_ne_composite random hid.symm
  · rw [composite, composite, List.append_assoc, List.append_assoc] at hcomposite
    obtain hkind := kind_of_append hcomposite
    rw [hkind] at hcomposite
    have hkey := List.append_cancel_left (List.append_cancel_left hcomposite)
    exact hnone ⟨f, hf, hkind.symm, hkey.symm⟩

theorem stop_scanned (hdashes : includes (js "--") text = false)
    (hsees : Sees (ClockDirectory host) files seen)
    (hscan : ClockScan [] out files seen) :
    host.Holds files ⟨.stop text, (ClockRequest.stop text).scanned a out⟩ seen := by
  have haddressed (haddress : Addresses text) : ∃ kind key, text = composite kind key := by
    obtain ⟨kind, key, -, rfl | ⟨random, rfl⟩⟩ := haddress
    · exact ⟨kind, key, rfl⟩
    · rw [includes_clockId] at hdashes
      cases hdashes
  rw [ClockRequest.scanned]
  cases hfind : findClock (text.take (text.idxOf 0x3A)) (text.drop (text.idxOf 0x3A + 1)) out with
  | none =>
    apply holds_done
    intro haddress
    obtain ⟨kind, key, rfl⟩ := haddressed haddress
    rw [findClock_composite] at hfind
    obtain ⟨files', hfiles', hnone⟩ := hscan.absent hsees.now hfind
    exact ⟨files', hfiles', not_askedBy (hsees.all files' hfiles') hnone⟩
  | some clock =>
    apply holds_running rfl hsees
    intro haddress
    obtain ⟨kind, key, rfl⟩ := haddressed haddress
    rw [findClock_composite] at hfind
    obtain ⟨hread, rfl, rfl⟩ := hscan.found hfind
    exact ⟨.inr rfl, hread⟩

theorem readOn_holds {seen' : List (List ClockFile)}
    (hlisting : ClockCall.Keeps ⟨request, .listing⟩ files' seen')
    (hsees : Sees (ClockDirectory host) files seen) (hscan : ClockScan todo out files seen) :
    host.Holds files ⟨request, request.readOn a out todo⟩ seen := by
  cases todo with
  | nil =>
    cases request with
    | start kind key metadata => exact start_scanned hlisting hsees hscan
    | stop text => exact stop_scanned hlisting hsees hscan
  | cons id todo =>
    cases request with
    | start kind key metadata => exact holds_running rfl hsees ⟨hlisting, hscan⟩
    | stop text => exact holds_running rfl hsees ⟨hlisting, hscan⟩

theorem fetched_holds (hkeeps : ClockCall.Keeps ⟨.stop text, .fetching⟩ files seen)
    (hsees : Sees (ClockDirectory host) files seen) (now : ℤ) :
    host.Holds files ⟨.stop text, ClockRequest.found now (host.readById text files)⟩ seen := by
  have hdirectory := hsees.all files hsees.now
  cases hread : host.readById text files with
  | none =>
    apply holds_done
    -- no file is found by a kind and key, so it counts that there was a time without a clock of them
    rintro ⟨kind, key, hsafe, rfl | ⟨random, rfl⟩⟩
    · obtain ⟨files', hfiles', hnone⟩ := hkeeps kind key rfl
      exact ⟨files', hfiles', not_askedBy (hsees.all files' hfiles') hnone⟩
    · refine ⟨files, hsees.now, ?_⟩
      rintro f hf (hid | hcomposite)
      · have hfound := hdirectory.readById_of_mem hf
        rw [← hid, hread] at hfound
        cases hfound
      · exact clockId_ne_composite random hcomposite
  | some clock =>
    apply holds_running rfl hsees
    rintro ⟨kind, key, hsafe, rfl | ⟨random, rfl⟩⟩
    · rw [hdirectory.readById_composite hsafe] at hread
      cases hread
    · have hslash : slash ∉ clockId kind key random := no_slash_clockId (no_slash_of_safe hsafe) random
      obtain ⟨f, hf, rfl, hid⟩ := hdirectory.readById_some hslash hread
      exact ⟨.inl hid.symm, files, hsees.now, f, hf, rfl⟩

theorem exists_seen {P : List ClockFile → Prop} (h : ∃ files ∈ seen, P files) (files' : List ClockFile) :
    ∃ files ∈ files' :: seen, P files := by
  obtain ⟨files, hfiles, hP⟩ := h
  exact ⟨files, List.mem_cons_of_mem _ hfiles, hP⟩

/-- The file that `start` writes is a new one, of a kind and key that no other file is of. -/
theorem written_holds (hsees : Sees (ClockDirectory host) files seen)
    (hkeeps : ClockCall.Keeps ⟨.start kind key metadata, .writing clock⟩ files seen)
    (hfree : ¬ ClockRunning clock.kind clock.key files) :
    files.filter (fun f => f.path ≠ host.pathFor clock.id) = files ∧
      ClockDirectory host (files ++ [⟨host.pathFor clock.id, clock⟩]) ∧
      host.Holds (files ++ [⟨host.pathFor clock.id, clock⟩])
        ⟨.start kind key metadata, .done (.started clock.id)⟩
        ((files ++ [⟨host.pathFor clock.id, clock⟩]) :: seen) := by
  obtain ⟨hsafe, ⟨random, hrandom⟩, rfl, rfl, rfl, hnone⟩ := hkeeps
  have hdirectory := hsees.all files hsees.now
  have hslash : slash ∉ clock.id := by
    rw [hrandom]
    exact no_slash_clockId (no_slash_of_safe hsafe) random
  have hstored : ClockFile.Stored host ⟨host.pathFor clock.id, clock⟩ := ⟨hsafe, ⟨random, hrandom⟩, rfl⟩
  refine ⟨hdirectory.filter_written hslash ⟨random, hrandom⟩ hfree, hdirectory.snoc hstored hfree, ?_⟩
  apply holds_done
  refine ⟨exists_seen hnone _, _, rfl, _, List.mem_append_right _ (List.mem_singleton_self _), ?_⟩
  exact ⟨rfl, rfl, rfl, rfl⟩

theorem unlinked_holds (hsees : Sees (ClockDirectory host) files seen) {stoppedAt : ℤ}
    (hkeeps : ClockCall.Keeps ⟨.stop text, .unlinking clock stoppedAt⟩ files seen) :
    host.Holds (files.filter fun f => f.path ≠ host.pathFor clock.id)
      ⟨.stop text, .done (.stopped (some ⟨clock.startedAt, stoppedAt-clock.startedAt, clock.metadata⟩))⟩
      ((files.filter fun f => f.path ≠ host.pathFor clock.id) :: seen) := by
  apply holds_done
  intro haddress
  obtain ⟨hasked, files', hfiles', f, hf, rfl⟩ := hkeeps haddress
  refine ⟨files', List.mem_cons_of_mem _ hfiles', f, hf, hasked, rfl, rfl, ?_⟩
  -- a file that is left with this id would have the path that was unlinked
  rintro left hleft g hg hid
  obtain rfl := Option.some.inj hleft
  obtain ⟨hg, hpath⟩ := List.mem_filter.mp hg
  have hstored := (hsees.all files hsees.now).stored g hg
  rw [hstored.placed, hid] at hpath
  exact of_decide_eq_true hpath rfl

/-! ### Turns -/

theorem begin_holds (h : ClockDirectory host files) (hcond : orderlyCalls.begins request files) :
    host.Holds files ⟨request, request.begin⟩ [files] := by
  have hsees : Sees (ClockDirectory host) files [files] :=
    ⟨List.mem_singleton_self _, fun x hx => List.mem_singleton.mp hx ▸ h⟩
  cases request with
  | start kind key metadata =>
    rw [ClockRequest.begin]
    split_ifs with hsafe
    · exact holds_running rfl hsees hsafe
    · exact holds_done (Bool.eq_false_of_not_eq_true hsafe)
  | stop text =>
    rw [ClockRequest.begin]
    split_ifs with hdashes hcolon
    -- two dashes are taken for an id, so the condition has to rule out the clock of a kind and key
    · apply holds_running rfl hsees
      rintro kind key rfl
      refine ⟨files, List.mem_singleton_self _, ?_⟩
      rintro ⟨f, hf, rfl, rfl⟩
      exact hcond hdashes f hf rfl
    · exact holds_running rfl hsees (Bool.eq_false_of_not_eq_true hdashes)
    · apply holds_done
      rintro ⟨kind, key, -, rfl | ⟨random, rfl⟩⟩
      · exact absurd (decide_eq_true ⟨kind.text, key, rfl⟩) hcolon
      · exact absurd (includes_clockId random) hdashes

/-- A turn keeps the directory and the promise of the call. -/
theorem turn_holds {c : ClockCall} (hsees : Sees (ClockDirectory host) files seen)
    (hkeeps : c.Keeps files seen)
    (hmay : host.clockScript.may c a files) (hcond : orderlyCalls.turns c a files) :
    (ClockDirectory host (host.turn c a files).2 ∧ Moves files (host.turn c a files).2) ∧
      host.Holds (host.turn c a files).2 (host.turn c a files).1 ((host.turn c a files).2 :: seen) := by
  have hdirectory := hsees.all files hsees.now
  have hstays : ClockDirectory host files ∧ Moves files files := ⟨hdirectory, .inl (List.Subset.refl _)⟩
  have hlater := hsees.cons hdirectory
  obtain ⟨request, stage⟩ := c
  cases stage with
  | listing =>
    have hok : a.ok = true := hcond
    rw [ClockHost.turn_listing _ hok]
    have hscan : ClockScan (a.entries.filterMap entryId) [] files (files :: seen) :=
      ClockScan.listed hdirectory (hmay rfl hok)
    exact ⟨hstays, readOn_holds hkeeps hlater hscan⟩
  | reading id todo out =>
    have hok : a.ok = true := hcond
    rw [ClockHost.turn_reading _ hok]
    have hparts : ClockCall.Keeps ⟨request, .listing⟩ files seen ∧ ClockScan (id :: todo) out files seen := by
      cases request <;> exact hkeeps
    have hscan : ClockScan todo (out ++ (host.readById id files).toList) files (files :: seen) :=
      (hparts.2.next hdirectory hsees.now).mono
    exact ⟨hstays, readOn_holds hparts.1 hlater hscan⟩
  | fetching =>
    have hok : a.ok = true := hcond
    rw [ClockHost.turn_fetching _ hok]
    cases request with
    | start kind key metadata => exact hkeeps.elim
    | stop text =>
      have hkeeps' : ClockCall.Keeps ⟨.stop text, .fetching⟩ files (files :: seen) :=
        fun kind key heq => exists_seen (hkeeps kind key heq) files
      exact ⟨hstays, fetched_holds hkeeps' hlater a.now⟩
  | writing clock =>
    cases request with
    | stop text => exact hkeeps.elim
    | start kind key metadata =>
      cases hok : a.ok with
      | false =>
        -- the write throws, and nothing is written
        rw [ClockHost.turn, hok]
        obtain ⟨-, -, -, -, -, hnone⟩ := hkeeps
        exact ⟨hstays, holds_done (exists_seen hnone files)⟩
      | true =>
        -- the condition: no other call has written a clock of the kind and key since it was looked for
        have hfree : ¬ ClockRunning clock.kind clock.key files := by
          rintro ⟨f, hf, hkind, hkey⟩
          exact hcond hok f hf (Prod.ext hkind hkey)
        obtain ⟨hfilter, hwritten, hholds⟩ := written_holds hsees hkeeps hfree
        rw [ClockHost.turn_writing _ hok, hfilter]
        exact ⟨⟨hwritten, .inr ⟨_, rfl, hfree⟩⟩, hholds⟩
  | unlinking clock stoppedAt =>
    have hok : a.ok = true := hcond
    rw [ClockHost.turn_unlinking _ hok]
    cases request with
    | start kind key metadata => exact hkeeps.elim
    | stop text =>
      exact ⟨⟨hdirectory.filter _, .inl List.filter_sublist.subset⟩, unlinked_holds hsees hkeeps⟩
  | done outcome => cases request <;> exact hkeeps.elim

/-- What the others do leaves the promise of a call. -/
theorem keeps_watch {c : ClockCall} (hseen : files ∈ seen) (hmoves : Moves files files')
    (hkeeps : c.Keeps files seen) : c.Keeps files' (files' :: seen) := by
  obtain ⟨request, stage⟩ := c
  cases request with
  | start kind key metadata =>
    cases stage with
    | listing => exact hkeeps
    | reading id todo out => exact ⟨hkeeps.1, hkeeps.2.watch hseen hmoves⟩
    | fetching => exact hkeeps
    | writing clock =>
      obtain ⟨hsafe, hid, hkind, hkey, hmetadata, hnone⟩ := hkeeps
      exact ⟨hsafe, hid, hkind, hkey, hmetadata, exists_seen hnone files'⟩
    | unlinking clock stoppedAt => exact hkeeps
    | done outcome => exact hkeeps
  | stop text =>
    cases stage with
    | listing => exact hkeeps
    | reading id todo out => exact ⟨hkeeps.1, hkeeps.2.watch hseen hmoves⟩
    | fetching => exact fun kind key heq => exists_seen (hkeeps kind key heq) files'
    | writing clock => exact hkeeps
    | unlinking clock stoppedAt =>
      intro haddress
      obtain ⟨hasked, hread⟩ := hkeeps haddress
      exact ⟨hasked, exists_seen hread files'⟩
    | done outcome => exact hkeeps

theorem clocks_upheld (host : ClockHost) :
    Upholds host.clockScript orderlyCalls (ClockDirectory host) Moves clockPromise where
  begins _ _ h hcond := begin_holds h hcond
  moves _ _ _ _ hsees hkeeps hmay hcond := (turn_holds hsees hkeeps hmay hcond).1
  turns _ _ _ _ hsees hkeeps hmay hcond := (turn_holds hsees hkeeps hmay hcond).2
  watches _ _ _ _ hsees hmoves hkeeps := keeps_watch hsees.now hmoves hkeeps

/-! ### Runs -/

def noClocks : Scene (List ClockFile) ClockCall := ⟨[], []⟩

theorem kept_noClocks (host : ClockHost) :
    Scene.Kept host.clockScript (ClockDirectory host) clockPromise noClocks where
  shared := ⟨fun _ hf => absurd hf List.not_mem_nil, List.nodup_nil⟩
  calls _ ho := absurd ho List.not_mem_nil

theorem identified_of_kept {s : Scene (List ClockFile) ClockCall}
    (h : s.Kept host.clockScript (ClockDirectory host) clockPromise) : ClocksIdentified s where
  unique := h.shared.unique
  right o ho outcome houtcome := by
    have hholds := h.calls o ho
    have hreturned : host.clockScript.returned o.call = true := congrArg ClockStage.isDone houtcome
    rw [Promise.HoldsFor, if_pos hreturned] at hholds
    exact hholds outcome houtcome

/-- Every run of orderly calls keeps one clock for each kind and key, each of its calls does what it is to do,
and each call that has its turns returns. -/
theorem clocksIdentified (host : ClockHost) (events : List (SceneEvent ClockRequest ClockAnswer))
    (h : host.clockScript.play.Permits orderlyCalls.meets noClocks events) :
    host.clockScript.play.Throughout ClocksIdentified noClocks events ∧
      ∀ calls : ℕ → ClockCall,
        (∀ n, (calls n).stage.isDone = false →
          ∃ answer files, calls (n+1) = (host.turn (calls n) answer files).1) →
        ∃ n, (calls n).stage.isDone = true := by
  have hkept := (clocks_upheld host).kept_throughout (kept_noClocks host) h
  exact ⟨hkept.mono fun s hs => identified_of_kept hs, clock_call_returns host⟩

def sampleAnswer (entries : List JsString) (b : UInt8) : ClockAnswer :=
  ⟨true, entries, 0, Vector.replicate 4 b⟩

/-- A clock is started, and stopped by its kind and key. -/
def startThenStop : List (SceneEvent ClockRequest ClockAnswer) :=
  [.begin (.start .mttr (js "a") []), .turn 0 (sampleAnswer [] 0), .turn 0 (sampleAnswer [] 0),
    .begin (.stop (js "mttr:a")), .turn 1 (sampleAnswer [js "mttr--a--00000000.json"] 0),
    .turn 1 (sampleAnswer [] 0), .turn 1 (sampleAnswer [] 0)]

theorem clocksIdentified_quiet :
    sampleClocks.clockScript.play.Throughout ClocksIdentified noClocks startThenStop :=
  (clocksIdentified sampleClocks startThenStop (by decide)).1

/-- Two calls start a clock of one kind and key, and both list the directory before one of them writes. -/
def overlappingStarts : List (SceneEvent ClockRequest ClockAnswer) :=
  [.begin (.start .mttr (js "a") []), .begin (.start .mttr (js "a") []), .turn 0 (sampleAnswer [] 0),
    .turn 1 (sampleAnswer [] 1), .turn 0 (sampleAnswer [] 0), .turn 1 (sampleAnswer [] 0)]

/-- Both starts return, and two clocks of one kind and key run. -/
theorem two_clocks_of_one_key : ¬ ∀ (host : ClockHost) (events : List (SceneEvent ClockRequest ClockAnswer)),
    host.clockScript.play.Permits anyEvent noClocks events →
      host.clockScript.play.Throughout ClocksIdentified noClocks events := by
  intro h
  have hthrough := h sampleClocks overlappingStarts (by decide)
  have hunique := hthrough.2.2.2.2.2.2.unique
  revert hunique
  unfold OnePerKey
  decide

end Homelab
