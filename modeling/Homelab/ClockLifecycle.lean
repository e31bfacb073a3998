import Homelab.ClockStore
import Homelab.Records

/-! Which MTTR clocks run: those of the observations that were promoted and neither cancelled nor resolved
since, as long as nothing is resolved whose clock runs, and the store finds and writes what it is asked for. -/
namespace Homelab
open Js Path

/-! ### Files of clocks -/

/-- The file is where `start` puts the clock of its key. -/
structure ClockFile.Filed (host : ClockHost) (f : ClockFile) : Prop where
  kind : f.clock.kind = .mttr
  safe : isSafeComposite (composite .mttr f.clock.key) = true
  named : ∃ random, f.clock.id = clockId .mttr f.clock.key random
  placed : f.path = host.pathFor f.clock.id

/-- The MTTR clock of the observation id runs. -/
def Runs (files : List ClockFile) (id : JsString) : Prop :=
  ∃ f ∈ files, f.clock.kind = .mttr ∧ f.clock.key = id

variable {host : ClockHost} {files : List ClockFile} {key id : JsString} {kind : ClockKind}

theorem no_slash_composite (h : isSafeComposite (composite kind key) = true) : slash ∉ composite kind key := by
  simp only [isSafeComposite, Bool.and_eq_true, List.all_eq_true] at h
  intro hmem
  exact absurd (h.2 slash hmem) (by decide)

theorem no_slash_of_safe (h : isSafeComposite (composite kind key) = true) : slash ∉ key :=
  fun hmem => no_slash_composite h (List.mem_append_right _ hmem)

theorem slash_not_mem_hexText (bytes : List UInt8) : slash ∉ hexText bytes := by
  have hunit : ∀ d < 0x10, slash ≠ hexUnit d := by decide
  intro hmem
  obtain ⟨b, _, hb⟩ := List.mem_flatMap.mp hmem
  have hlt := b.toNat_lt
  rcases List.mem_cons.mp hb with heq | hb
  · exact hunit _ (by omega) heq
  · exact hunit _ (by omega) (List.mem_singleton.mp hb)

theorem length_hexText (bytes : List UInt8) : (hexText bytes).length = 2*bytes.length := by
  induction bytes with
  | nil => rfl
  | cons b bytes ih =>
    have hcons : hexText (b :: bytes) = [hexUnit (b.toNat/0x10), hexUnit (b.toNat%0x10)] ++ hexText bytes := rfl
    rw [hcons, List.length_append, ih, List.length_cons (a := b)]
    change 2+2*bytes.length = _
    omega

/-- A name that ends in `.json` and has no slash is an entry of the directory. -/
theorem pathFor_of_no_slash (h : slash ∉ id) :
    host.pathFor id = locate host.cwd host.dir ++ [id ++ js ".json"] := by
  apply locate_join
  refine ⟨?_, ?_, ?_, ?_⟩
  · intro heq
    exact absurd (List.append_eq_nil_iff.mp heq).2 (by decide)
  · intro heq
    have hlen := congrArg List.length heq
    rw [List.length_append] at hlen
    have hjson : (js ".json").length = 5 := rfl
    have hdot : dot.length = 1 := rfl
    omega
  · intro heq
    have hlen := congrArg List.length heq
    rw [List.length_append] at hlen
    have hjson : (js ".json").length = 5 := rfl
    have hdot : dotdot.length = 2 := rfl
    omega
  · intro hmem
    rcases List.mem_append.mp hmem with hmem | hmem
    · exact h hmem
    · exact absurd hmem (by decide)

theorem no_slash_kind (kind : ClockKind) : slash ∉ kind.text := by
  cases kind <;> decide

theorem no_slash_clockId (h : slash ∉ key) (random : Vector UInt8 4) :
    slash ∉ clockId kind key random := by
  intro hmem
  simp only [clockId, List.mem_append] at hmem
  rcases hmem with (((hmem | hmem) | hmem) | hmem) | hmem
  · exact no_slash_kind kind hmem
  · exact absurd hmem (by decide)
  · exact h hmem
  · exact absurd hmem (by decide)
  · exact slash_not_mem_hexText _ hmem

/-- Names without a slash are those of different files. -/
theorem eq_of_pathFor_eq {id' : JsString} (h : slash ∉ id) (h' : slash ∉ id')
    (heq : host.pathFor id = host.pathFor id') : id = id' := by
  rw [pathFor_of_no_slash h, pathFor_of_no_slash h'] at heq
  exact List.append_cancel_right (List.singleton_inj.mp (List.append_cancel_left heq))

/-- The first letters tell the kinds apart. -/
theorem kind_of_append {kind' : ClockKind} {x y : JsString} (h : kind.text ++ x = kind'.text ++ y) :
    kind = kind' := by
  have hfirst : kind.text.head? = kind'.text.head? := by
    have hhead := congrArg List.head? h
    cases kind <;> cases kind' <;> exact hhead
  cases kind <;> cases kind'
  · rfl
  · exact absurd hfirst (by decide)
  · exact absurd hfirst (by decide)
  · rfl

/-- An id tells the kind and the key of its clock. -/
theorem clockId_inj {kind' : ClockKind} {key' : JsString} {random random' : Vector UInt8 4}
    (h : clockId kind key random = clockId kind' key' random') : kind = kind' ∧ key = key' := by
  have hkind : kind = kind' := by
    simp only [clockId, List.append_assoc] at h
    exact kind_of_append h
  subst hkind
  have hlen : (hexText random.toList).length = (hexText random'.toList).length := by
    rw [length_hexText, length_hexText, Vector.length_toList, Vector.length_toList]
  -- the random bytes at the end have one length, so what is before them is the same
  have hprefix := (List.append_inj' h hlen).1
  simp only [List.append_assoc] at hprefix
  exact ⟨rfl, List.append_cancel_right (List.append_cancel_left (List.append_cancel_left hprefix))⟩

/-- Two clocks in one file have one key. -/
theorem key_of_pathFor_eq {key' : JsString} {random random' : Vector UInt8 4} (h : slash ∉ key)
    (h' : slash ∉ key')
    (heq : host.pathFor (clockId .mttr key random) = host.pathFor (clockId .mttr key' random')) :
    key = key' := by
  have hid := eq_of_pathFor_eq (no_slash_clockId h random) (no_slash_clockId h' random') heq
  exact (clockId_inj hid).2

/-! ### What the store finds -/

/-- Every file is where `start` puts it, and no two clocks have one key. -/
structure PromoterState.Filed (host : ClockHost) (s : PromoterState) : Prop where
  filed : ∀ f ∈ s.files, f.Filed host
  unique : (s.files.map fun f => f.clock.key).Nodup

theorem runs_iff (h : ∀ f ∈ files, f.Filed host) : Runs files id ↔ ∃ f ∈ files, f.clock.key = id := by
  constructor
  · rintro ⟨f, hf, -, hkey⟩
    exact ⟨f, hf, hkey⟩
  · rintro ⟨f, hf, hkey⟩
    exact ⟨f, hf, (h f hf).kind, hkey⟩

theorem findByKey_eq_none (h : ∀ f ∈ files, f.Filed host) :
    ClockHost.findByKey ClockKind.mttr.text id files = none ↔ ¬ Runs files id := by
  rw [runs_iff h, ClockHost.findByKey, List.find?_eq_none]
  constructor
  · rintro hnone ⟨f, hf, hkey⟩
    refine hnone _ (List.mem_map_of_mem hf) (decide_eq_true ⟨?_, hkey⟩)
    rw [(h f hf).kind]
  · intro hnone clock hclock hfound
    obtain ⟨f, hf, rfl⟩ := List.mem_map.mp hclock
    exact hnone ⟨f, hf, (of_decide_eq_true hfound).2⟩

/-- What is found by its key is the clock of a file, and of that key. -/
theorem findByKey_some {clock : Clock} (h : ClockHost.findByKey ClockKind.mttr.text id files = some clock) :
    ∃ f ∈ files, f.clock = clock ∧ f.clock.key = id := by
  rw [ClockHost.findByKey] at h
  obtain ⟨f, hf, rfl⟩ := List.mem_map.mp (List.mem_of_find?_eq_some h)
  have hfound := List.find?_some h
  exact ⟨f, hf, rfl, (of_decide_eq_true hfound).2⟩

/-- The files of two keys are two files. -/
theorem key_of_path_eq {f g : ClockFile} (hf : f.Filed host) (hg : g.Filed host) (h : f.path = g.path) :
    f.clock.key = g.clock.key := by
  obtain ⟨random, hrandom⟩ := hf.named
  obtain ⟨random', hrandom'⟩ := hg.named
  rw [hf.placed, hg.placed, hrandom, hrandom'] at h
  exact key_of_pathFor_eq (no_slash_of_safe hf.safe) (no_slash_of_safe hg.safe) h

/-- The name `mttr:<id>.json` is that of no clock's file. -/
theorem path_ne_composite {f : ClockFile} (hf : f.Filed host) (hid : slash ∉ id) :
    f.path ≠ host.pathFor (composite .mttr id) := by
  obtain ⟨random, hrandom⟩ := hf.named
  have hcomposite : slash ∉ composite .mttr id := by
    intro hmem
    rcases List.mem_append.mp hmem with hmem | hmem
    · exact absurd hmem (by decide)
    · exact hid hmem
  intro heq
  rw [hf.placed, hrandom, pathFor_of_no_slash (no_slash_clockId (no_slash_of_safe hf.safe) random),
    pathFor_of_no_slash hcomposite] at heq
  have hname := List.append_cancel_right (List.singleton_inj.mp (List.append_cancel_left heq))
  -- after `mttr` the one name goes on with a dash and the other one with a colon
  have hfourth := congrArg (fun name => name[4]?) hname
  change some (0x2D : CodeUnit) = some 0x3A at hfourth
  exact absurd hfourth (by decide)

/-! ### Starting a clock -/

/-- A clock is started when its composite key is safe, the directory can be listed and the file written,
unless it runs. -/
def CanStart (io : StoreIo) (id : JsString) : Prop :=
  isSafeComposite (composite .mttr id) = true ∧ io.reads = true ∧ io.writes = true

variable {s : PromoterState} {io : StoreIo} {obs : Observation} {now : ℤ} {random : Vector UInt8 4}
  {metadata : List (JsString × JsString)}

theorem start_of_found {clock : Clock} (h : ClockHost.findByKey ClockKind.mttr.text id files = some clock) :
    ∃ e, host.start io .mttr id metadata now random files = .error e := by
  rw [ClockHost.start, h]
  split_ifs <;> exact ⟨_, rfl⟩

theorem start_refused (h : ¬ CanStart io id) :
    ∃ e, host.start io .mttr id metadata now random files = .error e := by
  rw [ClockHost.start]
  split_ifs with hsafe hreads hwrites
  · exact ⟨_, rfl⟩
  · exact ⟨_, rfl⟩
  · split <;> exact ⟨_, rfl⟩
  · simp only [Bool.not_eq_true', Bool.not_eq_false] at hsafe hreads hwrites
    exact absurd ⟨hsafe, hreads, hwrites⟩ h

/-- The file of a clock that is started now -/
def startedFile (host : ClockHost) (id : JsString) (metadata : List (JsString × JsString)) (now : ℤ)
    (random : Vector UInt8 4) : ClockFile :=
  ⟨host.pathFor (clockId .mttr id random), ⟨clockId .mttr id random, .mttr, id, now, metadata⟩⟩

theorem start_ok (h : CanStart io id) (hnone : ClockHost.findByKey ClockKind.mttr.text id files = none) :
    host.start io .mttr id metadata now random files =
      .ok (files.filter (fun f => f.path ≠ host.pathFor (clockId .mttr id random)) ++
        [startedFile host id metadata now random]) := by
  rw [ClockHost.start, h.1, h.2.1, hnone, h.2.2]
  rfl

theorem startedFile_filed (h : CanStart io id) : (startedFile host id metadata now random).Filed host :=
  ⟨rfl, h.1, ⟨random, rfl⟩, rfl⟩

/-- A clock of another key has another file than the one that is started. -/
theorem filter_started (hfiled : ∀ f ∈ files, f.Filed host) (h : CanStart io id) (hruns : ¬ Runs files id) :
    files.filter (fun f => f.path ≠ host.pathFor (clockId .mttr id random)) = files := by
  rw [List.filter_eq_self]
  intro f hf
  refine decide_eq_true fun heq => hruns ((runs_iff hfiled).mpr ⟨f, hf, ?_⟩)
  have hstarted : (startedFile host id [] 0 random).Filed host := startedFile_filed h
  exact key_of_path_eq (hfiled f hf) hstarted heq

/-- What a `promote` does to the files: a clock that does not run is started if it can be. -/
theorem promote_files (hs : s.Filed host) (obs : Observation) (io : StoreIo) (now : ℤ)
    (random : Vector UInt8 4) :
    (Runs s.files obs.id ∨ ¬ CanStart io obs.id) ∧ (s.promote host obs io now random).files = s.files ∨
      ¬ Runs s.files obs.id ∧ CanStart io obs.id ∧ ∃ f : ClockFile, f.Filed host ∧ f.clock.key = obs.id ∧
        (s.promote host obs io now random).files = s.files ++ [f] := by
  by_cases hruns : Runs s.files obs.id
  · obtain ⟨clock, hclock⟩ := Option.ne_none_iff_exists'.mp fun hnone =>
      (findByKey_eq_none hs.filed).mp hnone hruns
    have herror : ∃ e, host.start io .mttr obs.id obs.clockMetadata now random s.files = .error e :=
      start_of_found hclock
    obtain ⟨e, he⟩ := herror
    refine .inl ⟨.inl hruns, ?_⟩
    rw [PromoterState.promote, he]
  · by_cases hstart : CanStart io obs.id
    · have hfiled : (startedFile host obs.id obs.clockMetadata now random).Filed host :=
        startedFile_filed hstart
      refine .inr ⟨hruns, hstart, _, hfiled, rfl, ?_⟩
      rw [PromoterState.promote, start_ok hstart ((findByKey_eq_none hs.filed).mpr hruns),
        filter_started hs.filed hstart hruns]
    · have herror : ∃ e, host.start io .mttr obs.id obs.clockMetadata now random s.files = .error e :=
        start_refused hstart
      obtain ⟨e, he⟩ := herror
      refine .inl ⟨.inr hstart, ?_⟩
      rw [PromoterState.promote, he]

/-! ### Stopping a clock -/

/-- The id is taken for that of a file. -/
def LooksLikeFile (id : JsString) : Prop := includes (js "--") (composite .mttr id) = true

instance (id : JsString) : Decidable (LooksLikeFile id) := inferInstanceAs (Decidable (_ = true))

/-- The file that `stop` unlinks for an observation -/
def unlinked (host : ClockHost) (io : StoreIo) (id : JsString) (files : List ClockFile) :
    Option (List JsString) :=
  if io.reads = true ∧ io.unlinks = true then
    (host.lookUp (composite .mttr id) files).map fun clock => host.pathFor clock.id
  else none

theorem filter_ne_none (files : List ClockFile) : files.filter (fun f => some f.path ≠ none) = files :=
  List.filter_eq_self.mpr fun _ _ => rfl

theorem includes_colon (id : JsString) : includes (js ":") (composite .mttr id) = true :=
  decide_eq_true ⟨js "mttr", id, rfl⟩

theorem cancel_files (s : PromoterState) (obs : Observation) (io : StoreIo) (now : ℤ) :
    (s.cancel host obs io now).files =
      s.files.filter fun f => some f.path ≠ unlinked host io obs.id s.files := by
  rw [PromoterState.cancel, ClockHost.stop, unlinked, includes_colon, Bool.or_true, Bool.true_and]
  cases hreads : io.reads with
  | false => exact (filter_ne_none s.files).symm
  | true =>
    cases hlook : host.lookUp (composite .mttr obs.id) s.files with
    | none =>
      have hnone : (if true = true ∧ io.unlinks = true then
          Option.map (fun clock : Clock => host.pathFor clock.id) none else none) = none := ite_self _
      rw [hnone]
      exact (filter_ne_none s.files).symm
    | some clock =>
      cases hunlinks : io.unlinks with
      | false => exact (filter_ne_none s.files).symm
      | true =>
        refine List.filter_congr fun f _ => ?_
        exact decide_eq_decide.mpr (not_congr Option.some_inj.symm)

theorem lookUp_of_not_looksLike (h : ¬ LooksLikeFile id) :
    host.lookUp (composite .mttr id) files = ClockHost.findByKey ClockKind.mttr.text id files := by
  have hdashes : ¬ includes (js "--") (composite .mttr id) = true := h
  rw [ClockHost.lookUp, if_neg hdashes, if_pos (includes_colon id)]
  rfl

theorem lookUp_of_looksLike (h : LooksLikeFile id) :
    host.lookUp (composite .mttr id) files = host.readById (composite .mttr id) files := by
  have hdashes : includes (js "--") (composite .mttr id) = true := h
  rw [ClockHost.lookUp, if_pos hdashes]

/-- The id of a clock that runs, when it is taken for a file, is that of no file. -/
theorem readById_of_runs (hfiled : ∀ f ∈ files, f.Filed host) (h : Runs files id) :
    host.readById (composite .mttr id) files = none := by
  obtain ⟨f, hf, -, rfl⟩ := h
  have hslash := no_slash_of_safe (hfiled f hf).safe
  have hfind : files.find? (fun g => g.path = host.pathFor (composite .mttr f.clock.key)) = none := by
    rw [List.find?_eq_none]
    intro g hg heq
    exact path_ne_composite (hfiled g hg) hslash (of_decide_eq_true heq)
  have hcomposite : slash ∉ composite .mttr f.clock.key := by
    intro hmem
    rcases List.mem_append.mp hmem with hmem | hmem
    · exact absurd hmem (by decide)
    · exact hslash hmem
  rw [ClockHost.readById, hfind]
  change ite _ none _ = none
  rw [if_pos]
  rw [pathFor_of_no_slash hcomposite, List.dropLast_concat]

/-! ### The clocks that run -/

/-- The clocks that run are those of the observations that were promoted and neither cancelled nor resolved
since, with one clock for each of them. -/
structure PromoterState.ClocksExact (s : PromoterState) : Prop where
  running : ∀ id, Runs s.files id ↔ id ∈ s.live
  unique : (s.files.map fun f => f.clock.key).Nodup

/-- The clock of what is promoted runs already or can be started. What is cancelled has no clock that runs,
or one that `stop` finds and unlinks, and its id leads to the file of no other clock. What is resolved has no
clock that runs. -/
def PromoterState.Tends (host : ClockHost) (s : PromoterState) : PromoterEvent → Prop
  | .promote obs io _ _ => Runs s.files obs.id ∨ CanStart io obs.id
  | .cancel obs io _ =>
    (Runs s.files obs.id → ¬ LooksLikeFile obs.id ∧ io.reads = true ∧ io.unlinks = true) ∧
      (LooksLikeFile obs.id → io.reads = true → io.unlinks = true →
        ∀ clock ∈ host.readById (composite .mttr obs.id) s.files, ∀ f ∈ s.files,
          f.path ≠ host.pathFor clock.id)
  | .resolved obs => ¬ Runs s.files obs.id

theorem eq_of_key_eq (hs : s.Filed host) {f g : ClockFile} (hf : f ∈ s.files) (hg : g ∈ s.files)
    (h : f.clock.key = g.clock.key) : f = g :=
  List.inj_on_of_nodup_map hs.unique hf hg h

/-- What is unlinked is the clock of the observation alone just in case its conditions are met. -/
theorem unlinked_iff (hs : s.Filed host) :
    (∀ f ∈ s.files, (some f.path = unlinked host io obs.id s.files ↔ f.clock.key = obs.id)) ↔
      s.Tends host (.cancel obs io now) := by
  by_cases hio : io.reads = true ∧ io.unlinks = true
  · by_cases hlooks : LooksLikeFile obs.id
    · rw [unlinked, if_pos hio, lookUp_of_looksLike hlooks]
      constructor
      -- an id that looks like a file's does not find the clock that runs for it
      · intro h
        have hnot : ¬ Runs s.files obs.id := by
          intro hruns
          obtain ⟨f, hf, -, hkey⟩ := id hruns
          have hsome := (h f hf).mpr hkey
          rw [readById_of_runs hs.filed hruns] at hsome
          cases hsome
        refine ⟨fun hruns => absurd hruns hnot, fun _ _ _ clock hclock f hf heq => hnot ?_⟩
        refine (runs_iff hs.filed).mpr ⟨f, hf, (h f hf).mp ?_⟩
        rw [Option.mem_def.mp hclock, Option.map_some, heq]
      · rintro ⟨hnot, hastray⟩ f hf
        constructor
        · intro hpath
          obtain ⟨clock, hclock, hp⟩ := Option.map_eq_some_iff.mp hpath.symm
          exact absurd hp.symm (hastray hlooks hio.1 hio.2 clock hclock f hf)
        · intro hkey
          exact absurd hlooks (hnot ((runs_iff hs.filed).mpr ⟨f, hf, hkey⟩)).1
    -- found by its key: the clock that is unlinked is the one of the observation
    · refine iff_of_true (fun f hf => ?_) ⟨fun _ => ⟨hlooks, hio⟩, fun h => absurd h hlooks⟩
      rw [unlinked, if_pos hio, lookUp_of_not_looksLike hlooks]
      cases hfind : ClockHost.findByKey ClockKind.mttr.text obs.id s.files with
      | none =>
        refine iff_of_false nofun fun hkey => ?_
        exact (findByKey_eq_none hs.filed).mp hfind ((runs_iff hs.filed).mpr ⟨f, hf, hkey⟩)
      | some clock =>
        obtain ⟨g, hg, rfl, hgkey⟩ := findByKey_some hfind
        rw [Option.map_some, Option.some_inj, ← (hs.filed g hg).placed]
        constructor
        · intro hpath
          exact (key_of_path_eq (hs.filed f hf) (hs.filed g hg) hpath).trans hgkey
        · intro hkey
          rw [eq_of_key_eq hs hf hg (hkey.trans hgkey.symm)]
  -- a directory that cannot be read, or a file that cannot be unlinked: all clocks stay
  · rw [unlinked, if_neg hio]
    constructor
    · intro h
      refine ⟨fun hruns => ?_, fun _ hreads hunlinks => absurd ⟨hreads, hunlinks⟩ hio⟩
      obtain ⟨f, hf, hkey⟩ := (runs_iff hs.filed).mp hruns
      cases (h f hf).mpr hkey
    · rintro ⟨hnot, -⟩ f hf
      refine iff_of_false nofun fun hkey => hio ?_
      exact (hnot ((runs_iff hs.filed).mpr ⟨f, hf, hkey⟩)).2

/-- Taking away the file at a path leaves the clocks of the other observations just in case it is the file of
the observation's clock, if that runs, and of no other. -/
theorem running_filter_iff (hs : s.Filed host) (hexact : s.ClocksExact) (path : Option (List JsString))
    (id : JsString) :
    (∀ id', Runs (s.files.filter fun f => some f.path ≠ path) id' ↔ id' ∈ s.live.filter (· ≠ id)) ↔
      ∀ f ∈ s.files, (some f.path = path ↔ f.clock.key = id) := by
  have hfiled : ∀ f ∈ s.files.filter (fun f => some f.path ≠ path), f.Filed host :=
    fun f hf => hs.filed f (List.mem_of_mem_filter hf)
  have hmem (id' : JsString) : id' ∈ s.live.filter (· ≠ id) ↔ Runs s.files id' ∧ id' ≠ id := by
    rw [List.mem_filter, hexact.running, decide_eq_true_iff]
  constructor
  · intro h f hf
    have hruns : Runs s.files f.clock.key := (runs_iff hs.filed).mpr ⟨f, hf, rfl⟩
    constructor
    · intro hpath
      by_contra hkey
      obtain ⟨g, hg, hgkey⟩ := (runs_iff hfiled).mp ((h f.clock.key).mpr ((hmem _).mpr ⟨hruns, hkey⟩))
      obtain ⟨hg, hgpath⟩ := List.mem_filter.mp hg
      rw [eq_of_key_eq hs hg hf hgkey] at hgpath
      exact absurd hpath (of_decide_eq_true hgpath)
    · intro hkey
      by_contra hpath
      have hleft : Runs (s.files.filter fun f => some f.path ≠ path) f.clock.key :=
        (runs_iff hfiled).mpr ⟨f, List.mem_filter.mpr ⟨hf, decide_eq_true hpath⟩, rfl⟩
      exact absurd hkey ((hmem _).mp ((h _).mp hleft)).2
  · intro h id'
    rw [hmem, runs_iff hfiled, runs_iff hs.filed]
    constructor
    · rintro ⟨f, hf, rfl⟩
      obtain ⟨hf, hpath⟩ := List.mem_filter.mp hf
      exact ⟨⟨f, hf, rfl⟩, fun hkey => of_decide_eq_true hpath ((h f hf).mpr hkey)⟩
    · rintro ⟨⟨f, hf, rfl⟩, hkey⟩
      exact ⟨f, List.mem_filter.mpr ⟨hf, decide_eq_true fun hpath => hkey ((h f hf).mp hpath)⟩, rfl⟩

/-! ### Runs -/

theorem filed_next (hs : s.Filed host) (e : PromoterEvent) : ((promoter host).next s e).Filed host := by
  cases e with
  | promote obs io now random =>
    rcases promote_files hs obs io now random with ⟨-, hfiles⟩ | ⟨hruns, -, f, hf, hkey, hfiles⟩
    · change PromoterState.Filed host (s.promote host obs io now random)
      exact ⟨hfiles ▸ hs.filed, hfiles ▸ hs.unique⟩
    · refine ⟨?_, ?_⟩
      · change ∀ g ∈ (s.promote host obs io now random).files, g.Filed host
        rw [hfiles]
        exact Automaton.forall_snoc hs.filed hf
      · change ((s.promote host obs io now random).files.map fun g => g.clock.key).Nodup
        rw [hfiles]
        apply Records.unique_snoc hs.unique
        rw [hkey]
        intro hmem
        obtain ⟨g, hg, hgkey⟩ := List.mem_map.mp hmem
        exact hruns ((runs_iff hs.filed).mpr ⟨g, hg, hgkey⟩)
  | cancel obs io now =>
    refine ⟨?_, ?_⟩
    · change ∀ g ∈ (s.cancel host obs io now).files, g.Filed host
      rw [cancel_files]
      exact fun g hg => hs.filed g (List.mem_of_mem_filter hg)
    · change ((s.cancel host obs io now).files.map fun g => g.clock.key).Nodup
      rw [cancel_files]
      exact hs.unique.sublist (List.filter_sublist.map _)
  | resolved obs => exact ⟨hs.filed, hs.unique⟩

theorem promote_exact_iff (hs : s.Filed host) (hexact : s.ClocksExact) :
    (∀ id, Runs (s.promote host obs io now random).files id ↔ id ∈ obs.id :: s.live) ↔
      Runs s.files obs.id ∨ CanStart io obs.id := by
  rcases promote_files hs obs io now random with ⟨hcases, hfiles⟩ | ⟨-, hstart, f, hf, hkey, hfiles⟩
  · rw [hfiles]
    constructor
    · intro h
      exact .inl ((h obs.id).mpr (List.mem_cons_self ..))
    · intro h id
      have hruns : Runs s.files obs.id := by
        by_contra hnot
        exact hcases.elim hnot fun hrefused => hrefused (h.resolve_left hnot)
      rw [List.mem_cons, hexact.running]
      constructor
      · exact .inr
      · rintro (rfl | hlive)
        · exact (hexact.running _).mp hruns
        · exact hlive
  · refine iff_of_true (fun id => ?_) (.inr hstart)
    rw [hfiles, List.mem_cons, ← hexact.running]
    constructor
    · rintro ⟨g, hg, hkind, rfl⟩
      rcases List.mem_append.mp hg with hg | hg
      · exact .inr ⟨g, hg, hkind, rfl⟩
      · rw [List.mem_singleton.mp hg]
        exact .inl hkey
    · rintro (rfl | ⟨g, hg, hkind, hgkey⟩)
      · exact ⟨f, List.mem_append_right _ (List.mem_singleton.mpr rfl), hf.kind, hkey⟩
      · exact ⟨g, List.mem_append_left _ hg, hkind, hgkey⟩

theorem resolved_exact_iff (hexact : s.ClocksExact) :
    (∀ id, Runs s.files id ↔ id ∈ s.live.filter (· ≠ obs.id)) ↔ ¬ Runs s.files obs.id := by
  have hmem (id : JsString) : id ∈ s.live.filter (· ≠ obs.id) ↔ Runs s.files id ∧ id ≠ obs.id := by
    rw [List.mem_filter, hexact.running, decide_eq_true_iff]
  constructor
  · intro h hruns
    exact ((hmem _).mp ((h _).mp hruns)).2 rfl
  · intro hnot id
    rw [hmem]
    constructor
    · intro hruns
      exact ⟨hruns, fun heq => hnot (heq ▸ hruns)⟩
    · exact And.left

/-- The clocks stay exact over a step just in case the call tends its clock. -/
theorem exact_next_iff (hs : s.Filed host) (hexact : s.ClocksExact) (e : PromoterEvent) :
    ((promoter host).next s e).ClocksExact ↔ s.Tends host e := by
  have hunique := (filed_next hs e).unique
  have hrunning : ((promoter host).next s e).ClocksExact ↔
      ∀ id, Runs ((promoter host).next s e).files id ↔ id ∈ ((promoter host).next s e).live :=
    ⟨fun h => h.running, fun h => ⟨h, hunique⟩⟩
  rw [hrunning]
  cases e with
  | promote obs io now random => exact promote_exact_iff hs hexact
  | cancel obs io now =>
    rw [← unlinked_iff hs, ← running_filter_iff hs hexact, ← cancel_files s obs io now]
    exact Iff.rfl
  | resolved obs => exact resolved_exact_iff hexact

theorem filed_empty (host : ClockHost) : PromoterState.empty.Filed host :=
  ⟨fun _ h => absurd h List.not_mem_nil, List.nodup_nil⟩

theorem exact_empty : PromoterState.empty.ClocksExact where
  running id := by
    refine iff_of_false ?_ List.not_mem_nil
    rintro ⟨f, hf, -⟩
    exact absurd hf List.not_mem_nil
  unique := List.nodup_nil

/-- All along a run the clocks are exact just in case each call tends its clock. -/
theorem clocks_exact_iff (host : ClockHost) (events : List PromoterEvent) :
    (promoter host).Throughout PromoterState.ClocksExact .empty events ↔
      (promoter host).Permits (PromoterState.Tends host) .empty events := by
  have hany (s : PromoterState) : (promoter host).Permits Automaton.anyEvent s events := by
    induction events generalizing s with
    | nil => trivial
    | cons e events ih => exact ⟨trivial, trivial, ih _⟩
  exact Automaton.throughout_iff (filed_empty host) exact_empty (fun _ e hs _ => filed_next hs e)
    (fun _ e hs hexact _ => exact_next_iff hs hexact e) (hany _)

def sampleClocks : ClockHost := ⟨js "/", js "/data/metrics-clocks", fun _ => none⟩

def sampleObservation : Observation where
  id := js "1b4e28ba-2fa1-4d30-8f52-0d6c1f1ad0e1"
  platform := js "k3s-01"
  pattern := js "crash_loop"
  resource := js "Pod/web"
  severity := .p1
  discoveredAt := js "2026-01-01T00:00:00.000Z"
  details := none
  dedupKey := none

/-- An observation is promoted and then resolved. -/
def resolvedEvents : List PromoterEvent :=
  [.promote sampleObservation ⟨true, true, true⟩ 0 (Vector.replicate 4 0), .resolved sampleObservation]

/-- The clock of a resolved observation runs on. -/
theorem clock_outlives_resolved : ¬ ∀ (host : ClockHost) (events : List PromoterEvent),
    (promoter host).Throughout PromoterState.ClocksExact .empty events := by
  intro h
  have hexact := h sampleClocks resolvedEvents
  have hruns := (hexact.2.1.running sampleObservation.id).mpr (List.mem_cons_self ..)
  have hlive := (hexact.2.2.running sampleObservation.id).mp hruns
  exact absurd rfl (of_decide_eq_true (List.mem_filter.mp hlive).2)

end Homelab
