import Homelab.AdminCommands

/-! What an admin command does when the role check has rejected it: `platform exec` and
`inventory remove` do nothing, while `consent revoke`, `ca init` and `ca rotate` run and
write unless something else stops them. -/
namespace Homelab
open Js Effect

/-- What a rejected command may not change: the consent file, the inventory file, the CA
directory and what was sent. -/
def guarded (m : Machine) :
    Option JsString × Option JsString × Option Directory × List (JsString × JsString) :=
  (m.dir.consent, m.dir.inventory, m.dir.folders .ca, m.sent)

theorem permits_guarded : Permits (Same guarded) fun p => ∃ name, p = .inside .keys name where
  put m p text hp := by
    obtain ⟨name, rfl⟩ := hp
    rfl
  make m folder name hp := by
    obtain ⟨name', hp⟩ := hp
    cases hp
    rfl
  out _ _ := rfl
  err _ _ := rfl

/-! ### The serial counter -/

theorem serialText_units (n : ℕ) : ∀ c ∈ serialText n, ∃ d < 10, c = digitUnit d := by
  intro c hc
  obtain ⟨d, hd, rfl⟩ := List.mem_map.mp hc
  exact ⟨d, digitList_lt n d hd, rfl⟩

theorem digitUnit_notSpace (d : ℕ) (hd : d < 10) : isWhiteSpace (digitUnit d) = false := by
  interval_cases d <;> rfl

theorem dropWhile_space {s : JsString} (h : ∀ c ∈ s, isWhiteSpace c = false) :
    s.dropWhile isWhiteSpace = s := by
  cases s with
  | nil => rfl
  | cons c rest =>
    rw [List.dropWhile_cons_of_neg]
    rw [h c (List.mem_cons_self ..)]
    exact Bool.false_ne_true

theorem trim_serialText (n : ℕ) : trim (serialText n) = serialText n := by
  have hspace : ∀ c ∈ serialText n, isWhiteSpace c = false := by
    intro c hc
    obtain ⟨d, hd, rfl⟩ := serialText_units n c hc
    exact digitUnit_notSpace d hd
  have hreverse : ∀ c ∈ (serialText n).reverse, isWhiteSpace c = false :=
    fun c hc => hspace c (List.mem_reverse.mp hc)
  rw [trim, dropWhile_space hspace, dropWhile_space hreverse, List.reverse_reverse]

theorem parseDigits_serialText (n : ℕ) (hn : n ≠ 0) : parseDigits (serialText n) = some n := by
  have hspan : spanDigits (serialText n) = (digitList n, []) := by
    have := spanDigits_text (digitList n) [] (digitList_lt n) trivial
    rwa [List.append_nil] at this
  rw [parseDigits, hspan, if_neg (digitList_ne_nil n hn), ofDigitList_digitList]

theorem parseInt_serialText (n : ℕ) (hn : n ≠ 0) : parseInt (serialText n) = some (n : ℤ) := by
  have hspace : (serialText n).dropWhile isWhiteSpace = serialText n := by
    apply dropWhile_space
    intro c hc
    obtain ⟨d, hd, rfl⟩ := serialText_units n c hc
    exact digitUnit_notSpace d hd
  have hsign (c : CodeUnit) (rest : JsString) (hc : serialText n = c :: rest) :
      c ≠ 0x2D ∧ c ≠ 0x2B := by
    obtain ⟨d, hd, rfl⟩ := serialText_units n c (hc ▸ List.mem_cons_self ..)
    interval_cases d <;> decide
  rw [parseInt, hspace]
  split
  · next rest hrest => exact absurd rfl (hsign _ _ hrest).1
  · next rest hrest => exact absurd rfl (hsign _ _ hrest).2
  · rw [parseDigits_serialText n hn]
    rfl

theorem currentSerial_serialText (n : ℕ) (hn : n ≠ 0) : currentSerial (serialText n) = n := by
  rw [currentSerial, trim_serialText, parseInt_serialText n hn]
  have hpos : (0 : ℤ) < n := by omega
  simp only [hpos, ↓reduceIte, Int.toNat_natCast]

/-- The serial that the counter file stands for, 1 when there is none. -/
def serialOf : Option JsString → ℕ
  | none => 1
  | some raw => currentSerial raw

/-- Writing the next serial changes the counter file. -/
theorem serialText_next_ne (file : Option JsString) : some (serialText (serialOf file+1)) ≠ file := by
  intro heq
  have hserial := congrArg serialOf heq
  rw [serialOf, currentSerial_serialText _ (Nat.succ_ne_zero _)] at hserial
  omega

section Serial

variable (h : CaHost)

theorem readSerial_run (hread : h.refuses (.readFile serialCounter) = none) (m : Machine) :
    (readSerial h).run m = .ok (serialOf (m.dir.file serialCounter)) m := by
  cases hc : m.dir.file serialCounter with
  | some raw => exact run_tryCatch_ok (run_map_ok (readFile_run hread hc) _) _
  | none => exact run_tryCatch_error (run_map_error (readFile_missing hread hc) _) _

theorem readSerial_refused {e : Refusal} (hread : h.refuses (.readFile serialCounter) = some e)
    (m : Machine) : (readSerial h).run m = .error (.node e.toNodeError) m := by
  rw [readSerial, run_tryCatch_error (run_map_error (readFile_refused hread m) _)]
  simp only [if_neg e.notMissing]
  rfl

theorem nextSerial_refused (hrefused : h.refuses (.readFile serialCounter) ≠ none ∨
    h.refuses (.atomicWrite serialCounter) ≠ none) (m : Machine) :
    ∃ e, (nextSerial h).run m = .error e m := by
  cases hread : h.refuses (.readFile serialCounter) with
  | some e => exact ⟨_, run_bind_error (readSerial_refused h hread m) _⟩
  | none =>
    obtain ⟨e, hwrite⟩ := Option.ne_none_iff_exists'.mp (hrefused.resolve_left (not_not.mpr hread))
    refine ⟨.node e.toNodeError, ?_⟩
    rw [nextSerial, run_bind_ok (readSerial_run h hread m), writeSerialCounter]
    apply run_bind_error
    exact run_bind_error (atomicWriteFile_refused hwrite _ m) _

theorem nextSerial_writes (hread : h.refuses (.readFile serialCounter) = none)
    (hwrite : h.refuses (.atomicWrite serialCounter) = none) (m : Machine) :
    (after ((nextSerial h).run m)).dir.file serialCounter =
      some (serialText (serialOf (m.dir.file serialCounter)+1)) := by
  rw [nextSerial, run_bind_ok (readSerial_run h hread m), writeSerialCounter]
  simp only [bind_assoc]
  rw [run_bind_ok (atomicWriteFile_run hwrite _ m)]
  have hkept := Within.bind (R := Same fun m => m.dir.file serialCounter)
    (chmod_within h.refuses serialCounter) fun _ => Within.pure (serialOf (m.dir.file serialCounter))
  apply (hkept.rel _).trans
  exact DataDir.file_put_self (m.dir.makeParent serialCounter) serialCounter _
    (m.dir.hasParent_makeParent _)

end Serial

/-! ### `ca rotate` -/

/-- `rotateKey` gets as far as writing the serial counter. -/
structure KeyRotates (h : CaHost) (d : DataDir) (platformId : JsString) : Prop where
  hasCert : existsFile h.refuses d (userCert platformId) = true
  hasCa : existsFile h.refuses d caKey = true
  inspected : ∃ stdout,
    h.sshKeygen.inspect (js "-L") (h.path (userCert platformId)) d = .ok stdout
  generated : (h.sshKeygen.generate .keys (rotationName h platformId) [] platformId d).result = .ok ()
  chmod : h.refuses (.chmod (.inside .keys (rotationName h platformId))) = none
  counterRead : h.refuses (.readFile serialCounter) = none
  counterWritten : h.refuses (.atomicWrite serialCounter) = none

/-- The machine after `ssh-keygen` has generated a key. -/
def generatedAt (h : CaHost) (folder : Folder) (name passphrase comment : JsString) (m : Machine) :
    Machine :=
  { m with
    dir := (h.sshKeygen.generate folder name passphrase comment m.dir).store folder name m.dir }

section Rotate

variable (h : CaHost)

theorem generateKey_ok {folder : Folder} {name passphrase comment : JsString} {m : Machine}
    (hr : (h.sshKeygen.generate folder name passphrase comment m.dir).result = .ok ()) :
    (generateKey h folder name passphrase comment).run m =
      .ok () (generatedAt h folder name passphrase comment m) := by
  change (keygenResult (h.sshKeygen.generate folder name passphrase comment m.dir).result).run _ = _
  rw [hr]
  rfl

theorem generateKey_error {folder : Folder} {name passphrase comment stderr : JsString} {m : Machine}
    (hr : (h.sshKeygen.generate folder name passphrase comment m.dir).result = .error stderr) :
    (generateKey h folder name passphrase comment).run m =
      .error (.ca .sshKeygenFailed (js "ssh-keygen failed: " ++ stderr))
        (generatedAt h folder name passphrase comment m) := by
  change (keygenResult (h.sshKeygen.generate folder name passphrase comment m.dir).result).run _ = _
  rw [hr]
  rfl

/-- A key that was generated lies where it was asked for, and is new. -/
theorem generatedAt_file {folder : Folder} {name passphrase comment : JsString} {m : Machine}
    (hr : (h.sshKeygen.generate folder name passphrase comment m.dir).result = .ok ())
    (hfolder : m.dir.hasParent (.inside folder name)) :
    ∃ key, (generatedAt h folder name passphrase comment m).dir.file (.inside folder name) = some key ∧
      ∀ p, m.dir.file p ≠ some key := by
  obtain ⟨key, hkey, hfresh⟩ := h.sshKeygen.generate_fresh _ _ _ _ _ hr
  refine ⟨key, ?_, hfresh⟩
  rw [← hkey]
  exact KeygenRun.store_key _ hfolder

theorem chmod_run {p : Place} {m : Machine} {text : JsString} (hc : h.refuses (.chmod p) = none)
    (hp : m.dir.file p = some text) : (chmod h.refuses p).run m = .ok () m := by
  rw [chmod, attempt, hc]
  change EStateM.run (if (m.dir.file p).isSome then pure () else throw (Thrown.node .enoent)) m = _
  rw [hp]
  rfl

theorem chmod_error {p : Place} {e : Refusal} (hc : h.refuses (.chmod p) = some e) (m : Machine) :
    (chmod h.refuses p).run m = .error (.node e.toNodeError) m := by
  rw [chmod, attempt, hc]
  rfl

theorem safeUnlink_run (p : Place) (m : Machine) : ∃ t, (safeUnlink h.refuses p).run m = .ok () t := by
  rw [safeUnlink]
  split_ifs
  · exact ⟨_, rfl⟩
  · exact ⟨m, rfl⟩

theorem rotateCleanup_run (name : JsString) (e : Thrown) (m : Machine) :
    ∃ t, (rotateCleanup h name e).run m = .error e t := by
  obtain ⟨m1, h1⟩ := safeUnlink_run h (.inside .keys name) m
  obtain ⟨m2, h2⟩ := safeUnlink_run h (.inside .keys (name ++ js ".pub")) m1
  obtain ⟨m3, h3⟩ := safeUnlink_run h (.inside .keys (name ++ js "-cert.pub")) m2
  rw [rotateCleanup, run_bind_ok h1, run_bind_ok h2, run_bind_ok h3]
  exact ⟨m3, rfl⟩

theorem chmod_keeps (p : Place) (m : Machine) :
    (chmod h.refuses p).run m = .ok () m ∨ ∃ e, (chmod h.refuses p).run m = .error e m := by
  rw [chmod, attempt]
  cases h.refuses (.chmod p) with
  | some e => exact Or.inr ⟨_, rfl⟩
  | none =>
    change EStateM.run (if (m.dir.file p).isSome then pure () else throw (Thrown.node .enoent)) m = _ ∨
      ∃ e, EStateM.run (if (m.dir.file p).isSome then pure () else throw (Thrown.node .enoent)) m = _
    split_ifs
    · exact Or.inl rfl
    · exact Or.inr ⟨_, rfl⟩

/-- A rotation throws if it stops before the serial counter is written. -/
theorem rotateGenerate_stops {platformId passphrase principal : JsString} {m : Machine}
    (hno : (h.sshKeygen.generate .keys (rotationName h platformId) [] platformId m.dir).result = .ok () →
      h.refuses (.chmod (.inside .keys (rotationName h platformId))) = none →
      h.refuses (.readFile serialCounter) ≠ none ∨ h.refuses (.atomicWrite serialCounter) ≠ none) :
    ∃ e t, (rotateGenerate h platformId passphrase principal).run m = .error e t ∧
      Same guarded m t := by
  have hbody {body : Cli Unit} {e : Thrown} {t : Machine} (hb : body.run m = .error e t)
      (ht : Same guarded m t) : ∃ e t, (tryCatch body (rotateCleanup h (rotationName h platformId))).run m
        = .error e t ∧ Same guarded m t := by
    obtain ⟨t', hc⟩ := rotateCleanup_run h (rotationName h platformId) e t
    have hkept := (rotateCleanup_within h permits_guarded (fun name => ⟨name, rfl⟩)
      (rotationName h platformId) e).rel t
    rw [hc] at hkept
    exact ⟨e, t', (run_tryCatch_error hb _).trans hc, trans_of (Same guarded) ht hkept⟩
  cases hg : (h.sshKeygen.generate .keys (rotationName h platformId) [] platformId m.dir).result with
  | error stderr => exact hbody (run_bind_error (generateKey_error h hg) _) rfl
  | ok =>
    cases hc : h.refuses (.chmod (.inside .keys (rotationName h platformId))) with
    | some e =>
      exact hbody ((run_bind_ok (generateKey_ok h hg) _).trans (run_bind_error (chmod_error h hc _) _)) rfl
    | none =>
      obtain hrun | ⟨e, hrun⟩ := chmod_keeps h (.inside .keys (rotationName h platformId))
        (generatedAt h .keys (rotationName h platformId) [] platformId m)
      · obtain ⟨e, hserial⟩ := nextSerial_refused h (hno hg hc)
          (generatedAt h .keys (rotationName h platformId) [] platformId m)
        exact hbody (e := e) ((run_bind_ok (generateKey_ok h hg) _).trans
          ((run_bind_ok hrun _).trans (run_bind_error hserial _))) rfl
      · exact hbody ((run_bind_ok (generateKey_ok h hg) _).trans (run_bind_error hrun _)) rfl

theorem keys_ne_counter (name : JsString) : (.inside .keys name : Place) ≠ serialCounter := by
  intro heq
  injection heq with hfolder
  cases hfolder

def CounterIs (text : JsString) (m : Machine) : Prop := m.dir.file serialCounter = some text

theorem counterIs_stays {α : Type} {m : Cli α} (hm : Keeps (fun m => m.dir.file serialCounter) m)
    (text : JsString) : Within (Stays (CounterIs text)) m := hm.stays (· = some text)

/-- A rotation that writes the serial counter leaves it written, whatever fails later. -/
theorem rotateGenerate_writes {platformId passphrase principal : JsString} {m : Machine}
    (hg : (h.sshKeygen.generate .keys (rotationName h platformId) [] platformId m.dir).result = .ok ())
    (hkeys : m.dir.hasParent (.inside .keys (rotationName h platformId)))
    (hc : h.refuses (.chmod (.inside .keys (rotationName h platformId))) = none)
    (hread : h.refuses (.readFile serialCounter) = none)
    (hwrite : h.refuses (.atomicWrite serialCounter) = none) :
    CounterIs (serialText (serialOf (m.dir.file serialCounter)+1))
      (after ((rotateGenerate h platformId passphrase principal).run m)) := by
  have hpermits := permits_file serialCounter
  obtain ⟨key, hkey, _⟩ := generatedAt_file h hg hkeys
  have hsame : (generatedAt h .keys (rotationName h platformId) [] platformId m).dir.file serialCounter =
      m.dir.file serialCounter := by
    rw [generatedAt, KeygenRun.store, DataDir.file_put_of_ne _ _ (keys_ne_counter _).symm,
      DataDir.file_put_of_ne _ _ (keys_ne_counter _).symm]
  have hserial := nextSerial_writes h hread hwrite
    (generatedAt h .keys (rotationName h platformId) [] platformId m)
  rw [hsame] at hserial
  -- everything after the counter is written stays away from it
  apply holds_tryCatch (P := CounterIs _)
  · rw [run_bind_ok (generateKey_ok h hg), run_bind_ok (chmod_run h hc hkey)]
    apply holds_bind (P := CounterIs _) hserial
    exact fun _ => counterIs_stays (signKey_within h hpermits _ (keys_ne_counter _)) _
  · intro e
    exact counterIs_stays (rotateCleanup_within h hpermits keys_ne_counter _ e) _

theorem inspectKey_ok {flag stdout : JsString} {p : Place} {m : Machine}
    (hi : h.sshKeygen.inspect flag (h.path p) m.dir = .ok stdout) :
    (inspectKey h flag p).run m = .ok stdout m := by
  change (give ((h.sshKeygen.inspect flag (h.path p) m.dir).mapError _)).run m = _
  rw [hi]
  rfl

theorem inspectKey_error {flag stderr : JsString} {p : Place} {m : Machine}
    (hi : h.sshKeygen.inspect flag (h.path p) m.dir = .error stderr) :
    (inspectKey h flag p).run m =
      .error (.ca .sshKeygenFailed (js "ssh-keygen failed: " ++ stderr)) m := by
  change (give ((h.sshKeygen.inspect flag (h.path p) m.dir).mapError _)).run m = _
  rw [hi]
  rfl

theorem require_run (e : Thrown) (m : Machine) : (require true e).run m = .ok () m := rfl

theorem require_error (e : Thrown) (m : Machine) : (require false e).run m = .error e m := rfl

theorem rotateKey_kept {platformId passphrase : JsString} {m : Machine}
    (hno : ¬KeyRotates h m.dir platformId) :
    Same guarded m (after ((rotateKey h platformId passphrase).run m)) := by
  rw [rotateKey, run_bind_ok (fileExists_run _ _ m)]
  cases hcert : existsFile h.refuses m.dir (userCert platformId) with
  | false =>
    rw [run_bind_error (require_error _ m)]
    rfl
  | true =>
    rw [run_bind_ok (require_run _ m), run_bind_ok (fileExists_run _ _ m)]
    cases hca : existsFile h.refuses m.dir caKey with
    | false =>
      rw [run_bind_error (require_error _ m)]
      rfl
    | true =>
      rw [run_bind_ok (require_run _ m), readCertMetadata]
      simp only [bind_assoc, pure_bind]
      cases hi : h.sshKeygen.inspect (js "-L") (h.path (userCert platformId)) m.dir with
      | error stderr =>
        rw [run_bind_error (inspectKey_error h hi)]
        rfl
      | ok stdout =>
        rw [run_bind_ok (inspectKey_ok h hi)]
        have hstop (hg : (h.sshKeygen.generate .keys (rotationName h platformId) [] platformId
            m.dir).result = .ok ())
            (hc : h.refuses (.chmod (.inside .keys (rotationName h platformId))) = none) :
            h.refuses (.readFile serialCounter) ≠ none ∨
              h.refuses (.atomicWrite serialCounter) ≠ none := by
          by_contra hboth
          rw [not_or, not_not, not_not] at hboth
          exact hno ⟨hcert, hca, ⟨stdout, hi⟩, hg, hc, hboth.1, hboth.2⟩
        obtain ⟨e, t, hrun, ht⟩ := rotateGenerate_stops h hstop
        rw [run_bind_error hrun]
        exact ht

theorem rotateKey_writes {platformId passphrase : JsString} {m : Machine}
    (hyes : KeyRotates h m.dir platformId) :
    CounterIs (serialText (serialOf (m.dir.file serialCounter)+1))
      (after ((rotateKey h platformId passphrase).run m)) := by
  obtain ⟨stdout, hi⟩ := hyes.inspected
  have hkeys : m.dir.hasParent (.inside .keys (rotationName h platformId)) := by
    have hcert := hyes.hasCert
    rw [existsFile, Bool.and_eq_true] at hcert
    obtain ⟨text, htext⟩ := Option.isSome_iff_exists.mp hcert.2
    have hparent := DataDir.hasParent_of_file htext
    exact hparent
  rw [rotateKey, run_bind_ok (fileExists_run _ _ m), hyes.hasCert, run_bind_ok (require_run _ m),
    run_bind_ok (fileExists_run _ _ m), hyes.hasCa, run_bind_ok (require_run _ m), readCertMetadata]
  simp only [bind_assoc, pure_bind]
  rw [run_bind_ok (inspectKey_ok h hi)]
  apply holds_bind (P := CounterIs _)
    (rotateGenerate_writes h hyes.generated hkeys hyes.chmod hyes.counterRead hyes.counterWritten)
  intro _
  apply counterIs_stays
  apply rotateFinish_within h (permits_file serialCounter) keys_ne_counter
  decide

end Rotate

/-! ### `ca init` -/

/-- `ssh-keygen` succeeds, or leaves another file than it found. -/
def KeygenWrites (h : CaHost) (d : DataDir) (passphrase : JsString) : Prop :=
  let run := h.sshKeygen.generate .ca (js "homelab_ca") passphrase (js "homelab-ca") (d.make .keys)
  run.result = .ok () ∨ run.key ≠ d.file caBasename ∨ run.pub ≠ d.file caPub

/-- `initializeCA` gets as far as changing the CA directory. -/
structure Initializes (h : CaHost) (d : DataDir) (passphrase : JsString) : Prop where
  nonempty : passphrase ≠ []
  noCa : existsFile h.refuses d caKey = false
  mkdirCa : h.refuses (.mkdir .ca) = none
  writes : d.folders .ca = none ∨
    h.refuses (.mkdir .keys) = none ∧ KeygenWrites h d passphrase

section Init

variable (h : CaHost)

theorem mkdir_error {folder : Folder} {e : Refusal} (hm : h.refuses (.mkdir folder) = some e)
    (m : Machine) : (mkdir h.refuses folder).run m = .error (.node e.toNodeError) m := by
  rw [mkdir, attempt, hm]
  rfl

theorem mkdir_run {folder : Folder} (hm : h.refuses (.mkdir folder) = none) (m : Machine) :
    (mkdir h.refuses folder).run m = .ok () { m with dir := m.dir.make folder } := by
  rw [mkdir, attempt, hm]
  rfl

theorem initFinish_within {R : Machine → Machine → Prop} [IsPreorder Machine R] {W : Place → Prop}
    (hR : Permits R W) (hca : ∀ name, W (.inside .ca name)) : Within R (initFinish h) := by
  apply Within.bind (placeCaKey_within h hR (hca _) (hca _))
  intro _
  apply Within.bind (chmod_within _ _)
  intro _
  apply Within.bind (chmod_within _ _)
  intro _
  apply Within.bind (atomicWriteFile_within _ hR (hca _) _)
  intro _
  apply Within.bind (chmod_within _ _)
  exact fun _ => writeSerialCounter_within h hR (hca _) _

/-- The new key is in the CA directory, under the name it was generated or its own. -/
def KeyPlaced (key : JsString) (m : Machine) : Prop :=
  m.dir.file caBasename = some key ∨ m.dir.file caKey = some key

theorem keyPlaced_stays {α : Type} {m : Cli α} (hbase : Keeps (fun m => m.dir.file caBasename) m)
    (hkey : Keeps (fun m => m.dir.file caKey) m) (key : JsString) :
    Within (Stays (KeyPlaced key)) m := by
  constructor
  rintro s (hs | hs)
  · exact Or.inl ((hbase.rel s).trans hs)
  · exact Or.inr ((hkey.rel s).trans hs)

theorem rename_run {p q : Place} {m : Machine} {text : JsString} (hr : h.refuses (.rename p q) = none)
    (hp : m.dir.file p = some text) :
    (rename h.refuses p q).run m = .ok () { m with dir := (m.dir.put p none).put q (some text) } := by
  rw [rename, attempt, hr]
  change (orEnoent (m.dir.file p) >>= _).run m = _
  rw [hp]
  rfl

theorem rename_error {p q : Place} {e : Refusal} (hr : h.refuses (.rename p q) = some e)
    (m : Machine) : (rename h.refuses p q).run m = .error (.node e.toNodeError) m := by
  rw [rename, attempt, hr]
  rfl

theorem placeCaKey_placed {key : JsString} {m : Machine} (hm : m.dir.file caBasename = some key) :
    KeyPlaced key (after ((placeCaKey h).run m)) := by
  rw [placeCaKey, run_bind_ok (fileExists_run _ _ m)]
  split_ifs
  · cases hr : h.refuses (.rename caBasename caKey) with
    | some e =>
      rw [rename_error h hr]
      exact Or.inl hm
    | none =>
      rw [rename_run h hr hm]
      have hparent := DataDir.hasParent_of_file hm
      have hkey : (m.dir.put caBasename none).hasParent caKey := by
        simpa [DataDir.hasParent, DataDir.put, caKey, caBasename] using hparent
      exact Or.inr (DataDir.file_put_self _ _ _ hkey)
  · exact Or.inl hm

/-- Once a key has been generated it stays, whatever fails later. -/
theorem initFinish_placed {key : JsString} {m : Machine} (hm : m.dir.file caBasename = some key) :
    KeyPlaced key (after ((initFinish h).run m)) := by
  apply holds_bind (P := KeyPlaced key) (placeCaKey_placed h hm)
  intro _
  have hrest (p : Place) (hp : p = caBasename ∨ p = caKey) : Keeps (fun m => m.dir.file p) (do
      chmod h.refuses caKey
      chmod h.refuses caPub
      atomicWriteFile h.refuses revocationList []
      chmod h.refuses revocationList
      writeSerialCounter h 1) := by
    have hlist : revocationList ≠ p := by rcases hp with rfl | rfl <;> decide
    have hserial : serialCounter ≠ p := by rcases hp with rfl | rfl <;> decide
    apply Within.bind (chmod_within _ _)
    intro _
    apply Within.bind (chmod_within _ _)
    intro _
    apply Within.bind (atomicWriteFile_within _ (permits_file p) hlist _)
    intro _
    apply Within.bind (chmod_within _ _)
    exact fun _ => writeSerialCounter_within h (permits_file p) hserial _
  exact keyPlaced_stays (hrest _ (Or.inl rfl)) (hrest _ (Or.inr rfl)) key

theorem initializeCA_kept {passphrase : JsString} {m : Machine}
    (hno : ¬Initializes h m.dir passphrase) :
    Same guarded m (after ((initializeCA h passphrase).run m)) := by
  rw [initializeCA]
  by_cases hp : passphrase = []
  · rw [decide_eq_false (not_not.mpr hp), run_bind_error (require_error _ m)]
    rfl
  rw [decide_eq_true hp, run_bind_ok (require_run _ m), run_bind_ok (fileExists_run _ _ m)]
  cases hkey : existsFile h.refuses m.dir caKey with
  | true =>
    rw [Bool.not_true, run_bind_error (require_error _ m)]
    rfl
  | false =>
    rw [Bool.not_false, run_bind_ok (require_run _ m)]
    cases hca : h.refuses (.mkdir .ca) with
    | some e =>
      rw [run_bind_error (mkdir_error h hca m)]
      rfl
    | none =>
      have hwrites := not_or.mp fun hw => hno ⟨hp, hkey, hca, hw⟩
      have hfolder : (m.dir.folders .ca).isSome := Option.isSome_iff_ne_none.mpr hwrites.1
      rw [run_bind_ok (mkdir_run h hca m), DataDir.make_of_isSome hfolder]
      cases hkeys : h.refuses (.mkdir .keys) with
      | some e =>
        rw [run_bind_error (mkdir_error h hkeys m)]
        rfl
      | none =>
        rw [run_bind_ok (mkdir_run h hkeys m)]
        have hleft : ¬KeygenWrites h m.dir passphrase := fun hw => hwrites.2 ⟨hkeys, hw⟩
        simp only [KeygenWrites, not_or, not_not] at hleft
        obtain ⟨hresult, hbase, hpub⟩ := hleft
        cases hr : (h.sshKeygen.generate .ca (js "homelab_ca") passphrase (js "homelab-ca")
            (m.dir.make .keys)).result with
        | ok => exact absurd hr hresult
        | error stderr =>
          rw [run_bind_error (generateKey_error h hr), after_error, generatedAt]
          have hstore := KeygenRun.store_same _ (hbase.trans (m.dir.file_make .keys caBasename).symm)
            (hpub.trans (m.dir.file_make .keys caPub).symm)
          simp only [hstore]
          rfl

theorem initializeCA_changes {passphrase : JsString} {m : Machine}
    (hyes : Initializes h m.dir passphrase) :
    (after ((initializeCA h passphrase).run m)).dir.folders .ca ≠ m.dir.folders .ca := by
  rw [initializeCA, decide_eq_true hyes.nonempty, run_bind_ok (require_run _ m),
    run_bind_ok (fileExists_run _ _ m), hyes.noCa, Bool.not_false, run_bind_ok (require_run _ m),
    run_bind_ok (mkdir_run h hyes.mkdirCa m)]
  cases hfolder : m.dir.folders .ca with
  | none =>
    -- the directory itself is new
    have hpermits := permits_folder .ca
    have hrest : Within (Stays fun m => (m.dir.folders .ca).isSome) (do
        mkdir h.refuses .keys
        generateKey h .ca (js "homelab_ca") passphrase (js "homelab-ca")
        initFinish h) := by
      apply Within.bind (mkdir_within _ hpermits [] trivial)
      intro _
      apply Within.bind (generateKey_within h hpermits _ _ trivial trivial)
      exact fun _ => initFinish_within h hpermits fun _ => trivial
    have hmade := hrest.rel { m with dir := m.dir.make .ca } (by simp [DataDir.make])
    exact Option.isSome_iff_ne_none.mp hmade
  | some dir =>
    have hsome : (m.dir.folders .ca).isSome := by rw [hfolder]; rfl
    obtain ⟨hkeys, hwrites⟩ := hyes.writes.resolve_left (by rw [hfolder]; exact Option.some_ne_none _)
    rw [DataDir.make_of_isSome hsome, run_bind_ok (mkdir_run h hkeys m), ← hfolder]
    have hparent : (m.dir.make .keys).hasParent caBasename := by
      simpa [DataDir.hasParent, DataDir.make, caBasename] using hsome
    -- a file of the CA directory that differs shows that the directory does
    have hdiffers {t : Machine} {p : Place} {name : JsString} (hp : p = .inside .ca name)
        (hne : t.dir.file p ≠ m.dir.file p) : t.dir.folders .ca ≠ m.dir.folders .ca := by
      intro heq
      subst hp
      exact hne (by rw [DataDir.file, DataDir.file, heq])
    cases hr : (h.sshKeygen.generate .ca (js "homelab_ca") passphrase (js "homelab-ca")
        (m.dir.make .keys)).result with
    | ok =>
      obtain ⟨key, hkey, hfresh⟩ := generatedAt_file (m := { m with dir := m.dir.make .keys }) h hr hparent
      rw [run_bind_ok (generateKey_ok h hr)]
      have hnew (p : Place) : some key ≠ m.dir.file p :=
        fun heq => hfresh p ((m.dir.file_make .keys p).trans heq.symm)
      rcases initFinish_placed h hkey with hbase | hplaced
      · exact hdiffers rfl (hbase ▸ hnew caBasename)
      · exact hdiffers rfl (hplaced ▸ hnew caKey)
    | error stderr =>
      rw [run_bind_error (generateKey_error h hr), after_error]
      rcases hwrites with hok | hbase | hpub
      · rw [hr] at hok
        cases hok
      · apply hdiffers (p := caBasename) rfl
        intro heq
        exact hbase ((KeygenRun.store_key _ hparent).symm.trans heq)
      · apply hdiffers (p := caPub) rfl
        intro heq
        exact hpub ((KeygenRun.store_pub _ hparent).symm.trans heq)

end Init

/-! ### `consent revoke` -/

def namesCidr (cidr : JsString) (entry : JsValue) : Bool :=
  consentCidrIs cidr (property (js "cidr") entry)

/-- `consent revoke` finds an entry to remove and can write the file without it. -/
structure Revokes (h : CliHost) (d : DataDir) (cidr : JsString) : Prop where
  parses : parseCidr cidr ≠ none
  written : h.refuses (.atomicWrite .consent) = none
  found : ∃ consents, loadConsentFile h d = .ok consents ∧
    (∀ entry ∈ consents, entry.get? (js "cidr") ≠ none) ∧
    (∃ entry ∈ consents, namesCidr cidr entry = true) ∧
    ∃ text, h.yamlDump (consentFileValue (consents.filter fun e => !namesCidr cidr e)) = .ok text

theorem splitConsents_eq (cidr : JsString) (consents : List JsValue) :
    splitConsents cidr consents = .ok (consents.filter (namesCidr cidr),
        consents.filter fun e => !namesCidr cidr e) ∧
      (∀ entry ∈ consents, entry.get? (js "cidr") ≠ none) ∨
    (∃ message, splitConsents cidr consents = .error message) ∧
      ¬∀ entry ∈ consents, entry.get? (js "cidr") ≠ none := by
  induction consents with
  | nil => exact Or.inl ⟨rfl, fun _ h => nomatch h⟩
  | cons entry rest ih =>
    cases hget : entry.get? (js "cidr") with
    | none =>
      obtain ⟨message, hread⟩ : ∃ message, readProperty entry (js "cidr") = .error message := by
        rw [readProperty, hget]
        exact ⟨_, rfl⟩
      right
      refine ⟨⟨message, ?_⟩, fun hall => hall entry (List.mem_cons_self ..) hget⟩
      rw [splitConsents, hread]
      rfl
    | some value =>
      have hread : readProperty entry (js "cidr") = .ok value := by rw [readProperty, hget]
      have hnames : consentCidrIs cidr value = namesCidr cidr entry := by
        rw [namesCidr, property, hget, Option.getD_some]
      obtain ⟨hrest, hall⟩ | ⟨⟨message, hrest⟩, hall⟩ := ih
      · left
        constructor
        · rw [splitConsents, hread, hrest]
          change (if consentCidrIs cidr value = true then _ else _) = _
          rw [hnames, List.filter_cons, List.filter_cons]
          cases namesCidr cidr entry <;> rfl
        · intro e he
          rcases List.mem_cons.mp he with rfl | he
          · rw [hget]
            exact Option.some_ne_none _
          · exact hall e he
      · right
        refine ⟨⟨message, ?_⟩, fun hcons => hall fun e he => hcons e (List.mem_cons_of_mem _ he)⟩
        rw [splitConsents, hread, hrest]
        rfl

section Revoke

variable (h : CliHost)

theorem planRevoke_writes {d : DataDir} {cidr text : JsString} {consents : List JsValue}
    (hp : parseCidr cidr ≠ none) (hload : loadConsentFile h d = .ok consents)
    (hread : ∀ entry ∈ consents, entry.get? (js "cidr") ≠ none)
    (hfound : ∃ entry ∈ consents, namesCidr cidr entry = true)
    (hdump : h.yamlDump (consentFileValue (consents.filter fun e => !namesCidr cidr e)) = .ok text) :
    planRevoke h d cidr = .ok (consents.filter (namesCidr cidr), some text) := by
  obtain ⟨entry, hmem, hentry⟩ := hfound
  have hremoved : consents.filter (namesCidr cidr) ≠ [] :=
    List.ne_nil_of_mem (List.mem_filter.mpr ⟨hmem, hentry⟩)
  obtain ⟨hsplit, _⟩ | ⟨_, hno⟩ := splitConsents_eq cidr consents
  · rw [planRevoke, if_neg hp, hload]
    change (splitConsents cidr consents >>= _) = _
    rw [hsplit]
    change (if consents.filter (namesCidr cidr) = [] then _ else _) = _
    rw [if_neg hremoved, hdump]
    rfl
  · exact absurd hread hno

/-- Only what `Revokes` says makes a plan that writes. -/
theorem planRevoke_some {d : DataDir} {cidr text : JsString} {removed : List JsValue}
    (hplan : planRevoke h d cidr = .ok (removed, some text))
    (hw : h.refuses (.atomicWrite .consent) = none) : Revokes h d cidr := by
  rw [planRevoke] at hplan
  split_ifs at hplan with hp
  cases hload : loadConsentFile h d with
  | error message =>
    rw [hload] at hplan
    cases hplan
  | ok consents =>
    rw [hload] at hplan
    change (splitConsents cidr consents >>= _) = _ at hplan
    obtain ⟨hsplit, hread⟩ | ⟨⟨message, hsplit⟩, _⟩ := splitConsents_eq cidr consents
    · rw [hsplit] at hplan
      change (if consents.filter (namesCidr cidr) = [] then _ else _) = _ at hplan
      by_cases hremoved : consents.filter (namesCidr cidr) = []
      · rw [if_pos hremoved] at hplan
        cases hplan
      rw [if_neg hremoved] at hplan
      cases hdump : h.yamlDump (consentFileValue (consents.filter fun e => !namesCidr cidr e)) with
      | error message =>
        rw [hdump] at hplan
        cases hplan
      | ok text' =>
        obtain ⟨entry, hentry⟩ := List.exists_mem_of_ne_nil _ hremoved
        obtain ⟨hmem, hnames⟩ := List.mem_filter.mp hentry
        exact ⟨hp, hw, consents, hload, hread, ⟨entry, hmem, hnames⟩, text', hdump⟩
    · rw [hsplit] at hplan
      cases hplan

theorem reportRevoked_within {R : Machine → Machine → Prop} [IsPreorder Machine R] {W : Place → Prop}
    (hR : Permits R W) (cidr : JsString) (json : Bool) (removed : ℕ) :
    Within R (reportRevoked cidr json removed) := by
  unfold reportRevoked
  split_ifs
  · exact Within.bind (printOut_within hR _) fun _ => Within.pure _
  · exact Within.bind (printErr_within hR _) fun _ => Within.pure _
  · exact Within.bind (printOut_within hR _) fun _ => Within.pure _
  · exact Within.bind (printOut_within hR _) fun _ => Within.pure _

theorem loadConsentFile_nonempty {d : DataDir} {consents : List JsValue}
    (hload : loadConsentFile h d = .ok consents) (hne : consents ≠ []) :
    ∃ raw, d.consent = some raw ∧ loadConsents h.yamlLoad (.ok raw) = .ok consents := by
  rw [loadConsentFile, rawFile] at hload
  cases hr : h.refuses (.readFile .consent) with
  | some e =>
    rw [hr] at hload
    change (if e.error.code = some (js "ENOENT") then _ else _) = _ at hload
    rw [if_neg e.notMissing] at hload
    cases hload
  | none =>
    rw [hr] at hload
    cases hd : d.consent with
    | none =>
      change loadConsents h.yamlLoad ((foundFile d.consent).mapError _) = _ at hload
      rw [hd] at hload
      cases hload
      exact absurd rfl hne
    | some raw =>
      refine ⟨raw, rfl, ?_⟩
      change loadConsents h.yamlLoad ((foundFile d.consent).mapError _) = _ at hload
      rw [hd] at hload
      exact hload

theorem loadConsents_value {text : JsString} {consents : List JsValue}
    (hy : h.yamlLoad text = .ok (consentFileValue consents)) :
    loadConsents h.yamlLoad (.ok text) = .ok consents := by
  change (h.yamlLoad text >>= _) = _
  rw [hy]
  rfl

/-- Without the entries that it removes the file is another one. -/
theorem dump_ne {d : DataDir} {cidr text : JsString} {consents : List JsValue}
    (hload : loadConsentFile h d = .ok consents)
    (hfound : ∃ entry ∈ consents, namesCidr cidr entry = true)
    (hdump : h.yamlDump (consentFileValue (consents.filter fun e => !namesCidr cidr e)) = .ok text) :
    d.consent ≠ some text := by
  obtain ⟨entry, hmem, hentry⟩ := hfound
  obtain ⟨raw, hraw, hconsents⟩ := loadConsentFile_nonempty h hload (List.ne_nil_of_mem hmem)
  intro htext
  obtain rfl : raw = text := Option.some_injective _ (hraw.symm.trans htext)
  obtain ⟨consents', hy, hlength⟩ := h.dump_consents _ _ hdump
  rw [loadConsents_value h hy] at hconsents
  cases hconsents
  have hshorter : (consents.filter fun e => !namesCidr cidr e).length < consents.length := by
    apply List.length_filter_lt_length_iff_exists.mpr
    exact ⟨entry, hmem, by simp [hentry]⟩
  omega

theorem revokeConsent_run (cidr : JsString) (m : Machine) :
    (revokeConsent h cidr).run m = (writePlan h (planRevoke h m.dir cidr)).run m := rfl

theorem revokeConsent_kept {cidr : JsString} {m : Machine} (hno : ¬Revokes h m.dir cidr) :
    Same guarded m (after ((revokeConsent h cidr).run m)) := by
  rw [revokeConsent_run]
  cases hplan : planRevoke h m.dir cidr with
  | error message => rfl
  | ok plan =>
    obtain ⟨removed, written⟩ := plan
    cases written with
    | none => rfl
    | some text =>
      cases hw : h.refuses (.atomicWrite .consent) with
      | none => exact absurd (planRevoke_some h hplan hw) hno
      | some e =>
        rw [writePlan, run_bind_error (atomicWriteFile_refused hw text m)]
        rfl

theorem revokeConsent_changes {cidr : JsString} {m : Machine} (hyes : Revokes h m.dir cidr) :
    (after ((revokeConsent h cidr).run m)).dir.consent ≠ m.dir.consent := by
  obtain ⟨consents, hload, hread, hfound, text, hdump⟩ := hyes.found
  rw [revokeConsent_run, planRevoke_writes h hyes.parses hload hread hfound hdump, writePlan,
    run_bind_ok (atomicWriteFile_run hyes.written text m)]
  exact (dump_ne h hload hfound hdump).symm

theorem finishRevoke_within {R : Machine → Machine → Prop} [IsPreorder Machine R] {W : Place → Prop}
    (hR : Permits R W) (cidr : JsString) (json : Bool) (removed : Option ℕ) :
    Within R (finishRevoke cidr json removed) := by
  cases removed with
  | none => exact Within.pure _
  | some n => exact reportRevoked_within hR cidr json n

theorem runConsentRevoke_kept {cidr : JsString} {json : Bool} {m : Machine}
    (hno : ¬Revokes h m.dir cidr) :
    Same guarded m (after ((runConsentRevoke h cidr json).run m)) := by
  refine Within.bind_at (Within.tryCatch_at ?_ fun e => ?_) (finishRevoke_within permits_guarded cidr json)
  · rw [after_map]
    exact revokeConsent_kept h hno
  · exact Within.bind (printErr_within permits_guarded _) fun _ => Within.pure _

theorem runConsentRevoke_changes {cidr : JsString} {json : Bool} {m : Machine}
    (hyes : Revokes h m.dir cidr) :
    (after ((runConsentRevoke h cidr json).run m)).dir.consent ≠ m.dir.consent := by
  have hpermits := permits_file .consent
  refine holds_bind (P := fun t : Machine => t.dir.consent ≠ m.dir.consent)
    (holds_tryCatch (P := fun t : Machine => t.dir.consent ≠ m.dir.consent) ?_ fun e => ?_) fun removed => ?_
  · rw [after_map]
    exact revokeConsent_changes h hyes
  · exact Keeps.stays (Within.bind (printErr_within hpermits _) fun _ => Within.pure _) (· ≠ m.dir.consent)
  · exact Keeps.stays (finishRevoke_within hpermits cidr json removed) (· ≠ m.dir.consent)

end Revoke

/-! ### The commands -/

section Commands

variable (h : CliHost)

theorem getPlatform_run (id : JsString) (m : Machine) :
    (getPlatform h id).run m = (give (findPlatform h m.dir id)).run m := rfl

/-- `ca rotate` gets as far as writing the serial counter. -/
structure Rotates (h : CliHost) (d : DataDir) (platformId : JsString) : Prop where
  platform : ∃ platform, findPlatform h d platformId = .ok (some platform)
  passphrase : caPassphraseEnv h ≠ []
  rotates : KeyRotates h.toCaHost d platformId

theorem rotateReport_within {R : Machine → Machine → Prop} [IsPreorder Machine R] {W : Place → Prop}
    (hR : Permits R W) (platformId : JsString) (json : Bool) (result : Option RotationResult) :
    Within R (rotateReport platformId json result) := by
  unfold rotateReport
  cases result with
  | none => exact Within.pure _
  | some result =>
    dsimp only
    split_ifs
    · exact Within.bind (printOut_within hR _) fun _ => Within.pure _
    · exact Within.bind (printOut_within hR _) fun _ => Within.pure _

theorem rotateFailed_within {R : Machine → Machine → Prop} [IsPreorder Machine R] {W : Place → Prop}
    (hR : Permits R W) (e : Thrown) : Within R (rotateFailed e) := by
  cases e with
  | node => exact Within.throw _
  | ca => exact Within.bind (printErr_within hR _) fun _ => Within.pure _
  | error => exact Within.throw _

theorem runCARotate_kept {platformId : JsString} {json : Bool} {m : Machine}
    (hno : ¬Rotates h m.dir platformId) :
    Same guarded m (after ((runCARotate h platformId json).run m)) := by
  have hrun := getPlatform_run h platformId m
  cases hp : findPlatform h m.dir platformId with
  | error e =>
    rw [hp] at hrun
    rw [runCARotate, run_bind_error hrun]
    rfl
  | ok platform =>
    rw [hp] at hrun
    rw [runCARotate, run_bind_ok hrun]
    cases platform with
    | none => rfl
    | some platform =>
      dsimp only
      by_cases hpass : caPassphraseEnv h = []
      · rw [if_pos hpass]
        rfl
      · rw [if_neg hpass]
        have hkey : ¬KeyRotates h.toCaHost m.dir platformId := fun hk => hno ⟨⟨platform, hp⟩, hpass, hk⟩
        refine Within.bind_at (Within.tryCatch_at ?_ (rotateFailed_within permits_guarded)) fun result =>
          rotateReport_within permits_guarded platformId json result
        rw [after_map]
        exact rotateKey_kept h.toCaHost hkey

theorem runCARotate_changes {platformId : JsString} {json : Bool} {m : Machine}
    (hyes : Rotates h m.dir platformId) :
    (after ((runCARotate h platformId json).run m)).dir.file serialCounter ≠
      m.dir.file serialCounter := by
  obtain ⟨platform, hp⟩ := hyes.platform
  have hrun := getPlatform_run h platformId m
  rw [hp] at hrun
  rw [runCARotate, run_bind_ok hrun]
  dsimp only
  rw [if_neg hyes.passphrase]
  have hpermits := permits_file serialCounter
  have hcounter : CounterIs (serialText (serialOf (m.dir.file serialCounter)+1))
      (after ((rotateWith h platformId (caPassphraseEnv h) json).run m)) := by
    apply holds_bind (P := CounterIs _)
    · apply holds_tryCatch (P := CounterIs _)
      · rw [after_map]
        exact rotateKey_writes h.toCaHost hyes.rotates
      · exact fun e => counterIs_stays (rotateFailed_within hpermits e) _
    · exact fun result => counterIs_stays (rotateReport_within hpermits platformId json result) _
  rw [hcounter]
  exact serialText_next_ne _

/-- `ca init` gets as far as changing the CA directory. -/
def InitRuns (h : CliHost) (d : DataDir) (passphraseFile : Option JsString) : Prop :=
  ∃ passphrase, initPassphrase h passphraseFile = .given passphrase ∧
    Initializes h.toCaHost d passphrase

theorem initFailed_within {R : Machine → Machine → Prop} [IsPreorder Machine R] {W : Place → Prop}
    (hR : Permits R W) (json : Bool) (e : Thrown) : Within R (initFailed json e) := by
  cases e with
  | node => exact Within.throw _
  | error => exact Within.throw _
  | ca code message =>
    cases code with
    | caAlreadyExists =>
      cases json with
      | true => exact Within.bind (printOut_within hR _) fun _ => Within.pure _
      | false => exact Within.bind (printErr_within hR _) fun _ => Within.pure _
    | _ => exact Within.bind (printErr_within hR _) fun _ => Within.pure _

theorem initReport_within {R : Machine → Machine → Prop} [IsPreorder Machine R] {W : Place → Prop}
    (hR : Permits R W) (json done : Bool) : Within R (initReport h json done) := by
  unfold initReport
  split_ifs
  · exact Within.bind (printOut_within hR _) fun _ => Within.pure _
  · exact Within.bind (printOut_within hR _) fun _ => Within.pure _
  · exact Within.pure _

theorem runCAInit_kept {passphraseFile : Option JsString} {json : Bool} {m : Machine}
    (hno : ¬InitRuns h m.dir passphraseFile) :
    Same guarded m (after ((runCAInit h passphraseFile json).run m)) := by
  rw [runCAInit]
  cases hp : initPassphrase h passphraseFile with
  | refused => rfl
  | throws => rfl
  | given passphrase =>
    dsimp only
    by_cases hempty : passphrase = []
    · rw [if_pos hempty]
      rfl
    · rw [if_neg hempty]
      have hinit : ¬Initializes h.toCaHost m.dir passphrase := fun hi => hno ⟨passphrase, hp, hi⟩
      refine Within.bind_at (Within.tryCatch_at ?_ (initFailed_within permits_guarded json)) fun done =>
        initReport_within h permits_guarded json done
      rw [after_map]
      exact initializeCA_kept h.toCaHost hinit

theorem runCAInit_changes {passphraseFile : Option JsString} {json : Bool} {m : Machine}
    (hyes : InitRuns h m.dir passphraseFile) :
    (after ((runCAInit h passphraseFile json).run m)).dir.folders .ca ≠ m.dir.folders .ca := by
  obtain ⟨passphrase, hp, hinit⟩ := hyes
  rw [runCAInit, hp]
  dsimp only
  rw [if_neg hinit.nonempty]
  have hkeep {α : Type} {c : Cli α} (hc : Keeps guarded c) :
      Within (Stays fun t : Machine => t.dir.folders .ca ≠ m.dir.folders .ca) c :=
    (Keeps.comp (fun g => g.2.2.1) hc).stays (· ≠ m.dir.folders .ca)
  apply holds_bind (P := fun t : Machine => t.dir.folders .ca ≠ m.dir.folders .ca)
  · apply holds_tryCatch (P := fun t : Machine => t.dir.folders .ca ≠ m.dir.folders .ca)
    · rw [after_map]
      exact initializeCA_changes h.toCaHost hinit
    · exact fun e => hkeep (initFailed_within permits_guarded json e)
  · exact fun done => hkeep (initReport_within h permits_guarded json done)

theorem getPlatform_within {R : Machine → Machine → Prop} [IsPreorder Machine R] (id : JsString) :
    Within R (getPlatform h id) :=
  Within.bind Within.get fun _ => Within.give _

theorem printNonempty_within {R : Machine → Machine → Prop} [IsPreorder Machine R]
    {print : JsString → Cli Unit} (hprint : ∀ s, Within R (print s)) (s : JsString) :
    Within R (printNonempty print s) :=
  Within.ite _ (Within.pure _) (hprint s)

theorem reportExec_within {R : Machine → Machine → Prop} [IsPreorder Machine R] {W : Place → Prop}
    (hR : Permits R W) (platformId command : JsString) (json : Bool) (report : ExecReport) :
    Within R (reportExec h platformId command json report) := by
  unfold reportExec
  cases json with
  | true => exact Within.bind (printOut_within hR _) fun _ => Within.pure _
  | false =>
    cases report.result with
    | some r =>
      apply Within.bind (printNonempty_within (printOut_within hR) _)
      intro _
      apply Within.bind (printNonempty_within (printErr_within hR) _)
      intro _
      exact Within.bind (printOut_within hR _) fun _ => Within.pure _
    | none => exact Within.bind (printNonempty_within (printErr_within hR) _) fun _ => Within.pure _

/-- Nothing has put the platform into the pool, so no command goes out. -/
theorem runPlatformExec_kept (platformId : JsString) (commandTokens : List JsString) (json : Bool) :
    Within (Same guarded) (runPlatformExec h platformId commandTokens json none) := by
  apply Within.bind (getPlatform_within h _)
  intro platform
  cases platform with
  | none => exact Within.bind (printErr_within permits_guarded _) fun _ => Within.pure _
  | some platform =>
    dsimp only
    split_ifs
    · exact Within.bind (printErr_within permits_guarded _) fun _ => Within.pure _
    · exact reportExec_within h permits_guarded platformId _ json _

end Commands

/-! ### `runCli` with the role refused -/

/-- The files of the data directory that matter and what was sent are the same, and the
exit code says that something went wrong. -/
def Enforced (h : CliHost) (argv : List JsString) (m : Machine) : Prop :=
  (runCli h argv m).2.dir.consent = m.dir.consent ∧
  (runCli h argv m).2.dir.inventory = m.dir.inventory ∧
  (runCli h argv m).2.dir.folders .ca = m.dir.folders .ca ∧
  (runCli h argv m).2.sent = m.sent ∧ (runCli h argv m).1 ≠ exitOk

/-- The action of the command runs on to a write although the role is missing. -/
def WritesAnyway (h : CliHost) (d : DataDir) : AdminCommand → Prop
  | .consentRevoke cidr _ => Revokes h d cidr
  | .caInit passphraseFile _ => InitRuns h d passphraseFile
  | .caRotate platformId _ => Rotates h d platformId
  | .platformExec .. => False
  | .inventoryRemove .. => False

section Denied

variable {h : CliHost}

theorem name_mem (command : AdminCommand) : command.name ∈ adminRequiredCommands := by
  cases command <;> simp [AdminCommand.name, adminRequiredCommands]

theorem enforceAdminIfRequired_denied
    (hdeny : h.isAdmin (buildAdminAuthContext h.dataDir h.env) = .ok false) (command : AdminCommand)
    (m : Machine) : (enforceAdminIfRequired h command.name).run m =
      .ok false { m with stderr := m.stderr ++ (adminRejectionMessage ++ js "\n") } := by
  rw [enforceAdminIfRequired, if_neg (not_not.mpr (name_mem command)), hdeny]
  rfl

/-- The action that follows the refusing hook. -/
def deniedAction (h : CliHost) : AdminCommand → Cli ℕ
  | .consentRevoke cidr json => (fun _ => exitUsage) <$> runConsentRevoke h cidr json
  | .caInit passphraseFile json => (fun _ => exitUsage) <$> runCAInit h passphraseFile json
  | .caRotate platformId json => (fun _ => exitUsage) <$> runCARotate h platformId json
  | .platformExec platformId commandTokens json =>
    (fun _ => exitUsage) <$> runPlatformExec h platformId commandTokens json none
  | .inventoryRemove .. => pure exitUsage

theorem runAction_denied (hdeny : h.isAdmin (buildAdminAuthContext h.dataDir h.env) = .ok false)
    (command : AdminCommand) (m : Machine) :
    (runAction h command).run m = (deniedAction h command).run
      { m with stderr := m.stderr ++ (adminRejectionMessage ++ js "\n") } := by
  rw [runAction, run_bind_ok (enforceAdminIfRequired_denied hdeny command m)]
  cases command <;> rfl

theorem deniedAction_exit {command : AdminCommand} {m m' : Machine} {exit : ℕ}
    (hrun : (deniedAction h command).run m = .ok exit m') : exit = exitUsage := by
  have hmap {c : Cli ℕ} (hc : ((fun _ => exitUsage) <$> c).run m = .ok exit m') : exit = exitUsage := by
    cases hr : c.run m with
    | ok a t =>
      rw [run_map_ok hr] at hc
      cases hc
      rfl
    | error e t =>
      rw [run_map_error hr] at hc
      cases hc
  cases command with
  | inventoryRemove =>
    cases hrun
    rfl
  | _ => exact hmap hrun

/-- What a command throws is not an error of commander. -/
theorem exitOfCode_thrown (e : Thrown) : exitOfCode e.code = exitInternal := by
  have hcommander (code : JsString) (hcode : (js "commander.").isPrefixOf code = false) :
      exitOfCode (some code) = exitInternal := by
    have hne (s : JsString) (hs : (js "commander.").isPrefixOf s = true) : code ≠ s := by
      rintro rfl
      rw [hs] at hcode
      cases hcode
    rw [exitOfCode, if_neg, if_neg]
    · rw [hcode]
      exact Bool.false_ne_true
    · rintro (hc | hc | hc)
      · exact hne _ (by decide) hc
      · exact hne _ (by decide) hc
      · exact hne _ (by decide) hc
  cases e with
  | node e =>
    cases hc : e.error.code with
    | none =>
      rw [Thrown.code, hc]
      rfl
    | some code =>
      rw [Thrown.code, hc]
      exact hcommander code (e.notCommander code hc)
  | ca code message =>
    apply hcommander
    cases code <;> decide
  | error => rfl

theorem runCli_denied_exit {argv : List JsString} {command : AdminCommand}
    (hargv : h.parse argv = .ok command)
    (hdeny : h.isAdmin (buildAdminAuthContext h.dataDir h.env) = .ok false) (m : Machine) :
    (runCli h argv m).1 ≠ exitOk := by
  rw [runCli, hargv]
  dsimp only
  cases hrun : (runAction h command).run m with
  | ok exit m' =>
    rw [runAction_denied hdeny] at hrun
    rw [deniedAction_exit hrun]
    exact Nat.one_ne_zero
  | error e m' =>
    dsimp only
    rw [exitOfCode_thrown]
    exact Nat.succ_ne_zero 9

/-- What `runCli` leaves is what the action leaves, but for the error stream. -/
theorem runCli_denied_dir {argv : List JsString} {command : AdminCommand}
    (hargv : h.parse argv = .ok command)
    (hdeny : h.isAdmin (buildAdminAuthContext h.dataDir h.env) = .ok false) (m : Machine) :
    (runCli h argv m).2.dir = (after ((deniedAction h command).run
        { m with stderr := m.stderr ++ (adminRejectionMessage ++ js "\n") })).dir ∧
      (runCli h argv m).2.sent = (after ((deniedAction h command).run
        { m with stderr := m.stderr ++ (adminRejectionMessage ++ js "\n") })).sent := by
  rw [← runAction_denied hdeny, runCli, hargv]
  dsimp only
  cases hrun : (runAction h command).run m with
  | ok exit m' => exact ⟨rfl, rfl⟩
  | error e m' => exact ⟨rfl, rfl⟩

theorem deniedAction_kept {command : AdminCommand} {m : Machine}
    (hno : ¬WritesAnyway h m.dir command) :
    Same guarded m (after ((deniedAction h command).run m)) := by
  cases command with
  | consentRevoke cidr json =>
    rw [deniedAction, after_map]
    exact runConsentRevoke_kept h hno
  | caInit passphraseFile json =>
    rw [deniedAction, after_map]
    exact runCAInit_kept h hno
  | caRotate platformId json =>
    rw [deniedAction, after_map]
    exact runCARotate_kept h hno
  | platformExec platformId commandTokens json =>
    rw [deniedAction, after_map]
    exact (runPlatformExec_kept h platformId commandTokens json).rel m
  | inventoryRemove => rfl

theorem deniedAction_changes {command : AdminCommand} {m : Machine}
    (hyes : WritesAnyway h m.dir command) :
    ¬Same guarded m (after ((deniedAction h command).run m)) := by
  intro hsame
  cases command with
  | consentRevoke cidr json =>
    rw [deniedAction, after_map] at hsame
    exact runConsentRevoke_changes h hyes (congrArg (fun g => g.1) hsame)
  | caInit passphraseFile json =>
    rw [deniedAction, after_map] at hsame
    exact runCAInit_changes h hyes (congrArg (fun g => g.2.2.1) hsame)
  | caRotate platformId json =>
    rw [deniedAction, after_map] at hsame
    apply runCARotate_changes h hyes
    exact congrArg (fun g => g.2.2.1.bind fun dir => dir (js "serial.counter")) hsame
  | platformExec => exact hyes
  | inventoryRemove => exact hyes

/-- A command that the role check rejects leaves the files and the connections alone and
fails exactly when its action, which runs all the same, is stopped by something else. -/
theorem admin_enforced_iff {argv : List JsString} {command : AdminCommand} (m : Machine)
    (hargv : h.parse argv = .ok command)
    (hdeny : h.isAdmin (buildAdminAuthContext h.dataDir h.env) = .ok false) :
    Enforced h argv m ↔ ¬WritesAnyway h m.dir command := by
  have hexit := runCli_denied_exit hargv hdeny m
  obtain ⟨hdir, hsent⟩ := runCli_denied_dir hargv hdeny m
  rw [Enforced, hdir, hsent]
  constructor
  · rintro ⟨hconsent, hinventory, hca, hsent, _⟩ hyes
    apply deniedAction_changes (m := { m with stderr := m.stderr ++ (adminRejectionMessage ++ js "\n") }) hyes
    rw [Same, guarded, hconsent, hinventory, hca, hsent]
    rfl
  · intro hno
    have hkept := deniedAction_kept
      (m := { m with stderr := m.stderr ++ (adminRejectionMessage ++ js "\n") }) hno
    rw [Same, guarded, guarded, Prod.mk.injEq, Prod.mk.injEq, Prod.mk.injEq] at hkept
    exact ⟨hkept.1, hkept.2.1, hkept.2.2.1, hkept.2.2.2, hexit⟩

end Denied

/-! ### An operator without the role revokes a consent -/

def homeConsent : JsValue :=
  .obj [(js "cidr", .str (js "10.0.0.0/24")), (js "expires_at", .str (js "2030-01-01T00:00:00.000Z"))]

def homeConsentText : JsString :=
  js "version: '1.0'\nconsents:\n  - cidr: 10.0.0.0/24\n    expires_at: '2030-01-01T00:00:00.000Z'\n"

def noConsentText : JsString := js "version: '1.0'\nconsents: []\n"

/-- No admin token and no `.admin-actors` file; YAML as far as the two texts need it. -/
def operatorHost : CliHost where
  refuses _ := none
  sshKeygen :=
    { generate := fun _ _ _ _ _ => ⟨none, none, .error []⟩
      sign := fun _ _ => (none, .error [])
      inspect := fun _ _ _ => .error []
      generate_fresh := fun _ _ _ _ _ h => nomatch h }
  dataDir := js "/home/op/.autonomous-dev-homelab"
  pid := js "1"
  dateNow := js "0"
  nowIso := js "1970-01-01T00:00:00.000Z"
  parse _ := .ok (.consentRevoke (js "10.0.0.0/24") false)
  env _ := none
  processEnv _ := none
  isAdmin := defaultAdminCheck none
  yamlLoad text :=
    if text = homeConsentText then .ok (consentFileValue [homeConsent])
    else if text = noConsentText then .ok (consentFileValue [])
    else .error (js "unknown text")
  yamlDump
    | .obj [_, (_, .arr [])] => .ok noConsentText
    | _ => .error (js "unknown value")
  validateInventory _ := none
  stat _ := .error .enoent
  readText _ := .error .enoent
  isTTY := false
  readPassphrase := .error .enoent
  confirm := .error .enoent
  connect _ _ := .error ⟨[], [], none⟩
  exec _ _ := .error ⟨[], [], none⟩
  wallMs := .ofNat 0
  stack _ := none
  dump_consents := by
    intro consents text h
    cases consents with
    | nil =>
      cases h
      exact ⟨[], (if_neg (by decide)).trans (if_pos rfl), rfl⟩
    | cons => cases h

def operatorMachine : Machine :=
  ⟨⟨some homeConsentText, none, fun _ => none⟩, [], [], []⟩

theorem admin_enforced_iff_operator :
    operatorHost.parse [js "consent", js "revoke", js "10.0.0.0/24"] =
        .ok (.consentRevoke (js "10.0.0.0/24") false) ∧
      (Enforced operatorHost [js "consent", js "revoke", js "10.0.0.0/24"] operatorMachine ↔
        ¬WritesAnyway operatorHost operatorMachine.dir (.consentRevoke (js "10.0.0.0/24") false)) :=
  ⟨rfl, admin_enforced_iff operatorMachine rfl rfl⟩

/-- The consent is gone although the role check refused the operator. -/
theorem admin_enforced_fails :
    ¬∀ (h : CliHost) (argv : List JsString) (command : AdminCommand) (m : Machine),
      h.parse argv = .ok command →
      h.isAdmin (buildAdminAuthContext h.dataDir h.env) = .ok false → Enforced h argv m := by
  intro hall
  have henforced := hall operatorHost [js "consent", js "revoke", js "10.0.0.0/24"] _ operatorMachine
    rfl rfl
  have hremoved : (runCli operatorHost [js "consent", js "revoke", js "10.0.0.0/24"]
      operatorMachine).2.dir.consent = some noConsentText := by decide
  have hsame := hremoved.symm.trans henforced.1
  exact absurd hsame (by decide)

end Homelab
