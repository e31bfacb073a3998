import Homelab.RevocationList

/-! What rotations leave in the revocation list: the fingerprint of every certificate that they replace, as long
as each has read it from the certificate that it replaces and records it before another one returns. -/
namespace Homelab
open Js Dialogue

/-! ### The protocol of a rotation -/

/-- How far a rotation has come: it has what `ssh-keygen -L` printed of the certificate, it has replaced the
certificate, it has recorded the replaced one. -/
inductive RotationPhase
  | fresh
  | read (out : JsString)
  | placed (out : JsString)
  | recorded

/-- The fingerprint of the certificate that a rotation replaces, as `readCertMetadata` reads it -/
def oldFingerprint (out : JsString) : JsString := (matchFingerprint out).getD []

def rotationProtocol (platformId : JsString) : Discipline CaReply RotationPhase where
  permits p q :=
    match q with
    | .inspect flag _ => flag = js "-L" → p = .fresh
    | .rename _ target => target = userCert platformId → ∃ out, p = .read out
    | .appendFile place text => place = revocationList →
      ∃ out now, p = .placed out ∧
        text = SSHCertificateManager.revocationLine platformId (oldFingerprint out) now
    | _ => True
  after p q a :=
    match q, a with
    | .inspect flag _, .ok out => if flag = js "-L" then .read out else p
    | .rename _ target, .ok () =>
      match p with
      | .read out => if target = userCert platformId then .placed out else .read out
      | p => p
    | .appendFile place _, .ok () =>
      match p with
      | .placed out => if place = revocationList then .recorded else .placed out
      | p => p
    | _, _ => p

namespace SSHCertificateManager

variable {platformId : JsString}

/-- A call of the host that the protocol does not look at -/
theorem keeps_call {q : CaAsk} {α : Type} {f : CaReply q → Except CaFailure α}
    (hq : ∀ p, (rotationProtocol platformId).permits p q)
    (hafter : ∀ p a, (rotationProtocol platformId).after p q a = p) :
    KeepsPhase (rotationProtocol platformId) ((question q).bind fun a => give (f a)) :=
  keeps_bind (keeps_put hq hafter) fun _ => keeps_give _

theorem keeps_chmod (place : Place) (mode : ℕ) :
    KeepsPhase (rotationProtocol platformId) (chmod place mode) :=
  keeps_call (fun _ => trivial) fun _ _ => rfl

theorem keeps_generate (name comment : JsString) :
    KeepsPhase (rotationProtocol platformId) (generate name comment) :=
  keeps_call (fun _ => trivial) fun _ _ => rfl

theorem keeps_sign (r : SignRequest) : KeepsPhase (rotationProtocol platformId) (sign r) :=
  keeps_call (fun _ => trivial) fun _ _ => rfl

theorem keeps_writeFile (place : Place) (contents : JsString) :
    KeepsPhase (rotationProtocol platformId) (writeFile place contents) :=
  keeps_call (fun _ => trivial) fun _ _ => rfl

theorem keeps_rename (source : Place) {target : Place} (h : target ≠ userCert platformId) :
    KeepsPhase (rotationProtocol platformId) (rename source target) := by
  refine keeps_call (fun p htarget => absurd htarget h) fun p a => ?_
  cases a with
  | error e => rfl
  | ok =>
    cases p with
    | read out => exact if_neg h
    | _ => rfl

theorem keeps_fingerprint (place : Place) :
    KeepsPhase (rotationProtocol platformId) (fingerprint place) := by
  have hflag : js "-l" ≠ js "-L" := by decide
  apply keeps_bind
  · refine keeps_call (fun p h => absurd h hflag) fun p a => ?_
    cases a with
    | error e => rfl
    | ok out =>
      change ite (js "-l" = js "-L") (.read out) p = p
      exact if_neg hflag
  · intro stdout
    split
    · exact keeps_done _
    · exact fun _ => rfl

theorem keeps_nextSerial : KeepsPhase (rotationProtocol platformId) nextSerial := by
  apply keeps_bind
  · refine keeps_bind (keeps_put (fun _ => trivial) fun _ _ => rfl) fun raw => ?_
    cases raw with
    | ok raw => exact keeps_done _
    | error e =>
      change KeepsPhase _ (ite _ _ _)
      split_ifs
      · exact keeps_done _
      · exact fun _ => rfl
  · intro current
    refine keeps_bind (keeps_bind (keeps_writeFile _ _) fun _ => keeps_chmod _ _) fun _ => ?_
    exact keeps_done _

theorem keeps_rotateGenerate (temp principal passphrase : JsString) :
    KeepsPhase (rotationProtocol platformId) (rotateGenerate temp platformId principal passphrase) := by
  refine keeps_bind (keeps_generate _ _) fun _ => ?_
  refine keeps_bind (keeps_chmod _ _) fun _ => ?_
  exact keeps_bind keeps_nextSerial fun _ => keeps_sign _

theorem keeps_cleanUp (temp : JsString) : KeepsPhase (rotationProtocol platformId) (cleanUp temp) := by
  have hunlink (place : Place) : KeepsPhase (rotationProtocol platformId) (safeUnlink place) :=
    keeps_bind (keeps_put (fun _ => trivial) fun _ _ => rfl) fun _ => keeps_done _
  refine keeps_bind (hunlink _) fun _ => ?_
  exact keeps_bind (hunlink _) fun _ => hunlink _

variable (m : SSHCertificateManager)

theorem keeps_append (event : JsString) (payload : Fields) :
    KeepsPhase (rotationProtocol platformId) (m.append event payload) := by
  rw [append]
  split
  · exact keeps_call (fun _ => trivial) fun _ _ => rfl
  · exact keeps_done _

theorem userKey_ne_userCert : userKey platformId ≠ userCert platformId := by
  intro h
  have hsuffix : js ".key" = js ".cert" := List.append_cancel_left (Place.inside.inj h).2
  revert hsuffix
  decide

theorem userPub_ne_userCert : userPub platformId ≠ userCert platformId := by
  intro h
  have hsuffix : js ".pub" = js ".cert" := List.append_cancel_left (Place.inside.inj h).2
  revert hsuffix
  decide

/-- Only the last rename replaces the certificate. -/
theorem rotateRename_follows (temp out : JsString) :
    FollowsFrom (rotationProtocol platformId) (fun p _ => p = .placed out) (fun _ _ => True) (.read out)
      (rotateRename temp platformId) := by
  refine follows_bind_keeps (keeps_rename _ userKey_ne_userCert) (fun _ => trivial) fun _ => ?_
  refine follows_bind_keeps (keeps_rename _ userPub_ne_userCert) (fun _ => trivial) fun _ => ?_
  apply follows_bind
  refine follows_put (fun _ => ⟨out, rfl⟩) fun a => follows_give ?_ fun _ _ => trivial
  intro _ hok
  cases a with
  | error e => cases hok
  | ok => exact if_pos rfl

theorem rotateRevoke_follows (out principal : JsString) :
    FollowsFrom (rotationProtocol platformId) (fun p _ => p = .recorded) (fun _ _ => True) (.placed out)
      (m.rotateRevoke platformId (oldFingerprint out) principal) := by
  refine follows_bind_keeps (keeps_chmod _ _) (fun _ => trivial) fun _ => ?_
  refine follows_bind_keeps (keeps_chmod _ _) (fun _ => trivial) fun _ => ?_
  refine follows_bind_keeps (keeps_chmod _ _) (fun _ => trivial) fun _ => ?_
  -- nothing before the line of the list is looked at; what comes after it may fail without harm
  refine follows_bind_keeps (keeps_put (fun _ => trivial) fun _ _ => rfl) (fun _ => trivial) fun now => ?_
  apply follows_bind
  apply follows_bind
  refine follows_put (fun _ => ⟨out, now, rfl, rfl⟩) fun a => follows_give ?_ fun _ _ => trivial
  intro _ hok
  cases a with
  | error e => cases hok
  | ok =>
    have hphase : (rotationProtocol platformId).after (.placed out)
        (.appendFile revocationList (revocationLine platformId (oldFingerprint out) now)) (.ok ()) =
          .recorded := by
      change ite (revocationList = revocationList) RotationPhase.recorded (.placed out) = _
      exact if_pos rfl
    rw [hphase]
    refine follows_bind_keeps (keeps_chmod _ _) (fun _ => trivial) fun _ => ?_
    refine follows_bind_keeps (keeps_fingerprint _) (fun _ => trivial) fun newFingerprint => ?_
    refine follows_bind_keeps (keeps_append m _ _) (fun _ => trivial) fun _ => ?_
    exact follows_bind_keeps (keeps_append m _ _) (fun _ => trivial) fun _ => rfl

theorem rotateWith_follows (passphrase out principal : JsString) :
    FollowsFrom (rotationProtocol platformId) (fun p _ => p = .recorded) (fun _ _ => True) (.read out)
      (m.rotateWith platformId passphrase (oldFingerprint out) principal) := by
  refine follows_bind_keeps (keeps_put (fun _ => trivial) fun _ _ => rfl) (fun _ => trivial) fun dateNow => ?_
  apply follows_bind
  apply follows_attempt
  refine (keeps_rotateGenerate _ _ _ _).mono ?_ ?_
  · rintro _ _ rfl
    apply follows_bind
    apply follows_attempt
    refine (rotateRename_follows _ out).mono ?_ fun _ _ _ => trivial
    rintro _ _ rfl
    exact rotateRevoke_follows m out principal
  -- a failure before the renames: the temporary files go, and nothing has been replaced
  · rintro _ e rfl
    exact follows_bind_keeps (keeps_cleanUp _) (fun _ => trivial) fun _ => trivial

/-- A rotation that returns has recorded the certificate that it has replaced. -/
theorem rotateKey_follows (passphrase : JsString) :
    FollowsFrom (rotationProtocol platformId) (fun p _ => p = .recorded) (fun _ _ => True) .fresh
      (m.rotateKey platformId passphrase) := by
  have hrefuse (ok : Bool) (e : CaFailure) {rest : CaProgram RotationResult}
      (h : FollowsFrom (rotationProtocol platformId) (fun p _ => p = .recorded) (fun _ _ => True) .fresh rest) :
      FollowsFrom (rotationProtocol platformId) (fun p _ => p = .recorded) (fun _ _ => True) .fresh
        (refuse ok e rest) := by
    rw [refuse]
    split
    · exact h
    · trivial
  refine follows_bind_keeps (keeps_put (fun _ => trivial) fun _ _ => rfl) (fun _ => trivial) fun hasCert => ?_
  apply hrefuse
  refine follows_bind_keeps (keeps_put (fun _ => trivial) fun _ _ => rfl) (fun _ => trivial) fun hasCa => ?_
  apply hrefuse
  apply follows_bind
  apply follows_bind
  apply follows_bind
  refine follows_put (fun _ => rfl) fun a => follows_give ?_ fun _ _ => trivial
  intro out hok
  cases a with
  | error e => cases hok
  | ok stdout =>
    obtain rfl : stdout = out := Except.ok.inj hok
    have hphase : (rotationProtocol platformId).after .fresh (.inspect (js "-L") (userCert platformId))
        (.ok stdout) = .read stdout := by
      change ite (js "-L" = js "-L") (RotationPhase.read stdout) .fresh = _
      exact if_pos rfl
    rw [hphase]
    exact rotateWith_follows m _ stdout _

end SSHCertificateManager

/-! ### Rotations side by side -/

/-- The fingerprints of all certificates that have stood at the platform's path, the latest first, and the text
of the revocation list -/
structure RotationState where
  stood : List JsString
  revoked : JsString

/-- The certificate that stands now is followed by all its predecessors. -/
def RotationState.predecessors (s : RotationState) : List JsString := s.stood.tail

inductive RotationEffect
  | nothing
  | certPlaced (fingerprint : JsString)
  | appended (text : JsString)

/-- The host: a rename onto the platform's certificate puts some certificate there, and an append that fails
may have written a part. All answers are arbitrary. -/
def rotationHost (platformId : JsString) (Task : Type) :
    Host Task RotationState RotationEffect CaReply where
  may _ _ q a e :=
    match q, a with
    | .rename _ target, .ok () =>
      if target = userCert platformId then ∃ fingerprint, e = .certPlaced fingerprint else e = .nothing
    | .appendFile place text, .ok () => if place = revocationList then e = .appended text else e = .nothing
    | .appendFile place text, .error _ =>
      e = .nothing ∨ place = revocationList ∧ ∃ part, part <+: text ∧ e = .appended part
    | _, _ => e = .nothing
  act _ e s :=
    match e with
    | .nothing => s
    | .certPlaced fingerprint => { s with stood := fingerprint :: s.stood }
    | .appended text => { s with revoked := s.revoked ++ text }

abbrev Rotations (Task : Type) :=
  Side Task (RotationState × (Task → RotationPhase)) CaReply CaFailure RotationResult

/-- Calls of `rotateKey` for a platform, all still to be made; a retry is one more call. -/
def Rotations.start {Task : Type} (m : SSHCertificateManager) (platformId : JsString)
    (passphrase : Task → JsString) (first revoked : JsString) : Rotations Task :=
  ⟨(⟨[first], revoked⟩, fun _ => .fresh), fun i => m.rotateKey platformId (passphrase i)⟩

/-- The certificate that is replaced is the one whose fingerprint has been read, and what is appended begins a
line of its own. -/
def RunsInOrder {Task : Type} :
    TurnCondition Task RotationState RotationEffect RotationPhase CaReply CaFailure RotationResult :=
  fun s i _ _ e =>
    match e.1 with
    | .nothing => True
    | .certPlaced _ => ∀ out, s.shared.2 i = .read out →
      ∃ fp, s.shared.1.stood.head? = some fp ∧ matchFingerprint out = some fp
    | .appended _ => SSHCertificateManager.EndsLine s.shared.1.revoked

/-- The revocation list covers all certificates that have been replaced, and so does what `generateKRL` makes
of it. -/
def RotationState.Covered (s : RotationState) : Prop :=
  ∀ fp ∈ s.predecessors, fp ∈ SSHCertificateManager.revocationFingerprints s.revoked ∧
    js "sha256: " ++ fp ∈ SSHCertificateManager.krlInputLines s.revoked

/-- Every certificate that has been replaced is recorded, or it is to be recorded by the rotation that has
replaced it. -/
def Accounted {Task : Type} (s : RotationState) (phase : Task → RotationPhase) : Prop :=
  ∀ fp ∈ s.predecessors, fp ∈ SSHCertificateManager.revocationFingerprints s.revoked ∨
    ∃ i out, phase i = .placed out ∧ matchFingerprint out = some fp

/-- What is appended leaves all that is recorded. -/
theorem Accounted.append {Task : Type} {s : RotationState} {phase : Task → RotationPhase}
    (h : Accounted s phase) (hends : SSHCertificateManager.EndsLine s.revoked) (text : JsString) :
    Accounted { s with revoked := s.revoked ++ text } phase := by
  intro fp hfp
  rcases h fp hfp with hrecorded | howed
  · exact .inl ((SSHCertificateManager.mem_revocationFingerprints_append hends text fp).mpr (.inl hrecorded))
  · exact .inr howed

section Turns

variable {platformId : JsString} {Task : Type} [DecidableEq Task] {s : RotationState}
  {phase : Task → RotationPhase} {i : Task}

/-- A rotation that is still to record what it has replaced stays so. -/
theorem Accounted.quiet (h : Accounted s phase) {p' : RotationPhase}
    (hp : ∀ out, phase i = .placed out → p' = .placed out) : Accounted s (Function.update phase i p') := by
  intro fp hfp
  rcases h fp hfp with hrecorded | ⟨j, out, hj, hout⟩
  · exact .inl hrecorded
  · refine .inr ⟨j, out, ?_, hout⟩
    by_cases hji : j = i
    · subst hji
      rw [Function.update_self]
      exact hp out hj
    · rwa [Function.update_of_ne hji]

/-- The certificate that is replaced is owed from now on. -/
theorem Accounted.place (h : Accounted s phase) {out fp : JsString} (hi : phase i = .read out)
    (hstands : s.stood.head? = some fp) (hout : matchFingerprint out = some fp) (fingerprint : JsString) :
    Accounted { s with stood := fingerprint :: s.stood } (Function.update phase i (.placed out)) := by
  obtain ⟨stood, revoked⟩ := s
  cases stood with
  | nil => cases hstands
  | cons current stood =>
    obtain rfl : current = fp := Option.some.inj hstands
    intro fp hfp
    rcases List.mem_cons.mp hfp with rfl | hfp
    · exact .inr ⟨i, out, Function.update_self .., hout⟩
    -- an older debt is of another rotation, as this one had only read its certificate
    · rcases h fp hfp with hrecorded | ⟨j, out', hj, hout'⟩
      · exact .inl hrecorded
      · have hji : j ≠ i := by
          rintro rfl
          rw [hi] at hj
          cases hj
        exact .inr ⟨j, out', by rwa [Function.update_of_ne hji], hout'⟩

/-- The line of a rotation records what it owes. -/
theorem Accounted.record (h : Accounted s phase) (hid : SSHCertificateManager.PlainId platformId)
    (hends : SSHCertificateManager.EndsLine s.revoked) {out : JsString} (hi : phase i = .placed out)
    (now : JsString) :
    Accounted { s with revoked := s.revoked ++
        SSHCertificateManager.revocationLine platformId (oldFingerprint out) now }
      (Function.update phase i .recorded) := by
  intro fp hfp
  have hread := SSHCertificateManager.mem_revocationFingerprints_append hends
    (SSHCertificateManager.revocationLine platformId (oldFingerprint out) now) fp
  rcases h fp hfp with hrecorded | ⟨j, out', hj, hout'⟩
  · exact .inl (hread.mpr (.inl hrecorded))
  · by_cases hji : j = i
    · subst hji
      obtain rfl : out = out' := RotationPhase.placed.inj (hi.symm.trans hj)
      obtain ⟨hne, hsolid⟩ := matchFingerprint_eq_some hout'
      have hfp : oldFingerprint out = fp := by rw [oldFingerprint, hout', Option.getD_some]
      refine .inl (hread.mpr (.inr ?_))
      rw [hfp]
      exact SSHCertificateManager.mem_revoked_line hid hne hsolid now
    · exact .inr ⟨j, out', by rwa [Function.update_of_ne hji], hout'⟩

theorem accounted_turn (hid : SSHCertificateManager.PlainId platformId) (h : Accounted s phase) {q : CaAsk}
    {a : CaReply q} {e : RotationEffect} (hpermits : (rotationProtocol platformId).permits (phase i) q)
    (hmay : (rotationHost platformId Task).may s i q a e)
    (hplaced : ∀ fingerprint out, e = .certPlaced fingerprint → phase i = .read out →
      ∃ fp, s.stood.head? = some fp ∧ matchFingerprint out = some fp)
    (happended : ∀ text, e = .appended text → SSHCertificateManager.EndsLine s.revoked) :
    Accounted ((rotationHost platformId Task).act i e s)
      (Function.update phase i ((rotationProtocol platformId).after (phase i) q a)) := by
  cases q with
  | inspect flag place =>
    cases a with
    | error stderr =>
      obtain rfl : e = .nothing := hmay
      exact h.quiet fun _ hi => hi
    | ok out =>
      obtain rfl : e = .nothing := hmay
      refine h.quiet fun old hi => ?_
      -- a rotation reads metadata once, at its beginning, so it owes nothing then
      have hflag : flag ≠ js "-L" := by
        intro hflag
        have hfresh : phase i = .fresh := hpermits hflag
        rw [hfresh] at hi
        cases hi
      change ite (flag = js "-L") (.read out) (phase i) = _
      rw [if_neg hflag, hi]
  | rename source target =>
    cases a with
    | error e =>
      obtain rfl := hmay
      exact h.quiet fun _ hi => hi
    | ok =>
      change ite (target = userCert platformId) _ _ at hmay
      by_cases htarget : target = userCert platformId
      · rw [if_pos htarget] at hmay
        obtain ⟨fingerprint, rfl⟩ := hmay
        obtain ⟨out, hi⟩ := hpermits htarget
        obtain ⟨fp, hstands, hout⟩ := hplaced fingerprint out rfl hi
        have hafter : (rotationProtocol platformId).after (phase i) (.rename source target) (.ok ()) =
            .placed out := by
          rw [hi]
          change ite (target = userCert platformId) (RotationPhase.placed out) (.read out) = _
          exact if_pos htarget
        rw [hafter]
        exact h.place hi hstands hout fingerprint
      · rw [if_neg htarget] at hmay
        subst hmay
        refine h.quiet fun out hi => ?_
        rw [hi]
        rfl
  | appendFile place text =>
    cases a with
    | error error =>
      rcases hmay with rfl | ⟨-, part, -, rfl⟩
      · exact h.quiet fun _ hi => hi
      -- an append that fails half-way leaves the debt as it is
      · exact (h.append (happended part rfl) part).quiet fun _ hi => hi
    | ok =>
      change ite (place = revocationList) _ _ at hmay
      by_cases hplace : place = revocationList
      · rw [if_pos hplace] at hmay
        subst hmay
        obtain ⟨out, now, hi, rfl⟩ := hpermits hplace
        have hafter : (rotationProtocol platformId).after (phase i) (.appendFile place
            (SSHCertificateManager.revocationLine platformId (oldFingerprint out) now)) (.ok ()) =
            .recorded := by
          rw [hi]
          change ite (place = revocationList) RotationPhase.recorded (.placed out) = _
          exact if_pos hplace
        rw [hafter]
        exact h.record hid (happended _ rfl) hi now
      · rw [if_neg hplace] at hmay
        subst hmay
        refine h.quiet fun out hi => ?_
        rw [hi]
        change ite (place = revocationList) RotationPhase.recorded (.placed out) = _
        exact if_neg hplace
  | _ =>
    obtain rfl : e = .nothing := hmay
    exact h.quiet fun _ hi => hi

end Turns

/-! ### Runs -/

/-- In every interleaving of rotations in order, once a rotation has returned and no other one is still to record
what it has replaced, the revocation list covers all predecessors of the certificate. -/
theorem predecessors_revoked {Task : Type} [DecidableEq Task] (m : SSHCertificateManager)
    (platformId : JsString) (hid : SSHCertificateManager.PlainId platformId) (passphrase : Task → JsString)
    (first revoked : JsString) (s : Rotations Task)
    (h : Interleaves ((rotationHost platformId Task).watch (rotationProtocol platformId)) RunsInOrder
      (Rotations.start m platformId passphrase first revoked) s)
    (i : Task) (r : RotationResult) (hdone : s.tasks i = .done r)
    (hothers : ∀ j, j ≠ i → ∀ out, s.shared.2 j ≠ .placed out) : s.shared.1.Covered := by
  have hstart : AllFollow (rotationProtocol platformId) (fun p _ => p = .recorded) (fun _ _ => True)
      (Rotations.start m platformId passphrase first revoked) :=
    fun i => m.rotateKey_follows (passphrase i)
  have hrun : AllFollow (rotationProtocol platformId) (fun p _ => p = .recorded) (fun _ _ => True) s ∧
      Accounted s.shared.1 s.shared.2 := by
    refine h.follows hstart (fun fp hfp => absurd hfp List.not_mem_nil) ?_
    intro s i q a e haccounted hpermits hmay horder
    apply accounted_turn hid haccounted hpermits hmay
    · rintro fingerprint out rfl hi
      exact horder out hi
    · rintro text rfl
      exact horder
  obtain ⟨hfollow, haccounted⟩ := hrun
  -- the rotation that has returned owes nothing, and by assumption neither do the others
  have hrecorded : s.shared.2 i = .recorded := by
    have hi := hfollow i
    rw [hdone] at hi
    exact hi
  intro fp hfp
  have hread : fp ∈ SSHCertificateManager.revocationFingerprints s.shared.1.revoked := by
    rcases haccounted fp hfp with hread | ⟨j, out, hj, -⟩
    · exact hread
    · by_cases hji : j = i
      · subst hji
        rw [hrecorded] at hj
        cases hj
      · exact absurd hj (hothers j hji out)
  exact ⟨hread, List.mem_map_of_mem hread⟩

/-! ### One rotation -/

def sampleRotator : SSHCertificateManager := ⟨js "/data", js "1", false⟩

/-- All calls succeed; `ssh-keygen -L` prints a given text, and the new certificate has the fingerprint
`SHA256:b`. -/
def printing (out : JsString) (_ : RotationState) : ∀ q, CaReply q × RotationEffect
  | .fileExists _ => (true, .nothing)
  | .mkdir _ => (.ok (), .nothing)
  | .chmod _ _ => (.ok (), .nothing)
  | .rename _ target =>
    (.ok (), if target = userCert (js "nas") then .certPlaced (js "SHA256:b") else .nothing)
  | .unlink _ => (.ok (), .nothing)
  | .readFile _ => (.ok (js "7"), .nothing)
  | .writeFile _ _ => (.ok (), .nothing)
  | .appendFile place text => (.ok (), if place = revocationList then .appended text else .nothing)
  | .generate _ _ => (.ok (), .nothing)
  | .sign _ => (.ok (), .nothing)
  | .inspect flag _ => (.ok (if flag = js "-L" then out else js "256 SHA256:b nas"), .nothing)
  | .audit _ _ => (.ok (), .nothing)
  | .dateNow => (js "0", .nothing)
  | .nowIso => (js "1970-01-01T00:00:00.000Z", .nothing)

theorem printing_may (out : JsString) {Task : Type} (s : RotationState) (i : Task) (q : CaAsk) :
    (rotationHost (js "nas") Task).may s i q (printing out s q).1 (printing out s q).2 := by
  cases q with
  | rename source target =>
    change ite _ _ _
    split_ifs with htarget
    · exact ⟨_, if_pos htarget⟩
    · exact if_neg htarget
  | appendFile place text =>
    change ite _ _ _
    split_ifs with hplace
    · exact if_pos hplace
    · exact if_neg hplace
  | _ => rfl

/-- One rotation, with a fingerprint in the output of `ssh-keygen -L` -/
theorem predecessors_revoked_once : ∃ s : Rotations Unit,
    s.shared.1.predecessors = [js "SHA256:a"] ∧ s.shared.1.Covered := by
  have hid : SSHCertificateManager.PlainId (js "nas") :=
    ⟨by decide, by decide, fun hblank => absurd (hblank 0x6E (by decide)) (by decide)⟩
  have hstart : Interleaves ((rotationHost (js "nas") Unit).watch (rotationProtocol (js "nas"))) RunsInOrder
      (Rotations.start sampleRotator (js "nas") (fun _ => js "secret") (js "SHA256:a") []) _ := .refl
  have hturn {s t : Rotations Unit} {q : CaAsk} {next : CaReply q → CaProgram RotationResult}
      (h : Interleaves ((rotationHost (js "nas") Unit).watch (rotationProtocol (js "nas"))) RunsInOrder s t)
      (htask : t.tasks () = .ask q next) :=
    h.answered htask _ _ (printing_may (js "SHA256:a") t.shared.1 () q)
  have hfound (out : JsString) (hout : RotationPhase.read (js "SHA256:a") = .read out) :
      ∃ fp, [js "SHA256:a"].head? = some fp ∧ matchFingerprint out = some fp := by
    obtain rfl := RotationPhase.read.inj hout
    exact ⟨_, rfl, by decide⟩
  have hcert := hturn hstart rfl trivial
  have hca := hturn hcert rfl trivial
  have hread := hturn hca rfl trivial
  have hdate := hturn hread rfl trivial
  have hkey := hturn hdate rfl trivial
  have hkeyMode := hturn hkey rfl trivial
  have hcounter := hturn hkeyMode rfl trivial
  have hcounted := hturn hcounter rfl trivial
  have hcounterMode := hturn hcounted rfl trivial
  have hsigned := hturn hcounterMode rfl trivial
  have hkeyPlaced := hturn hsigned rfl trivial
  have hpubPlaced := hturn hkeyPlaced rfl trivial
  have hcertPlaced := hturn hpubPlaced rfl hfound
  have hkeyChmod := hturn hcertPlaced rfl trivial
  have hpubChmod := hturn hkeyChmod rfl trivial
  have hcertChmod := hturn hpubChmod rfl trivial
  have htime := hturn hcertChmod rfl trivial
  have happended := hturn htime rfl (.inl rfl)
  have hlistChmod := hturn happended rfl trivial
  have hprinted := hturn hlistChmod rfl trivial
  exact ⟨_, rfl, predecessors_revoked _ _ hid _ _ _ _ hprinted () _ rfl fun j hj =>
    absurd (Subsingleton.elim j ()) hj⟩

/-- The output of `ssh-keygen -L` has no fingerprint of the form that is looked for, and the rotation goes on. -/
theorem predecessor_unrevoked : ¬ ∀ (m : SSHCertificateManager)
    (platformId passphrase first revoked : JsString) (s : Rotations Unit) (r : RotationResult),
    Interleaves ((rotationHost platformId Unit).watch (rotationProtocol platformId)) (fun _ _ _ _ _ => True)
      (Rotations.start m platformId (fun _ => passphrase) first revoked) s →
    s.tasks () = .done r → s.shared.1.Covered := by
  intro h
  have hrun : Interleaves ((rotationHost (js "nas") Unit).watch (rotationProtocol (js "nas")))
      (fun _ _ _ _ _ => True)
      (Rotations.start sampleRotator (js "nas") (fun _ => js "secret") (js "SHA256:a") [])
      ((List.replicate 20 ()).foldl (Side.play ((rotationHost (js "nas") Unit).watch
        (rotationProtocol (js "nas"))) (watching (printing (js "Public key: ED25519-CERT")))) _) :=
    Interleaves.plays (may_watching (printing_may _)) (fun _ _ _ => trivial) .refl _
  have hcovered := h _ _ _ _ _ _ _ hrun rfl (js "SHA256:a")
  revert hcovered
  decide +kernel

end Homelab
