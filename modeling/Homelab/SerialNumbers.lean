import Homelab.AdminEnforcement
import Homelab.CaCalls

/-! The serial numbers of certificates, for calls of `signPlatformCert` and `rotateKey` that run side by side:
they are all different as long as every write of the counter finds it as its call has read it. -/
namespace Homelab
open Js Dialogue

/-! ### The protocol of the counter -/

/-- What a call has done with the counter: it has read this number in it, or has then written the next one
and may sign a certificate with this number. -/
inductive SerialPhase
  | idle
  | read (n : ℕ)
  | wrote (n : ℕ)

/-- Only what has been read is written, and only what has been written is signed, once. -/
def serialProtocol : Discipline CaReply SerialPhase where
  permits p q :=
    match q with
    | .writeFile place contents =>
      place = serialCounter → ∃ n, p = .read n ∧ contents = doubleText (roundDouble (n+1))
    | .sign r => p = .wrote r.serial
    | _ => True
  after p q a :=
    match q, a with
    | .readFile place, .ok raw => if place = serialCounter then .read (serialIn raw) else p
    | .readFile place, .error e =>
      if place = serialCounter ∧ e.code = some (js "ENOENT") then .read 1 else p
    | .writeFile place _, .ok () =>
      match p with
      | .read n => if place = serialCounter then .wrote n else .read n
      | p => p
    | .sign _, _ => .idle
    | _, _ => p

variable {p : SerialPhase}

namespace SSHCertificateManager

theorem chmod_keeps (place : Place) (mode : ℕ) : KeepsPhase serialProtocol (chmod place mode) :=
  keeps_bind (keeps_put (fun _ => trivial) fun _ _ => rfl) fun _ => keeps_give _

theorem readSerial_follows :
    FollowsFrom serialProtocol (fun p' n => p' = .read n) (fun _ _ => True) p readSerial := by
  apply follows_bind
  refine follows_put trivial fun a => ?_
  cases a with
  | ok raw =>
    change ite (serialCounter = serialCounter) (SerialPhase.read (serialIn raw)) p = _
    exact if_pos rfl
  | error e =>
    change FollowsFrom _ _ _ _ (ite _ _ _)
    split_ifs with hcode
    · change ite (serialCounter = serialCounter ∧ e.code = some (js "ENOENT")) (SerialPhase.read 1) p = _
      exact if_pos ⟨rfl, hcode⟩
    · trivial

theorem nextSerial_follows :
    FollowsFrom serialProtocol (fun p' n => p' = .wrote n) (fun _ _ => True) p nextSerial := by
  apply follows_bind
  refine readSerial_follows.mono ?_ fun _ _ h => h
  rintro _ n rfl
  -- what is written is the successor of what has been read
  apply follows_bind
  apply follows_bind
  apply follows_bind
  refine follows_put (fun _ => ⟨n, rfl, rfl⟩) fun a => ?_
  apply follows_give
  · rintro _ hok
    cases a with
    | error e => cases hok
    | ok =>
      refine (chmod_keeps _ _ _).mono ?_ fun _ _ _ => trivial
      rintro _ _ rfl
      change ite (serialCounter = serialCounter) (SerialPhase.wrote n) (.read n) = _
      exact if_pos rfl
  · exact fun _ _ => trivial

theorem sign_follows {r : SignRequest} {n : ℕ} (hn : r.serial = n) :
    FollowsFrom serialProtocol (fun _ _ => True) (fun _ _ => True) (.wrote n) (sign r) := by
  apply follows_bind
  refine follows_put (congrArg SerialPhase.wrote hn.symm) fun a => ?_
  exact follows_give (fun _ _ => trivial) fun _ _ => trivial

/-- A computation that goes on with the next serial -/
theorem nextSerial_anywhere {α : Type} {f : ℕ → CaProgram α}
    (hf : ∀ n, FollowsFrom serialProtocol (fun _ _ => True) (fun _ _ => True) (.wrote n) (f n)) :
    FollowsAnywhere serialProtocol (nextSerial.bind f) := by
  intro p
  apply follows_bind
  refine nextSerial_follows.mono ?_ fun _ _ h => h
  rintro _ n rfl
  exact hf n

/-- A question that the protocol does not look at -/
theorem anywhere_question {q : CaAsk} (hq : ∀ p, serialProtocol.permits p q) :
    FollowsAnywhere serialProtocol (question q) := anywhere_put hq

theorem anywhere_chmod (place : Place) (mode : ℕ) : FollowsAnywhere serialProtocol (chmod place mode) :=
  (chmod_keeps place mode).anywhere

theorem anywhere_mkdir (folder : Folder) : FollowsAnywhere serialProtocol (mkdir folder) :=
  anywhere_bind (anywhere_question fun _ => trivial) fun _ => anywhere_give _

theorem anywhere_rename (source target : Place) : FollowsAnywhere serialProtocol (rename source target) :=
  anywhere_bind (anywhere_question fun _ => trivial) fun _ => anywhere_give _

theorem anywhere_appendFile (place : Place) (contents : JsString) :
    FollowsAnywhere serialProtocol (appendFile place contents) :=
  anywhere_bind (anywhere_question fun _ => trivial) fun _ => anywhere_give _

theorem anywhere_generate (name comment : JsString) :
    FollowsAnywhere serialProtocol (generate name comment) :=
  anywhere_bind (anywhere_question fun _ => trivial) fun _ => anywhere_give _

theorem anywhere_inspect (flag : JsString) (place : Place) :
    FollowsAnywhere serialProtocol (inspect flag place) :=
  anywhere_bind (anywhere_question fun _ => trivial) fun _ => anywhere_give _

theorem anywhere_safeUnlink (place : Place) : FollowsAnywhere serialProtocol (safeUnlink place) :=
  anywhere_bind (anywhere_question fun _ => trivial) fun _ => anywhere_done _

theorem anywhere_fingerprint (place : Place) : FollowsAnywhere serialProtocol (fingerprint place) := by
  refine anywhere_bind (anywhere_inspect _ _) fun stdout => ?_
  split
  · exact anywhere_done _
  · exact anywhere_fail _

variable (m : SSHCertificateManager)

theorem anywhere_append (event : JsString) (payload : Fields) :
    FollowsAnywhere serialProtocol (m.append event payload) := by
  rw [append]
  split
  · exact anywhere_bind (anywhere_question fun _ => trivial) fun _ => anywhere_give _
  · exact anywhere_done _

theorem anywhere_auditSigned (platformId principal : JsString) (validityDays : JsNumber) (serial : ℕ) :
    FollowsAnywhere serialProtocol (m.auditSigned platformId principal validityDays serial) := by
  rw [auditSigned]
  split
  · exact anywhere_bind (anywhere_attempt (anywhere_fingerprint _)) fun _ => anywhere_append m _ _
  · exact anywhere_done _

theorem anywhere_generateUserKey (platformId : JsString) :
    FollowsAnywhere serialProtocol (generateUserKey platformId) := by
  refine anywhere_bind (anywhere_generate _ _) fun _ => ?_
  refine anywhere_bind (anywhere_question fun _ => trivial) fun present => ?_
  have hrest : FollowsAnywhere serialProtocol
      ((chmod (userKey platformId) 0o600).bind fun _ => chmod (userPub platformId) 0o644) :=
    anywhere_bind (anywhere_chmod _ _) fun _ => anywhere_chmod _ _
  split
  · exact anywhere_bind (anywhere_rename _ _) fun _ => hrest
  · exact hrest

theorem anywhere_signUserKey (platformId : JsString) (validityDays : JsNumber)
    (principal passphrase : JsString) :
    FollowsAnywhere serialProtocol (m.signUserKey platformId validityDays principal passphrase) := by
  refine nextSerial_anywhere fun serial => ?_
  apply follows_bind
  have hsign : FollowsFrom serialProtocol (fun _ _ => True) (fun _ _ => True) (.wrote serial)
      (sign ⟨passphrase, platformId, principal, js "+" ++ validityDays.toText ++ js "d", serial,
        userPub platformId⟩) := sign_follows rfl
  refine hsign.mono (fun p _ _ => ?_) fun _ _ h => h
  revert p
  refine anywhere_bind (anywhere_question fun _ => trivial) fun present => ?_
  have hrest : FollowsAnywhere serialProtocol ((chmod (userCert platformId) 0o644).bind fun _ =>
      (m.auditSigned platformId principal validityDays serial).bind fun _ =>
        .done (m.path (userCert platformId))) :=
    anywhere_bind (anywhere_chmod _ _) fun _ =>
      anywhere_bind (anywhere_auditSigned m _ _ _ _) fun _ => anywhere_done _
  split
  · exact anywhere_bind (anywhere_rename _ _) fun _ => hrest
  · exact hrest

theorem anywhere_refuse {α : Type} (ok : Bool) (e : CaFailure) {rest : CaProgram α}
    (h : FollowsAnywhere serialProtocol rest) : FollowsAnywhere serialProtocol (refuse ok e rest) := by
  rw [refuse]
  split
  · exact h
  · exact anywhere_fail _

theorem anywhere_signPlatformCert (platformId : JsString) (validityDays : JsNumber)
    (principal passphrase : JsString) :
    FollowsAnywhere serialProtocol (m.signPlatformCert platformId validityDays principal passphrase) := by
  apply anywhere_refuse
  refine anywhere_bind (anywhere_question fun _ => trivial) fun hasCa => ?_
  apply anywhere_refuse
  refine anywhere_bind (anywhere_mkdir _) fun _ => ?_
  refine anywhere_bind (anywhere_question fun _ => trivial) fun hasKey => ?_
  have hsigned := anywhere_signUserKey m platformId validityDays principal passphrase
  split
  · exact hsigned
  · exact anywhere_bind (anywhere_generateUserKey _) fun _ => hsigned

theorem anywhere_rotateGenerate (temp platformId principal passphrase : JsString) :
    FollowsAnywhere serialProtocol (rotateGenerate temp platformId principal passphrase) := by
  refine anywhere_bind (anywhere_generate _ _) fun _ => ?_
  refine anywhere_bind (anywhere_chmod _ _) fun _ => ?_
  exact nextSerial_anywhere fun _ => sign_follows rfl

theorem anywhere_rotateRename (temp platformId : JsString) :
    FollowsAnywhere serialProtocol (rotateRename temp platformId) := by
  refine anywhere_bind (anywhere_rename _ _) fun _ => ?_
  refine anywhere_bind (anywhere_rename _ _) fun _ => ?_
  exact anywhere_rename _ _

theorem anywhere_rotateRevoke (platformId oldFingerprint principal : JsString) :
    FollowsAnywhere serialProtocol (m.rotateRevoke platformId oldFingerprint principal) := by
  refine anywhere_bind (anywhere_chmod _ _) fun _ => ?_
  refine anywhere_bind (anywhere_chmod _ _) fun _ => ?_
  refine anywhere_bind (anywhere_chmod _ _) fun _ => ?_
  refine anywhere_bind (anywhere_question fun _ => trivial) fun now => ?_
  refine anywhere_bind (anywhere_appendFile _ _) fun _ => ?_
  refine anywhere_bind (anywhere_chmod _ _) fun _ => ?_
  refine anywhere_bind (anywhere_fingerprint _) fun newFingerprint => ?_
  refine anywhere_bind (anywhere_append m _ _) fun _ => ?_
  exact anywhere_bind (anywhere_append m _ _) fun _ => anywhere_done _

theorem anywhere_cleanUp (temp : JsString) : FollowsAnywhere serialProtocol (cleanUp temp) := by
  refine anywhere_bind (anywhere_safeUnlink _) fun _ => ?_
  refine anywhere_bind (anywhere_safeUnlink _) fun _ => ?_
  exact anywhere_safeUnlink _

theorem anywhere_rotateWith (platformId passphrase oldFingerprint principal : JsString) :
    FollowsAnywhere serialProtocol (m.rotateWith platformId passphrase oldFingerprint principal) := by
  refine anywhere_bind (anywhere_question fun _ => trivial) fun dateNow => ?_
  refine anywhere_bind (anywhere_attempt (anywhere_rotateGenerate _ _ _ _)) fun generated => ?_
  cases generated with
  | error e => exact anywhere_bind (anywhere_cleanUp _) fun _ => anywhere_fail _
  | ok =>
    refine anywhere_bind (anywhere_attempt (anywhere_rotateRename _ _)) fun renamed => ?_
    cases renamed with
    | error e => exact anywhere_fail _
    | ok => exact anywhere_rotateRevoke m _ _ _

theorem anywhere_rotateKey (platformId passphrase : JsString) :
    FollowsAnywhere serialProtocol (m.rotateKey platformId passphrase) := by
  refine anywhere_bind (anywhere_question fun _ => trivial) fun hasCert => ?_
  apply anywhere_refuse
  refine anywhere_bind (anywhere_question fun _ => trivial) fun hasCa => ?_
  apply anywhere_refuse
  refine anywhere_bind (anywhere_bind (anywhere_inspect _ _) fun _ => anywhere_done _) fun oldMeta => ?_
  exact anywhere_rotateWith m _ _ _ _

end SSHCertificateManager

/-! ### Calls side by side -/

/-- A call of the manager; what it returns is left out. -/
inductive CaCall
  | signPlatformCert (platformId : JsString) (validityDays : JsNumber) (principal passphrase : JsString)
  | rotateKey (platformId passphrase : JsString)

def CaCall.program (m : SSHCertificateManager) : CaCall → CaProgram Unit
  | signPlatformCert platformId validityDays principal passphrase =>
    (m.signPlatformCert platformId validityDays principal passphrase).bind fun _ => .done ()
  | rotateKey platformId passphrase => (m.rotateKey platformId passphrase).bind fun _ => .done ()

theorem CaCall.follows (m : SSHCertificateManager) (c : CaCall) :
    FollowsAnywhere serialProtocol (c.program m) := by
  cases c with
  | signPlatformCert platformId validityDays principal passphrase =>
    exact anywhere_bind (m.anywhere_signPlatformCert _ _ _ _) fun _ => anywhere_done _
  | rotateKey platformId passphrase => exact anywhere_bind (m.anywhere_rotateKey _ _) fun _ => anywhere_done _

/-- The text of the counter, if the file is there, and the serials of the certificates that have been signed -/
structure SerialState where
  counter : Option JsString
  signed : List ℕ

inductive SerialEffect
  | nothing
  | counterWritten (contents : JsString)
  | certSigned (serial : ℕ)

/-- The host: reading the counter gives its text, or an error that is `ENOENT` just when the file is missing;
a write that succeeds takes effect; `ssh-keygen -s` signs when it succeeds, and may have signed when it fails. -/
def serialHost (Task : Type) : Host Task SerialState SerialEffect CaReply where
  may s _ q a e :=
    match q, a with
    | .readFile place, .ok raw => e = .nothing ∧ (place = serialCounter → s.counter = some raw)
    | .readFile place, .error error =>
      e = .nothing ∧ (place = serialCounter → (error.code = some (js "ENOENT") ↔ s.counter = none))
    | .writeFile place contents, .ok () =>
      if place = serialCounter then e = .counterWritten contents else e = .nothing
    | .sign r, .ok () => e = .certSigned r.serial
    | .sign r, .error _ => e = .certSigned r.serial ∨ e = .nothing
    | _, _ => e = .nothing
  act _ e s :=
    match e with
    | .nothing => s
    | .counterWritten contents => { s with counter := some contents }
    | .certSigned serial => { s with signed := serial :: s.signed }

/-- The number that the next reader of the counter takes -/
def SerialState.next (s : SerialState) : ℕ :=
  match s.counter with
  | some raw => serialIn raw
  | none => 1

abbrev CaCalls (Task : Type) :=
  Side Task (SerialState × (Task → SerialPhase)) CaReply CaFailure Unit

/-- All calls are still to be made, and no certificate has been signed yet. -/
def CaCalls.start {Task : Type} (m : SSHCertificateManager) (calls : Task → CaCall)
    (counter : Option JsString) : CaCalls Task :=
  ⟨(⟨counter, []⟩, fun _ => .idle), fun i => (calls i).program m⟩

/-- A call that writes the counter finds the number in it that it has read, and this is one up to which
doubles are exact. -/
def InTurn {Task : Type} :
    TurnCondition Task SerialState SerialEffect SerialPhase CaReply CaFailure Unit :=
  fun s i q _ e => ∀ place contents n, q = .writeFile place contents → place = serialCounter →
    e.1 = .counterWritten contents → s.shared.2 i = .read n → s.shared.1.next = n ∧ n < 2^53

/-! ### Writing the counter -/

/-- What is written for a number is read back as this number. -/
theorem serialIn_doubleText {n : ℕ} (hpos : 0 < n) (h : n ≤ 2^53) : serialIn (doubleText n) = n := by
  have htext : doubleText n = serialText n := if_pos (h.trans_lt (by decide))
  have hread : currentSerial (serialText n) = n := by
    rw [currentSerial, trim_serialText, parseInt_serialText n hpos.ne']
    change ite (0 < (n : ℤ)) (n : ℤ).toNat 1 = n
    rw [if_pos (by omega), Int.toNat_natCast]
  rw [serialIn, htext, hread, roundDouble_of_le h]

/-- Every serial that was signed or is about to be signed is below the counter, and no two are the same. -/
structure SerialsNumbered {Task : Type} (s : SerialState) (phase : Task → SerialPhase) : Prop where
  signed_lt : ∀ n ∈ s.signed, n < s.next
  distinct : s.signed.Nodup
  wrote_lt : ∀ i n, phase i = .wrote n → n < s.next
  unsigned : ∀ i n, phase i = .wrote n → n ∉ s.signed
  apart : ∀ i j n, phase i = .wrote n → phase j = .wrote n → i = j

section Turns

variable {Task : Type} [DecidableEq Task] {s : SerialState} {phase : Task → SerialPhase} {i : Task}

/-- A call that has not written the counter just now changes nothing. -/
theorem SerialsNumbered.quiet (h : SerialsNumbered s phase) {p' : SerialPhase}
    (hp : ∀ n, p' = .wrote n → phase i = .wrote n) : SerialsNumbered s (Function.update phase i p') := by
  have hold (j : Task) (n : ℕ) (hj : Function.update phase i p' j = .wrote n) : phase j = .wrote n := by
    by_cases hji : j = i
    · subst hji
      rw [Function.update_self] at hj
      exact hp n hj
    · rwa [Function.update_of_ne hji] at hj
  exact ⟨h.signed_lt, h.distinct, fun j n hj => h.wrote_lt j n (hold j n hj),
    fun j n hj => h.unsigned j n (hold j n hj),
    fun j k n hj hk => h.apart j k n (hold j n hj) (hold k n hk)⟩

/-- The counter is written by a call that has read it as it still is. -/
theorem SerialsNumbered.write (h : SerialsNumbered s phase) {n : ℕ} (hn : s.next = n) (hlt : n < 2^53) :
    SerialsNumbered { s with counter := some (doubleText (roundDouble (n+1))) }
      (Function.update phase i (.wrote n)) := by
  have hnext : SerialState.next { s with counter := some (doubleText (roundDouble (n+1))) } = n+1 := by
    change serialIn (doubleText (roundDouble (n+1))) = n+1
    rw [roundDouble_of_le hlt, serialIn_doubleText (Nat.succ_pos n) hlt]
  -- who may sign now: this call with `n`, or another one with a number from before, which is below `n`
  have hold (j : Task) (k : ℕ) (hj : Function.update phase i (.wrote n) j = .wrote k) :
      j = i ∧ k = n ∨ j ≠ i ∧ phase j = .wrote k ∧ k < n := by
    by_cases hji : j = i
    · subst hji
      rw [Function.update_self] at hj
      cases hj
      exact .inl ⟨rfl, rfl⟩
    · rw [Function.update_of_ne hji] at hj
      exact .inr ⟨hji, hj, hn ▸ h.wrote_lt j k hj⟩
  refine ⟨?_, h.distinct, ?_, ?_, ?_⟩
  · intro k hk
    have hbelow := h.signed_lt k hk
    rw [hnext]
    omega
  · intro j k hj
    rw [hnext]
    rcases hold j k hj with ⟨-, rfl⟩ | ⟨-, -, hk⟩ <;> omega
  · intro j k hj hmem
    rcases hold j k hj with ⟨-, rfl⟩ | ⟨-, hphase, -⟩
    · have hbelow := h.signed_lt k hmem
      omega
    · exact h.unsigned j k hphase hmem
  · intro j j' k hj hj'
    rcases hold j k hj with ⟨rfl, rfl⟩ | ⟨-, hphase, hk⟩
    · rcases hold j' k hj' with ⟨rfl, -⟩ | ⟨-, -, hlt'⟩
      · rfl
      · exact absurd hlt' (lt_irrefl k)
    · rcases hold j' k hj' with ⟨-, rfl⟩ | ⟨-, hphase', -⟩
      · exact absurd hk (lt_irrefl k)
      · exact h.apart j j' k hphase hphase'

/-- A certificate is signed with a serial that its call has taken. -/
theorem SerialsNumbered.sign (h : SerialsNumbered s phase) {n : ℕ} (hi : phase i = .wrote n) :
    SerialsNumbered { s with signed := n :: s.signed } (Function.update phase i .idle) := by
  have hold (j : Task) (k : ℕ) (hj : Function.update phase i .idle j = .wrote k) :
      j ≠ i ∧ phase j = .wrote k := by
    by_cases hji : j = i
    · subst hji
      rw [Function.update_self] at hj
      cases hj
    · exact ⟨hji, by rwa [Function.update_of_ne hji] at hj⟩
  refine ⟨?_, ?_, ?_, ?_, ?_⟩
  · intro k hk
    rcases List.mem_cons.mp hk with rfl | hk
    · exact h.wrote_lt i k hi
    · exact h.signed_lt k hk
  · exact List.nodup_cons.mpr ⟨h.unsigned i n hi, h.distinct⟩
  · exact fun j k hj => h.wrote_lt j k (hold j k hj).2
  · intro j k hj hk
    obtain ⟨hji, hphase⟩ := hold j k hj
    rcases List.mem_cons.mp hk with rfl | hk
    · exact hji (h.apart j i k hphase hi)
    · exact h.unsigned j k hphase hk
  · exact fun j j' k hj hj' => h.apart j j' k (hold j k hj).2 (hold j' k hj').2

theorem numbered_turn (h : SerialsNumbered s phase) {q : CaAsk} {a : CaReply q} {e : SerialEffect}
    (hpermits : serialProtocol.permits (phase i) q) (hmay : (serialHost Task).may s i q a e)
    (hturn : ∀ place contents n, q = .writeFile place contents → place = serialCounter →
      e = .counterWritten contents → phase i = .read n → s.next = n ∧ n < 2^53) :
    SerialsNumbered ((serialHost Task).act i e s)
      (Function.update phase i (serialProtocol.after (phase i) q a)) := by
  cases q with
  | readFile place =>
    cases a with
    | ok raw =>
      obtain ⟨rfl, -⟩ := hmay
      refine h.quiet fun n hn => ?_
      change ite _ _ _ = _ at hn
      split_ifs at hn
      exact hn
    | error error =>
      obtain ⟨rfl, -⟩ := hmay
      refine h.quiet fun n hn => ?_
      change ite _ _ _ = _ at hn
      split_ifs at hn
      exact hn
  | writeFile place contents =>
    cases a with
    | error error =>
      obtain rfl : e = .nothing := hmay
      exact h.quiet fun n hn => hn
    | ok =>
      change ite (place = serialCounter) _ _ at hmay
      by_cases hplace : place = serialCounter
      · rw [if_pos hplace] at hmay
        -- the one turn in which a serial is taken, and the only one that has to be in turn
        obtain ⟨n, hphase, rfl⟩ := hpermits hplace
        obtain ⟨hnext, hlt⟩ := hturn place _ n rfl hplace hmay hphase
        subst hmay
        have hafter : serialProtocol.after (phase i)
            (.writeFile place (doubleText (roundDouble (n+1)))) (.ok ()) = .wrote n := by
          rw [hphase]
          exact if_pos hplace
        rw [hafter]
        exact h.write hnext hlt
      · rw [if_neg hplace] at hmay
        subst hmay
        refine h.quiet fun n hn => ?_
        cases hphase : phase i with
        | idle => rw [hphase] at hn; cases hn
        | wrote k => rw [hphase] at hn; exact hn
        | read k =>
          rw [hphase] at hn
          change ite _ _ _ = _ at hn
          rw [if_neg hplace] at hn
          cases hn
  | sign r =>
    have hsigned : SerialsNumbered { s with signed := r.serial :: s.signed } (Function.update phase i .idle) :=
      h.sign hpermits
    cases a with
    | ok =>
      obtain rfl : e = .certSigned r.serial := hmay
      exact hsigned
    -- a signing that fails may have left a certificate, but its call goes on without the serial
    | error stderr =>
      obtain rfl | rfl : e = .certSigned r.serial ∨ e = .nothing := hmay
      · exact hsigned
      · exact h.quiet nofun
  | _ =>
    obtain rfl : e = .nothing := hmay
    exact h.quiet fun n hn => hn

end Turns

/-! ### Runs -/

theorem numbered_start {Task : Type} (counter : Option JsString) :
    SerialsNumbered (⟨counter, []⟩ : SerialState) fun _ : Task => .idle where
  signed_lt _ h := absurd h List.not_mem_nil
  distinct := List.nodup_nil
  wrote_lt _ _ h := by cases h
  unsigned _ _ h := by cases h
  apart _ _ _ h := by cases h

def sampleManager : SSHCertificateManager := ⟨js "/data", js "1", false⟩

/-- The first certificate of a platform, whose key is there -/
def sampleCall (platformId : JsString) : CaCall :=
  .signPlatformCert platformId (.ofNat 30) (js "ops") (js "secret")

/-- All calls of the file system and of `ssh-keygen` succeed, and all files are there. -/
def honestTurn (s : SerialState) : ∀ q, CaReply q × SerialEffect
  | .fileExists _ => (true, .nothing)
  | .mkdir _ => (.ok (), .nothing)
  | .chmod _ _ => (.ok (), .nothing)
  | .rename _ _ => (.ok (), .nothing)
  | .unlink _ => (.ok (), .nothing)
  | .readFile place =>
    match s.counter with
    | some raw => (.ok raw, .nothing)
    | none => (.error ⟨if place = serialCounter then some (js "ENOENT") else none, []⟩, .nothing)
  | .writeFile place contents =>
    (.ok (), if place = serialCounter then .counterWritten contents else .nothing)
  | .appendFile _ _ => (.ok (), .nothing)
  | .generate _ _ => (.ok (), .nothing)
  | .sign r => (.ok (), .certSigned r.serial)
  | .inspect _ _ => (.ok [], .nothing)
  | .audit _ _ => (.ok (), .nothing)
  | .dateNow => ([], .nothing)
  | .nowIso => ([], .nothing)

theorem honestTurn_may {Task : Type} (s : SerialState) (i : Task) (q : CaAsk) :
    (serialHost Task).may s i q (honestTurn s q).1 (honestTurn s q).2 := by
  cases q with
  | readFile place =>
    obtain ⟨counter, signed⟩ := s
    cases counter with
    | some raw => exact ⟨rfl, fun _ => rfl⟩
    | none => exact ⟨rfl, fun hplace => iff_of_true (if_pos hplace) rfl⟩
  | writeFile place contents =>
    change ite _ _ _
    split_ifs with hplace
    · exact if_pos hplace
    · exact if_neg hplace
  | _ => rfl

theorem may_writeCounter {Task : Type} (s : SerialState) (i : Task) (contents : JsString) :
    (serialHost Task).may s i (.writeFile serialCounter contents) (.ok ()) (.counterWritten contents) := by
  simp only [serialHost, if_true]

/-- Two calls read the counter before either of them writes it. -/
def overlappingSchedule : List Bool :=
  [false, false, false, false, true, true, true, true, false, false, false, true, true, true]

end Homelab
