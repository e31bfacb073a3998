import Homelab.Host
import Homelab.JsCoerce
import Homelab.Protocol

/-! `getKey` of `AuditKeyStore`, for calls on any number of stores that run side by side on one key
file, with every step of the atomic write of a new key. They agree on the key as long as none of
them puts its own onto a key file that is there by then. -/
namespace Homelab
open Js Dialogue

/-! ### Questions -/

/-- What a call asks of its store's cache, of the file system and of the random generator -/
inductive KeyAsk
  | cached
  | setCached (key : Bytes)
  | readFile
  | randomBytes
  | mkdir
  | randomSuffix
  | openTemp (suffix : JsString) (mode : ℕ)
  | writeTemp (suffix contents : JsString)
  | syncTemp
  | closeTemp
  | renameTemp (suffix : JsString)
  | syncDirectory
  | unlinkTemp (suffix : JsString)
  | chmod (mode : ℕ)
  | statMode
  | warn (message path : JsString)

abbrev KeyReply : KeyAsk → Type
  | .cached => Option Bytes
  | .setCached _ => Unit
  | .readFile => Except ErrnoException JsString
  | .randomBytes => Vector UInt8 32
  | .randomSuffix => JsString
  | .statMode => Except ErrnoException ℕ
  | .warn _ _ => Except JsString Unit
  | _ => Except ErrnoException Unit

inductive KeyFailure
  | node (e : ErrnoException)
  | invalidAuditKey (message : JsString)

abbrev KeyProgram := Dialogue KeyReply KeyFailure

/-! ### `atomicWriteFile` -/

def keyQuestion (q : KeyAsk) : KeyProgram (KeyReply q) := put q

def unlessFailed (r : Except ErrnoException Unit) : KeyProgram Unit := give (r.mapError .node)

/-- The `catch` of `atomicWriteFile`; the handle is closed first if it is still open. -/
def discardTemp (suffix : JsString) (handle : Bool) (e : KeyFailure) : KeyProgram Unit := do
  if handle then
    let _ ← keyQuestion .closeTemp
    let _ ← keyQuestion (.unlinkTemp suffix)
    .fail e
  else
    let _ ← keyQuestion (.unlinkTemp suffix)
    .fail e

/-- The temporary file, from the first byte to its `close` -/
def fillTemp (suffix contents : JsString) : KeyProgram Unit := do
  unlessFailed (← keyQuestion (.writeTemp suffix contents))
  unlessFailed (← keyQuestion .syncTemp)
  unlessFailed (← keyQuestion .closeTemp)

/-- `atomicWriteFile` on the key file. What becomes of the directory's own `fsync` is ignored. -/
def writeKeyFile (contents : JsString) (mode : ℕ) : KeyProgram Unit := do
  unlessFailed (← keyQuestion .mkdir)
  let suffix ← keyQuestion .randomSuffix
  match ← keyQuestion (.openTemp suffix mode) with
  | .error e => discardTemp suffix false (.node e)
  | .ok () =>
    match ← (fillTemp suffix contents).attempt with
    | .error e => discardTemp suffix true e
    | .ok () =>
      match ← keyQuestion (.renameTemp suffix) with
      | .error e => discardTemp suffix false (.node e)
      | .ok () =>
        let _ ← keyQuestion .syncDirectory
        pure ()

/-! ### `getKey` -/

/-- `raw.replace(/\s+$/g, '')` -/
def trimEnd (s : JsString) : JsString := (s.reverse.dropWhile isWhiteSpace).reverse

/-- `HEX64.test(s)` -/
def isHex64 (s : JsString) : Bool := s.length = 64 && s.all fun c => (hexValue c).isSome

/-- What the key file holds for a key -/
def keyFileText (key : Bytes) : JsString := hexText key ++ [0x0A]

/-- The key in a text of the key file -/
def keyOf (raw : JsString) : Option Bytes :=
  if isHex64 (trimEnd raw) then some (bufferFromHex (trimEnd raw)) else none

/-- `n.toString(8)` -/
def modeText (n : ℕ) : JsString := (Nat.toDigits 8 n).map fun c => c.toNat.toUInt16

def generateAuditKey : KeyProgram Bytes := do
  let random ← keyQuestion .randomBytes
  let key := random.toList
  writeKeyFile (keyFileText key) 0o600
  unlessFailed (← keyQuestion (.chmod 0o600))
  keyQuestion (.setCached key)
  pure key

/-- The warning about the mode of the key file, of which no error comes out -/
def warnMode (keyPath : JsString) : KeyProgram Unit := do
  match ← keyQuestion .statMode with
  | .error _ => pure ()
  | .ok stat =>
    let mode := stat%0o1000
    if mode = 0o600 then pure ()
    else
      let _ ← keyQuestion (.warn (js "audit key file mode is " ++ modeText mode ++
        js "; expected 0600 (using key anyway)") keyPath)
      pure ()

def loadKey (keyPath raw : JsString) : KeyProgram Bytes :=
  match keyOf raw with
  | none => .fail (.invalidAuditKey (js "audit key at " ++ keyPath ++ js " is not 64 hex chars (got " ++
      (JsNumber.ofNat (trimEnd raw).length).toText ++ js ")"))
  | some key => do
    warnMode keyPath
    keyQuestion (.setCached key)
    pure key

def getKey (keyPath : JsString) : KeyProgram Bytes := do
  match ← keyQuestion .cached with
  | some key => pure key
  | none =>
    match ← keyQuestion .readFile with
    | .ok raw => loadKey keyPath raw
    | .error e => if e.code = some (js "ENOENT") then generateAuditKey else .fail (.node e)

/-! ### The disk and the caches -/

/-- The key file, the temporary files by their suffixes, and the caches of the stores -/
structure KeyDisk (Store : Type) where
  keyFile : Option JsString
  temps : JsString → Option JsString
  cached : Store → Option Bytes

variable {Store Task : Type} [DecidableEq Store]

/-- What may come of a question: the answer, and the disk and the caches after it. A write that
fails may leave a part of the contents; `rename` takes the place of whatever has the target's name.
-/
def KeyDisk.may (s : KeyDisk Store) (store : Store) : ∀ q, KeyReply q → KeyDisk Store → Prop
  | .cached, a, t => a = s.cached store ∧ t = s
  | .setCached key, _, t => t = { s with cached := Function.update s.cached store (some key) }
  | .readFile, .ok raw, t => s.keyFile = some raw ∧ t = s
  | .readFile, .error e, t => (e.code = some (js "ENOENT") → s.keyFile = none) ∧ t = s
  | .openTemp x _, .ok (), t => s.temps x = none ∧ t = { s with temps := Function.update s.temps x (some []) }
  | .writeTemp x contents, .ok (), t => t = { s with temps := Function.update s.temps x (some contents) }
  | .writeTemp x contents, .error _, t =>
    ∃ part, part <+: contents ∧ t = { s with temps := Function.update s.temps x (some part) }
  | .renameTemp x, .ok (), t =>
    ∃ text, s.temps x = some text ∧
      t = { s with keyFile := some text, temps := Function.update s.temps x none }
  | .unlinkTemp x, .ok (), t => t = { s with temps := Function.update s.temps x none }
  | _, _, t => t = s

/-- The host of calls of which each belongs to a store -/
def keyHost (storeOf : Task → Store) : Host Task (KeyDisk Store) (KeyDisk Store) KeyReply where
  may s i q a t := s.may (storeOf i) q a t
  act _ t _ := t

/-! ### The protocol of a call -/

/-- How far a call has come: it has drawn a key; it has a temporary file of its own that is not
complete, or that holds the key; it has renamed that file; it has read the key file; or it has
cached its key. -/
inductive KeyPhase
  | idle
  | drawn (key : Bytes)
  | writing (key : Bytes) (suffix : JsString)
  | wrote (key : Bytes) (suffix : JsString)
  | renamed (key : Bytes)
  | loaded (raw : JsString)
  | holds (key : Bytes)

/-- The suffix of the temporary file that a call has -/
def KeyPhase.suffix : KeyPhase → Option JsString
  | .writing _ x => some x
  | .wrote _ x => some x
  | _ => none

/-- A call writes and renames the temporary file that it has drawn a name for, and caches the key
that it has put in place or read. -/
def keyProtocol : Discipline KeyReply KeyPhase where
  permits p q :=
    match q with
    | .randomSuffix => ∃ key, p = .drawn key
    | .openTemp x _ => ∃ key, p = .writing key x
    | .writeTemp x contents => ∃ key, p = .writing key x ∧ contents = keyFileText key
    | .renameTemp x => ∃ key, p = .wrote key x
    | .unlinkTemp x => p.suffix = some x
    | .setCached key => p = .renamed key ∨ ∃ raw, p = .loaded raw ∧ keyOf raw = some key
    | _ => True
  after p q a :=
    match q, a with
    | .cached, some key => .holds key
    | .setCached key, _ => .holds key
    | .readFile, .ok raw => .loaded raw
    | .randomBytes, random => .drawn random.toList
    | .randomSuffix, x =>
      match p with
      | .drawn key => .writing key x
      | p => p
    | .writeTemp _ _, .ok () =>
      match p with
      | .writing key x => .wrote key x
      | p => p
    | .renameTemp _, .ok () =>
      match p with
      | .wrote key _ => .renamed key
      | p => p
    | .unlinkTemp _, _ => .idle
    | _, _ => p

/-- What a call has when it returns -/
def KeyReturned (p : KeyPhase) (key : Bytes) : Prop := p = .holds key

abbrev KeyFollows (p : KeyPhase) (m : KeyProgram Bytes) : Prop :=
  FollowsFrom keyProtocol KeyReturned (fun _ _ => True) p m

theorem discardTemp_follows {p : KeyPhase} {suffix : JsString} (handle : Bool) (e : KeyFailure)
    (hp : p.suffix = some suffix) {Last : KeyPhase → Unit → Prop} :
    FollowsFrom keyProtocol Last (fun _ _ => True) p (discardTemp suffix handle e) := by
  cases handle with
  | true => exact ⟨trivial, fun _ => ⟨hp, fun _ => trivial⟩⟩
  | false => exact ⟨hp, fun _ => trivial⟩

theorem fillTemp_follows {key : Bytes} {suffix : JsString} :
    FollowsFrom keyProtocol (fun p _ => p = .wrote key suffix) (fun p _ => p.suffix = some suffix)
      (.writing key suffix) (fillTemp suffix (keyFileText key)) := by
  refine ⟨⟨key, rfl, rfl⟩, fun written => ?_⟩
  cases written with
  | error e => exact rfl
  | ok =>
    refine ⟨trivial, fun synced => ?_⟩
    cases synced with
    | error e => exact rfl
    | ok =>
      refine ⟨trivial, fun closed => ?_⟩
      cases closed with
      | error e => exact rfl
      | ok => exact rfl

theorem writeKeyFile_follows {key : Bytes} (mode : ℕ) :
    FollowsFrom keyProtocol (fun p _ => p = .renamed key) (fun _ _ => True) (.drawn key)
      (writeKeyFile (keyFileText key) mode) := by
  refine ⟨trivial, fun made => ?_⟩
  cases made with
  | error e => trivial
  | ok =>
    refine ⟨⟨key, rfl⟩, fun suffix => ⟨⟨key, rfl⟩, fun opened => ?_⟩⟩
    cases opened with
    | error e => exact discardTemp_follows (p := .writing key suffix) false _ rfl
    | ok =>
      change FollowsFrom keyProtocol _ _ (KeyPhase.writing key suffix)
        ((fillTemp suffix (keyFileText key)).attempt.bind _)
      apply follows_bind
      apply follows_attempt
      refine fillTemp_follows.mono ?_ ?_
      · rintro _ _ rfl
        refine ⟨⟨key, rfl⟩, fun renamed => ?_⟩
        cases renamed with
        | error e => exact discardTemp_follows (p := .wrote key suffix) false _ rfl
        | ok => exact ⟨trivial, fun _ => rfl⟩
      · intro p e hp
        exact discardTemp_follows true e hp

theorem generateAuditKey_follows : KeyFollows .idle generateAuditKey := by
  refine ⟨trivial, fun random => ?_⟩
  change FollowsFrom keyProtocol _ _ (KeyPhase.drawn random.toList)
    ((writeKeyFile (keyFileText random.toList) 0o600).bind _)
  apply follows_bind
  refine (writeKeyFile_follows 0o600).mono ?_ fun _ _ h => h
  rintro _ _ rfl
  refine ⟨trivial, fun changed => ?_⟩
  cases changed with
  | error e => trivial
  | ok => exact ⟨.inl rfl, fun _ => rfl⟩

theorem warnMode_keeps (keyPath : JsString) : KeepsPhase keyProtocol (warnMode keyPath) := by
  intro p
  refine ⟨trivial, fun stat => ?_⟩
  cases stat with
  | error e => exact rfl
  | ok stat =>
    change FollowsFrom _ _ _ _ (ite _ _ _)
    split_ifs
    · exact rfl
    · exact ⟨trivial, fun _ => rfl⟩

theorem loadKey_follows (keyPath raw : JsString) : KeyFollows (.loaded raw) (loadKey keyPath raw) := by
  rw [loadKey]
  split
  · trivial
  · rename_i key hkey
    refine follows_bind_keeps (warnMode_keeps keyPath) (fun _ => trivial) fun _ => ?_
    exact ⟨.inr ⟨raw, rfl, hkey⟩, fun _ => rfl⟩

theorem getKey_follows (keyPath : JsString) : KeyFollows .idle (getKey keyPath) := by
  refine ⟨trivial, fun cached => ?_⟩
  cases cached with
  | some key => exact rfl
  | none =>
    refine ⟨trivial, fun found => ?_⟩
    cases found with
    | ok raw => exact loadKey_follows keyPath raw
    | error e =>
      change FollowsFrom _ _ _ _ (ite _ _ _)
      split_ifs
      · exact generateAuditKey_follows
      · trivial

/-! ### The text of a key -/

theorem hexUnit_key :
    ∀ d < 0x10, isWhiteSpace (hexUnit d) = false ∧ (hexValue (hexUnit d)).isSome = true := by
  decide

theorem forall_mem_hexText {P : CodeUnit → Prop} (h : ∀ d < 0x10, P (hexUnit d)) (bytes : Bytes) :
    ∀ c ∈ hexText bytes, P c := by
  intro c hc
  obtain ⟨b, -, hb⟩ := List.mem_flatMap.mp hc
  have hlt := b.toNat_lt
  rcases List.mem_pair.mp hb with rfl | rfl
  · exact h _ (by omega)
  · exact h _ (by omega)

theorem trimEnd_keyFileText (key : Bytes) : trimEnd (keyFileText key) = hexText key := by
  have hplain : ∀ c ∈ hexText key, isWhiteSpace c = false :=
    forall_mem_hexText (P := fun c => isWhiteSpace c = false) (fun d hd => (hexUnit_key d hd).1) key
  have hspace : ∀ c ∈ (hexText key).reverse, isWhiteSpace c = false :=
    fun c hc => hplain c (List.mem_reverse.mp hc)
  have hdrop : (hexText key).reverse.dropWhile isWhiteSpace = (hexText key).reverse := by
    cases hrev : (hexText key).reverse with
    | nil => rfl
    | cons c rest =>
      rw [hrev] at hspace
      exact List.dropWhile_cons_of_neg (by rw [hspace c List.mem_cons_self]; exact Bool.false_ne_true)
  rw [trimEnd, keyFileText, List.reverse_concat, List.dropWhile_cons_of_pos (by decide), hdrop,
    List.reverse_reverse]

/-- A key that has been written is read back. -/
theorem keyOf_keyFileText {key : Bytes} (h : key.length = 32) : keyOf (keyFileText key) = some key := by
  have hlength : (hexText key).length = 64 := by
    rw [hexText, List.length_flatMap]
    simp [h]
  have hhex : isHex64 (hexText key) = true := by
    rw [isHex64, Bool.and_eq_true, decide_eq_true_eq, List.all_eq_true]
    exact ⟨hlength, forall_mem_hexText (P := fun c => (hexValue c).isSome = true)
      (fun d hd => (hexUnit_key d hd).2) key⟩
  rw [keyOf, trimEnd_keyFileText, if_pos hhex, bufferFromHex_hexText]

/-! ### The key that has been created -/

/-- No call puts its temporary file onto a key file that is there by then, and none draws the name
of a temporary file that another call has. -/
def KeyApart {Store Task : Type} (s : KeyDisk Store) (phase : Task → KeyPhase) : ∀ q, KeyReply q → Prop
  | .renameTemp _, .ok () => s.keyFile = none
  | .randomSuffix, x => ∀ j, (phase j).suffix ≠ some x
  | _, _ => True

section Turns

variable {Store Task : Type} [DecidableEq Task] {s t : KeyDisk Store} {phase : Task → KeyPhase}
  {created : Option Bytes} {i : Task}

/-- What a call has that it has put in place, read or returned comes from the key that has been
created. -/
def KeyPhase.Agrees (created : Option Bytes) : KeyPhase → Prop
  | .renamed key => created = some key
  | .loaded raw => ∃ key, created = some key ∧ raw = keyFileText key
  | .holds key => created = some key
  | _ => True

/-- The keys that calls have drawn, and that their temporary files hold -/
def KeyPhase.Owns (temps : JsString → Option JsString) : KeyPhase → Prop
  | .drawn key => key.length = 32
  | .writing key _ => key.length = 32
  | .wrote key x => key.length = 32 ∧ temps x = some (keyFileText key)
  | _ => True

/-- At most one key has been created: the key file holds it, and all that calls and caches know is
this key. -/
structure KeyCreated (s : KeyDisk Store) (phase : Task → KeyPhase) (created : Option Bytes) : Prop where
  file : s.keyFile = created.map keyFileText
  length : ∀ key, created = some key → key.length = 32
  cached : ∀ store key, s.cached store = some key → created = some key
  agrees : ∀ i, (phase i).Agrees created
  owns : ∀ i, (phase i).Owns s.temps
  apart : ∀ i j x, (phase i).suffix = some x → (phase j).suffix = some x → i = j

/-- There is at most one key. -/
def OneKey (s : KeyDisk Store) (phase : Task → KeyPhase) : Prop := ∃ created, KeyCreated s phase created

/-- A turn of one call that leaves the key file and the caches, and of the temporary files of other
calls all. -/
theorem KeyCreated.turn {p : KeyPhase} (h : KeyCreated s phase created) (hfile : t.keyFile = s.keyFile)
    (hcached : t.cached = s.cached)
    (htemps : ∀ x, (∀ j ≠ i, (phase j).suffix ≠ some x) ∨ t.temps x = s.temps x)
    (hagrees : p.Agrees created) (howns : p.Owns t.temps)
    (hsuffix : ∀ x, p.suffix = some x → (phase i).suffix = some x ∨ ∀ j ≠ i, (phase j).suffix ≠ some x) :
    KeyCreated t (Function.update phase i p) created := by
  refine ⟨hfile.trans h.file, h.length, fun store key hkey => ?_, fun j => ?_, fun j => ?_,
    fun j j' x hj hj' => ?_⟩
  · rw [hcached] at hkey
    exact h.cached store key hkey
  · by_cases hji : j = i
    · subst hji
      rwa [Function.update_self]
    · rw [Function.update_of_ne hji]
      exact h.agrees j
  · by_cases hji : j = i
    · subst hji
      rwa [Function.update_self]
    · rw [Function.update_of_ne hji]
      have hold := h.owns j
      cases hphase : phase j with
      | wrote key x =>
        rw [hphase] at hold
        have hother : (phase j).suffix = some x := by
          rw [hphase]
          rfl
        exact ⟨hold.1, ((htemps x).resolve_left fun hno => hno j hji hother).trans hold.2⟩
      | drawn key =>
        rw [hphase] at hold
        exact hold
      | writing key x =>
        rw [hphase] at hold
        exact hold
      | idle => trivial
      | renamed key => trivial
      | loaded raw => trivial
      | holds key => trivial
  -- two calls with one temporary file: the one that has taken the turn had it before, or nobody has it
  · have hfree {j : Task} (hji : j ≠ i) (hx : p.suffix = some x) : (phase j).suffix ≠ some x := by
      intro hother
      rcases hsuffix x hx with hmine | hno
      · exact hji (h.apart j i x hother hmine)
      · exact hno j hji hother
    by_cases hji : j = i
    · by_cases hji' : j' = i
      · rw [hji, hji']
      · subst hji
        rw [Function.update_self] at hj
        rw [Function.update_of_ne hji'] at hj'
        exact absurd hj' (hfree hji' hj)
    · rw [Function.update_of_ne hji] at hj
      by_cases hji' : j' = i
      · subst hji'
        rw [Function.update_self] at hj'
        exact absurd hj (hfree hji hj')
      · rw [Function.update_of_ne hji'] at hj'
        exact h.apart j j' x hj hj'

/-- A turn that changes nothing on the disk -/
theorem KeyCreated.quiet {p : KeyPhase} (h : KeyCreated s phase created) (hagrees : p.Agrees created)
    (howns : p.Owns s.temps)
    (hsuffix : ∀ x, p.suffix = some x → (phase i).suffix = some x ∨ ∀ j ≠ i, (phase j).suffix ≠ some x) :
    KeyCreated s (Function.update phase i p) created :=
  h.turn rfl rfl (fun _ => .inr rfl) hagrees howns hsuffix

theorem KeyCreated.same (h : KeyCreated s phase created) :
    KeyCreated s (Function.update phase i (phase i)) created :=
  h.quiet (h.agrees i) (h.owns i) fun _ hx => .inl hx

omit [DecidableEq Task] in
/-- No other call has the temporary file of a call. -/
theorem KeyCreated.other (h : KeyCreated s phase created) {x : JsString} (hx : (phase i).suffix = some x)
    (text : Option JsString) (y : JsString) :
    (∀ j ≠ i, (phase j).suffix ≠ some y) ∨ Function.update s.temps x text y = s.temps y := by
  by_cases hyx : y = x
  · subst hyx
    exact .inl fun j hj hother => hj (h.apart j i y hother hx)
  · exact .inr (Function.update_of_ne hyx _ _)

/-- The one turn in which a key is created: all that is known of a key afterwards is known of this
one. -/
theorem KeyCreated.create {key : Bytes} {x : JsString} (h : KeyCreated s phase none)
    (hi : phase i = .wrote key x) :
    KeyCreated { s with keyFile := some (keyFileText key), temps := Function.update s.temps x none }
      (Function.update phase i (.renamed key)) (some key) := by
  have howns := h.owns i
  rw [hi] at howns
  have hsuffix : (phase i).suffix = some x := by
    rw [hi]
    rfl
  have hbefore : KeyCreated { s with temps := Function.update s.temps x none }
      (Function.update phase i .idle) none :=
    h.turn rfl rfl (h.other hsuffix _) trivial trivial nofun
  refine ⟨rfl, ?_, fun store k hk => absurd (h.cached store k hk) nofun, fun j => ?_, fun j => ?_,
    fun j j' y hj hj' => ?_⟩
  · rintro k ⟨rfl⟩
    exact howns.1
  · by_cases hji : j = i
    · subst hji
      rw [Function.update_self]
      exact rfl
    · rw [Function.update_of_ne hji]
      have hold := h.agrees j
      -- before the turn there was no key, so no other call can know one
      cases hphase : phase j with
      | renamed k => rw [hphase] at hold; cases hold
      | loaded raw => rw [hphase] at hold; obtain ⟨k, hk, -⟩ := hold; cases hk
      | holds k => rw [hphase] at hold; cases hold
      | _ => trivial
  · by_cases hji : j = i
    · subst hji
      rw [Function.update_self]
      trivial
    · have hold := hbefore.owns j
      rwa [Function.update_of_ne hji] at hold ⊢
  · have hfree {j : Task} (hj : (Function.update phase i (.renamed key) j).suffix = some y) :
        (Function.update phase i .idle j).suffix = some y := by
      by_cases hji : j = i
      · subst hji
        rw [Function.update_self] at hj
        cases hj
      · rwa [Function.update_of_ne hji] at hj ⊢
    exact hbefore.apart j j' y (hfree hj) (hfree hj')

variable [DecidableEq Store]

/-- A call caches the key that it has put in place or read. -/
theorem KeyCreated.cache {store : Store} {key : Bytes} (h : KeyCreated s phase created)
    (hkey : created = some key) :
    KeyCreated { s with cached := Function.update s.cached store (some key) }
      (Function.update phase i (.holds key)) created := by
  have hquiet : KeyCreated s (Function.update phase i (.holds key)) created := h.quiet hkey trivial nofun
  refine ⟨hquiet.file, hquiet.length, fun other k hk => ?_, hquiet.agrees, hquiet.owns, hquiet.apart⟩
  change Function.update s.cached store (some key) other = some k at hk
  by_cases hother : other = store
  · subst hother
    rw [Function.update_self] at hk
    cases hk
    exact hkey
  · rw [Function.update_of_ne hother] at hk
    exact h.cached other k hk

theorem created_turn {store : Store} (h : KeyCreated s phase created) {q : KeyAsk} {a : KeyReply q}
    (hpermits : keyProtocol.permits (phase i) q) (hmay : s.may store q a t) (happart : KeyApart s phase q a) :
    OneKey t (Function.update phase i (keyProtocol.after (phase i) q a)) := by
  -- one case for each question of a call; only the rename creates a key
  cases q with
  | cached =>
    obtain ⟨rfl, rfl⟩ := hmay
    cases hcached : t.cached store with
    | none => exact ⟨created, h.same⟩
    | some key => exact ⟨created, h.quiet (h.cached store key hcached) trivial nofun⟩
  | setCached key =>
    obtain rfl : t = _ := hmay
    refine ⟨created, h.cache ?_⟩
    have hagrees := h.agrees i
    -- what is cached has been put in place by this call, or read from the key file
    rcases hpermits with hrenamed | ⟨raw, hloaded, hkey⟩
    · rwa [hrenamed] at hagrees
    · rw [hloaded] at hagrees
      obtain ⟨k, hcreated, rfl⟩ := hagrees
      rw [keyOf_keyFileText (h.length k hcreated)] at hkey
      exact hcreated.trans hkey
  | readFile =>
    cases a with
    | error e =>
      obtain ⟨-, rfl⟩ := hmay
      exact ⟨created, h.same⟩
    | ok raw =>
      obtain ⟨hfile, rfl⟩ := hmay
      rw [h.file, Option.map_eq_some_iff] at hfile
      obtain ⟨key, hcreated, rfl⟩ := hfile
      exact ⟨created, h.quiet ⟨key, hcreated, rfl⟩ trivial nofun⟩
  | randomBytes =>
    obtain rfl : t = s := hmay
    exact ⟨created, h.quiet trivial a.length_toList nofun⟩
  | randomSuffix =>
    obtain rfl : t = s := hmay
    obtain ⟨key, hdrawn⟩ := hpermits
    have howns := h.owns i
    rw [hdrawn] at howns
    have hafter : keyProtocol.after (phase i) .randomSuffix a = .writing key a := by
      rw [hdrawn]
      rfl
    rw [hafter]
    -- no other call has drawn this suffix
    refine ⟨created, h.quiet trivial howns ?_⟩
    rintro x ⟨rfl⟩
    exact .inr fun j _ => happart j
  | openTemp x mode =>
    cases a with
    | error e =>
      obtain rfl : t = s := hmay
      exact ⟨created, h.same⟩
    | ok =>
      obtain ⟨-, rfl⟩ := hmay
      obtain ⟨key, hwriting⟩ := hpermits
      have howns := h.owns i
      have hsuffix : (phase i).suffix = some x := by
        rw [hwriting]
        rfl
      refine ⟨created, h.turn rfl rfl (h.other hsuffix _) (h.agrees i) ?_ fun _ hx => .inl hx⟩
      change (phase i).Owns _
      rw [hwriting] at howns ⊢
      exact howns
  | writeTemp x contents =>
    obtain ⟨key, hwriting, rfl⟩ := hpermits
    have howns := h.owns i
    have hsuffix : (phase i).suffix = some x := by
      rw [hwriting]
      rfl
    rw [hwriting] at howns
    cases a with
    -- a write that fails may leave a part in the temporary file, which no call reads
    | error e =>
      obtain ⟨part, -, rfl⟩ := hmay
      refine ⟨created, h.turn rfl rfl (h.other hsuffix _) (h.agrees i) ?_ fun _ hx => .inl hx⟩
      change (phase i).Owns _
      rw [hwriting]
      exact howns
    | ok =>
      obtain rfl : t = _ := hmay
      have hafter : keyProtocol.after (phase i) (.writeTemp x (keyFileText key)) (.ok ()) = .wrote key x := by
        rw [hwriting]
        rfl
      rw [hafter]
      refine ⟨created, h.turn rfl rfl (h.other hsuffix _) trivial ⟨howns, Function.update_self _ _ _⟩ ?_⟩
      exact fun y hy => .inl (hsuffix.trans hy)
  | renameTemp x =>
    cases a with
    | error e =>
      obtain rfl : t = s := hmay
      exact ⟨created, h.same⟩
    | ok =>
      obtain ⟨text, htext, rfl⟩ := hmay
      obtain ⟨key, hwrote⟩ := hpermits
      have howns := h.owns i
      rw [hwrote] at howns
      -- the hypothesis on the run: no key file is there when one is put in place
      have hnone : created = none := by
        have hfile : s.keyFile = none := happart
        rwa [h.file, Option.map_eq_none_iff] at hfile
      obtain rfl : text = keyFileText key := Option.some_inj.mp (htext.symm.trans howns.2)
      have hafter : keyProtocol.after (phase i) (.renameTemp x) (.ok ()) = .renamed key := by
        rw [hwrote]
        rfl
      rw [hafter]
      subst hnone
      exact ⟨some key, h.create hwrote⟩
  | unlinkTemp x =>
    cases a with
    | error e =>
      obtain rfl : t = s := hmay
      exact ⟨created, h.quiet trivial trivial nofun⟩
    | ok =>
      obtain rfl : t = _ := hmay
      exact ⟨created, h.turn rfl rfl (h.other hpermits _) trivial trivial nofun⟩
  | _ =>
    obtain rfl : t = s := hmay
    exact ⟨created, h.same⟩

end Turns

/-! ### Runs -/

abbrev KeyCalls (Task Store : Type) := Side Task (KeyDisk Store × (Task → KeyPhase)) KeyReply KeyFailure Bytes

/-- The calls at their start, when no key file is there; temporary files of earlier processes may
be. -/
def KeyCalls.start {Task Store : Type} (keyPath : JsString) (temps : JsString → Option JsString) :
    KeyCalls Task Store :=
  ⟨(⟨none, temps, fun _ => none⟩, fun _ => .idle), fun _ => getKey keyPath⟩

theorem created_start {Task Store : Type} (temps : JsString → Option JsString) :
    KeyCreated (⟨none, temps, fun _ => none⟩ : KeyDisk Store) (fun _ : Task => .idle) none where
  file := rfl
  length _ h := nomatch h
  cached _ _ h := nomatch h
  agrees _ := trivial
  owns _ := trivial
  apart _ _ _ h := nomatch h

def firstRandom : Vector UInt8 32 := .replicate 32 0x11

def secondRandom : Vector UInt8 32 := .replicate 32 0x22

/-- All goes well; the random generator gives another key once there is a key file. -/
def wellTurn (s : KeyDisk Unit) : ∀ q, KeyReply q × KeyDisk Unit
  | .cached => (s.cached (), s)
  | .setCached key => ((), { s with cached := Function.update s.cached () (some key) })
  | .readFile =>
    match s.keyFile with
    | some raw => (.ok raw, s)
    | none => (.error ⟨some (js "ENOENT"), []⟩, s)
  | .randomBytes => (if s.keyFile = none then firstRandom else secondRandom, s)
  | .randomSuffix => (js "a1", s)
  | .openTemp x _ =>
    match s.temps x with
    | some _ => (.error ⟨some (js "EEXIST"), []⟩, s)
    | none => (.ok (), { s with temps := Function.update s.temps x (some []) })
  | .writeTemp x contents => (.ok (), { s with temps := Function.update s.temps x (some contents) })
  | .renameTemp x =>
    match s.temps x with
    | some text => (.ok (), { s with keyFile := some text, temps := Function.update s.temps x none })
    | none => (.error ⟨some (js "ENOENT"), []⟩, s)
  | .unlinkTemp x => (.ok (), { s with temps := Function.update s.temps x none })
  | .mkdir => (.ok (), s)
  | .syncTemp => (.ok (), s)
  | .closeTemp => (.ok (), s)
  | .syncDirectory => (.ok (), s)
  | .chmod _ => (.ok (), s)
  | .statMode => (.ok 0o600, s)
  | .warn _ _ => (.ok (), s)

theorem wellTurn_may (s : KeyDisk Unit) (i : Bool) (q : KeyAsk) :
    (keyHost fun _ => ()).may s i q (wellTurn s q).1 (wellTurn s q).2 := by
  cases q with
  | cached => exact ⟨rfl, rfl⟩
  | readFile =>
    cases hfile : s.keyFile with
    | some raw => simp only [wellTurn, hfile]; exact ⟨hfile, rfl⟩
    | none => simp only [wellTurn, hfile]; exact ⟨fun _ => hfile, rfl⟩
  | openTemp x mode =>
    cases htemp : s.temps x with
    | some text => simp only [wellTurn, htemp]; rfl
    | none => simp only [wellTurn, htemp]; exact ⟨htemp, rfl⟩
  | renameTemp x =>
    cases htemp : s.temps x with
    | some text => simp only [wellTurn, htemp]; exact ⟨text, htemp, rfl⟩
    | none => simp only [wellTurn, htemp]; rfl
  | _ => rfl

/-- Both calls look for the key file before either of them writes it. -/
def creatingSchedule : List Bool :=
  [false, false, true, true] ++ List.replicate 11 false ++ List.replicate 11 true

end Homelab
