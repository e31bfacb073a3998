import Homelab.VaultResolver

/-! What is left of the token and of the requests after `dispose`: it aborts a controller that no request
listens to, so what was in flight goes on. -/
namespace Homelab
open Js

section Resolver

variable {Time : Type} (host : VaultHost Time)

/-! ### What is left after a disposal -/

/-- A call that was made before a disposal does not return after it. -/
def VaultCall.Fits (c : VaultCall) : Prop :=
  ∀ reply settledAt, c.stage = .settled (.ok reply) settledAt → c.since = settledAt

/-- A request that was sent before a disposal does not succeed after it. -/
def VaultAnswer.Fits (a : VaultAnswer) : Prop := isOk a.status = true → a.request.sentAt = a.cameAt

/-- No call or request succeeds after a disposal that it was begun before, and a token is cached only by
a call that was made after the last disposal. -/
structure VaultState.DropsToken (s : VaultState Time) : Prop where
  token : ∀ cache ∈ s.tokenCache, cache.since = s.disposals
  calls : ∀ c ∈ s.calls, c.Fits
  answers : ∀ a ∈ s.answers, a.Fits

/-- What Vault answers to a call that was made before the last disposal brings it neither a token nor a
secret, and a request that was sent before it gets no status of success. -/
def VaultState.Refused (s : VaultState Time) : VaultEvent Time → Prop
  | .answered i (some status) => ∀ c ∈ s.calls[i]?, ∀ sent ∈ c.stage.request,
      (sent.sentAt < s.disposals → isOk status = false) ∧
        (c.since < s.disposals → c.stage = .pinging sent → isReachable status = false)
  | .bodyRead i (some body) _ => ∀ c ∈ s.calls[i]?, c.since < s.disposals →
      (∀ ref approle, c.stage = .readingLogin ref approle →
        ∃ e, host.readLogin approle body = .error e) ∧
      ∀ ref, c.stage = .readingSecret ref → ∃ e, host.readSecret ref body = .error e
  | _ => True

/-- The request is of no disposal that is still to come, and has a controller of its own. -/
structure VaultState.Sent (s : VaultState Time) (sent : VaultRequest) : Prop where
  before : sent.sentAt ≤ s.disposals
  signal : sent.signal < s.controllers
  own : sent.signal ≠ s.abortController

/-- Every request in flight has a controller of its own. -/
structure VaultState.Known (s : VaultState Time) : Prop where
  controller : s.abortController < s.controllers
  since : ∀ c ∈ s.calls, c.since ≤ s.disposals
  sent : ∀ c ∈ s.calls, ∀ sent ∈ c.stage.request, s.Sent sent

section Steps

variable {host} {s s' : VaultState Time} {i : ℕ} {c : VaultCall} {stage : VaultStage}

/-- What a call does before its first await: it sends at most one request, and the token that it caches
is its own. -/
structure Opens (s : VaultState Time) (next : VaultStage × VaultState Time) : Prop where
  disposals : next.2.disposals = s.disposals
  calls : next.2.calls = s.calls
  answers : next.2.answers = s.answers
  controller : next.2.abortController = s.abortController
  controllers : s.controllers ≤ next.2.controllers
  token : ∀ cache ∈ next.2.tokenCache, cache ∈ s.tokenCache ∨ cache.since = s.disposals
  request : ∀ sent ∈ next.1.request,
    sent.sentAt = s.disposals ∧ sent.signal = s.controllers ∧ next.2.controllers = s.controllers+1
  unsettled : ∀ reply settledAt, next.1 ≠ .settled (.ok reply) settledAt

theorem opens_settle (e : VaultError) : Opens s (s.settle (.error e), s) where
  disposals := rfl
  calls := rfl
  answers := rfl
  controller := rfl
  controllers := le_rfl
  token _ h := .inl h
  request _ h := by cases h
  unsettled _ _ h := by cases h

/-- A call that begins with a request -/
theorem opens_doFetch (url method : JsString) (headers : Fields) (body : Option JsString)
    {waits : VaultRequest → VaultStage} (hwaits : ∀ sent, (waits sent).request = some sent) :
    Opens s (waits (s.doFetch url method headers body).1, (s.doFetch url method headers body).2) where
  disposals := rfl
  calls := rfl
  answers := rfl
  controller := rfl
  controllers := Nat.le_succ _
  token _ h := .inl h
  request sent h := by
    cases (hwaits _).symm.trans h
    exact ⟨rfl, rfl, rfl⟩
  unsettled reply settledAt h := by
    have hrequest := congrArg VaultStage.request h
    cases (hwaits _).symm.trans hrequest

theorem opens_loginApprole (ref : CredentialRef) : Opens s (s.loginApprole host ref) := by
  rw [VaultState.loginApprole]
  split
  · exact opens_settle _
  · split
    · exact opens_doFetch _ _ _ _ fun _ => rfl
    · exact opens_settle _

theorem opens_login (ref : CredentialRef) (now : Time) : Opens s (s.login host ref now) := by
  rw [VaultState.login]
  split
  · exact opens_loginApprole ref
  · split
    · refine ⟨rfl, rfl, rfl, rfl, le_rfl, ?_, nofun, nofun⟩
      intro cache h
      cases h
      exact .inr rfl
    · exact opens_settle _
  · exact opens_settle _

theorem opens_getToken (ref : CredentialRef) (now later : Time) :
    Opens s (s.getToken host ref now later) := by
  rw [VaultState.getToken]
  split
  · split_ifs
    · exact ⟨rfl, rfl, rfl, rfl, le_rfl, fun _ h => .inl h, nofun, nofun⟩
    · exact opens_login ref later
  · exact opens_login ref later

theorem opens_ping : Opens s (.pinging (s.fetchHealth host).1, (s.fetchHealth host).2) :=
  opens_doFetch _ _ _ _ fun _ => rfl

/-- A request that has been sent is known when more controllers are made. -/
theorem VaultState.Sent.mono {sent : VaultRequest} (h : s.Sent sent) (hd : s.disposals ≤ s'.disposals)
    (hc : s'.abortController = s.abortController) (hcs : s.controllers ≤ s'.controllers) :
    s'.Sent sent where
  before := h.before.trans hd
  signal := h.signal.trans_le hcs
  own := hc ▸ h.own

theorem Opens.known {next : VaultStage × VaultState Time} (h : Opens s next) (hs : s.Known) :
    (VaultState.enter next).Known := by
  have hmono (sent : VaultRequest) (hsent : s.Sent sent) : (VaultState.enter next).Sent sent :=
    hsent.mono h.disposals.ge h.controller h.controllers
  refine ⟨?_, ?_, ?_⟩
  · change next.2.abortController < next.2.controllers
    rw [h.controller]
    exact hs.controller.trans_le h.controllers
  · refine Automaton.forall_snoc (fun c hc => ?_) le_rfl
    rw [h.calls] at hc
    exact (hs.since c hc).trans h.disposals.ge
  · refine Automaton.forall_snoc (fun c hc => ?_) ?_
    · rw [h.calls] at hc
      intro sent hsent
      exact hmono sent (hs.sent c hc sent hsent)
    -- the request that begins listens to a controller that has been made for it alone
    · intro sent hsent
      obtain ⟨hat, hsignal, hcontrollers⟩ := h.request sent hsent
      refine ⟨(hat.trans h.disposals.symm).le, ?_, ?_⟩
      · change sent.signal < next.2.controllers
        omega
      · have hlt := hs.controller
        change sent.signal ≠ next.2.abortController
        rw [h.controller]
        omega

theorem Opens.dropsToken {next : VaultStage × VaultState Time} (h : Opens s next) (hs : s.DropsToken) :
    (VaultState.enter next).DropsToken where
  token cache hcache := by
    change cache.since = next.2.disposals
    rw [h.disposals]
    exact (h.token cache hcache).elim (hs.token cache) id
  calls c hc := by
    rcases List.mem_append.mp hc with hc | hc
    · rw [h.calls] at hc
      exact hs.calls c hc
    · rw [List.mem_singleton.mp hc]
      intro reply settledAt hsettled
      exact absurd hsettled (h.unsettled reply settledAt)
  answers a ha := by
    change a ∈ next.2.answers at ha
    rw [h.answers] at ha
    exact hs.answers a ha

/-- A call that goes on: the state changes in its call, and keeps the rest but for the token and the
controllers. -/
theorem known_set (hs : s.Known) (hget : s.calls[i]? = some c)
    (hstage : ∀ sent ∈ stage.request, s.Sent sent) : (s.setStage i c stage).Known where
  controller := hs.controller
  since := Automaton.forall_set hs.since i (hs.since c (List.mem_of_getElem? hget))
  sent := by
    have hsent : ∀ c' ∈ s.calls.set i ⟨c.since, stage⟩, ∀ sent ∈ c'.stage.request, s.Sent sent :=
      Automaton.forall_set hs.sent i hstage
    intro c' hc' sent' hsent'
    exact (hsent c' hc' sent' hsent').mono le_rfl rfl le_rfl

/-- With the call in its next stage, it is this call that has to fit. -/
theorem calls_set_iff (hs : ∀ c ∈ s.calls, c.Fits) (hget : s.calls[i]? = some c) :
    (∀ c' ∈ (s.setStage i c stage).calls, c'.Fits) ↔ VaultCall.Fits ⟨c.since, stage⟩ := by
  constructor
  · intro h
    obtain ⟨hi, _⟩ := List.getElem?_eq_some_iff.mp hget
    exact h _ (List.mem_set hi _)
  · intro h
    exact Automaton.forall_set hs i h

theorem fits_settled_ok {since settledAt : ℕ} {reply : VaultReply} :
    VaultCall.Fits ⟨since, .settled (.ok reply) settledAt⟩ ↔ since = settledAt := by
  constructor
  · intro h
    exact h reply settledAt rfl
  · intro h reply' settledAt' heq
    cases heq
    exact h

theorem fits_of_unsettled {since : ℕ}
    (h : ∀ reply settledAt, stage ≠ .settled (.ok reply) settledAt) : VaultCall.Fits ⟨since, stage⟩ :=
  fun reply settledAt heq => absurd heq (h reply settledAt)

/-- A call that has not returned keeps what is left of the token. -/
theorem dropsToken_setStage (hs : s.DropsToken) (hget : s.calls[i]? = some c)
    (hstage : ∀ reply settledAt, stage ≠ .settled (.ok reply) settledAt) :
    (s.setStage i c stage).DropsToken :=
  ⟨hs.token, (calls_set_iff hs.calls hget).mpr (fits_of_unsettled hstage), hs.answers⟩

theorem eq_iff_not_lt {n m : ℕ} (hle : n ≤ m) : n = m ↔ ¬ n < m := by omega

/-- A response of success fits when its request was not sent before the last disposal. -/
theorem answer_fits_iff {sent : VaultRequest} {status : ℕ} (hle : sent.sentAt ≤ s.disposals) :
    VaultAnswer.Fits ⟨sent, status, s.disposals⟩ ↔ (sent.sentAt < s.disposals → isOk status = false) := by
  change (isOk status = true → sent.sentAt = s.disposals) ↔ _
  rw [eq_iff_not_lt hle]
  cases isOk status with
  | false => exact iff_of_true nofun fun _ => rfl
  | true =>
    constructor
    · intro h hlt
      exact absurd hlt (h rfl)
    · intro h _ hlt
      cases h hlt

/-- Of the calls that a response can make return, only a `ping` returns at once. -/
theorem fits_afterStatus (host : VaultHost Time) {sent : VaultRequest} {status : ℕ} (hle : c.since ≤ s.disposals)
    (hsent : c.stage.request = some sent) :
    VaultCall.Fits ⟨c.since, s.afterStatus host status c.stage⟩ ↔
      (c.since < s.disposals → c.stage = .pinging sent → isReachable status = false) := by
  obtain ⟨since, stage⟩ := c
  cases stage with
  -- a login and a secret are read in a later step, so no status makes their call return
  | loggingIn ref approle sent' =>
    refine iff_of_true (fits_of_unsettled fun _ _ => ?_) nofun
    change ite _ _ _ ≠ _
    split_ifs <;> nofun
  | fetching ref sent' =>
    refine iff_of_true (fits_of_unsettled fun _ _ => ?_) nofun
    change ite _ _ _ ≠ _
    split_ifs <;> nofun
  | pinging sent' =>
    cases hsent
    change VaultCall.Fits ⟨since, if isReachable status then _ else _⟩ ↔ _
    cases isReachable status with
    | false => exact iff_of_true (fits_of_unsettled nofun) fun _ _ => rfl
    | true =>
      change VaultCall.Fits ⟨since, .settled (.ok .reachable) s.disposals⟩ ↔ _
      rw [fits_settled_ok, eq_iff_not_lt hle]
      constructor
      · intro h hlt
        exact absurd hlt h
      · intro h hlt
        cases h hlt rfl
  | readingLogin ref approle => cases hsent
  | authorised ref token => cases hsent
  | readingSecret ref => cases hsent
  | settled result settledAt => cases hsent

theorem answered_dropsToken_iff {sent : VaultRequest} {status : ℕ} (hs : s.DropsToken) (hknown : s.Known)
    (hget : s.calls[i]? = some c) (hsent : c.stage.request = some sent) :
    (s.answered host i c sent (some status)).DropsToken ↔
      (sent.sentAt < s.disposals → isOk status = false) ∧
        (c.since < s.disposals → c.stage = .pinging sent → isReachable status = false) := by
  have hmem := List.mem_of_getElem? hget
  have hbefore := (hknown.sent c hmem sent hsent).before
  rw [← answer_fits_iff hbefore, ← fits_afterStatus host (hknown.since c hmem) hsent,
    ← calls_set_iff hs.calls hget]
  constructor
  · intro h
    exact ⟨h.answers _ (List.mem_cons_self ..), h.calls⟩
  · intro h
    refine ⟨hs.token, h.2, fun a ha => ?_⟩
    rcases List.mem_cons.mp ha with rfl | ha
    · exact h.1
    · exact hs.answers a ha

/-- The token of a login fits when the call was made after the last disposal. -/
theorem loggedIn_dropsToken_iff {ref : CredentialRef} {token : JsValue} {expiresAt : Time}
    (hs : s.DropsToken) (hle : c.since ≤ s.disposals) (hget : s.calls[i]? = some c) :
    VaultState.DropsToken { s.setStage i c (.authorised ref token) with
      tokenCache := some ⟨token, expiresAt, c.since⟩ } ↔ ¬ c.since < s.disposals := by
  rw [← eq_iff_not_lt hle]
  constructor
  · intro h
    exact h.token _ rfl
  · intro h
    refine ⟨fun cache hcache => ?_, ?_, hs.answers⟩
    · cases hcache
      exact h
    · exact (calls_set_iff hs.calls hget).mpr (fits_of_unsettled nofun)

/-- A call that returns fits when it was made after the last disposal. -/
theorem returned_dropsToken_iff {reply : VaultReply} (hs : s.DropsToken) (hle : c.since ≤ s.disposals)
    (hget : s.calls[i]? = some c) :
    (s.setStage i c (s.settle (.ok reply))).DropsToken ↔ ¬ c.since < s.disposals := by
  have hcalls : (∀ c' ∈ (s.setStage i c (s.settle (.ok reply))).calls, c'.Fits) ↔ _ :=
    calls_set_iff hs.calls hget
  rw [VaultState.settle, fits_settled_ok, eq_iff_not_lt hle] at hcalls
  constructor
  · intro h
    exact hcalls.mp h.calls
  · intro h
    exact ⟨hs.token, hcalls.mpr h, hs.answers⟩

theorem bodyRead_dropsToken_iff {body : JsValue} {now : Time} (hs : s.DropsToken) (hknown : s.Known)
    (hget : s.calls[i]? = some c) :
    (s.bodyRead host i c (some body) now).DropsToken ↔ (c.since < s.disposals →
      (∀ ref approle, c.stage = .readingLogin ref approle →
        ∃ e, host.readLogin approle body = .error e) ∧
      ∀ ref, c.stage = .readingSecret ref → ∃ e, host.readSecret ref body = .error e) := by
  have hle := hknown.since c (List.mem_of_getElem? hget)
  obtain ⟨since, stage⟩ := c
  cases stage with
  | readingLogin ref approle =>
    cases hread : host.readLogin approle body with
    | error e =>
      simp only [VaultState.bodyRead, hread]
      refine iff_of_true (dropsToken_setStage hs hget nofun) fun _ => ⟨?_, nofun⟩
      intro ref' approle' heq
      cases heq
      exact ⟨e, hread⟩
    | ok login =>
      simp only [VaultState.bodyRead, hread]
      rw [loggedIn_dropsToken_iff hs hle hget]
      constructor
      · intro h hlt
        exact absurd hlt h
      · intro h hlt
        obtain ⟨e, herror⟩ := (h hlt).1 ref approle rfl
        rw [hread] at herror
        cases herror
  | readingSecret ref =>
    cases hread : host.readSecret ref body with
    | error e =>
      simp only [VaultState.bodyRead, hread, Except.map]
      refine iff_of_true (dropsToken_setStage hs hget nofun) fun _ => ⟨nofun, ?_⟩
      intro ref' heq
      cases heq
      exact ⟨e, hread⟩
    | ok secret =>
      simp only [VaultState.bodyRead, hread, Except.map]
      rw [returned_dropsToken_iff hs hle hget]
      constructor
      · intro h hlt
        exact absurd hlt h
      · intro h hlt
        obtain ⟨e, herror⟩ := (h hlt).2 ref rfl
        rw [hread] at herror
        cases herror
  -- the other stages read no body
  | loggingIn ref approle sent => exact iff_of_true hs fun _ => ⟨nofun, nofun⟩
  | authorised ref token => exact iff_of_true hs fun _ => ⟨nofun, nofun⟩
  | fetching ref sent => exact iff_of_true hs fun _ => ⟨nofun, nofun⟩
  | pinging sent => exact iff_of_true hs fun _ => ⟨nofun, nofun⟩
  | settled result settledAt => exact iff_of_true hs fun _ => ⟨nofun, nofun⟩

/-! ### Runs -/

theorem request_afterStatus (status : ℕ) (sent : VaultRequest) (h : c.stage.request = some sent) :
    (s.afterStatus host status c.stage).request = none := by
  obtain ⟨since, stage⟩ := c
  cases stage with
  | loggingIn ref approle sent' =>
    rw [VaultState.afterStatus]
    split_ifs <;> rfl
  | fetching ref sent' =>
    rw [VaultState.afterStatus]
    split_ifs <;> rfl
  | pinging sent' =>
    rw [VaultState.afterStatus]
    split_ifs <;> rfl
  | readingLogin ref approle => cases h
  | authorised ref token => cases h
  | readingSecret ref => cases h
  | settled result settledAt => cases h

/-- What a call does keeps a property of the states, when all that a call can do keeps it. -/
theorem onCall_keeps {P : VaultState Time → Prop} {f : VaultCall → VaultState Time} (hs : P s)
    (h : ∀ c, s.calls[i]? = some c → P (f c)) : P (s.onCall i f) := by
  rw [VaultState.onCall]
  split
  · exact hs
  · exact h _ ‹_›

theorem onRequest_keeps {P : VaultState Time → Prop} {f : VaultRequest → VaultState Time} (hs : P s)
    (h : ∀ sent, c.stage.request = some sent → P (f sent)) : P (s.onRequest c f) := by
  rw [VaultState.onRequest]
  split
  · exact hs
  · exact h _ ‹_›

theorem VaultState.Known.of_eq (h : s.Known) (hd : s'.disposals = s.disposals)
    (hc : s'.abortController = s.abortController) (hcs : s'.controllers = s.controllers)
    (hcalls : s'.calls = s.calls) : s'.Known where
  controller := by
    rw [hc, hcs]
    exact h.controller
  since := by
    rw [hcalls, hd]
    exact h.since
  sent := by
    rw [hcalls]
    intro c hmem sent hsent
    exact (h.sent c hmem sent hsent).mono hd.ge hc hcs.ge

theorem known_of_request_none (hs : s.Known) (hget : s.calls[i]? = some c) (h : stage.request = none) :
    (s.setStage i c stage).Known := by
  apply known_set hs hget
  rw [h]
  nofun

theorem known_bodyRead (hs : s.Known) (hget : s.calls[i]? = some c) (body : Option JsValue) (now : Time) :
    (s.bodyRead host i c body now).Known := by
  rw [VaultState.bodyRead.eq_def]
  split
  · exact known_of_request_none hs hget rfl
  · split
    · split
      · exact known_of_request_none hs hget rfl
      next ref approle _ _ token leaseDuration _ =>
        have hset : (s.setStage i c (.authorised ref token)).Known := known_of_request_none hs hget rfl
        exact hset.of_eq rfl rfl rfl rfl
    · exact known_of_request_none hs hget rfl
    · exact hs

theorem known_resumed (hs : s.Known) (hget : s.calls[i]? = some c) : (s.resumed host i c).Known := by
  rw [VaultState.resumed]
  split
  next ref token _ =>
    have hfetch : (s.fetchSecret host ref token).2.Known := by
      refine ⟨hs.controller.trans (Nat.lt_succ_self _), hs.since, fun c hc sent hsent => ?_⟩
      exact (hs.sent c hc sent hsent).mono le_rfl rfl (Nat.le_succ _)
    refine known_set hfetch hget fun sent hsent => ?_
    cases hsent
    exact ⟨le_rfl, Nat.lt_succ_self _, hs.controller.ne'⟩
  · exact hs

theorem known_next (hs : s.Known) (e : VaultEvent Time) : ((vaultResolver host).next s e).Known := by
  cases e with
  | resolve ref now later => exact (opens_getToken ref now later).known hs
  | ping => exact opens_ping.known hs
  | dispose =>
    -- the controller that takes the place of the aborted one is younger than those of all requests
    refine ⟨Nat.lt_succ_self _, fun c hc => (hs.since c hc).trans (Nat.le_succ _), fun c hc sent hsent => ?_⟩
    have hold := hs.sent c hc sent hsent
    exact ⟨hold.before.trans (Nat.le_succ _), hold.signal.trans (Nat.lt_succ_self _), hold.signal.ne⟩
  | answered i status =>
    refine onCall_keeps hs fun c hget => onRequest_keeps hs fun sent hsent => ?_
    cases status with
    | none => exact known_of_request_none hs hget rfl
    | some status =>
      have hset : (s.setStage i c (s.afterStatus host status c.stage)).Known :=
        known_of_request_none hs hget (request_afterStatus status sent hsent)
      exact hset.of_eq rfl rfl rfl rfl
  | timedOut i =>
    refine onCall_keeps hs fun c hget => onRequest_keeps hs fun sent hsent => ?_
    have hset : (s.setStage i c (s.settle (.error host.unreachable))).Known :=
      known_of_request_none hs hget rfl
    exact hset.of_eq rfl rfl rfl rfl
  | bodyRead i body now => exact onCall_keeps hs fun c hget => known_bodyRead hs hget body now
  | resumed i => exact onCall_keeps hs fun c hget => known_resumed hs hget

/-- Of the steps, only an answer or a body can break what is left of the token. -/
theorem dropsToken_next_iff (hknown : s.Known) (hs : s.DropsToken) {e : VaultEvent Time}
    (hallowed : (vaultResolver host).allowed s e) :
    ((vaultResolver host).next s e).DropsToken ↔ s.Refused host e := by
  cases e with
  | resolve ref now later => exact iff_of_true ((opens_getToken ref now later).dropsToken hs) trivial
  | ping => exact iff_of_true (opens_ping.dropsToken hs) trivial
  -- by the disposal itself nothing returns, and no token is left
  | dispose => exact iff_of_true ⟨nofun, hs.calls, hs.answers⟩ trivial
  | answered i status =>
    obtain ⟨c, hget, sent, hsent, -⟩ := hallowed
    have hnext : (vaultResolver host).next s (.answered i status) = s.answered host i c sent status := by
      change s.onCall i _ = _
      rw [VaultState.onCall, hget]
      change s.onRequest c _ = _
      rw [VaultState.onRequest, hsent]
    rw [hnext]
    cases status with
    | none => exact iff_of_true (dropsToken_setStage hs hget nofun) trivial
    | some status =>
      rw [answered_dropsToken_iff hs hknown hget hsent]
      constructor
      · intro h c' hget' sent' hsent'
        cases hget.symm.trans hget'
        cases hsent.symm.trans hsent'
        exact h
      · intro h
        exact h c hget sent hsent
  | timedOut i =>
    -- a timer lets its call fail, which is no success
    refine iff_of_true ?_ trivial
    refine onCall_keeps hs fun c hget => onRequest_keeps hs fun sent hsent => ?_
    have hsettled : (s.setStage i c (s.settle (.error host.unreachable))).DropsToken :=
      dropsToken_setStage hs hget nofun
    exact ⟨hsettled.token, hsettled.calls, hsettled.answers⟩
  | bodyRead i body now =>
    obtain ⟨c, hget, -⟩ := hallowed
    have hnext : (vaultResolver host).next s (.bodyRead i body now) = s.bodyRead host i c body now := by
      change s.onCall i _ = _
      rw [VaultState.onCall, hget]
    rw [hnext]
    cases body with
    | none => exact iff_of_true (dropsToken_setStage hs hget nofun) trivial
    | some body =>
      rw [bodyRead_dropsToken_iff hs hknown hget]
      constructor
      · intro h c' hget'
        cases hget.symm.trans hget'
        exact h
      · intro h
        exact h c hget
  | resumed i =>
    refine iff_of_true ?_ trivial
    refine onCall_keeps hs fun c hget => ?_
    rw [VaultState.resumed]
    split
    next ref token _ =>
      have hfetch : (s.fetchSecret host ref token).2.DropsToken := ⟨hs.token, hs.calls, hs.answers⟩
      exact dropsToken_setStage hfetch hget nofun
    · exact hs

end Steps

theorem known_fresh : (VaultState.fresh : VaultState Time).Known where
  controller := Nat.zero_lt_one
  since _ h := absurd h List.not_mem_nil
  sent _ h := absurd h List.not_mem_nil

/-- The controller that `dispose` aborts is that of no request in flight. -/
theorem abortController_unheard {s : VaultState Time}
    (h : (vaultResolver host).Reaches Automaton.anyEvent .fresh s) :
    ∀ c ∈ s.calls, ∀ sent ∈ c.stage.request, sent.signal ≠ s.abortController := by
  have hknown := h.invariant known_fresh fun x e hx _ _ => known_next hx e
  intro c hc sent hsent
  exact (hknown.sent c hc sent hsent).own

theorem dropsToken_fresh : (VaultState.fresh : VaultState Time).DropsToken :=
  ⟨nofun, fun _ h => absurd h List.not_mem_nil, fun _ h => absurd h List.not_mem_nil⟩

/-- A disposal drops the token for good, all along a run, just in case Vault refuses what is asked of it
for calls and requests that were begun before the disposal. -/
theorem disposal_drops_iff (events : List (VaultEvent Time))
    (hrun : (vaultResolver host).Permits Automaton.anyEvent .fresh events) :
    (vaultResolver host).Throughout VaultState.DropsToken .fresh events ↔
      (vaultResolver host).Permits (VaultState.Refused host) .fresh events :=
  Automaton.throughout_iff known_fresh dropsToken_fresh (fun _ e hs _ => known_next hs e)
    (fun _ _ hknown hs hallowed => dropsToken_next_iff hknown hs hallowed) hrun

end Resolver

/-! ### A login in flight -/

def sampleRef : CredentialRef := ⟨js "kv/data/nas", js "password"⟩

def sampleVault : VaultHost ℕ where
  cfg := ⟨js "https://vault:8200", .approle, some ⟨js "ROLE_ID", js "SECRET_ID"⟩⟩
  env k := if k = js "ROLE_ID" ∨ k = js "SECRET_ID" then some (js "x") else none
  before now expiresAt := now < expiresAt
  refreshAt now _ := now+3240000
  nextDay now := now+86400000
  sha256 _ := []
  bufferFrom _ := none

/-- The login of a call is rejected after the resolver has been disposed of. -/
def rejectedEvents : List (VaultEvent ℕ) := [.resolve sampleRef 0 0, .dispose, .answered 0 none]

theorem disposal_drops_iff_rejected :
    (vaultResolver sampleVault).Throughout VaultState.DropsToken .fresh rejectedEvents := by
  have hrejected : (vaultResolver sampleVault).allowed ((vaultResolver sampleVault).after .fresh
      [.resolve sampleRef 0 0, .dispose]) (.answered 0 none) := ⟨_, rfl, _, rfl, nofun⟩
  exact (disposal_drops_iff sampleVault rejectedEvents
    ⟨trivial, trivial, trivial, trivial, hrejected, trivial, trivial⟩).mpr
    ⟨trivial, trivial, trivial, trivial, hrejected, trivial, trivial⟩

def loginBody : JsValue := .obj [(js "auth", .obj [(js "client_token", .str (js "s.1"))])]

/-- The login of a call is answered after the resolver has been disposed of. -/
def answeredEvents : List (VaultEvent ℕ) :=
  [.resolve sampleRef 0 0, .dispose, .answered 0 (some 200), .bodyRead 0 (some loginBody) 1]

/-- The token of a login that was in flight is cached again. -/
theorem token_survives_dispose : ¬ ∀ (host : VaultHost ℕ) (events : List (VaultEvent ℕ)),
    (vaultResolver host).Permits Automaton.anyEvent .fresh events →
      (vaultResolver host).Throughout VaultState.DropsToken .fresh events := by
  intro h
  have hrun : (vaultResolver sampleVault).Permits Automaton.anyEvent .fresh answeredEvents :=
    ⟨trivial, trivial, trivial, trivial, ⟨_, rfl, _, rfl, fun _ => by decide⟩, trivial,
      ⟨_, rfl, rfl⟩, trivial, trivial⟩
  have hlast := (h sampleVault answeredEvents hrun).2.2.2.2
  -- the token is of the call that was made before the disposal
  have hcache := hlast.token ⟨.str (js "s.1"), 3240001, 0⟩ (by rfl)
  exact absurd hcache (by decide +kernel)

end Homelab
