import Homelab.HealthScore
import Mathlib.Analysis.SpecialFunctions.Pow.Real

/-! The laws of the health score over the reals: it is bounded, the order of the observations does not matter, and
what is worse is not scored higher. -/
namespace Homelab
open Js

/-! ### The score over any numbers -/

/-- The dates, the decay and the options of one scoring; `decay` is `none` where it is `NaN`. -/
structure Scoring (K : Type) where
  dateMs : JsString → Option ℤ
  decay : (ageMs windowMs : K) → Option K
  now : K
  windowMs : K
  weights : SeverityWeights
  obsPenaltyCap : ℚ
  replicaWeight : ℚ

namespace Scoring

variable {K : Type} [Field K] [LinearOrder K] (s : Scoring K)

def contribution (obs : Observation) : Option (Option K) :=
  (s.dateMs obs.discoveredAt).map fun discoveredMs : ℤ =>
    (s.decay (max 0 (s.now-discoveredMs)) s.windowMs).map fun decay => severityWeight s.weights obs.severity*decay

def observationPenalty (observations : List Observation) : K :=
  let contributions := observations.filterMap s.contribution
  if contributions.all Option.isSome then
    max 0 (min (contributions.map fun c => c.getD 0).sum s.obsPenaltyCap)
  else 0

def score (entity : JsValue) (observations : List Observation) : K :=
  max 0 (min 100 (100-statusPenalty entity-replicaPenalty s.replicaWeight entity-s.observationPenalty observations))

/-- The scoring of `computeHealthScore`, whose times are whole milliseconds -/
def rational (rt : ScoreRuntime) (opts : HealthScoringOptions) : Scoring ℚ where
  dateMs := rt.dateMs
  decay ageMs windowMs := rt.decay ⌊ageMs⌋ ⌊windowMs⌋
  now := opts.now
  windowMs := (opts.windowMs.getD defaultWindowMs : ℤ)
  weights := ⟨opts.weightP0.getD 40, opts.weightP1.getD 20, opts.weightP2.getD 10⟩
  obsPenaltyCap := opts.obsPenaltyCap.getD 70
  replicaWeight := opts.replicaWeight.getD 40

end Scoring

theorem computeHealthScore_eq (rt : ScoreRuntime) (entity : JsValue) (observations : List Observation)
    (opts : HealthScoringOptions) :
    (computeHealthScore rt entity observations opts).score =
      (Scoring.rational rt opts).score entity observations := by
  have hage (t : ℤ) : ⌊max 0 ((opts.now : ℚ)-t)⌋ = max 0 (opts.now-t) := by
    have hcast : max 0 ((opts.now : ℚ)-t) = ((max 0 (opts.now-t) : ℤ) : ℚ) := by push_cast; rfl
    rw [hcast, Int.floor_intCast]
  have hcontribution : (Scoring.rational rt opts).contribution = contribution rt opts.now
      (opts.windowMs.getD defaultWindowMs) ⟨opts.weightP0.getD 40, opts.weightP1.getD 20, opts.weightP2.getD 10⟩ := by
    ext1 obs
    simp only [Scoring.contribution, Scoring.rational, contribution, hage, Int.floor_intCast, Rat.cast_id]
  simp only [computeHealthScore, Scoring.score, Scoring.observationPenalty, observationPenalty, hcontribution,
    Rat.cast_id]
  rfl

/-! ### The exact score -/

/-- `Math.pow(0.5, ageMs / windowMs)` on the reals; `0/0` is `NaN`, and another age is infinitely many windows
of length 0. -/
noncomputable def exactDecay (ageMs windowMs : ℝ) : Option ℝ :=
  if windowMs = 0 then if ageMs = 0 then none else some 0 else some ((1/2)^(ageMs/windowMs))

/-- No weight is negative. -/
structure NonnegWeights (weights : SeverityWeights) (replicaWeight : ℚ) : Prop where
  p0 : 0 ≤ weights.p0
  p1 : 0 ≤ weights.p1
  p2 : 0 ≤ weights.p2
  replica : 0 ≤ replicaWeight

/-- A scoring on the reals whose weights are not negative -/
structure ExactScoring (window : ℝ) extends Scoring ℝ where
  exact : decay = exactDecay
  hasWindow : windowMs = window
  nonneg : NonnegWeights weights replicaWeight

/-- How bad a status is -/
def statusRank (entity : JsValue) : ℕ :=
  if hasStatus (js "stale") entity then 1 else if hasStatus (js "gone") entity then 2 else 0

def Severity.rank : Severity → ℕ
  | .p0 => 2
  | .p1 => 1
  | .p2 => 0

/-- `e'` is `e` with at most as many running replicas. -/
structure FewerReplicas (e e' : JsValue) : Prop where
  status : statusRank e' = statusRank e
  desired : attributeOf (js "replicas_desired") e' = attributeOf (js "replicas_desired") e
  fewer : ∃ n n', attributeOf (js "replicas_running") e = .num n ∧
    attributeOf (js "replicas_running") e' = .num n' ∧ n'.le n = true

/-- `e'` is `e` with a status that is at least as bad. -/
structure WorseStatus (e e' : JsValue) : Prop where
  status : statusRank e ≤ statusRank e'
  desired : attributeOf (js "replicas_desired") e' = attributeOf (js "replicas_desired") e
  running : attributeOf (js "replicas_running") e' = attributeOf (js "replicas_running") e

/-- The laws of the score with this window -/
structure HealthLaws (window : ℝ) : Prop where
  divisor : window ≠ 0
  bounded : ∀ (s : ExactScoring window) e l, 0 ≤ s.score e l ∧ s.score e l ≤ 100
  order : ∀ (s : ExactScoring window) e l l', l.Perm l' → s.score e l = s.score e l'
  added : ∀ (s : ExactScoring window) e pre obs post, s.score e (pre ++ obs :: post) ≤ s.score e (pre ++ post)
  replicas : ∀ (s : ExactScoring window) e e' l, FewerReplicas e e' → s.score e' l ≤ s.score e l
  status : ∀ (s : ExactScoring window) e e' l, WorseStatus e e' → s.score e' l ≤ s.score e l
  severity : ∀ (s : ExactScoring window) e pre obs raised post,
    s.weights.p2 ≤ s.weights.p1 → s.weights.p1 ≤ s.weights.p0 → obs.severity.rank ≤ raised.rank →
    s.score e (pre ++ { obs with severity := raised } :: post) ≤ s.score e (pre ++ obs :: post)

/-! ### The penalties -/

theorem statusPenalty_mono {e e' : JsValue} (h : statusRank e ≤ statusRank e') :
    statusPenalty e ≤ statusPenalty e' := by
  unfold statusRank at h
  unfold statusPenalty
  split_ifs at h ⊢ <;> first | omega | norm_num

theorem shortfallRatio_nonneg {desired : ℚ} (h : 0 < desired) (n : JsNumber) : 0 ≤ shortfallRatio desired n := by
  cases n with
  | nan => exact le_rfl
  | inf neg => cases neg <;> norm_num [shortfallRatio]
  | fin running =>
    exact le_min zero_le_one (div_nonneg (le_max_left _ _) h.le)

/-- With fewer running replicas the shortfall is at least as great. -/
theorem shortfallRatio_anti {desired : ℚ} (h : 0 < desired) {n n' : JsNumber} (hle : n'.le n = true) :
    shortfallRatio desired n ≤ shortfallRatio desired n' := by
  have hone (m : JsNumber) : shortfallRatio desired m ≤ 1 := by
    cases m with
    | nan => exact zero_le_one
    | inf neg => cases neg <;> norm_num [shortfallRatio]
    | fin running => exact min_le_left _ _
  obtain ⟨hn', hn, hlt⟩ := JsNumber.le_iff.mp hle
  cases n with
  | nan => exact absurd rfl hn
  | inf neg =>
    cases neg with
    | false => exact shortfallRatio_nonneg h n'
    | true =>
      -- nothing but `-Infinity` is at most `-Infinity`
      cases n' with
      | nan => exact absurd rfl hn'
      | inf neg' => cases neg' <;> first | exact le_rfl | cases hlt
      | fin running' => cases hlt
  | fin running =>
    cases n' with
    | nan => exact absurd rfl hn'
    | inf neg' => cases neg' <;> first | exact hone _ | cases hlt
    | fin running' =>
      have hvalue : running'.value ≤ running.value := by simpa [JsNumber.lt] using hlt
      have hshort : max 0 (desired-running.value) ≤ max 0 (desired-running'.value) :=
        max_le_max le_rfl (by linarith)
      exact min_le_min le_rfl (div_le_div_of_nonneg_right hshort h.le)

theorem replicaPenalty_running {weight : ℚ} {e : JsValue} {n : JsNumber}
    (h : attributeOf (js "replicas_running") e = .num n) :
    replicaPenalty weight e =
      match attributeOf (js "replicas_desired") e with
      | .num (.fin desired) => if 0 < desired.value then shortfallRatio desired.value n*weight else 0
      | _ => 0 := by
  unfold replicaPenalty
  rw [h]
  cases attributeOf (js "replicas_desired") e with
  | num m => cases m <;> rfl
  | _ => rfl

theorem replicaPenalty_fewer {weight : ℚ} (h : 0 ≤ weight) {e e' : JsValue} (hfewer : FewerReplicas e e') :
    replicaPenalty weight e ≤ replicaPenalty weight e' := by
  obtain ⟨n, n', hn, hn', hle⟩ := hfewer.fewer
  rw [replicaPenalty_running hn, replicaPenalty_running hn', hfewer.desired]
  split
  · split_ifs with hpos
    · exact mul_le_mul_of_nonneg_right (shortfallRatio_anti hpos hle) h
    · exact le_rfl
  · exact le_rfl

/-! ### The sum of the observations -/

section Exact

variable {window : ℝ} {s : ExactScoring window}

/-- What an observation adds to the sum; nothing if its date cannot be read -/
noncomputable def ExactScoring.adds (s : ExactScoring window) (obs : Observation) : ℝ :=
  match s.dateMs obs.discoveredAt with
  | some discoveredMs => severityWeight s.weights obs.severity*(1/2)^(max 0 (s.now-discoveredMs)/window)
  | none => 0

theorem severityWeight_nonneg {weights : SeverityWeights} {replicaWeight : ℚ}
    (h : NonnegWeights weights replicaWeight) (severity : Severity) : 0 ≤ severityWeight weights severity := by
  cases severity with
  | p0 => exact h.p0
  | p1 => exact h.p1
  | p2 => exact h.p2

theorem severityWeight_mono {weights : SeverityWeights} (h21 : weights.p2 ≤ weights.p1)
    (h10 : weights.p1 ≤ weights.p0) {severity raised : Severity} (h : severity.rank ≤ raised.rank) :
    severityWeight weights severity ≤ severityWeight weights raised := by
  cases severity <;> cases raised <;> simp only [Severity.rank] at h <;> first
    | omega
    | simp only [severityWeight]
      linarith

theorem decay_nonneg (ageMs : ℝ) : (0 : ℝ) ≤ (1/2)^(ageMs/window) := Real.rpow_nonneg (by norm_num) _

theorem adds_nonneg (obs : Observation) : 0 ≤ s.adds obs := by
  unfold ExactScoring.adds
  split
  · exact mul_nonneg (Rat.cast_nonneg.mpr (severityWeight_nonneg s.nonneg _)) (decay_nonneg _)
  · exact le_rfl

theorem adds_raised (h21 : s.weights.p2 ≤ s.weights.p1) (h10 : s.weights.p1 ≤ s.weights.p0) {obs : Observation}
    {raised : Severity} (h : obs.severity.rank ≤ raised.rank) :
    s.adds obs ≤ s.adds { obs with severity := raised } := by
  unfold ExactScoring.adds
  simp only
  split
  · exact mul_le_mul_of_nonneg_right (Rat.cast_le.mpr (severityWeight_mono h21 h10 h)) (decay_nonneg _)
  · exact le_rfl

theorem contribution_eq (hwindow : window ≠ 0) (obs : Observation) :
    s.contribution obs = none ∧ s.adds obs = 0 ∨ s.contribution obs = some (some (s.adds obs)) := by
  unfold Scoring.contribution ExactScoring.adds
  cases s.dateMs obs.discoveredAt with
  | none => exact .inl ⟨rfl, rfl⟩
  | some discoveredMs =>
    refine .inr ?_
    simp only [Option.map_some, s.exact, s.hasWindow, exactDecay, if_neg hwindow]

/-- Where the window is not 0, nothing is `NaN`. -/
theorem observationPenalty_eq (hwindow : window ≠ 0) (l : List Observation) :
    s.observationPenalty l = max 0 (min (l.map s.adds).sum s.obsPenaltyCap) := by
  have hsum : (l.filterMap s.contribution).all Option.isSome = true ∧
      ((l.filterMap s.contribution).map fun c => c.getD 0).sum = (l.map s.adds).sum := by
    induction l with
    | nil => exact ⟨rfl, rfl⟩
    | cons obs l ih =>
      rw [List.map_cons, List.sum_cons, ← ih.2]
      obtain ⟨hnone, hzero⟩ | hsome := contribution_eq (s := s) hwindow obs
      · rw [List.filterMap_cons_none hnone, hzero, zero_add]
        exact ⟨ih.1, rfl⟩
      · rw [List.filterMap_cons_some hsome, List.all_cons, ih.1, List.map_cons, List.sum_cons]
        exact ⟨rfl, rfl⟩
  unfold Scoring.observationPenalty
  simp only [hsum.1, hsum.2, if_true]

theorem observationPenalty_mono (hwindow : window ≠ 0) {l l' : List Observation}
    (h : (l.map s.adds).sum ≤ (l'.map s.adds).sum) : s.observationPenalty l ≤ s.observationPenalty l' := by
  rw [observationPenalty_eq hwindow, observationPenalty_eq hwindow]
  exact max_le_max le_rfl (min_le_min h le_rfl)

/-- A score falls as the three penalties grow. -/
theorem score_anti {e e' : JsValue} {l l' : List Observation} (hstatus : statusPenalty e ≤ statusPenalty e')
    (hreplica : replicaPenalty s.replicaWeight e ≤ replicaPenalty s.replicaWeight e')
    (hobservations : s.observationPenalty l ≤ s.observationPenalty l') : s.score e' l' ≤ s.score e l := by
  have hstatus' : ((statusPenalty e : ℚ) : ℝ) ≤ statusPenalty e' := Rat.cast_le.mpr hstatus
  have hreplica' : ((replicaPenalty s.replicaWeight e : ℚ) : ℝ) ≤ replicaPenalty s.replicaWeight e' :=
    Rat.cast_le.mpr hreplica
  unfold Scoring.score
  refine max_le_max le_rfl (min_le_min le_rfl ?_)
  linarith

theorem sum_split (pre : List Observation) (obs : Observation) (post : List Observation) :
    ((pre ++ obs :: post).map s.adds).sum = s.adds obs+((pre ++ post).map s.adds).sum := by
  simp only [List.map_append, List.map_cons, List.sum_append, List.sum_cons]
  ring

end Exact

/-- With a window of length 0 no observation counts. -/
theorem observationPenalty_zeroWindow (s : ExactScoring 0) (l : List Observation) : s.observationPenalty l = 0 := by
  have hadds (c : Option ℝ) (hc : c ∈ l.filterMap s.contribution) : c.getD 0 = 0 := by
    obtain ⟨obs, -, hobs⟩ := List.mem_filterMap.mp hc
    obtain ⟨discoveredMs, -, rfl⟩ := Option.map_eq_some_iff.mp hobs
    simp only [s.exact, s.hasWindow, exactDecay, if_true]
    split_ifs
    · rfl
    · exact mul_zero _
  have hsum : ((l.filterMap s.contribution).map fun c => c.getD 0).sum = 0 :=
    List.sum_eq_zero (List.forall_mem_map.mpr hadds)
  unfold Scoring.observationPenalty
  simp only [hsum]
  split_ifs
  · exact max_eq_left (min_le_left _ _)
  · rfl

/-- The laws hold for every window but 0. -/
theorem healthLaws_of_window {window : ℝ} (hwindow : window ≠ 0) : HealthLaws window where
  divisor := hwindow
  bounded s e l := ⟨le_max_left _ _, max_le (by norm_num) (min_le_left _ _)⟩
  order s e l l' h := by
    have hsum : (l.map s.adds).sum = (l'.map s.adds).sum := (h.map s.adds).sum_eq
    unfold Scoring.score
    rw [observationPenalty_eq hwindow, observationPenalty_eq hwindow, hsum]
  added s e pre obs post := by
    refine score_anti le_rfl le_rfl (observationPenalty_mono hwindow ?_)
    have := adds_nonneg (s := s) obs
    rw [sum_split]
    linarith
  replicas s e e' l h :=
    score_anti (statusPenalty_mono h.status.ge) (replicaPenalty_fewer s.nonneg.replica h) le_rfl
  status s e e' l h := by
    have hreplica : replicaPenalty s.replicaWeight e = replicaPenalty s.replicaWeight e' := by
      unfold replicaPenalty
      rw [h.desired, h.running]
    exact score_anti (statusPenalty_mono h.status) hreplica.le le_rfl
  severity s e pre obs raised post h21 h10 h := by
    refine score_anti le_rfl le_rfl (observationPenalty_mono hwindow ?_)
    have := adds_raised h21 h10 h
    rw [sum_split, sum_split]
    linarith

/-! ### The windows -/

/-- The window of a scorer with the default one, for an entity whose objective has this text -/
def scoringWindow (text : Option JsString) : ℤ := (text.bind parseWindowMs).getD defaultWindowMs

theorem windowOf_healthScorer (lookbackMs : Option ℤ) (sloSpecs : List (JsString × SloSpec)) (entity : JsValue) :
    (healthScorer none lookbackMs sloSpecs).windowOf entity =
      scoringWindow ((sloSpecs.lookup (property (js "id") entity).coerce).bind SloSpec.window) := rfl

/-- A window of zeros, such as `0m` -/
def ZeroWindow (text : JsString) : Prop :=
  ∃ n : ℕ, ∃ unit ∈ [js "m", js "h", js "d"], text = List.replicate (n+1) 0x30 ++ unit

theorem spanDigits_zeros (n : ℕ) {unit : JsString} (h : unit ∈ [js "m", js "h", js "d"]) :
    spanDigits (List.replicate n 0x30 ++ unit) = (List.replicate n 0, unit) := by
  induction n with
  | zero =>
    simp only [List.mem_cons, List.not_mem_nil, or_false] at h
    obtain rfl | rfl | rfl := h <;> rfl
  | succ n ih =>
    rw [List.replicate_succ, List.cons_append, spanDigits, ih, if_pos (by decide)]
    rfl

theorem eq_of_zero_digits {s : JsString} (h : ∀ d ∈ (spanDigits s).1, d = 0) :
    s = List.replicate (spanDigits s).1.length 0x30 ++ (spanDigits s).2 := by
  induction s with
  | nil => rfl
  | cons c rest ih =>
    rw [spanDigits] at h ⊢
    split_ifs at h ⊢ with hc
    · obtain ⟨hd, hrest⟩ := List.forall_mem_cons.mp h
      have hunit : c = 0x30 := by
        simp only [isDigitUnit, Bool.and_eq_true, decide_eq_true_eq] at hc
        rw [← UInt16.toNat_inj]
        change c.toNat = 48
        omega
      rw [List.length_cons, List.replicate_succ, List.cons_append, hunit, ← ih hrest]
    · rfl

theorem parseWindowMs_eq_zero_iff {text : JsString} : parseWindowMs text = some 0 ↔ ZeroWindow text := by
  constructor
  · intro h
    simp only [parseWindowMs] at h
    have hzeros {unit : JsString} {k : ℤ} (hne : (spanDigits text).1 ≠ [])
        (hunit : unit ∈ [js "m", js "h", js "d"]) (hrest : (spanDigits text).2 = unit) (hk : k ≠ 0)
        (h : some ((ofDigitList (spanDigits text).1 : ℤ)*k) = some 0) : ZeroWindow text := by
      have hdigits : ofDigitList (spanDigits text).1 = 0 :=
        Int.natCast_eq_zero.mp ((mul_eq_zero.mp (Option.some.inj h)).resolve_right hk)
      have htext := eq_of_zero_digits fun d hd =>
        Nat.digits_zero_of_eq_zero (by norm_num) hdigits d (List.mem_reverse.mpr hd)
      obtain ⟨n, hn⟩ := Nat.exists_eq_succ_of_ne_zero fun hlength => hne (List.length_eq_zero_iff.mp hlength)
      rw [hn, hrest] at htext
      exact ⟨n, unit, hunit, htext⟩
    split_ifs at h with hne hm hh hd
    · exact hzeros hne (by decide) hm (by norm_num) h
    · exact hzeros hne (by decide) hh (by norm_num) h
    · exact hzeros hne (by decide) hd (by norm_num) h
  · intro ⟨n, unit, hunit, htext⟩
    rw [htext, parseWindowMs, spanDigits_zeros (n+1) hunit]
    have hzeros : ofDigitList (List.replicate (n+1) 0) = 0 := ofDigitList_zeros _
    simp only [List.mem_cons, List.not_mem_nil, or_false] at hunit
    obtain rfl | rfl | rfl := hunit <;> simp only [hzeros] <;> rfl

theorem scoringWindow_eq_zero_iff (text : Option JsString) : scoringWindow text = 0 ↔ ∃ t ∈ text, ZeroWindow t := by
  have hdefault : defaultWindowMs ≠ 0 := by decide
  cases text with
  | none => exact iff_of_false hdefault fun ⟨_, h, _⟩ => nomatch h
  | some t =>
    have hsome : (∃ t' ∈ some t, ZeroWindow t') ↔ ZeroWindow t := by
      simp only [Option.mem_def, Option.some.injEq, exists_eq_left']
    rw [hsome, ← parseWindowMs_eq_zero_iff, scoringWindow, Option.bind_some]
    cases parseWindowMs t with
    | none => exact iff_of_false hdefault nofun
    | some ms => rw [Option.getD_some, Option.some_inj]

/-- With the default window or one that an objective gives, the laws hold just in case the window is not made of
zeros. -/
theorem healthLaws_iff (text : Option JsString) :
    HealthLaws (scoringWindow text) ↔ ¬∃ t ∈ text, ZeroWindow t := by
  rw [← scoringWindow_eq_zero_iff]
  constructor
  · intro h hzero
    exact h.divisor (Int.cast_eq_zero.mpr hzero)
  · intro h
    exact healthLaws_of_window (Int.cast_ne_zero.mpr h)

/-- `0m` is read as a window of length 0. -/
theorem healthLaws_fails : ¬∀ text : JsString, (parseWindowMs text).isSome = true →
    HealthLaws (scoringWindow (some text)) := by
  intro h
  have hlaws := h (js "0m") (by decide)
  exact hlaws.divisor (by rw [show scoringWindow (some (js "0m")) = 0 by decide]; exact Int.cast_zero)

end Homelab
