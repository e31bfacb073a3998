import Homelab.FailingMap
import Homelab.ProbeScans
import Homelab.ServiceEndpoints

/-! The scan of the alert probe over what an endpoint really answers with: any JSON, of which the elements
need not be alerts. -/
namespace Homelab
open Js FailingMap

/-! ### The scan -/

section Scan

variable (rt : TextRuntime) (api : AlertApi)

/-- `alert.status?.state` or `alert.state`; `none` when this throws. -/
def alertState (alert : JsValue) : Option JsValue :=
  match api with
  | .alertmanager => (alert.get? (js "status")).map (property (js "state"))
  | .prometheus => alert.get? (js "state")

/-- The state is a text other than the one of an alert that fires. -/
def isSkipped (state : JsValue) : Bool :=
  match state with
  | .str s => s ≠ api.state
  | _ => false

/-- A label that is a text and not empty -/
def labelText (key : JsString) (labels : JsValue) : Option JsString :=
  match property key labels with
  | .str (c :: cs) => some (c :: cs)
  | _ => none

/-- `alertResource`, of any value; `none` when this throws. -/
def resourceOfLabels : JsValue → Option JsString
  | .undefined => some (js "alert/unknown")
  | .null => none
  | labels => some (
      match resourceLabelPriority.findSome? fun key => (labelText key labels).map fun val => key ++ js "/" ++ val with
      | some resource => resource
      | none =>
        match labelText (js "alertname") labels with
        | some alertname => js "alert/" ++ alertname
        | none => js "alert/unknown")

/-- `alertSeverity`, of any value; `none` when this throws. -/
def severityOfLabel : JsValue → Option Severity
  | .undefined => some (alertSeverity rt none)
  | .str label => some (alertSeverity rt (some label))
  | _ => none

/-- The properties of the alert that are passed on beside its labels and annotations -/
def alertTimes (alert : JsValue) : Fields :=
  match api with
  | .alertmanager => [(js "startsAt", property (js "startsAt") alert),
      (js "generatorURL", property (js "generatorURL") alert)]
  | .prometheus => [(js "activeAt", property (js "activeAt") alert)]

def alertNameOf (alert : JsValue) : JsValue :=
  nullish (property (js "alertname") (property (js "labels") alert)) (.str (js "unknown"))

def alertObservation (alert : JsValue) (resource : JsString) (severity : Severity) : Finding where
  fault := .alert (alertNameOf alert).coerce
  pattern := js "prometheus_alert"
  resource
  severity
  details := [(js "alertname", alertNameOf alert), (js "labels", nullish (property (js "labels") alert) (.obj [])),
    (js "annotations", nullish (property (js "annotations") alert) (.obj []))] ++ alertTimes api alert

/-- What is observed of an element: an alert that fires, or nothing; `none` when this throws. -/
def observeAlert (alert : JsValue) : Option (List Finding) := do
  let state ← alertState api alert
  if isSkipped api state then some []
  else
    let resource ← resourceOfLabels (property (js "labels") alert)
    let severity ← severityOfLabel rt (property (js "severity") (property (js "labels") alert))
    some [alertObservation api alert resource severity]

/-- The elements that the scan goes through -/
def alertsIn (body : JsValue) : List JsValue :=
  match api with
  | .alertmanager =>
    match body with
    | .arr alerts => alerts
    | _ => []
  | .prometheus =>
    match property (js "status") body, property (js "alerts") (property (js "data") body) with
    | .str status, .arr alerts => if status = js "success" then alerts else []
    | _, _ => []

def mapAlerts (alerts : List JsValue) : Option (List Finding) := do
  let found ← alerts.mapM (observeAlert rt api)
  some found.flatten

def alertsPath : JsString :=
  match api with
  | .alertmanager => js "/api/v2/alerts?active=true"
  | .prometheus => js "/api/v1/alerts"

/-- `scan` at the endpoint, if there is one; `none` when it rejects. -/
def scanEndpoint (base : Option JsString) (get : JsString → Except JsString HttpResponse) : Option (List Finding) :=
  match base with
  | none => some []
  | some base =>
    match answeredBody (get (base ++ alertsPath api)) with
    | none => some []
    | some body => mapAlerts rt api (alertsIn api body)

end Scan

/-! ### Elements -/

section Elements

variable (api : AlertApi) (element : JsValue)

/-- The state of an element that has properties -/
def stateOf : JsValue :=
  match api with
  | .alertmanager => property (js "state") (property (js "status") element)
  | .prometheus => property (js "state") element

/-- An alert that fires: an object with labels that are texts, if it has any, and no state but the one of an
alert that fires -/
structure FiringAlert : Prop where
  object : ∃ fs, element = .obj fs
  labels : property (js "labels") element = .undefined ∨
    ∃ labels, property (js "labels") element = .obj labels ∧ ∀ label ∈ labels, ∃ s, label.2 = .str s
  state : stateOf api element = .undefined ∨ stateOf api element = .str api.state

/-- The element has no properties; or it is not skipped for its state and has `null` as its labels, or a label
`severity` that is no text. -/
def Spoils : Prop :=
  element = .undefined ∨ element = .null ∨ isSkipped api (stateOf api element) = false ∧
    (property (js "labels") element = .null ∨
      property (js "severity") (property (js "labels") element) ≠ .undefined ∧
        ∀ s, property (js "severity") (property (js "labels") element) ≠ .str s)

/-- The elements of the answer, if the endpoint gives one of success in the form of the interface -/
def answeredAlerts (base : Option JsString) (get : JsString → Except JsString HttpResponse) : List JsValue :=
  ((base.bind fun base => answeredBody (get (base ++ alertsPath api))).map (alertsIn api)).getD []

end Elements

/-- The finding is of this alert. -/
def ObservationOf (element : JsValue) (f : Finding) : Prop :=
  f.pattern = js "prometheus_alert" ∧
    getOwn (js "labels") f.details = nullish (property (js "labels") element) (.obj [])

/-- The scan resolves, and each alert that fires has exactly one observation, whatever else there is. -/
def IngestsAlerts (rt : TextRuntime) (api : AlertApi) (base : Option JsString)
    (get : JsString → Except JsString HttpResponse) : Prop :=
  ∃ parts, scanEndpoint rt api base get = some parts.flatten ∧
    List.Forall₂ (fun element part => FiringAlert api element → ∃ f, part = [f] ∧ ObservationOf element f)
      (answeredAlerts api base get) parts

section Ingestion

variable {rt : TextRuntime} {api : AlertApi} {element : JsValue} {base : Option JsString}
  {get : JsString → Except JsString HttpResponse}

theorem scanEndpoint_eq : scanEndpoint rt api base get = mapAlerts rt api (answeredAlerts api base get) := by
  cases base with
  | none => rfl
  | some base =>
    cases hbody : answeredBody (get (base ++ alertsPath api)) with
    | none =>
      simp only [scanEndpoint, answeredAlerts, Option.bind_some, hbody]
      rfl
    | some body => simp only [scanEndpoint, answeredAlerts, Option.bind_some, hbody, Option.map_some, Option.getD_some]

theorem alertState_some : (∃ state, alertState api element = some state) ↔
    element ≠ .undefined ∧ element ≠ .null := by
  cases api <;> cases element <;> simp [alertState, JsValue.get?]

theorem alertState_eq {state : JsValue} (h : alertState api element = some state) :
    state = stateOf api element := by
  have hget {k : JsString} {v : JsValue} (hv : element.get? k = some v) : property k element = v := by
    rw [property, hv]
    rfl
  cases api with
  | alertmanager =>
    obtain ⟨v, hv, rfl⟩ := Option.map_eq_some_iff.mp h
    rw [stateOf, hget hv]
  | prometheus => exact (hget h).symm

theorem resourceOfLabels_some {labels : JsValue} :
    (∃ resource, resourceOfLabels labels = some resource) ↔ labels ≠ .null := by
  cases labels <;> simp [resourceOfLabels]

theorem severityOfLabel_some {label : JsValue} : (∃ severity, severityOfLabel rt label = some severity) ↔
    ¬ (label ≠ .undefined ∧ ∀ s, label ≠ .str s) := by
  cases label <;> simp [severityOfLabel]

/-- An element is read unless it spoils the scan. -/
theorem observeAlert_some : (∃ part, observeAlert rt api element = some part) ↔ ¬ Spoils api element := by
  rw [Spoils, not_or, not_or]
  constructor
  -- the state is read first, then the labels, and the severity last
  · rintro ⟨part, h⟩
    obtain ⟨state, hstate, h⟩ := Option.bind_eq_some_iff.mp h
    obtain rfl := alertState_eq hstate
    obtain ⟨hundefined, hnull⟩ := alertState_some.mp ⟨_, hstate⟩
    refine ⟨hundefined, hnull, ?_⟩
    rintro ⟨hfires, hspoils⟩
    rw [if_neg (by simp [hfires])] at h
    obtain ⟨resource, hresource, h⟩ := Option.bind_eq_some_iff.mp h
    obtain ⟨severity, hseverity, -⟩ := Option.bind_eq_some_iff.mp h
    rcases hspoils with hlabels | hlabel
    · exact resourceOfLabels_some.mp ⟨resource, hresource⟩ hlabels
    · exact severityOfLabel_some.mp ⟨severity, hseverity⟩ hlabel
  · rintro ⟨hundefined, hnull, hread⟩
    obtain ⟨state, hstate⟩ := alertState_some.mpr ⟨hundefined, hnull⟩
    obtain rfl := alertState_eq hstate
    -- an alert that is skipped has its labels never read
    by_cases hfires : isSkipped api (stateOf api element) = true
    · exact ⟨[], Option.bind_eq_some_iff.mpr ⟨_, hstate, if_pos hfires⟩⟩
    · have hlabels := not_or.mp fun hspoils => hread ⟨Bool.eq_false_iff.mpr hfires, hspoils⟩
      obtain ⟨resource, hresource⟩ := resourceOfLabels_some.mpr hlabels.1
      obtain ⟨severity, hseverity⟩ : ∃ severity, severityOfLabel rt _ = some severity :=
        severityOfLabel_some.mpr hlabels.2
      refine ⟨[alertObservation api element resource severity], ?_⟩
      refine Option.bind_eq_some_iff.mpr ⟨_, hstate, (if_neg hfires).trans ?_⟩
      exact Option.bind_eq_some_iff.mpr ⟨resource, hresource,
        Option.bind_eq_some_iff.mpr ⟨severity, hseverity, rfl⟩⟩

/-- An alert that fires and is read has one observation. -/
theorem observeAlert_firing {part : List Finding} (h : observeAlert rt api element = some part)
    (hfiring : FiringAlert api element) : ∃ f, part = [f] ∧ ObservationOf element f := by
  obtain ⟨state, hstate, h⟩ := Option.bind_eq_some_iff.mp h
  obtain rfl := alertState_eq hstate
  -- an alert without a state is not skipped
  have hfires : isSkipped api (stateOf api element) = false := by
    rcases hfiring.state with hstate | hstate
    · rw [hstate]
      rfl
    · rw [hstate, isSkipped]
      simp
  rw [if_neg (by simp [hfires])] at h
  obtain ⟨resource, -, h⟩ := Option.bind_eq_some_iff.mp h
  obtain ⟨severity, -, h⟩ := Option.bind_eq_some_iff.mp h
  cases h
  exact ⟨_, rfl, rfl, rfl⟩

end Ingestion

/-- The scan takes in all alerts exactly when no element spoils it. -/
theorem ingestsAlerts_iff (rt : TextRuntime) (api : AlertApi) (base : Option JsString)
    (get : JsString → Except JsString HttpResponse) :
    IngestsAlerts rt api base get ↔ ∀ element ∈ answeredAlerts api base get, ¬ Spoils api element := by
  have hread : (∃ parts, (answeredAlerts api base get).mapM (observeAlert rt api) = some parts) ↔
      ∀ element ∈ answeredAlerts api base get, ¬ Spoils api element := by
    rw [mapM_some_iff]
    exact forall₂_congr fun element _ => observeAlert_some
  rw [← hread, IngestsAlerts, scanEndpoint_eq]
  constructor
  · rintro ⟨parts, h, -⟩
    obtain ⟨found, hfound, -⟩ := Option.bind_eq_some_iff.mp h
    exact ⟨found, hfound⟩
  · rintro ⟨parts, hparts⟩
    refine ⟨parts, Option.bind_eq_some_iff.mpr ⟨parts, hparts, rfl⟩, ?_⟩
    exact (forall₂_of_mapM hparts).imp fun element part hobserved => observeAlert_firing hobserved

/-! ### Elements that are alerts -/

def fieldsOrUndefined : Option Labels → JsValue
  | none => .undefined
  | some labels => .obj (labelFields (some labels))

/-- The element is this alert, in the form of the interface. -/
structure ElementOf (api : AlertApi) (element : JsValue) (alert : Alert) : Prop where
  object : ∃ fs, element = .obj fs
  labels : property (js "labels") element = fieldsOrUndefined alert.labels
  annotations : property (js "annotations") element = fieldsOrUndefined alert.annotations
  state : stateOf api element = textOrUndefined alert.state
  startsAt : property (js "startsAt") element = textOrUndefined alert.startsAt
  generatorURL : property (js "generatorURL") element = textOrUndefined alert.generatorURL
  activeAt : property (js "activeAt") element = textOrUndefined alert.activeAt

section Typed

variable {rt : TextRuntime} {api : AlertApi} {element : JsValue} {alert : Alert} {key : JsString}
  {labels : Option Labels}

theorem getOwn_labelFields (key : JsString) (labels : Labels) :
    getOwn key (labelFields (some labels)) = textOrUndefined (labels.lookup key) := by
  induction labels with
  | nil => rfl
  | cons label labels ih =>
    obtain ⟨k, s⟩ := label
    change (if k = key then JsValue.str s else getOwn key (labelFields (some labels))) = _
    rw [List.lookup_cons]
    by_cases hk : k = key
    · rw [if_pos hk, beq_iff_eq.mpr hk.symm]
      rfl
    · rw [if_neg hk, beq_false_of_ne (Ne.symm hk), ih]

theorem property_labels (key : JsString) (labels : Option Labels) :
    property key (fieldsOrUndefined labels) = textOrUndefined (labels.bind fun labels => labels.lookup key) := by
  cases labels with
  | none => rfl
  | some labels => exact getOwn_labelFields key labels

theorem labelText_labels (key : JsString) (labels : Labels) :
    labelText key (fieldsOrUndefined (some labels)) = (labels.lookup key).filter fun val => val ≠ [] := by
  rw [labelText, property_labels]
  cases hval : (some labels).bind fun labels => labels.lookup key with
  | none =>
    have hnone : labels.lookup key = none := hval
    rw [hnone]
    rfl
  | some val =>
    have hsome : labels.lookup key = some val := hval
    rw [hsome]
    cases val <;> rfl

theorem resourceOfLabels_obj (fs : Fields) : resourceOfLabels (.obj fs) =
    some ((resourceLabelPriority.findSome? fun key =>
      (labelText key (.obj fs)).map fun val => key ++ js "/" ++ val).getD
        (js "alert/" ++ (labelText (js "alertname") (.obj fs)).getD (js "unknown"))) := by
  rw [resourceOfLabels]
  · cases resourceLabelPriority.findSome? fun key =>
        (labelText key (.obj fs)).map fun val => key ++ js "/" ++ val with
    | some resource => rfl
    | none => cases labelText (js "alertname") (.obj fs) <;> rfl
  · exact JsValue.noConfusion
  · exact JsValue.noConfusion

theorem resourceOfLabels_labels (labels : Option Labels) :
    resourceOfLabels (fieldsOrUndefined labels) = some (alertResource labels) := by
  cases labels with
  | none => rfl
  | some labels =>
    -- both go through the labels in the same order, and pass over those that are empty
    have hsource : resourceLabelPriority.findSome? (fun key =>
        (labelText key (.obj (labelFields (some labels)))).map fun val => key ++ js "/" ++ val) =
          (alertSource labels).map fun label => label.1 ++ js "/" ++ label.2 := by
      rw [alertSource, List.map_findSome?]
      congr 1
      funext key
      have htext := labelText_labels key labels
      rw [fieldsOrUndefined] at htext
      rw [Function.comp_apply, htext, Option.map_map]
      rfl
    have hname := labelText_labels (js "alertname") labels
    rw [fieldsOrUndefined] at hname
    rw [fieldsOrUndefined, resourceOfLabels_obj, hsource, hname, alertResource]
    cases alertSource labels <;> rfl

theorem severityOfLabel_labels (rt : TextRuntime) (label : Option JsString) :
    severityOfLabel rt (textOrUndefined label) = some (alertSeverity rt label) := by
  cases label <;> rfl

theorem alertNameOf_labels (h : property (js "labels") element = fieldsOrUndefined labels) :
    alertNameOf element = .str (alertName labels) := by
  rw [alertNameOf, h, property_labels, alertName]
  cases labels.bind fun labels => labels.lookup (js "alertname") <;> rfl

theorem nullish_labels (labels : Option Labels) :
    nullish (fieldsOrUndefined labels) (.obj []) = .obj (labelFields labels) := by
  cases labels <;> rfl

/-- The times that a finding passes on -/
def timesOf (api : AlertApi) (alert : Alert) : Fields :=
  match api with
  | .alertmanager => [(js "startsAt", textOrUndefined alert.startsAt),
      (js "generatorURL", textOrUndefined alert.generatorURL)]
  | .prometheus => [(js "activeAt", textOrUndefined alert.activeAt)]

/-- An alert that fires is found as it is, and any other is passed over. -/
theorem observeAlert_alert (h : ElementOf api element alert) : observeAlert rt api element =
    some (if alert.state.all (· = api.state) then [alertFinding rt (timesOf api) alert] else []) := by
  have hstate : alertState api element = some (textOrUndefined alert.state) := by
    obtain ⟨fs, rfl⟩ := h.object
    have hsome : ∃ state, alertState api (.obj fs) = some state :=
      alertState_some.mpr ⟨JsValue.noConfusion, JsValue.noConfusion⟩
    obtain ⟨state, hstate⟩ := hsome
    rw [hstate, alertState_eq hstate, h.state]
  have hskipped : isSkipped api (textOrUndefined alert.state) = !(alert.state.all (· = api.state)) := by
    cases alert.state with
    | none => rfl
    | some state => exact decide_not
  have hfinding : alertObservation api element (alertResource alert.labels)
      (alertSeverity rt (alert.labels.bind fun labels => labels.lookup (js "severity"))) =
        alertFinding rt (timesOf api) alert := by
    have htimes : alertTimes api element = timesOf api alert := by
      cases api with
      | alertmanager => rw [alertTimes, h.startsAt, h.generatorURL, timesOf]
      | prometheus => rw [alertTimes, h.activeAt, timesOf]
    rw [alertObservation, alertNameOf_labels h.labels, h.labels, h.annotations, nullish_labels, nullish_labels,
      htimes]
    rfl
  rw [observeAlert, hstate, Option.bind_eq_bind, Option.bind_some, hskipped, h.labels, property_labels,
    resourceOfLabels_labels, severityOfLabel_labels]
  cases alert.state.all (· = api.state) with
  | false => rfl
  | true =>
    change some [alertObservation api element _ _] = some [_]
    rw [hfinding]

/-- On elements that are alerts the scan is that of the alerts. -/
theorem mapAlerts_alerts {elements : List JsValue} {alerts : List Alert}
    (h : List.Forall₂ (ElementOf api) elements alerts) :
    mapAlerts rt api elements = some (scanAlerts rt api (some alerts)) := by
  have hscan : scanAlerts rt api (some alerts) =
      (firing api.state alerts).map (alertFinding rt (timesOf api)) := by
    cases api <;> rfl
  rw [hscan, mapAlerts]
  clear hscan
  induction h with
  | nil => rfl
  | cons hhead _ ih =>
    -- the part of the first element is in front of what the others give
    obtain ⟨found, hfound, hrest⟩ := Option.bind_eq_some_iff.mp ih
    rw [List.mapM_cons, observeAlert_alert hhead, hfound]
    have hrest' := Option.some.inj hrest
    rw [firing] at hrest' ⊢
    change some (List.flatten (_ :: found)) = _
    rw [List.flatten_cons, hrest', List.filter_cons]
    split_ifs <;> rfl

end Typed

/-- What Alertmanager answers: `null` and an alert -/
def brokenAlerts : JsValue :=
  .arr [.null, .obj [(js "labels", .obj [(js "alertname", .str (js "DiskFull"))]),
    (js "status", .obj [(js "state", .str (js "active"))])]]

/-- The element before the alert takes it away. -/
theorem alert_lost : ¬ ∀ rt api base get, IngestsAlerts rt api base get := by
  intro h
  obtain ⟨parts, hscan, -⟩ := h ⟨fun s => s, fun _ _ _ => none⟩ .alertmanager (some (js "http://alertmanager:9093"))
    fun _ => .ok ⟨true, .ok brokenAlerts⟩
  cases hscan

end Homelab
