import Homelab.RoleCatalog

/-! How ports are looked for in the texts in which Docker lists them: by the signals of the role catalog, and
where the routes of a proxy are matched to the services. -/
namespace Js

/-! ### Texts put together with separators -/

/-- A text without the separator is found on one side of it or on the other. -/
theorem infix_separated {s : CodeUnit} {w : JsString} (hs : s ∉ w) (a b : JsString) :
    w <:+: a ++ s :: b ↔ w <:+: a ∨ w <:+: b := by
  constructor
  · intro h
    -- a part of what follows the separator does not begin with it
    have hright {z : JsString} (hz : z <:+: s :: b) (hsub : ∀ c ∈ z, c ∈ w) : z <:+: b := by
      rcases List.infix_cons_iff.mp hz with hfirst | hrest
      · rcases List.prefix_cons_iff.mp hfirst with rfl | ⟨rest, rfl, -⟩
        · exact List.nil_infix
        · exact absurd (hsub s (List.mem_cons_self ..)) hs
      · exact hrest
    rcases List.infix_append_iff_ne_nil.mp h with hleft | hafter | ⟨x, y, -, hy, rfl, -, hpre⟩
    · exact .inl hleft
    · exact .inr (hright hafter fun _ hc => hc)
    · -- what lies across the separator would contain it
      obtain ⟨c, rest, rfl⟩ := List.exists_cons_of_ne_nil hy
      obtain rfl := (List.cons_prefix_cons.mp hpre).1
      exact absurd (List.mem_append_right _ (List.mem_cons_self ..)) hs
  · rintro (h | h)
    · exact List.infix_append_of_infix_left h
    · exact List.infix_append_of_infix_right (List.infix_cons h)

theorem noMinus_digitsText {ds : List ℕ} (h : ∀ d ∈ ds, d < 10) : 0x2D ∉ digitsText ds := by
  intro hmem
  obtain ⟨d, hd, heq⟩ := List.mem_map.mp hmem
  have hdigit := isDigitUnit_digitUnit d (h d hd)
  rw [heq] at hdigit
  exact absurd hdigit (by decide)

theorem noMinus_positionalText {ds : List ℕ} (h : ∀ d ∈ ds, d < 10) {n : ℤ} (hn : 0 < n) :
    0x2D ∉ positionalText ds n := by
  have htake (k : ℕ) : 0x2D ∉ digitsText (ds.take k) :=
    noMinus_digitsText fun d hd => h d (List.mem_of_mem_take hd)
  have hdrop (k : ℕ) : 0x2D ∉ digitsText (ds.drop k) :=
    noMinus_digitsText fun d hd => h d (List.mem_of_mem_drop hd)
  have hpoint : 0x2D ∉ js "." := by decide
  have he : 0x2D ∉ js "e" := by decide
  have hplus : 0x2D ∉ js "+" := by decide
  have hexp : 0x2D ∉ digitsText (digitList (n-1).natAbs) := noMinus_digitsText (digitList_lt _)
  rw [positionalText]
  -- the point comes after the first digit, so that the branch with leading zeros is not taken
  split_ifs with hwhole hinside hbefore hone
  · exact noMinus_digitsText fun d hd => (List.mem_append.mp hd).elim (h d) (zeros_lt _ d)
  · simp only [List.mem_append, htake, hpoint, hdrop, or_self, not_false_eq_true]
  · omega
  · omega
  · simp only [List.mem_append, List.not_mem_nil, htake, he, hplus, hexp, or_self, not_false_eq_true]
  · omega
  · simp only [List.mem_append, htake, hpoint, hdrop, he, hplus, hexp, or_self, not_false_eq_true]

/-- A count is printed without a minus sign. -/
theorem noMinus_ofNat (n : ℕ) : 0x2D ∉ (JsNumber.ofNat n).toText := by
  obtain ⟨hneg, hexp, -⟩ := Decimal.ofNat_spec n
  rw [JsNumber.ofNat, JsNumber.toText, Decimal.toText, hneg, if_neg Bool.false_ne_true, List.nil_append]
  split_ifs with hzero
  · decide
  · have hlength : 0 < (digitList (Decimal.ofNat n).digits).length :=
      List.length_pos_iff.mpr (digitList_ne_nil _ hzero)
    have hpoint : 0 < ((digitList (Decimal.ofNat n).digits).length : ℤ)+(Decimal.ofNat n).exp := by omega
    exact noMinus_positionalText (digitList_lt _) hpoint

end Js

namespace Homelab
open Js

/-! ### The ports of Docker -/

inductive PortProtocol
  | tcp | udp | sctp

def PortProtocol.text : PortProtocol → JsString
  | tcp => js "tcp"
  | udp => js "udp"
  | sctp => js "sctp"

/-- A port, or the first and the last port of a range -/
structure PortRange where
  first : ℕ
  last : Option ℕ

def countOf (n : ℕ) : JsString := (JsNumber.ofNat n).toText

def PortRange.text (r : PortRange) : JsString :=
  countOf r.first ++ (r.last.map fun n => js "-" ++ countOf n).getD []

def PortRange.numbers (r : PortRange) : List ℕ := r.first :: r.last.toList

/-- A port of a container, and where it is published, if it is -/
structure PortMapping where
  published : Option (JsString × PortRange)
  container : PortRange
  protocol : PortProtocol

namespace PortMapping

variable (m : PortMapping)

/-- As Docker lists it: `*:8080->80/tcp`, or `80/tcp` when it is not published -/
def text : JsString :=
  (m.published.map fun (address, range) => address ++ js ":" ++ range.text ++ js "->").getD [] ++
    (m.container.text ++ js "/" ++ m.protocol.text)

/-- The port numbers that are written in it -/
def numbers : List ℕ :=
  (m.published.map fun p => p.2.numbers).getD [] ++ m.container.numbers

/-- The digits of a port stand somewhere in it: in the address, or in a port number, which may be longer. -/
def Shows (p : ℕ) : Prop :=
  (∃ published ∈ m.published, countOf p <:+: published.1) ∨ ∃ n ∈ m.numbers, countOf p <:+: countOf n

end PortMapping

theorem noMinus_countOf (n : ℕ) : 0x2D ∉ countOf n := noMinus_ofNat n

theorem countOf_ne_nil (n : ℕ) : countOf n ≠ [] := (Decimal.ofNat n).toText_ne_nil

theorem infix_range {p : ℕ} {r : PortRange} :
    countOf p <:+: r.text ↔ ∃ n ∈ r.numbers, countOf p <:+: countOf n := by
  rw [PortRange.text, PortRange.numbers]
  cases r.last with
  | none => simp
  | some n =>
    have htext : countOf r.first ++ ((some n).map fun n => js "-" ++ countOf n).getD [] =
        countOf r.first ++ 0x2D :: countOf n := rfl
    rw [htext, infix_separated (noMinus_countOf p)]
    simp

theorem not_mem_countOf {c : CodeUnit} (h : isNumberUnit c = false) (p : ℕ) : c ∉ countOf p := by
  intro hmem
  rw [(Decimal.ofNat p).toText_units c hmem] at h
  cases h

theorem not_infix_protocol (p : ℕ) (protocol : PortProtocol) : ¬ countOf p <:+: protocol.text := by
  intro h
  obtain ⟨c, hc⟩ := List.exists_mem_of_ne_nil _ (countOf_ne_nil p)
  have hunit := (Decimal.ofNat p).toText_units c hc
  have hmem : c ∈ protocol.text := h.mem hc
  have hnone : protocol.text.any isNumberUnit = false := by
    cases protocol <;> decide
  exact absurd hunit (List.any_eq_false.mp hnone c hmem)

theorem infix_mapping {p : ℕ} {m : PortMapping} : countOf p <:+: m.text ↔ m.Shows p := by
  have hcontainer : countOf p <:+: m.container.text ++ js "/" ++ m.protocol.text ↔
      ∃ n ∈ m.container.numbers, countOf p <:+: countOf n := by
    have htext : m.container.text ++ js "/" ++ m.protocol.text =
        m.container.text ++ 0x2F :: m.protocol.text := List.append_assoc ..
    rw [htext, infix_separated (not_mem_countOf (by decide) p), infix_range,
      or_iff_left (not_infix_protocol p _)]
  rw [PortMapping.text, PortMapping.Shows, PortMapping.numbers]
  cases m.published with
  | none => simpa using hcontainer
  | some published =>
    obtain ⟨address, range⟩ := published
    have htext : ((some (address, range)).map fun (p : JsString × PortRange) =>
        p.1 ++ js ":" ++ p.2.text ++ js "->").getD [] ++ (m.container.text ++ js "/" ++ m.protocol.text) =
          address ++ 0x3A :: (range.text ++ 0x2D :: 0x3E :: (m.container.text ++ js "/" ++ m.protocol.text)) := by
      simp [js]
    -- nothing stands between the minus and the `>` of the arrow
    have harrow (z : JsString) : countOf p <:+: 0x3E :: z ↔ countOf p <:+: z := by
      have hsplit := infix_separated (not_mem_countOf (c := 0x3E) (by decide) p) [] z
      have hnil : ¬ countOf p <:+: [] := fun h =>
        countOf_ne_nil p (List.infix_nil.mp h)
      rwa [List.nil_append, or_iff_right hnil] at hsplit
    rw [htext, infix_separated (not_mem_countOf (by decide) p), infix_separated (noMinus_countOf p), harrow,
      infix_range, hcontainer]
    simp [or_and_right, exists_or]

/-! ### Routes of a proxy -/

section Routes

variable (rt : TextRuntime)

/-- Some text of `ports` includes the port. -/
def portListed (fp : JsString) (svc : JsValue) : Bool :=
  match attributeOf (js "ports") svc with
  | .arr ports => ports.any (textIncludes fp)
  | _ => false

/-- `host.toLowerCase() === fh`, of a host that is a text -/
def hostIs (fh : JsString) (svc : JsValue) : Bool :=
  match attributeOf (js "host") svc with
  | .str host => rt.toLowerCase host = fh
  | _ => false

def nameFits (fh : JsString) (svc : JsValue) : Bool :=
  let name := rt.toLowerCase (property (js "name") svc).coerce
  includes fh name || includes name fh

/-- The service that a route of the proxy leads to: one on the host with the port, one whose name fits the host,
or one with the port -/
def matchForwardTarget (forwardHost : JsString) (forwardPort : JsNumber) (services : List JsValue) :
    Option JsValue :=
  let fh := rt.toLowerCase forwardHost
  let fp := forwardPort.toText
  services.find? (fun svc => hostIs rt fh svc && portListed fp svc) <|>
    services.find? (nameFits rt fh) <|> services.find? (portListed fp)

variable {rt} {forwardHost : JsString} {forwardPort : JsNumber} {services : List JsValue} {svc : JsValue}

/-- A service is matched by its name or because the port test has succeeded. -/
theorem matchForwardTarget_some (h : matchForwardTarget rt forwardHost forwardPort services = some svc) :
    svc ∈ services ∧
      (nameFits rt (rt.toLowerCase forwardHost) svc = true ∨ portListed forwardPort.toText svc = true) := by
  rw [matchForwardTarget] at h
  rw [Option.orElse_eq_orElse, Option.orElse_eq_or, Option.orElse_eq_or] at h
  -- the three passes over the services, of which only the second does not look at ports
  rcases Option.or_eq_some_iff.mp h with hfirst | ⟨-, hrest⟩
  · have hboth := List.find?_some hfirst
    rw [Bool.and_eq_true] at hboth
    exact ⟨List.mem_of_find?_eq_some hfirst, .inr hboth.2⟩
  · rcases Option.or_eq_some_iff.mp hrest with hname | ⟨-, hport⟩
    · exact ⟨List.mem_of_find?_eq_some hname, .inl (List.find?_some hname)⟩
    · exact ⟨List.mem_of_find?_eq_some hport, .inr (List.find?_some hport)⟩

end Routes

/-! ### When a match is one of the ports -/

/-- The entity lists these ports. -/
def ListsPorts (ms : List PortMapping) (entity : JsValue) : Prop :=
  attributeOf (js "ports") entity = .arr (ms.map fun m => .str m.text)

variable {rt : TextRuntime} {p : ℕ} {ms : List PortMapping} {entity : JsValue}

theorem portListed_iff (h : ListsPorts ms entity) : portListed (countOf p) entity = true ↔ ∃ m ∈ ms, m.Shows p := by
  rw [portListed, h]
  simp only [List.any_map, List.any_eq_true, Function.comp_apply, textIncludes, includes, decide_eq_true_eq,
    infix_mapping]

/-- Both look for the port in the same way. -/
theorem evaluateSignal_port : evaluateSignal rt (.port (.ofNat p)) entity = portListed (countOf p) entity := rfl

/-- What the signal of the catalog and the route of a proxy find is one of the ports. -/
structure FindsOnlyPorts (rt : TextRuntime) (p : ℕ) (ms : List PortMapping) (entity : JsValue) : Prop where
  signal : evaluateSignal rt (.port (.ofNat p)) entity = true → ∃ m ∈ ms, p ∈ m.numbers
  route : portListed (JsNumber.ofNat p).toText entity = true → ∃ m ∈ ms, p ∈ m.numbers

/-- They find nothing else exactly when the port is one of the ports, or its digits stand nowhere in the texts,
neither in an address nor in another number. -/
theorem findsOnlyPorts_iff (rt : TextRuntime) (p : ℕ) (ms : List PortMapping) (entity : JsValue)
    (h : ListsPorts ms entity) :
    FindsOnlyPorts rt p ms entity ↔ (∃ m ∈ ms, p ∈ m.numbers) ∨ ∀ m ∈ ms, ¬ m.Shows p := by
  constructor
  · intro hfinds
    -- digits that stand somewhere are found, so they have to be those of a port
    by_cases hshows : ∃ m ∈ ms, m.Shows p
    · exact .inl (hfinds.route ((portListed_iff h).mpr hshows))
    · exact .inr fun m hm hshow => hshows ⟨m, hm, hshow⟩
  · intro hcase
    have hlisted (hfound : portListed (countOf p) entity = true) : ∃ m ∈ ms, p ∈ m.numbers := by
      obtain ⟨m, hm, hshow⟩ := (portListed_iff h).mp hfound
      exact hcase.resolve_right fun hnone => hnone m hm hshow
    have hsignal (hfound : evaluateSignal rt (.port (.ofNat p)) entity = true) : ∃ m ∈ ms, p ∈ m.numbers :=
      hlisted (evaluateSignal_port.symm.trans hfound)
    exact ⟨hsignal, hlisted⟩

/-- A port that is published on all addresses -/
def openPort (published container : ℕ) : PortMapping :=
  ⟨some (js "*", ⟨published, none⟩), ⟨container, none⟩, .tcp⟩

def publishing (m : PortMapping) : JsValue :=
  .obj [(js "attributes", .obj [(js "ports", .arr [.str m.text])])]

/-- The theorem at the port of a database. -/
theorem findsOnlyPorts_postgres :
    FindsOnlyPorts ⟨id, fun _ _ _ => none⟩ 5432 [openPort 5432 5432] (publishing (openPort 5432 5432)) ↔
      (∃ m ∈ [openPort 5432 5432], 5432 ∈ m.numbers) ∨ ∀ m ∈ [openPort 5432 5432], ¬ m.Shows 5432 :=
  findsOnlyPorts_iff ⟨id, fun _ _ _ => none⟩ 5432 [openPort 5432 5432] (publishing (openPort 5432 5432)) rfl

/-- The port of DNS is found in that of a service which listens on 5353. -/
theorem port_confused : ¬ ∀ (rt : TextRuntime) (p : ℕ) (ms : List PortMapping) (entity : JsValue),
    ListsPorts ms entity → FindsOnlyPorts rt p ms entity := by
  intro h
  have hfinds := h ⟨id, fun _ _ _ => none⟩ 53 [openPort 8080 5353] (publishing (openPort 8080 5353)) rfl
  exact absurd (hfinds.signal (by decide)) (by decide)

end Homelab
