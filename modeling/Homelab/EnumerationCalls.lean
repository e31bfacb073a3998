import Homelab.Dialogue
import Homelab.SweepReports

/-! What the enumerators ask of a connection, and the entities and edges that they build. -/
namespace Homelab
open Js Dialogue

/-! ### Calls -/

/-- What a call of `connection.exec` comes to -/
inductive ExecOutcome
  | threw
  | exited (exitCode : ℤ) (stdout : JsString)

/-- The call throws or exits with another code than zero. -/
def ExecOutcome.Failed : ExecOutcome → Prop
  | .threw => True
  | .exited exitCode _ => exitCode ≠ 0

/-- The host answers no command: no answer is the output of a command that has succeeded. -/
def Unanswered (_ : JsString) (outcome : ExecOutcome) : Prop := outcome.Failed

/-- An enumeration asks for the results of commands, and may throw an error with a message. -/
abbrev Enumeration (α : Type) := Dialogue (fun _ : JsString => ExecOutcome) JsString α

structure EnumerationContext where
  platformId : JsString
  host : Option JsString
  now : JsString

structure EnumerationResult where
  entities : List Fields
  edges : List Fields

def EnumerationResult.append (first rest : EnumerationResult) : EnumerationResult :=
  ⟨first.entities ++ rest.entities, first.edges ++ rest.edges⟩

def EnumerationResult.none : EnumerationResult := ⟨[], []⟩

/-! ### Values of a JSON text -/

/-- `${v}`, which throws for an object that hides the inherited `toString` -/
def inTemplate (v : JsValue) : Except JsString JsString :=
  if v.throwsOnCoerce then .error coercionMessage else .ok v.coerce

/-- `v.method(…)`, where only texts have the method and the code names the value `name` -/
def textMethod (name method : JsString) : JsValue → Except JsString JsString
  | .str s => .ok s
  | .undefined => .error (js "Cannot read properties of undefined (reading '" ++ method ++ js "')")
  | .null => .error (js "Cannot read properties of null (reading '" ++ method ++ js "')")
  | _ => .error (name ++ js "." ++ method ++ js " is not a function")

/-! ### Records -/

variable (ctx : EnumerationContext)

/-- An entity of the platform, found now -/
def foundEntity (source id kind : JsString) (name : JsValue) (attributes : Fields) : Fields :=
  [(js "id", .str id), (js "kind", .str kind), (js "name", name), (js "attributes", .obj attributes),
    (js "source", .str source), (js "platformId", .str ctx.platformId),
    (js "discovered_at", .str ctx.now), (js "last_seen", .str ctx.now), (js "status", .str (js "active"))]

/-- An edge that is named by its type and its ends, found now -/
def foundEdge (type source target : JsString) : Fields :=
  [(js "id", .str (type ++ js ":" ++ source ++ js ":" ++ target)), (js "from", .str source),
    (js "to", .str target), (js "type", .str type), (js "discovered_at", .str ctx.now),
    (js "last_seen", .str ctx.now), (js "status", .str (js "active"))]

def platformEntityId : JsString := js "platform:" ++ ctx.platformId

/-- What an enumeration has found has been built at its time, for its platform. -/
def FoundNow (result : EnumerationResult) : Prop :=
  (∀ record ∈ result.entities, ReportedAt .entities ctx.platformId ctx.now record) ∧
    ∀ record ∈ result.edges, ReportedAt .edges ctx.platformId ctx.now record

variable {ctx}

theorem foundEntity_reported (source id kind : JsString) (name : JsValue) (attributes : Fields) :
    ReportedAt .entities ctx.platformId ctx.now (foundEntity ctx source id kind name attributes) where
  typed := by
    intro k hk
    simp only [GraphPart.required, List.mem_cons, List.not_mem_nil, or_false] at hk
    rcases hk with rfl | rfl | rfl | rfl | rfl | rfl | rfl | rfl <;> simp [foundEntity]
  status := rfl
  lastSeen := rfl
  platform _ := rfl

theorem foundEdge_reported (type source target : JsString) :
    ReportedAt .edges ctx.platformId ctx.now (foundEdge ctx type source target) where
  typed := by
    intro k hk
    simp only [GraphPart.required, List.mem_cons, List.not_mem_nil, or_false] at hk
    rcases hk with rfl | rfl | rfl | rfl | rfl | rfl | rfl <;> simp [foundEdge]
  status := rfl
  lastSeen := rfl
  platform h := by cases h

theorem foundNow_none : FoundNow ctx .none :=
  ⟨fun _ h => absurd h List.not_mem_nil, fun _ h => absurd h List.not_mem_nil⟩

theorem FoundNow.append {first rest : EnumerationResult} (h : FoundNow ctx first) (h' : FoundNow ctx rest) :
    FoundNow ctx (first.append rest) := by
  constructor
  · intro record hrecord
    rcases List.mem_append.mp hrecord with hrecord | hrecord
    · exact h.1 record hrecord
    · exact h'.1 record hrecord
  · intro record hrecord
    rcases List.mem_append.mp hrecord with hrecord | hrecord
    · exact h.2 record hrecord
    · exact h'.2 record hrecord

end Homelab
