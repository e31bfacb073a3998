import Homelab.JsonShape

/-! `js-yaml`, of which stores use `load` and `dump`, and one that writes JSON, which is YAML. -/
namespace Js

/-- `load` and `dump`; `error` is the message of what they throw. -/
structure Yaml where
  load : JsString → Except JsString JsValue
  dump : JsValue → Except JsString JsString

mutual
/-- No number in the value is `-0`. -/
def JsValue.plainZeros : JsValue → Bool
  | .num (.fin d) => decide (d.posZero = d)
  | .arr es => allPlainZeros es
  | .obj fs => fieldsPlainZeros fs
  | _ => true

def allPlainZeros : List JsValue → Bool
  | [] => true
  | v :: vs => v.plainZeros && allPlainZeros vs

def fieldsPlainZeros : Fields → Bool
  | [] => true
  | (_, v) :: fs => v.plainZeros && fieldsPlainZeros fs
end

mutual
theorem posZero_eq_self : ∀ v : JsValue, v.plainZeros = true → v.posZero = v
  | .num (.fin d), h => by
    have hd : d.posZero = d := of_decide_eq_true h
    rw [JsValue.posZero, hd]
  | .num .nan, _ => rfl
  | .num (.inf _), _ => rfl
  | .arr es, h => by rw [JsValue.posZero, posZeroAll_eq_self es h]
  | .obj fs, h => by rw [JsValue.posZero, posZeroFields_eq_self fs h]
  | .undefined, _ => rfl
  | .null, _ => rfl
  | .bool _, _ => rfl
  | .str _, _ => rfl
  | .bigint _, _ => rfl
  | .function, _ => rfl
  | .symbol, _ => rfl

theorem posZeroAll_eq_self : ∀ vs : List JsValue, allPlainZeros vs = true → posZeroAll vs = vs
  | [], _ => rfl
  | v :: vs, h => by
    obtain ⟨hv, hvs⟩ := Bool.and_eq_true_iff.mp h
    rw [posZeroAll, posZero_eq_self v hv, posZeroAll_eq_self vs hvs]

theorem posZeroFields_eq_self : ∀ fs : Fields, fieldsPlainZeros fs = true → posZeroFields fs = fs
  | [], _ => rfl
  | (k, v) :: fs, h => by
    obtain ⟨hv, hfs⟩ := Bool.and_eq_true_iff.mp h
    rw [posZeroFields, posZero_eq_self v hv, posZeroFields_eq_self fs hfs]
end

/-- Values are written as JSON, and only JSON is read. -/
def jsonYaml : Yaml where
  load text := (jsonParse text).elim (.error (js "not JSON")) .ok
  dump v := if v.isJson && v.plainZeros then .ok (jsonText v) else .error (js "not JSON")

theorem jsonYaml_load_dump {v : JsValue} {text : JsString} (h : jsonYaml.dump v = .ok text) :
    jsonYaml.load text = .ok v := by
  change (if v.isJson && v.plainZeros then _ else _) = _ at h
  split_ifs at h with hv
  obtain ⟨hjson, hzeros⟩ := Bool.and_eq_true_iff.mp hv
  obtain rfl := Except.ok.inj h
  change (jsonParse (jsonText v)).elim _ _ = _
  rw [jsonParse_jsonText v hjson, posZero_eq_self v hzeros]
  rfl

end Js
