import Homelab.JsonParse
import Mathlib.Data.Rat.Defs
import Mathlib.Algebra.Order.Field.Rat

/-! Coercions and comparisons: `String.prototype.trim`, `Number(v)`, `??`, `<` and `<=`
on numbers, `Math.floor` of a quotient, and hexadecimal bytes. -/
namespace Js

/-! ### Texts as numbers -/

/-- `\s`, and what `trim` removes. -/
def isWhiteSpace (c : CodeUnit) : Bool :=
  (0x09 ≤ c.toNat && c.toNat ≤ 0x0D) || c = 0x20 || c = 0xA0 || c = 0x1680 ||
    (0x2000 ≤ c.toNat && c.toNat ≤ 0x200A) || c = 0x2028 || c = 0x2029 || c = 0x202F ||
    c = 0x205F || c = 0x3000 || c = 0xFEFF

/-- `s.trim()` -/
def trim (s : JsString) : JsString :=
  (((s.dropWhile isWhiteSpace).reverse).dropWhile isWhiteSpace).reverse

/-- The digits of a literal after `0x`, `0o` or `0b`. -/
def radixLiteral (radix : ℕ) (s : JsString) : JsNumber :=
  if s = [] then .nan
  else
    match s.mapM hexValue with
    | some ds => if ds.all (· < radix) then .ofNat (Nat.ofDigits radix ds.reverse) else .nan
    | none => .nan

/-- `StrUnsignedDecimalLiteral` with its sign read. -/
def decimalLiteral (neg : Bool) (s : JsString) : JsNumber :=
  if s = js "Infinity" then .inf neg
  else
    let (ip, s1) := spanDigits s
    let (fp, s2) := if s1.head? = some 0x2E then spanDigits (s1.drop 1) else ([], s1)
    match parseExp s2 with
    | some (e, []) =>
      if ip = [] ∧ fp = [] then .nan
      else .fin (Decimal.ofScaled neg (ofDigitList (ip ++ fp)) (e-fp.length))
    | _ => .nan

/-- `StringToNumber` of a text without white space around it. -/
def numericLiteral : JsString → JsNumber
  | [] => .ofNat 0
  | [c] => decimalLiteral false [c]
  | c :: d :: rest =>
    if c = 0x30 ∧ (d = 0x78 ∨ d = 0x58) then radixLiteral 16 rest
    else if c = 0x30 ∧ (d = 0x6F ∨ d = 0x4F) then radixLiteral 8 rest
    else if c = 0x30 ∧ (d = 0x62 ∨ d = 0x42) then radixLiteral 2 rest
    else if c = 0x2D then decimalLiteral true (d :: rest)
    else if c = 0x2B then decimalLiteral false (d :: rest)
    else decimalLiteral false (c :: d :: rest)

/-- `Number(v)`, for a value that can be coerced. -/
def JsValue.toNumber : JsValue → JsNumber
  | .undefined => .nan
  | .null => .ofNat 0
  | .bool b => .ofNat b.toNat
  | .num x => x
  | .str s => numericLiteral (trim s)
  | .bigint n => .fin (Decimal.ofScaled (n < 0) n.natAbs 0)
  | .function => .nan
  | .symbol => .nan
  | .arr es => numericLiteral (trim (JsValue.arr es).coerce)
  | .obj _ => .nan

mutual
/-- Coercing the value throws: an own `toString` that is data hides the inherited one. -/
def JsValue.throwsOnCoerce : JsValue → Bool
  | .arr es => anyThrows es
  | .obj fs => fs.any fun f => f.1 == js "toString"
  | _ => false

def anyThrows : List JsValue → Bool
  | [] => false
  | v :: vs => v.throwsOnCoerce || anyThrows vs
end

def coercionMessage : JsString := js "Cannot convert object to primitive value"

/-- `v ?? w` -/
def JsValue.orElse : JsValue → JsValue → JsValue
  | .undefined, w => w
  | .null, w => w
  | v, _ => v

/-! ### Comparing numbers -/

def Decimal.value (d : Decimal) : ℚ := d.mantissa*(10 : ℚ)^d.exp

namespace JsNumber

/-- `x < y` -/
def lt : JsNumber → JsNumber → Bool
  | .fin a, .fin b => a.value < b.value
  | .inf s, .inf t => s && !t
  | .inf s, .fin _ => s
  | .fin _, .inf t => !t
  | _, _ => false

/-- `x <= y`, which is `false` on `NaN`. -/
def le (x y : JsNumber) : Bool := decide (x ≠ .nan) && decide (y ≠ .nan) && !y.lt x

theorem le_iff {x y : JsNumber} : x.le y = true ↔ x ≠ .nan ∧ y ≠ .nan ∧ y.lt x = false := by
  simp only [le, Bool.and_eq_true, decide_eq_true_eq, Bool.not_eq_eq_eq_not, Bool.not_true,
    and_assoc]

/-- The number of value `n/10^k`. -/
def ofScaledInt (n : ℤ) (k : ℕ) : JsNumber := .fin (Decimal.ofScaled (n < 0) n.natAbs (-k))

/-- `x * m` -/
def scale (x : JsNumber) (m : ℕ) : JsNumber :=
  match x with
  | .fin d => .fin (Decimal.ofScaled d.neg (d.digits*m) d.exp)
  | x => x

/-- `Math.floor(x / m)` -/
def floorDiv (x : JsNumber) (m : ℕ) : JsNumber :=
  match x with
  | .fin d => ofScaledInt (d.value/m).floor 0
  | x => x

end JsNumber

/-! ### Hexadecimal bytes -/

/-- `buf.toString('hex')` -/
def hexText (bytes : List UInt8) : JsString :=
  bytes.flatMap fun b => [hexUnit (b.toNat/0x10), hexUnit (b.toNat%0x10)]

/-- `Buffer.from(s, 'hex')`, which stops before the first pair that is no byte. -/
def bufferFromHex : JsString → List UInt8
  | c :: d :: rest =>
    match hexValue c, hexValue d with
    | some x, some y => (x*0x10+y).toUInt8 :: bufferFromHex rest
    | _, _ => []
  | _ => []

theorem bufferFromHex_hexText (bytes : List UInt8) : bufferFromHex (hexText bytes) = bytes := by
  induction bytes with
  | nil => rfl
  | cons b bytes ih =>
    have hb := b.toNat_lt
    have hbyte : b.toNat/0x10*0x10+b.toNat%0x10 = b.toNat := by omega
    change bufferFromHex (hexUnit (b.toNat/0x10) :: hexUnit (b.toNat%0x10) :: hexText bytes) = _
    rw [bufferFromHex, hexValue_hexUnit _ (by omega), hexValue_hexUnit _ (by omega)]
    dsimp only
    rw [hbyte, ih, Nat.toUInt8, UInt8.ofNat_toNat]

end Js
