import Homelab.JsNumberText
import Homelab.AddressBlocks

/-! IPv4 addresses and CIDRs as the prober, the consent manager and the discover
command read them. The shifts and masks are JavaScript's, on 32-bit words. -/
namespace Homelab
open Js

/-! ### Texts -/

/-- `\d{1,n}`, as a number. -/
def digitsUpTo (n : ℕ) (s : JsString) : Option ℕ :=
  if 1 ≤ s.length ∧ s.length ≤ n ∧ s.all isDigitUnit = true then
    some (ofDigitList (s.map fun c => c.toNat-48))
  else none

/-- `(\d{1,3})\.(\d{1,3})\.(\d{1,3})\.(\d{1,3})` -/
def matchOctets (s : JsString) : Option (ℕ × ℕ × ℕ × ℕ) :=
  match s.splitOn 0x2E with
  | [a, b, c, d] => do
    return (← digitsUpTo 3 a, ← digitsUpTo 3 b, ← digitsUpTo 3 c, ← digitsUpTo 3 d)
  | _ => none

/-- `3[0-2]|[12]?\d` -/
def strictPrefix : JsString → Option ℕ
  | [d] => if isDigitUnit d then some (d.toNat-48) else none
  | [c, d] =>
    if c = 0x33 ∧ (d = 0x30 ∨ d = 0x31 ∨ d = 0x32) then some (30+(d.toNat-48))
    else if (c = 0x31 ∨ c = 0x32) ∧ isDigitUnit d = true then some ((c.toNat-48)*10+(d.toNat-48))
    else none
  | _ => none

/-- An address, a slash and a prefix length. -/
def matchCidr (prefixOf : JsString → Option ℕ) (s : JsString) :
    Option ((ℕ × ℕ × ℕ × ℕ) × ℕ) :=
  match s.splitOn 0x2F with
  | [addr, len] => do return (← matchOctets addr, ← prefixOf len)
  | _ => none

/-- `CIDR_REGEX` of the prober and of the discover command. -/
def cidrRegex : JsString → Option ((ℕ × ℕ × ℕ × ℕ) × ℕ) := matchCidr strictPrefix

/-! ### Words -/

/-- `((a << 24) | (b << 16) | (c << 8) | d) >>> 0` -/
def packOctets : ℕ × ℕ × ℕ × ℕ → BitVec 32
  | (a, b, c, d) => BitVec.ofNat 32 a <<< 24 ||| BitVec.ofNat 32 b <<< 16 |||
      BitVec.ofNat 32 c <<< 8 ||| BitVec.ofNat 32 d

/-- `prefix === 0 ? 0 : (0xffffffff << (32 - prefix)) >>> 0` -/
def prefixMask (len : ℕ) : BitVec 32 := if len = 0 then 0 else BitVec.allOnes 32 <<< (32-len)

/-- `(n >>> k) & 0xff` -/
def octetAt (n : BitVec 32) (k : ℕ) : ℕ := ((n >>> k) &&& 0xFF#32).toNat

/-- `${n}` for an octet. -/
def octetText (n : ℕ) : JsString :=
  if n < 10 then [digitUnit n]
  else if n < 100 then [digitUnit (n/10), digitUnit (n%10)]
  else [digitUnit (n/100), digitUnit (n/10%10), digitUnit (n%10)]

/-- `intToIp` -/
def intToIp (n : BitVec 32) : JsString :=
  [0x2E].intercalate [octetText (octetAt n 24), octetText (octetAt n 16), octetText (octetAt n 8),
    octetText (octetAt n 0)]

def octetsInRange : ℕ × ℕ × ℕ × ℕ → Bool
  | (a, b, c, d) => a ≤ 255 && b ≤ 255 && c ≤ 255 && d ≤ 255

/-! ### The functions of the source -/

/-- `enumerateHosts`; `error` is the message it throws. -/
def enumerateHosts (cidr : JsString) : Except JsString (List JsString) :=
  match cidrRegex cidr with
  | none => .error (js "invalid CIDR: " ++ cidr)
  | some (octets, len) =>
    if octetsInRange octets then
      let network := packOctets octets &&& prefixMask len
      let broadcast := network ||| ~~~prefixMask len
      if len = 32 then .ok [intToIp network]
      else if len = 31 then .ok [intToIp network, intToIp (network+1)]
      else .ok ((List.range' (network.toNat+1) (broadcast.toNat-(network.toNat+1))).map
        fun n => intToIp (BitVec.ofNat 32 n))
    else .error (js "invalid CIDR: " ++ cidr)

/-- `firstHostInCidr` of the discover command. -/
def firstHostInCidr (cidr : JsString) : Except JsString JsString :=
  match cidrRegex cidr with
  | none => .error (js "invalid CIDR: " ++ cidr)
  | some (octets, len) =>
    let network := packOctets octets &&& prefixMask len
    .ok (intToIp (if len = 32 then network else network+1))

/-- `parseCidr` of the consent manager: network and prefix length. -/
def parseCidr (cidr : JsString) : Option (BitVec 32 × ℕ) :=
  match matchCidr (digitsUpTo 2) cidr with
  | none => none
  | some (octets, len) =>
    if octetsInRange octets && len ≤ 32 then some (packOctets octets &&& prefixMask len, len)
    else none

def parseIp (ip : JsString) : Option (BitVec 32) :=
  match matchOctets ip with
  | none => none
  | some octets => if octetsInRange octets then some (packOctets octets) else none

def ipInCidr (ip cidr : JsString) : Bool :=
  match parseIp ip, parseCidr cidr with
  | some n, some (network, len) => n &&& prefixMask len == network
  | _, _ => false

/-! ### Words as numbers -/

theorem octetAt_eq (n : BitVec 32) (k : ℕ) : octetAt n k = n.toNat/2^k%256 := by
  have hmask : (0xFF#32 : BitVec 32).toNat = 2^8-1 := rfl
  rw [octetAt, BitVec.toNat_and, hmask, Nat.and_two_pow_sub_one_eq_mod, BitVec.toNat_ushiftRight,
    Nat.shiftRight_eq_div_pow]

/-- Octets in range do not overlap in the word. -/
theorem packOctets_toNat {a b c d : ℕ} (ha : a < 256) (hb : b < 256) (hc : c < 256) (hd : d < 256) :
    (packOctets (a, b, c, d)).toNat = a*2^24+b*2^16+c*2^8+d := by
  have hshift (x k : ℕ) (hx : x*2^k < 2^32) (hx' : x < 2^32) :
      (BitVec.ofNat 32 x <<< k).toNat = x*2^k := by
    rw [BitVec.toNat_shiftLeft, BitVec.toNat_ofNat, Nat.mod_eq_of_lt hx', Nat.shiftLeft_eq,
      Nat.mod_eq_of_lt hx]
  have hor (x y k : ℕ) (hy : y < 2^k) : x*2^k ||| y = x*2^k+y := by
    rw [← Nat.shiftLeft_eq, Nat.shiftLeft_add_eq_or_of_lt hy]
  simp only [packOctets, BitVec.toNat_or]
  rw [hshift a 24 (by omega) (by omega), hshift b 16 (by omega) (by omega),
    hshift c 8 (by omega) (by omega), BitVec.toNat_ofNat, Nat.mod_eq_of_lt (by omega),
    hor a (b*2^16) 24 (by omega)]
  have h1 : a*2^24+b*2^16 = (a*2^8+b)*2^16 := by ring
  have h2 : (a*2^8+b)*2^16+c*2^8 = ((a*2^8+b)*2^8+c)*2^8 := by ring
  rw [h1, hor _ (c*2^8) 16 (by omega), h2, hor _ d 8 (by omega)]

/-- Taking a word apart and packing it again gives it back. -/
theorem packOctets_octetAt (n : BitVec 32) :
    packOctets (octetAt n 24, octetAt n 16, octetAt n 8, octetAt n 0) = n := by
  apply BitVec.eq_of_toNat_eq
  have hn := n.isLt
  simp only [octetAt_eq]
  rw [packOctets_toNat (by omega) (by omega) (by omega) (by omega)]
  omega

theorem prefixMask_eq (len : ℕ) : prefixMask len = BitVec.allOnes 32 <<< (32-len) := by
  unfold prefixMask
  split_ifs with h
  · subst h
    decide
  · rfl

/-- Masking clears the host bits. -/
theorem and_prefixMask_toNat (n : BitVec 32) (len : ℕ) :
    (n &&& prefixMask len).toNat = n.toNat/2^(32-len)*2^(32-len) := by
  have hshift : n &&& prefixMask len = n >>> (32-len) <<< (32-len) := by
    rw [prefixMask_eq]
    apply BitVec.eq_of_getLsbD_eq
    intro i hi
    simp only [BitVec.getLsbD_and, BitVec.getLsbD_shiftLeft, BitVec.getLsbD_ushiftRight,
      BitVec.getLsbD_allOnes, hi, decide_true, Bool.true_and]
    by_cases hik : i < 32-len
    · simp only [hik, decide_true, Bool.not_true, Bool.false_and, Bool.and_false]
    · have hlt : i-(32-len) < 32 := by omega
      simp only [hik, hlt, decide_false, decide_true, Bool.not_false, Bool.true_and, Bool.and_true]
      congr 1
      omega
  have hle : n.toNat/2^(32-len)*2^(32-len) < 2^32 :=
    lt_of_le_of_lt (Nat.div_mul_le_self _ _) n.isLt
  rw [hshift, BitVec.toNat_shiftLeft, BitVec.toNat_ushiftRight, Nat.shiftRight_eq_div_pow,
    Nat.shiftLeft_eq, Nat.mod_eq_of_lt hle]

theorem not_prefixMask_toNat {len : ℕ} (h : len ≤ 32) : (~~~prefixMask len).toNat = 2^(32-len)-1 := by
  revert len
  decide

/-- The broadcast address ends the block of the network address. -/
theorem broadcast_toNat (n : BitVec 32) {len : ℕ} (h : len ≤ 32) :
    (n &&& prefixMask len ||| ~~~prefixMask len).toNat =
      (n &&& prefixMask len).toNat+(2^(32-len)-1) := by
  have hlt : 2^(32-len)-1 < 2^(32-len) := Nat.sub_lt (Nat.two_pow_pos _) Nat.one_pos
  rw [BitVec.toNat_or, not_prefixMask_toNat h, and_prefixMask_toNat, ← Nat.shiftLeft_eq,
    Nat.shiftLeft_add_eq_or_of_lt hlt]

/-! ### Texts as words -/

theorem all_digits (ds : List ℕ) (hd : ∀ d ∈ ds, d < 10) :
    (ds.map digitUnit).all isDigitUnit = true ∧
      (ds.map digitUnit).map (fun c => c.toNat-48) = ds := by
  induction ds with
  | nil => exact ⟨rfl, rfl⟩
  | cons d ds ih =>
    have hlt := hd d (List.mem_cons_self ..)
    obtain ⟨hall, hmap⟩ := ih fun x hx => hd x (List.mem_cons_of_mem _ hx)
    have hval : (digitUnit d).toNat-48 = d := by
      rw [digitUnit_toNat d hlt]
      omega
    exact ⟨by simp only [List.map_cons, List.all_cons, isDigitUnit_digitUnit d hlt, hall, Bool.and_self],
      by simp only [List.map_cons, hmap, hval]⟩

theorem digitsUpTo_map (n : ℕ) (ds : List ℕ) (hd : ∀ d ∈ ds, d < 10) (h1 : 1 ≤ ds.length)
    (hn : ds.length ≤ n) : digitsUpTo n (ds.map digitUnit) = some (ofDigitList ds) := by
  obtain ⟨hall, hmap⟩ := all_digits ds hd
  rw [digitsUpTo, if_pos ⟨by rwa [List.length_map], by rwa [List.length_map], hall⟩, hmap]

/-- The digits of an octet's text. -/
theorem octetText_spec (n : ℕ) (hn : n < 256) : ∃ ds : List ℕ, octetText n = ds.map digitUnit ∧
    (∀ d ∈ ds, d < 10) ∧ 1 ≤ ds.length ∧ ds.length ≤ 3 ∧ ofDigitList ds = n := by
  unfold octetText
  split_ifs with h1 h2
  · refine ⟨[n], rfl, ?_, by simp, by simp, ?_⟩
    · simpa using h1
    · simp [ofDigitList]
  · refine ⟨[n/10, n%10], rfl, ?_, by simp, by simp, ?_⟩
    · simp only [List.mem_cons, List.not_mem_nil, or_false, forall_eq_or_imp, forall_eq]
      omega
    · simp [ofDigitList, Nat.ofDigits]
      omega
  · refine ⟨[n/100, n/10%10, n%10], rfl, ?_, by simp, by simp, ?_⟩
    · simp only [List.mem_cons, List.not_mem_nil, or_false, forall_eq_or_imp, forall_eq]
      omega
    · simp [ofDigitList, Nat.ofDigits]
      omega

theorem digitsUpTo_octetText (n : ℕ) (hn : n < 256) : digitsUpTo 3 (octetText n) = some n := by
  obtain ⟨ds, htext, hd, h1, h3, hval⟩ := octetText_spec n hn
  rw [htext, digitsUpTo_map 3 ds hd h1 h3, hval]

theorem octetText_noDot (n : ℕ) (hn : n < 256) : (0x2E : CodeUnit) ∉ octetText n := by
  obtain ⟨ds, htext, hd, -⟩ := octetText_spec n hn
  rw [htext]
  intro hm
  obtain ⟨d, hmem, hd'⟩ := List.mem_map.mp hm
  have hnat := digitUnit_toNat d (hd d hmem)
  rw [hd'] at hnat
  have : (0x2E : CodeUnit).toNat = 46 := rfl
  omega

/-- The text of an address reads back as the address. -/
theorem parseIp_intToIp (n : BitVec 32) : parseIp (intToIp n) = some n := by
  have hlt (k : ℕ) : octetAt n k < 256 := by
    rw [octetAt_eq]
    exact Nat.mod_lt _ (by decide)
  have hno : ∀ l ∈ [octetText (octetAt n 24), octetText (octetAt n 16), octetText (octetAt n 8),
      octetText (octetAt n 0)], (0x2E : CodeUnit) ∉ l := by
    simp only [List.mem_cons, List.not_mem_nil, or_false, forall_eq_or_imp, forall_eq]
    exact ⟨octetText_noDot _ (hlt 24), octetText_noDot _ (hlt 16), octetText_noDot _ (hlt 8),
      octetText_noDot _ (hlt 0)⟩
  have hsplit := List.splitOn_intercalate (0x2E : CodeUnit) hno (List.cons_ne_nil _ _)
  have hrange : octetsInRange (octetAt n 24, octetAt n 16, octetAt n 8, octetAt n 0) = true := by
    have h24 := hlt 24
    have h16 := hlt 16
    have h8 := hlt 8
    have h0 := hlt 0
    simp only [octetsInRange, Bool.and_eq_true, decide_eq_true_eq]
    omega
  simp only [parseIp, matchOctets, intToIp, hsplit, digitsUpTo_octetText _ (hlt _),
    Option.bind_eq_bind, Option.bind_some, Option.pure_def, hrange, ↓reduceIte, packOctets_octetAt]

/-- The block of addresses that a prefix leaves around a network address. -/
def cidrBlock (network : BitVec 32) (len : ℕ) : Net.Block := ⟨network.toNat, 32-len⟩

/-- An address is in a CIDR when it is in the block of its network. -/
theorem ipInCidr_intToIp (n : BitVec 32) (cidr : JsString) :
    ipInCidr (intToIp n) cidr = true ↔
      ∃ network len, parseCidr cidr = some (network, len) ∧ (cidrBlock network len).Mem n.toNat := by
  rw [ipInCidr, parseIp_intToIp]
  cases hp : parseCidr cidr with
  | none => simp
  | some p =>
    obtain ⟨network, len⟩ := p
    have hmasked : ∃ x : BitVec 32, network = x &&& prefixMask len := by
      unfold parseCidr at hp
      split at hp
      · cases hp
      · split_ifs at hp
        cases hp
        exact ⟨_, rfl⟩
    obtain ⟨x, rfl⟩ := hmasked
    have hpos : 0 < 2^(32-len) := Nat.two_pow_pos _
    have hnet : (x &&& prefixMask len).toNat/2^(32-len) = x.toNat/2^(32-len) := by
      rw [and_prefixMask_toNat, Nat.mul_div_cancel _ hpos]
    constructor
    · intro h
      refine ⟨_, len, rfl, ?_⟩
      have heq : (n &&& prefixMask len).toNat = (x &&& prefixMask len).toNat :=
        congrArg BitVec.toNat (eq_of_beq h)
      rw [and_prefixMask_toNat, and_prefixMask_toNat] at heq
      exact (Nat.eq_of_mul_eq_mul_right hpos heq).trans hnet.symm
    · rintro ⟨network, len', hsome, hmem⟩
      obtain ⟨rfl, rfl⟩ := Prod.mk.inj (Option.some.inj hsome)
      have hdiv : n.toNat/2^(32-len) = x.toNat/2^(32-len) := hmem.trans hnet
      apply beq_of_eq
      apply BitVec.eq_of_toNat_eq
      rw [and_prefixMask_toNat, and_prefixMask_toNat, hdiv]

/-! ### The hosts of a CIDR -/

/-- The addresses of a block that are not hosts: from `/30` on, its first and last. -/
def isReserved (network : BitVec 32) (len n : ℕ) : Bool :=
  len ≤ 30 && (n == network.toNat || n == network.toNat+(2^(32-len)-1))

theorem strictPrefix_le {s : JsString} {len : ℕ} (h : strictPrefix s = some len) : len ≤ 32 := by
  unfold strictPrefix at h
  have hdigit (c : CodeUnit) (hc : isDigitUnit c = true) : c.toNat-48 ≤ 9 := by
    simp only [isDigitUnit, Bool.and_eq_true, decide_eq_true_eq] at hc
    omega
  split at h
  · split_ifs at h with hd
    have := hdigit _ hd
    have := Option.some.inj h
    omega
  · split_ifs at h with h3 h12
    · obtain ⟨_, rfl | rfl | rfl⟩ := h3 <;> (cases h; decide)
    · obtain ⟨rfl | rfl, hd⟩ := h12
      all_goals
        have hle := hdigit _ hd
        have heq := Option.some.inj h
        revert heq
        simp only [UInt16.reduceToNat]
        omega
  · cases h

theorem cidrRegex_le {cidr : JsString} {octets : ℕ × ℕ × ℕ × ℕ} {len : ℕ}
    (h : cidrRegex cidr = some (octets, len)) : len ≤ 32 := by
  unfold cidrRegex matchCidr at h
  split at h
  · simp only [Option.bind_eq_bind, Option.bind_eq_some_iff, Option.pure_def, Option.some.injEq,
      Prod.mk.injEq] at h
    obtain ⟨_, _, len', hlen, _, rfl⟩ := h
    exact strictPrefix_le hlen
  · cases h

/-- The hosts that are enumerated are the addresses of the block that are not reserved. -/
theorem mem_enumerateHosts {cidr : JsString} {octets : ℕ × ℕ × ℕ × ℕ} {len : ℕ}
    (h : cidrRegex cidr = some (octets, len)) (hr : octetsInRange octets = true) :
    ∃ hosts, enumerateHosts cidr = .ok hosts ∧ ∀ ip, ip ∈ hosts ↔
      ∃ n : BitVec 32, ip = intToIp n ∧ (packOctets octets &&& prefixMask len).toNat ≤ n.toNat ∧
        n.toNat < (packOctets octets &&& prefixMask len).toNat+2^(32-len) ∧
        isReserved (packOctets octets &&& prefixMask len) len n.toNat = false := by
  have hle := cidrRegex_le h
  have hbroadcast := broadcast_toNat (packOctets octets) hle
  have hmasked := and_prefixMask_toNat (packOctets octets) len
  simp only [enumerateHosts, h, hr, ↓reduceIte]
  generalize packOctets octets &&& prefixMask len = network at hbroadcast hmasked
  have hnet := network.isLt
  split_ifs with h32 h31
  · subst h32
    refine ⟨_, rfl, fun ip => ?_⟩
    rw [List.mem_singleton]
    constructor
    · rintro rfl
      exact ⟨network, rfl, le_rfl, by simp, rfl⟩
    · rintro ⟨n, rfl, h1, h2, _⟩
      rw [show n = network from BitVec.eq_of_toNat_eq (by simp at h2; omega)]
  · subst h31
    -- the network address is even, so the second address does not wrap around
    have hnext : (network+1).toNat = network.toNat+1 := by
      rw [BitVec.toNat_add]
      change (network.toNat+1)%2^32 = _
      apply Nat.mod_eq_of_lt
      omega
    refine ⟨_, rfl, fun ip => ?_⟩
    simp only [List.mem_cons, List.not_mem_nil, or_false]
    constructor
    · rintro (rfl | rfl)
      · exact ⟨network, rfl, le_rfl, by simp, rfl⟩
      · exact ⟨network+1, rfl, by omega, by rw [hnext]; simp, rfl⟩
    · rintro ⟨n, rfl, h1, h2, _⟩
      rcases Nat.lt_or_ge network.toNat n.toNat with hlt | hge
      · right
        rw [show n = network+1 from BitVec.eq_of_toNat_eq (by rw [hnext]; simp at h2; omega)]
      · left
        rw [show n = network from BitVec.eq_of_toNat_eq (by omega)]
  · have hbits : 2^2 ≤ 2^(32-len) := Nat.pow_le_pow_right (by omega) (show 2 ≤ 32-len by omega)
    have hlen : len ≤ 30 := by omega
    have hfits : network.toNat+(2^(32-len)-1) < 2^32 := by
      rw [← hbroadcast]
      exact BitVec.isLt _
    refine ⟨_, rfl, fun ip => ?_⟩
    rw [hbroadcast, List.mem_map]
    simp only [List.mem_range'_1, isReserved, hlen, decide_true, Bool.true_and,
      Bool.or_eq_false_iff, beq_eq_false_iff_ne]
    constructor
    · rintro ⟨n, ⟨h1, h2⟩, rfl⟩
      have hn : (BitVec.ofNat 32 n).toNat = n := by
        rw [BitVec.toNat_ofNat]
        apply Nat.mod_eq_of_lt
        omega
      exact ⟨_, rfl, by omega, by omega, by omega, by omega⟩
    · rintro ⟨n, rfl, h1, h2, h3, h4⟩
      exact ⟨n.toNat, by omega, by rw [BitVec.ofNat_toNat, BitVec.setWidth_eq]⟩

end Homelab
