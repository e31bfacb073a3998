import Homelab.Cidr
import Homelab.JsWord

/-! The prober and the consent manager read CIDRs in the same way: what the one enumerates the
other finds in the range. -/
namespace Homelab
open Js

/-! ### The computations of the source, on numbers -/

/-- `((a << 24) | (b << 16) | (c << 8) | d) >>> 0` -/
def ipNumber : ℕ × ℕ × ℕ × ℕ → ℤ
  | (a, b, c, d) => ushr (bitOr (bitOr (bitOr (shl a 24) (shl b 16)) (shl c 8)) d) 0

/-- `prefix === 0 ? 0 : (0xffffffff << (32 - prefix)) >>> 0` -/
def maskNumber (len : ℕ) : ℤ := if len = 0 then 0 else ushr (shl 0xFFFFFFFF (32-len)) 0

/-- `(ip & mask) >>> 0` -/
def maskedNumber (ip : ℤ) (len : ℕ) : ℤ := ushr (bitAnd ip (maskNumber len)) 0

def networkNumber (octets : ℕ × ℕ × ℕ × ℕ) (len : ℕ) : ℤ := maskedNumber (ipNumber octets) len

/-- `~mask >>> 0` -/
def wildcardNumber (len : ℕ) : ℤ := ushr (bitNot (maskNumber len)) 0

/-- `(network | (~mask >>> 0)) >>> 0` -/
def broadcastNumber (octets : ℕ × ℕ × ℕ × ℕ) (len : ℕ) : ℤ :=
  ushr (bitOr (networkNumber octets len) (wildcardNumber len)) 0

/-- `(n >>> k) & 0xff` -/
def octetNumber (n k : ℤ) : ℤ := bitAnd (ushr n k) 0xFF

/-- `intToIp`, whose last octet is not shifted. -/
def intToIpNumber (n : ℤ) : JsString :=
  [0x2E].intercalate [octetText (octetNumber n 24).toNat, octetText (octetNumber n 16).toNat,
    octetText (octetNumber n 8).toNat, octetText (bitAnd n 0xFF).toNat]

/-- The values of `n` in the loop `for (let n = network + 1; n < broadcast; n++)`. -/
def loopNumbers (octets : ℕ × ℕ × ℕ × ℕ) (len : ℕ) : List ℤ :=
  let start := networkNumber octets len+1
  (List.range (broadcastNumber octets len-start).toNat).map fun k : ℕ => start+(k : ℤ)

/-- What is yielded, before it is made a text. -/
def hostNumbers (octets : ℕ × ℕ × ℕ × ℕ) (len : ℕ) : List ℤ :=
  let network := networkNumber octets len
  if len = 32 then [network]
  else if len = 31 then [network, network+1]
  else (loopNumbers octets len).map fun n => ushr n 0

/-! ### Numbers and words -/

variable {octets : ℕ × ℕ × ℕ × ℕ} {len : ℕ} {cidr : JsString} {network : BitVec 32}

theorem ipNumber_eq (octets : ℕ × ℕ × ℕ × ℕ) : ipNumber octets = (packOctets octets).toNat := by
  obtain ⟨a, b, c, d⟩ := octets
  have h24 := toWord_shl a (show 24 < 32 by decide)
  have h16 := toWord_shl b (show 16 < 32 by decide)
  have h8 := toWord_shl c (show 8 < 32 by decide)
  push_cast at h24 h16 h8
  rw [ipNumber, ushr_zero, toWord_bitOr, toWord_bitOr, toWord_bitOr, h24, h16, h8]
  simp only [toWord_natCast, packOctets]

theorem maskNumber_eq (h : len ≤ 32) : maskNumber len = (prefixMask len).toNat := by
  rw [maskNumber, prefixMask]
  split_ifs with hzero
  · rfl
  · have hshift := toWord_shl 0xFFFFFFFF (show 32-len < 32 by omega)
    push_cast [h] at hshift
    rw [ushr_zero, hshift]
    rfl

theorem maskedNumber_eq (n : BitVec 32) (h : len ≤ 32) :
    maskedNumber n.toNat len = (n &&& prefixMask len).toNat := by
  rw [maskedNumber, ushr_zero, toWord_bitAnd, maskNumber_eq h, toWord_toNat, toWord_toNat]

theorem networkNumber_eq (h : len ≤ 32) :
    networkNumber octets len = (packOctets octets &&& prefixMask len).toNat := by
  rw [networkNumber, ipNumber_eq, maskedNumber_eq _ h]

theorem wildcardNumber_eq (h : len ≤ 32) : wildcardNumber len = (~~~prefixMask len).toNat := by
  rw [wildcardNumber, ushr_zero, toWord_bitNot, maskNumber_eq h, toWord_toNat]

/-- The last address of the range. -/
theorem broadcastNumber_eq (h : len ≤ 32) :
    broadcastNumber octets len = networkNumber octets len+(2^(32-len)-1 : ℕ) := by
  rw [broadcastNumber, ushr_zero, toWord_bitOr, networkNumber_eq h, wildcardNumber_eq h,
    toWord_toNat, toWord_toNat, broadcast_toNat _ h, Nat.cast_add]

/-- What a mask of eight bits leaves is not negative. -/
theorem lowOctet_eq (x : ℤ) : (bitAnd x 0xFF).toNat = (toWord x &&& 0xFF#32).toNat := by
  have hmask : (0xFF#32 : BitVec 32).toNat = 2^8-1 := rfl
  have hsmall : 2*(toWord x &&& 0xFF#32).toNat < 2^32 := by
    rw [BitVec.toNat_and, hmask, Nat.and_two_pow_sub_one_eq_mod]
    omega
  change (toWord x &&& 0xFF#32).toInt.toNat = _
  rw [BitVec.toInt_eq_toNat_of_lt hsmall, Int.toNat_natCast]

theorem octetNumber_eq (n : BitVec 32) {k : ℕ} (h : k < 32) :
    (octetNumber n.toNat k).toNat = octetAt n k := by
  rw [octetNumber, lowOctet_eq, ushr_natCast _ h, toWord_toNat, toWord_toNat, octetAt]

theorem intToIpNumber_eq (n : BitVec 32) : intToIpNumber n.toNat = intToIp n := by
  have h24 := octetNumber_eq n (show 24 < 32 by decide)
  have h16 := octetNumber_eq n (show 16 < 32 by decide)
  have h8 := octetNumber_eq n (show 8 < 32 by decide)
  have h0 : (bitAnd n.toNat 0xFF).toNat = octetAt n 0 := by
    rw [lowOctet_eq, toWord_toNat, octetAt, BitVec.ushiftRight_zero]
  push_cast at h24 h16 h8
  rw [intToIpNumber, h24, h16, h8, h0, intToIp]

theorem intToIpNumber_natCast {n : ℕ} (h : n < 2^32) :
    intToIpNumber n = intToIp (BitVec.ofNat 32 n) := by
  have hword : (BitVec.ofNat 32 n).toNat = n := by rw [BitVec.toNat_ofNat, Nat.mod_eq_of_lt h]
  have hsame := intToIpNumber_eq (BitVec.ofNat 32 n)
  rw [hword] at hsame
  exact hsame

theorem intToIp_injective {m n : BitVec 32} (h : intToIp m = intToIp n) : m = n := by
  have hparse := congrArg parseIp h
  rw [parseIp_intToIp, parseIp_intToIp] at hparse
  exact Option.some.inj hparse

/-! ### What is yielded -/

theorem digitsUpTo_two {c d : CodeUnit} (hc : isDigitUnit c = true) (hd : isDigitUnit d = true) :
    digitsUpTo 2 [c, d] = some ((c.toNat-48)*10+(d.toNat-48)) := by
  have hall : [c, d].all isDigitUnit = true := by simp [hc, hd]
  rw [digitsUpTo, if_pos ⟨by simp, by simp, hall⟩]
  simp [ofDigitList, Nat.ofDigits]
  omega

/-- The prefix lengths of the prober are read by the consent manager as well. -/
theorem digitsUpTo_strictPrefix {s : JsString} (h : strictPrefix s = some len) :
    digitsUpTo 2 s = some len := by
  unfold strictPrefix at h
  split at h
  · rename_i d
    split_ifs at h with hd
    have hall : [d].all isDigitUnit = true := by simp [hd]
    rw [← Option.some.inj h, digitsUpTo, if_pos ⟨by simp, by simp, hall⟩]
    simp [ofDigitList]
  · split_ifs at h with h3 h12
    · obtain ⟨rfl, rfl | rfl | rfl⟩ := h3 <;>
        (rw [← Option.some.inj h]; exact digitsUpTo_two (by decide) (by decide))
    · obtain ⟨hc, hd⟩ := h12
      rw [← Option.some.inj h]
      refine digitsUpTo_two ?_ hd
      rcases hc with rfl | rfl <;> decide
  · cases h

theorem parseCidr_of_cidrRegex (h : cidrRegex cidr = some (octets, len))
    (hrange : octetsInRange octets = true) :
    parseCidr cidr = some (packOctets octets &&& prefixMask len, len) := by
  have hle := cidrRegex_le h
  have hmatch : matchCidr (digitsUpTo 2) cidr = some (octets, len) := by
    unfold cidrRegex matchCidr at h
    unfold matchCidr
    split at h
    · simp only [Option.bind_eq_bind, Option.bind_eq_some_iff, Option.pure_def, Option.some.injEq,
        Prod.mk.injEq] at h ⊢
      obtain ⟨octets', hoctets, len', hlen, hsame⟩ := h
      exact ⟨octets', hoctets, len', digitsUpTo_strictPrefix hlen, hsame⟩
    · cases h
  have haccept : (octetsInRange octets && decide (len ≤ 32)) = true := by
    rw [hrange, decide_eq_true hle]
    rfl
  simp only [parseCidr, hmatch, haccept, ↓reduceIte]

/-- The loop runs from the address after the first to the one before the last. -/
theorem mem_loopNumbers (n : ℤ) : n ∈ loopNumbers octets len ↔
    networkNumber octets len < n ∧ n < broadcastNumber octets len := by
  rw [loopNumbers, List.mem_map]
  constructor
  · rintro ⟨k, hk, rfl⟩
    have hlt := List.mem_range.mp hk
    omega
  · rintro ⟨hlow, hhigh⟩
    exact ⟨(n-(networkNumber octets len+1)).toNat, List.mem_range.mpr (by omega), by omega⟩

/-- The range has its `2^(32-len)` addresses within the words. -/
theorem range_fits (h : len ≤ 32) : 0 ≤ networkNumber octets len ∧
    networkNumber octets len+(2^(32-len)-1 : ℕ) = broadcastNumber octets len ∧
    broadcastNumber octets len < 2^32 :=
  ⟨ushr_nonneg _ _, (broadcastNumber_eq h).symm, ushr_lt _ _⟩

/-- In the loop, `n >>> 0` is `n`. -/
theorem loopNumbers_ushr (h : len ≤ 30) :
    (loopNumbers octets len).map (fun n => ushr n 0) = loopNumbers octets len := by
  conv_rhs => rw [← List.map_id (loopNumbers octets len)]
  apply List.map_congr_left
  intro n hn
  obtain ⟨hlow, hhigh⟩ := (mem_loopNumbers n).mp hn
  obtain ⟨hfirst, _, hlast⟩ := @range_fits octets len (by omega)
  exact ushr_zero_self (by omega) (by omega)

theorem hostNumbers_of_le (h : len ≤ 30) : hostNumbers octets len = loopNumbers octets len := by
  rw [hostNumbers]
  rw [if_neg (by omega), if_neg (by omega), loopNumbers_ushr h]

/-- The numbers of the range that are hosts. -/
theorem mem_hostNumbers (h : len ≤ 32) (n : ℤ) : n ∈ hostNumbers octets len ↔
    networkNumber octets len ≤ n ∧ n ≤ broadcastNumber octets len ∧
      (len ≤ 30 → n ≠ networkNumber octets len ∧ n ≠ broadcastNumber octets len) := by
  obtain ⟨_, hlast, _⟩ := @range_fits octets len h
  by_cases h30 : len ≤ 30
  · rw [hostNumbers_of_le h30, mem_loopNumbers]
    have hsize : 1 ≤ 2^(32-len)-1 := by
      have hpow : 2^1 ≤ 2^(32-len) := Nat.pow_le_pow_right (by decide) (by omega)
      omega
    constructor
    · rintro ⟨hlow, hhigh⟩
      exact ⟨hlow.le, hhigh.le, fun _ => ⟨hlow.ne', hhigh.ne⟩⟩
    · rintro ⟨hlow, hhigh, hinner⟩
      obtain ⟨hfirst, hlast⟩ := hinner h30
      exact ⟨lt_of_le_of_ne hlow hfirst.symm, lt_of_le_of_ne hhigh hlast⟩
  · rw [hostNumbers]
    obtain rfl | rfl : len = 32 ∨ len = 31 := by omega
    · rw [if_pos rfl, List.mem_singleton]
      norm_num at hlast
      omega
    · rw [if_neg (by decide), if_pos rfl, List.mem_pair]
      norm_num at hlast
      omega

theorem hostNumbers_increasing (h : len ≤ 32) : (hostNumbers octets len).Pairwise (· < ·) := by
  by_cases h30 : len ≤ 30
  · rw [hostNumbers_of_le h30, loopNumbers, List.pairwise_map]
    exact List.pairwise_lt_range.imp fun hlt => by omega
  · rw [hostNumbers]
    obtain rfl | rfl : len = 32 ∨ len = 31 := by omega
    · rw [if_pos rfl]
      exact List.pairwise_singleton ..
    · rw [if_neg (by decide), if_pos rfl]
      exact List.pairwise_pair.mpr (lt_add_one _)

theorem enumerateHosts_numbers (h : cidrRegex cidr = some (octets, len))
    (hrange : octetsInRange octets = true) :
    enumerateHosts cidr = .ok ((hostNumbers octets len).map intToIpNumber) := by
  have hle := cidrRegex_le h
  have hnetwork := @networkNumber_eq octets len hle
  have hbroadcast := @broadcastNumber_eq octets len hle
  obtain ⟨_, _, hfits⟩ := @range_fits octets len hle
  have hlast := broadcast_toNat (packOctets octets) hle
  simp only [enumerateHosts, h, hrange, ↓reduceIte]
  generalize packOctets octets &&& prefixMask len = network at hnetwork hlast
  by_cases h30 : len ≤ 30
  · rw [if_neg (by omega), if_neg (by omega), hostNumbers_of_le h30, loopNumbers, hlast,
      List.range'_eq_map_range, List.map_map, List.map_map]
    have hcount : (broadcastNumber octets len-(networkNumber octets len+1)).toNat =
        network.toNat+(2^(32-len)-1)-(network.toNat+1) := by omega
    rw [hcount]
    refine congrArg Except.ok (List.map_congr_left fun k hk => ?_)
    have hlt := List.mem_range.mp hk
    have hnumber : networkNumber octets len+1+(k : ℤ) = (network.toNat+1+k : ℕ) := by omega
    change _ = intToIpNumber (networkNumber octets len+1+(k : ℤ))
    rw [hnumber, intToIpNumber_natCast (by omega)]
    rfl
  · rw [hostNumbers]
    obtain rfl | rfl : len = 32 ∨ len = 31 := by omega
    · rw [if_pos rfl, if_pos rfl, List.map_singleton, hnetwork, intToIpNumber_eq]
    · -- the first of two addresses is not the last of all
      have hnext : (network+1).toNat = network.toNat+1 := by
        rw [BitVec.toNat_add]
        change (network.toNat+1)%2^32 = _
        apply Nat.mod_eq_of_lt
        norm_num at hbroadcast
        omega
      have hnumber : networkNumber octets 31+1 = ((network+1).toNat : ℤ) := by omega
      rw [if_neg (by decide), if_pos rfl, if_neg (by decide), if_pos rfl, hnumber, hnetwork]
      simp only [List.map_cons, List.map_nil, intToIpNumber_eq]

/-- Every number in the computation of the hosts is an unsigned word, and every shift of the mask
goes less far than a word is long. -/
structure WordsFit (octets : ℕ × ℕ × ℕ × ℕ) (len : ℕ) : Prop where
  shift : len ≠ 0 → 0 ≤ 32-(len : ℤ) ∧ 32-(len : ℤ) < 32
  ip : 0 ≤ ipNumber octets ∧ ipNumber octets < 2^32
  mask : 0 ≤ maskNumber len ∧ maskNumber len < 2^32
  wildcard : 0 ≤ wildcardNumber len ∧ wildcardNumber len < 2^32
  network : 0 ≤ networkNumber octets len ∧ networkNumber octets len < 2^32
  broadcast : networkNumber octets len ≤ broadcastNumber octets len ∧ broadcastNumber octets len < 2^32
  start : len ≤ 31 → networkNumber octets len+1 < 2^32
  loop : ∀ n ∈ loopNumbers octets len, 0 ≤ n ∧ n < 2^32

/-- What the prober yields for a CIDR, as the consent manager sees it. -/
structure Agrees (cidr : JsString) (octets : ℕ × ℕ × ℕ × ℕ) (len : ℕ) (hosts : List JsString) :
    Prop where
  numbers : hosts = (hostNumbers octets len).map intToIpNumber
  contained : ∀ ip ∈ hosts, ipInCidr ip cidr = true
  increasing : (hostNumbers octets len).Pairwise (· < ·)
  nodup : hosts.Nodup
  range : ∀ n : BitVec 32, ipInCidr (intToIp n) cidr = true ↔
    networkNumber octets len ≤ n.toNat ∧ n.toNat ≤ broadcastNumber octets len
  hosts : ∀ n : BitVec 32, intToIp n ∈ hosts ↔ ipInCidr (intToIp n) cidr = true ∧
    (len ≤ 30 → n.toNat ≠ networkNumber octets len ∧ n.toNat ≠ broadcastNumber octets len)
  fits : WordsFit octets len

theorem accepted_of_hosts {hosts : List JsString} (h : enumerateHosts cidr = .ok hosts) :
    ∃ octets len, cidrRegex cidr = some (octets, len) ∧ octetsInRange octets = true := by
  unfold enumerateHosts at h
  cases hregex : cidrRegex cidr with
  | none =>
    rw [hregex] at h
    cases h
  | some p =>
    rw [hregex] at h
    by_cases hrange : octetsInRange p.1 = true
    · exact ⟨p.1, p.2, rfl, hrange⟩
    · simp only [hrange, Bool.false_eq_true, ↓reduceIte, reduceCtorEq] at h

/-- The consent manager finds an address in the range exactly when it lies between the first and
the last one. -/
theorem ipInCidr_range (h : cidrRegex cidr = some (octets, len))
    (hrange : octetsInRange octets = true) (n : BitVec 32) : ipInCidr (intToIp n) cidr = true ↔
      networkNumber octets len ≤ n.toNat ∧ n.toNat ≤ broadcastNumber octets len := by
  have hle := cidrRegex_le h
  have hnetwork := @networkNumber_eq octets len hle
  have hbroadcast := @broadcastNumber_eq octets len hle
  have hmasked := and_prefixMask_toNat (packOctets octets) len
  have hpos : 0 < 2^(32-len) := Nat.two_pow_pos _
  -- the block of the network is what one quotient by its size leaves
  have hblock : (cidrBlock (packOctets octets &&& prefixMask len) len).Mem n.toNat ↔
      n.toNat/2^(32-len) = (packOctets octets).toNat/2^(32-len) := by
    rw [Net.Block.Mem, cidrBlock, hmasked, Nat.mul_div_cancel _ hpos]
  have hbetween : n.toNat/2^(32-len) = (packOctets octets).toNat/2^(32-len) ↔
      networkNumber octets len ≤ n.toNat ∧ n.toNat ≤ broadcastNumber octets len := by
    rw [Nat.div_eq_iff hpos, hbroadcast, hnetwork, hmasked]
    omega
  rw [ipInCidr_intToIp]
  constructor
  · rintro ⟨network, len', hparse, hmem⟩
    obtain ⟨rfl, rfl⟩ := Prod.mk.inj (Option.some.inj ((parseCidr_of_cidrRegex h hrange).symm.trans hparse))
    exact hbetween.mp (hblock.mp hmem)
  · intro hin
    exact ⟨_, len, parseCidr_of_cidrRegex h hrange, hblock.mpr (hbetween.mpr hin)⟩

theorem wordsFit (h : len ≤ 32) : WordsFit octets len := by
  obtain ⟨hfirst, hlast, hfits⟩ := @range_fits octets len h
  have hmask := maskNumber_eq h
  have hword := (prefixMask len).isLt
  refine ⟨fun hzero => by omega, ⟨ushr_nonneg _ _, ushr_lt _ _⟩, by omega,
    ⟨ushr_nonneg _ _, ushr_lt _ _⟩, ⟨hfirst, by omega⟩, ⟨by omega, hfits⟩, ?_, ?_⟩
  · intro h31
    have hpow : 2^1 ≤ 2^(32-len) := Nat.pow_le_pow_right (by decide) (by omega)
    omega
  · intro n hn
    obtain ⟨hlow, hhigh⟩ := (mem_loopNumbers n).mp hn
    omega

/-- Every string whose hosts are enumerated is a CIDR to the consent manager, and the hosts are
the addresses of its range, from `/30` on without the first and the last. -/
theorem enumerateHosts_agrees (cidr : JsString) (hosts : List JsString)
    (h : enumerateHosts cidr = .ok hosts) :
    ∃ octets len network, cidrRegex cidr = some (octets, len) ∧
      parseCidr cidr = some (network, len) ∧ (network.toNat : ℤ) = networkNumber octets len ∧
        Agrees cidr octets len hosts := by
  obtain ⟨octets, len, hregex, hrange⟩ := accepted_of_hosts h
  have hle := cidrRegex_le hregex
  have hnumbers := Except.ok.inj (h.symm.trans (enumerateHosts_numbers hregex hrange))
  have hcontains := ipInCidr_range hregex hrange
  obtain ⟨hfirst, _, hlast⟩ := @range_fits octets len hle
  -- every host is the text of a word
  have hwords : ∀ x ∈ hostNumbers octets len, ∃ n : BitVec 32, x = n.toNat := by
    intro x hx
    obtain ⟨hlow, hhigh, _⟩ := (mem_hostNumbers hle x).mp hx
    refine ⟨BitVec.ofNat 32 x.toNat, ?_⟩
    rw [BitVec.toNat_ofNat, Nat.mod_eq_of_lt (by omega)]
    omega
  have hmem (n : BitVec 32) : intToIp n ∈ hosts ↔ (n.toNat : ℤ) ∈ hostNumbers octets len := by
    rw [hnumbers, List.mem_map]
    constructor
    · rintro ⟨x, hx, htext⟩
      obtain ⟨m, rfl⟩ := hwords x hx
      rw [intToIpNumber_eq] at htext
      exact intToIp_injective htext ▸ hx
    · exact fun hn => ⟨_, hn, intToIpNumber_eq n⟩
  have hhosts (n : BitVec 32) : intToIp n ∈ hosts ↔ ipInCidr (intToIp n) cidr = true ∧
      (len ≤ 30 → n.toNat ≠ networkNumber octets len ∧ n.toNat ≠ broadcastNumber octets len) := by
    rw [hmem, mem_hostNumbers hle, hcontains, and_assoc]
  have hincreasing := @hostNumbers_increasing octets len hle
  refine ⟨octets, len, _, hregex, parseCidr_of_cidrRegex hregex hrange, (networkNumber_eq hle).symm,
    hnumbers, ?_, hincreasing, ?_, hcontains, hhosts, wordsFit hle⟩
  · intro ip hip
    rw [hnumbers, List.mem_map] at hip
    obtain ⟨x, hx, rfl⟩ := hip
    obtain ⟨n, rfl⟩ := hwords x hx
    rw [intToIpNumber_eq]
    exact ((hhosts n).mp ((hmem n).mpr hx)).1
  · rw [hnumbers]
    refine List.Nodup.map_on ?_ (hincreasing.imp ne_of_lt)
    intro x hx y hy hxy
    obtain ⟨n, rfl⟩ := hwords x hx
    obtain ⟨m, rfl⟩ := hwords y hy
    rw [intToIpNumber_eq, intToIpNumber_eq] at hxy
    rw [intToIp_injective hxy]

/-- The theorem on the four addresses of a `/30`. -/
theorem enumerateHosts_agrees_four :
    ∃ octets len network, cidrRegex (js "10.0.0.5/30") = some (octets, len) ∧
      parseCidr (js "10.0.0.5/30") = some (network, len) ∧
        (network.toNat : ℤ) = networkNumber octets len ∧
          Agrees (js "10.0.0.5/30") octets len [js "10.0.0.5", js "10.0.0.6"] :=
  enumerateHosts_agrees (js "10.0.0.5/30") [js "10.0.0.5", js "10.0.0.6"] (by decide +kernel)

end Homelab
