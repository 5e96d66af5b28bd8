import Lispmob.MappingDb

/-!
# Network prefixes

The functions of `prefixes.c`: the network address of a prefix, computed with one mask for IPv4 and
word by word for IPv6, the network prefix, and the test whether one prefix is part of another. A
length over that of the address shifts or indexes out of range.

`networkAddress_bits` says what the masks compute on the bits of an address: the first bits stay,
the others become zero. `prefIsPrefixBPartOfA_contains` derives the containment of the address sets.
-/

namespace Lispmob

open Prog List

/-! ## The functions of `prefixes.c` -/

/-- `pref_get_network_address_v4`, in host byte order. -/
def prefGetNetworkAddressV4 (addr : BitVec 32) (prefixLength : UInt8) :
    Except Fault (BitVec 32) :=
  if prefixLength = 0 then .ok (addr &&& 0#32)
  else if prefixLength ≤ 32 then
    .ok (addr &&& (BitVec.allOnes 32 <<< (32 - prefixLength.toNat)))
  else .error .outOfRange

/-- The word `s6_addr32[ctr]`, in host byte order. -/
def s6Addr32 (addr : BitVec 128) (ctr : Nat) : BitVec 32 :=
  addr.extractLsb' (96 - 32 * ctr) 32

/-- The word `mask[ctr]` of `pref_get_network_address_v6`. -/
def mask32 (prefixLength : Nat) (ctr : Nat) : BitVec 32 :=
  if ctr < prefixLength / 32 then BitVec.allOnes 32
  else if ctr = prefixLength / 32 ∧ prefixLength % 32 ≠ 0 then
    BitVec.allOnes 32 <<< (32 - prefixLength % 32)
  else 0#32

/-- `pref_get_network_address_v6`. A length over `128` writes past the end of the mask. -/
def prefGetNetworkAddressV6 (addr : BitVec 128) (prefixLength : UInt8) :
    Except Fault (BitVec 128) :=
  let addr32 (ctr : Nat) := s6Addr32 addr ctr &&& mask32 prefixLength.toNat ctr
  if prefixLength ≤ 128 then .ok (addr32 0 ++ addr32 1 ++ addr32 2 ++ addr32 3)
  else .error .outOfRange

/-- The network address of an IP prefix, by its family. -/
def networkAddress (addr : IpAddr) (prefixLength : UInt8) : Except Fault IpAddr :=
  match addr with
  | .v4 a => (prefGetNetworkAddressV4 a prefixLength).map .v4
  | .v6 a => (prefGetNetworkAddressV6 a prefixLength).map .v6

/-- `pref_get_network_address`; `none` is the null pointer returned for what is not an IP prefix. -/
def prefGetNetworkAddress (address : LispAddr) : Except Fault (Option LispAddr) :=
  match address with
  | .ippref a plen => (networkAddress a plen).map fun n => some (.ip n)
  | _ => .ok none

/-- `pref_get_network_prefix`. -/
def prefGetNetworkPrefix (address : LispAddr) : Except Fault (Option LispAddr) := do
  match ← prefGetNetworkAddress address with
  | none => return none
  | some prefixAddr => return some (lispAddrSetPlen prefixAddr (lispAddrGetPlen address))

/-- `pref_is_prefix_b_part_of_a`. The length of `b_prefix` is overwritten while its network address
is computed and then put back. -/
def prefIsPrefixBPartOfA (aPrefix bPrefix : LispAddr) : Except Fault Bool :=
  let aPrefLen := lispAddrGetPlen aPrefix
  if lispAddrLafi aPrefix ≠ .IPPREF ∨ lispAddrLafi bPrefix ≠ .IPPREF then .ok false
  else if lispAddrIpAfi aPrefix ≠ lispAddrIpAfi bPrefix then .ok false
  else if lispAddrGetPlen bPrefix < aPrefLen then .ok false
  else do
    let aNetworkAddr ← prefGetNetworkAddress aPrefix
    let bNetworkAddrPrefixA ← prefGetNetworkAddress (lispAddrSetPlen bPrefix aPrefLen)
    match aNetworkAddr, bNetworkAddrPrefixA with
    | some a, some b => return lispAddrCmp a b = 0
    | _, _ => throw .missingAddress

/-! ## What the masks compute -/

theorem getMsbD_and_highMask {w l : Nat} (x : BitVec w) (hl : l ≤ w) (i : Nat) :
    (x &&& (BitVec.allOnes w <<< (w - l))).getMsbD i = (x.getMsbD i && decide (i < l)) := by
  rw [BitVec.getMsbD_and, BitVec.getMsbD_shiftLeft, BitVec.getMsbD_allOnes]
  congr 1
  rw [decide_eq_decide]
  omega

/-- A word of the mask keeps the bits of the word that lie within the prefix. -/
theorem getMsbD_and_mask32 (x : BitVec 32) (l ctr i : Nat) (hi : i < 32) :
    (x &&& mask32 l ctr).getMsbD i = (x.getMsbD i && decide (32 * ctr + i < l)) := by
  unfold mask32
  split_ifs with hlow hmid
  · have hin : 32 * ctr + i < l := by omega
    rw [BitVec.getMsbD_and, BitVec.getMsbD_allOnes, decide_eq_true hin, decide_eq_true hi]
  · rw [getMsbD_and_highMask x (by omega)]
    congr 1
    rw [decide_eq_decide]
    omega
  · have hout : ¬ 32 * ctr + i < l := by omega
    rw [decide_eq_false hout, Bool.and_false, BitVec.and_zero, BitVec.getMsbD_zero]

theorem getMsbD_s6Addr32 (a : BitVec 128) {ctr i : Nat} (hctr : ctr < 4) (hi : i < 32) :
    (s6Addr32 a ctr).getMsbD i = a.getMsbD (32 * ctr + i) := by
  unfold s6Addr32
  have hpos : 128 - (96 - 32 * ctr + 32 - i) = 32 * ctr + i := by omega
  have hle : 96 - 32 * ctr + 32 - i ≤ 128 := by omega
  rw [BitVec.getMsbD_extractLsb', hpos, decide_eq_true hi, decide_eq_true hle, Bool.true_and,
    Bool.true_and]

/-- The masked words of an IPv6 address, put together again. -/
theorem getMsbD_maskedWords (a : BitVec 128) (l : Nat) {i : Nat} (hi : i < 128) :
    (((s6Addr32 a 0 &&& mask32 l 0) ++ (s6Addr32 a 1 &&& mask32 l 1) ++
      (s6Addr32 a 2 &&& mask32 l 2) ++ (s6Addr32 a 3 &&& mask32 l 3) :
        BitVec 128)).getMsbD i = (a.getMsbD i && decide (i < l)) := by
  have hword : ∀ ctr < 4, ∀ j < 32, (s6Addr32 a ctr &&& mask32 l ctr).getMsbD j =
      (a.getMsbD (32 * ctr + j) && decide (32 * ctr + j < l)) := fun ctr hc j hj => by
    rw [getMsbD_and_mask32 _ _ _ _ hj, getMsbD_s6Addr32 a hc hj]
  rw [BitVec.getMsbD_append]
  split_ifs with h3
  · rw [hword 3 (by omega) _ (by omega), show 32 * 3 + (i - (32 + 32 + 32)) = i by omega]
  · rw [BitVec.getMsbD_append]
    split_ifs with h2
    · rw [hword 2 (by omega) _ (by omega), show 32 * 2 + (i - (32 + 32)) = i by omega]
    · rw [BitVec.getMsbD_append]
      split_ifs with h1
      · rw [hword 1 (by omega) _ (by omega), show 32 * 1 + (i - 32) = i by omega]
      · rw [hword 0 (by omega) _ (by omega), show 32 * 0 + i = i by omega]

/-- Keeping the first bits of a word, on its list of bits. -/
theorem msbs_of_masked {w l : Nat} {x y : BitVec w} (hl : l ≤ w)
    (h : ∀ i < w, y.getMsbD i = (x.getMsbD i && decide (i < l))) :
    (range w).map y.getMsbD =
      ((range w).map x.getMsbD).take l ++ replicate (w - l) false := by
  apply ext_getElem
  · simp
    omega
  · intro i hi _
    have hiw : i < w := by simpa using hi
    simp only [getElem_map, getElem_range, h i hiw, getElem_append, length_take,
      length_map, length_range, getElem_take, getElem_replicate]
    split_ifs with hil
    · rw [decide_eq_true (by omega), Bool.and_true]
    · rw [decide_eq_false (by omega), Bool.and_false]

/-- The network address of a prefix has the first bits of its address and zeros after them. -/
theorem networkAddress_bits {a n : IpAddr} {plen : UInt8} (h : networkAddress a plen = .ok n) :
    plen ≤ ipAddrAfiToDefaultMask a ∧ ipAddrAfi n = ipAddrAfi a ∧
      ipBits n = (ipBits a).take plen.toNat ++
        replicate ((ipAddrAfiToDefaultMask a).toNat - plen.toNat) false := by
  cases a with
  | v4 a =>
    unfold networkAddress prefGetNetworkAddressV4 at h
    split_ifs at h with h0 hle
    · cases h
      refine ⟨by rw [h0]; exact UInt8.zero_le, rfl, ?_⟩
      refine msbs_of_masked (by rw [h0]; decide) fun i _ => ?_
      rw [h0, BitVec.and_zero, BitVec.getMsbD_zero, decide_eq_false (by simp), Bool.and_false]
    · cases h
      have hl : plen.toNat ≤ 32 := UInt8.le_iff_toNat_le.mp hle
      exact ⟨hle, rfl, msbs_of_masked hl fun i _ => getMsbD_and_highMask a hl i⟩
    · cases h
  | v6 a =>
    unfold networkAddress prefGetNetworkAddressV6 at h
    split_ifs at h with hle
    · cases h
      have hl : plen.toNat ≤ 128 := UInt8.le_iff_toNat_le.mp hle
      exact ⟨hle, rfl, msbs_of_masked hl fun i hi => getMsbD_maskedWords a _ hi⟩
    · cases h

/-- The network address has the first bits of the address. -/
theorem networkAddress_take {a n : IpAddr} {plen : UInt8} (h : networkAddress a plen = .ok n) :
    (ipBits n).take plen.toNat = (ipBits a).take plen.toNat := by
  obtain ⟨hle, -, hbits⟩ := networkAddress_bits h
  have hlen : ((ipBits a).take plen.toNat).length = plen.toNat := by
    rw [length_take, ipBits_length, Nat.min_eq_left (UInt8.le_iff_toNat_le.mp hle)]
  rw [hbits, take_append_of_le_length (Nat.le_of_eq hlen.symm), take_take, Nat.min_self]

theorem ipBits_injective {a b : IpAddr} (h : ipBits a = ipBits b) : a = b := by
  have hmsb : ∀ {w : Nat} {x y : BitVec w},
      (range w).map x.getMsbD = (range w).map y.getMsbD → x = y := fun {w x y} hxy => by
    refine BitVec.eq_of_getMsbD_eq fun i hi => ?_
    exact map_inj_left.mp hxy i (mem_range.mpr hi)
  have hlen := congrArg length h
  cases a with
  | v4 a =>
    cases b with
    | v4 b => rw [hmsb h]
    | v6 b => simp [ipAddrAfiToDefaultMask] at hlen
  | v6 a =>
    cases b with
    | v4 b => simp [ipAddrAfiToDefaultMask] at hlen
    | v6 b => rw [hmsb h]

/-! ## Containment -/

/-- An address belongs to an IP prefix: same family and same first bits. -/
def InPrefix (x : IpAddr) : LispAddr → Prop
  | .ippref a plen => ipAddrAfi x = ipAddrAfi a ∧ (ipBits a).take plen.toNat <+: ipBits x
  | _ => False

/-- Every address of the second prefix belongs to the first. -/
def PrefixContains (aPrefix bPrefix : LispAddr) : Prop :=
  ∀ x, InPrefix x bPrefix → InPrefix x aPrefix

/-- What `pref_get_network_prefix` returns: the same prefix, with the bits after it cleared. -/
theorem prefGetNetworkPrefix_some {address eid : LispAddr}
    (h : prefGetNetworkPrefix address = .ok (some eid)) :
    ∃ a n plen, address = .ippref a plen ∧ eid = .ippref n plen ∧
      networkAddress a plen = .ok n := by
  unfold prefGetNetworkPrefix prefGetNetworkAddress at h
  cases address with
  | ippref a plen =>
    simp only [except_bind_ok, except_map_ok] at h
    obtain ⟨_, ⟨n, hn, rfl⟩, h⟩ := h
    exact ⟨a, n, plen, rfl, Option.some.inj (except_pure_ok.mp h), hn⟩
  | _ => cases h

variable {aPrefix bPrefix : LispAddr}

/-- When `pref_is_prefix_b_part_of_a` says yes, both are prefixes of one family, the second is at
least as long, and the two have the same network address at the length of the first. -/
theorem prefIsPrefixBPartOfA_true (h : prefIsPrefixBPartOfA aPrefix bPrefix = .ok true) :
    ∃ a la b lb n, aPrefix = .ippref a la ∧ bPrefix = .ippref b lb ∧ la ≤ lb ∧
      networkAddress a la = .ok n ∧ networkAddress b la = .ok n := by
  unfold prefIsPrefixBPartOfA at h
  dsimp only at h
  split_ifs at h with hpref hafi hlen
  · cases h
  · cases h
  · cases h
  · rw [not_or, not_not, not_not] at hpref
    cases aPrefix with
    | ippref a la =>
      cases bPrefix with
      | ippref b lb =>
        simp only [prefGetNetworkAddress, lispAddrSetPlen, lispAddrGetPlen, except_bind_ok,
          except_map_ok] at h
        obtain ⟨_, ⟨m, hm, rfl⟩, _, ⟨n, hn, rfl⟩, h⟩ := h
        have hcmp : lispAddrCmp (.ip m) (.ip n) = 0 :=
          of_decide_eq_true (except_pure_ok.mp h).symm
        rw [lispAddrCmp, ipAddrCmp_eq_zero_iff] at hcmp
        rw [hcmp] at hm
        exact ⟨a, la, b, lb, n, rfl, rfl, UInt8.not_lt.mp hlen, hm, hn⟩
      | _ => cases hpref.2
    | _ => cases hpref.1

/-- The test implies the containment of the address sets. -/
theorem prefIsPrefixBPartOfA_contains
    (h : prefIsPrefixBPartOfA aPrefix bPrefix = .ok true) : PrefixContains aPrefix bPrefix := by
  obtain ⟨a, la, b, lb, n, rfl, rfl, hle, ha, hb⟩ := prefIsPrefixBPartOfA_true h
  obtain ⟨-, hafia, -⟩ := networkAddress_bits ha
  obtain ⟨-, hafib, -⟩ := networkAddress_bits hb
  rintro x ⟨hafi, hx⟩
  refine ⟨hafi.trans (hafib.symm.trans hafia), ?_⟩
  have hlen : la.toNat ≤ lb.toNat := UInt8.le_iff_toNat_le.mp hle
  rw [← networkAddress_take ha, networkAddress_take hb]
  exact (take_prefix_take_left hlen).trans hx

end Lispmob
