import Mathlib.Data.Nat.Bitwise
import Lispmob.Encapsulation

/-!
# Checksums in their place

`onesSum` is what a checksum is defined by: the sum of 16 bit words in which each carry comes back
in at the end, with a zero after an odd byte. The three loops of the code fold the carries at
different moments, `ip_checksum` and `udp_ipv6_checksum` after all of the words and
`udp_ipv4_checksum` also on the way. None of them overflows 32 bits on at most `65535` bytes, all
take the complement of the same sum, and with the result in its field the sum vanishes
(`checksums_exact`).

The field has to be zero before. `pkt_push_ipv4` leaves in it what was in the headroom, so a header
is right only over zeros, in either of their representations (`header_checksum_iff`).
-/

namespace Lispmob

open List

/-! ## The sum of words -/

/-- Two words added up, with the carry. -/
def onesAdd (a b : Nat) : Nat :=
  (a + b) % 65536 + (a + b) / 65536

/-- The ones' complement sum of the words of a sequence of bytes. -/
def onesSum : List UInt8 → Nat
  | x :: y :: l => onesAdd (x.toNat + 256 * y.toNat) (onesSum l)
  | [x] => x.toNat
  | [] => 0

theorem onesSum_spec : ∀ l : List UInt8, onesSum l < 65536 ∧
    onesSum l % 65535 = wordSum l % 65535 ∧ (onesSum l = 0 ↔ wordSum l = 0)
  | [] => by simp [onesSum, wordSum]
  | [x] => by
    have hx : x.toNat < 256 := x.toNat_lt
    exact ⟨Nat.lt_trans hx (by decide), rfl, .rfl⟩
  | x :: y :: l => by
    have hx : x.toNat < 256 := x.toNat_lt
    have hy : y.toNat < 256 := y.toNat_lt
    have hl := onesSum_spec l
    simp only [onesSum, onesAdd, wordSum]
    omega

/-- Two numbers that are congruent and vanish together have one complement. -/
theorem onesComplement_unique {sum : UInt32} {c : Nat} (hc : c < 65536)
    (hmod : c % 65535 = sum.toNat % 65535) (hzero : c = 0 ↔ sum.toNat = 0) :
    (onesComplement sum).toNat = 65535 - c := by
  by_cases h0 : sum = 0
  · subst h0
    rw [hzero.mpr rfl]
    rfl
  · have hne : sum.toNat ≠ 0 := fun h => h0 (UInt32.toNat_inj.mp h)
    obtain ⟨hlt, hsum⟩ := onesComplement_toNat h0
    omega

theorem wordSum_field {pre : List UInt8} (hpre : pre.length % 2 = 0) (post : List UInt8)
    (c : UInt16) : wordSum (pre ++ (beBytes 2 c.toNat ++ post)) =
      wordSum (pre ++ (0 :: 0 :: post)) + (ntohs c).toNat := by
  have hc : c.toNat < 2 ^ 16 := c.toNat_lt
  rw [wordSum_append _ hpre, wordSum_append _ hpre]
  simp only [beBytes, cons_append, nil_append, wordSum, ntohs_toNat, UInt8.toNat_ofNat',
    UInt8.toNat_zero]
  omega

/-- `f` computes the checksum of a sequence of bytes after a pseudo-header, and vanishes once the
result is in a field that was zero. -/
def ChecksumOf (f : List UInt8 → Except Fault UInt16) (pseudo l : List UInt8) : Prop :=
  ∃ sum, f l = .ok sum ∧ sum.toNat = 65535 - onesSum (pseudo ++ l) ∧
    ∀ pre post, l = pre ++ (0 :: 0 :: post) → pre.length % 2 = 0 →
      f (pre ++ (beBytes 2 (ntohs sum).toNat ++ post)) = .ok 0

/-- It is enough that `f` takes the complement of a number that is congruent to the sum of the words
and vanishes with it. -/
theorem checksumOf {f : List UInt8 → Except Fault UInt16} {pseudo l : List UInt8}
    (hpseudo : pseudo.length % 2 = 0)
    (h : ∀ m : List UInt8, m.length = l.length → ∃ sum : UInt32, f m = .ok (onesComplement sum) ∧
      sum.toNat % 65535 = wordSum (pseudo ++ m) % 65535 ∧
      (sum.toNat = 0 ↔ wordSum (pseudo ++ m) = 0)) : ChecksumOf f pseudo l := by
  have hsum : ∀ m : List UInt8, m.length = l.length →
      ∃ sum, f m = .ok sum ∧ sum.toNat = 65535 - onesSum (pseudo ++ m) := by
    intro m hm
    obtain ⟨sum, hf, hmod, hzero⟩ := h m hm
    obtain ⟨hlt, hmod', hzero'⟩ := onesSum_spec (pseudo ++ m)
    exact ⟨_, hf, onesComplement_unique hlt (hmod'.trans hmod.symm) (hzero'.trans hzero.symm)⟩
  obtain ⟨sum, hf, heq⟩ := hsum l rfl
  refine ⟨sum, hf, heq, ?_⟩
  rintro pre post rfl hpre
  obtain ⟨sum', hf', heq'⟩ := hsum (pre ++ (beBytes 2 (ntohs sum).toNat ++ post))
    (by simp only [length_append, beBytes_length, length_cons]; omega)
  obtain ⟨hlt, hmod, hzero⟩ := onesSum_spec (pseudo ++ (pre ++ (0 :: 0 :: post)))
  obtain ⟨hlt', hmod', hzero'⟩ :=
    onesSum_spec (pseudo ++ (pre ++ (beBytes 2 (ntohs sum).toNat ++ post)))
  rw [wordSum_append _ hpseudo, wordSum_field hpre, ntohs_ntohs] at hmod' hzero'
  rw [wordSum_append _ hpseudo] at hmod hzero
  have h0 : sum'.toNat = 0 := by omega
  rw [hf', UInt16.toNat_inj.mp (h0.trans UInt16.toNat_zero.symm)]

/-! ## The loops -/

/-- The loop over a UDP packet in unbounded arithmetic. -/
def udpTotal : Nat → List UInt8 → Nat
  | sum, x :: y :: buf =>
    let sum := sum + (x.toNat + 256 * y.toNat)
    udpTotal (if sum.testBit 31 then sum / 65536 + sum % 65536 else sum) buf
  | sum, [x] => sum + x.toNat
  | sum, [] => sum

/-- The loop over a UDP packet computes its sum modulo `65535` and never overflows. -/
theorem udpLoop_exact : ∀ (l : List UInt8) (sum : UInt32), sum.toNat < 2 ^ 31 →
    (udpLoop sum l).toNat = udpTotal sum.toNat l ∧ udpTotal sum.toNat l < 2 ^ 31 + 256 ∧
      udpTotal sum.toNat l % 65535 = (sum.toNat + wordSum l) % 65535
  | [], sum, h => ⟨rfl, Nat.lt_add_right _ h, rfl⟩
  | [x], sum, h => by
    have hx : x.toNat < 2 ^ 8 := x.toNat_lt
    have hadd : (sum + x.toUInt32).toNat = sum.toNat + x.toNat := by
      rw [UInt32.toNat_add, UInt8.toNat_toUInt32]
      omega
    exact ⟨hadd, Nat.add_lt_add h hx, rfl⟩
  | x :: y :: l, sum, h => by
    have hx : x.toNat < 2 ^ 8 := x.toNat_lt
    have hy : y.toNat < 2 ^ 8 := y.toNat_lt
    have hword : (sum + (x.toUInt32 + 256 * y.toUInt32)).toNat =
        sum.toNat + (x.toNat + 256 * y.toNat) := by
      simp only [UInt32.toNat_add, UInt32.toNat_mul, UInt8.toNat_toUInt32, UInt32.reduceToNat]
      omega
    simp only [udpLoop, udpTotal, wordSum, ← hword]
    generalize sum + (x.toUInt32 + 256 * y.toUInt32) = s at hword
    have hbit : s &&& 0x80000000 ≠ 0 ↔ s.toNat.testBit 31 = true := by
      rw [ne_eq, ← UInt32.toNat_inj, UInt32.toNat_and]
      change ¬ s.toNat &&& 2 ^ 31 = 0 ↔ _
      rw [Nat.and_two_pow]
      cases s.toNat.testBit 31 <;> simp
    simp only [hbit]
    have hsmall : ¬ s.toNat.testBit 31 = true → s.toNat < 2 ^ 31 := by
      rw [Nat.testBit_eq_decide_div_mod_eq, decide_eq_true_eq]
      omega
    split_ifs with htop
    · have hfold := fold_toNat s
      obtain ⟨hexact, hlt, hmod⟩ := udpLoop_exact l ((s >>> 16) + (s &&& 0xffff)) (by omega)
      rw [hfold] at hexact hlt hmod
      exact ⟨hexact, hlt, by omega⟩
    · obtain ⟨hexact, hlt, hmod⟩ := udpLoop_exact l s (hsmall htop)
      exact ⟨hexact, hlt, by omega⟩

/-- The pseudo-header of a UDP packet. -/
def pseudoHeader (len : UInt16) (src dst : IpAddr) : List UInt8 :=
  src.bytes ++ (dst.bytes ++ match src with
    | .v4 _ => [0, IPPROTO_UDP] ++ beBytes 2 len.toNat
    | .v6 _ => beBytes 4 len.toNat ++ [0, 0, 0, IPPROTO_UDP])

theorem IpAddr.bytes_length (a : IpAddr) : a.bytes.length = 4 ∨ a.bytes.length = 16 := by
  cases a <;> simp [bytes]

/-- A pseudo-header adds something to a sum, and not much. -/
theorem wordSum_pseudoHeader (len : UInt16) (src dst : IpAddr) :
    (pseudoHeader len src dst).length % 2 = 0 ∧ 0 < wordSum (pseudoHeader len src dst) ∧
      wordSum (pseudoHeader len src dst) < 2 ^ 21 := by
  have hsrc := src.bytes_length
  have hdst := dst.bytes_length
  obtain ⟨l, hl, heven, hle, hpos⟩ : ∃ l, pseudoHeader len src dst = src.bytes ++ (dst.bytes ++ l) ∧
      l.length % 2 = 0 ∧ l.length ≤ 8 ∧ 0 < wordSum l := by
    cases src with
    | v4 =>
      refine ⟨_, rfl, by simp, by simp, ?_⟩
      rw [wordSum_append _ rfl]
      exact Nat.add_pos_left (by decide) _
    | v6 =>
      refine ⟨_, rfl, by simp, by simp, ?_⟩
      rw [wordSum_append _ (by simp)]
      exact Nat.add_pos_right _ (by decide)
  have hbound := wordSum_le (pseudoHeader len src dst)
  rw [hl, length_append, length_append] at hbound ⊢
  refine ⟨by omega, ?_, by omega⟩
  rw [wordSum_append _ (by omega), wordSum_append _ (by omega)]
  omega

/-- The sum that `udp_checksum` takes the complement of, in unbounded arithmetic. -/
def udpSum (l : List UInt8) (src dst : IpAddr) : Nat :=
  let pseudo := wordSum (pseudoHeader (.ofNat l.length) src dst)
  match src with
  | .v4 _ => udpTotal 0 l + pseudo
  | .v6 _ => pseudo + wordSum l

variable {l : List UInt8}

/-- What follows a UDP packet in memory is not read. -/
theorem bytesAt_packet (h : l.length ≤ 65535) (tail : List UInt8) :
    bytesAt (l ++ tail) 0 (UInt16.ofNat l.length).toNat = .ok l := by
  rw [UInt16.toNat_ofNat_of_lt' (Nat.lt_succ_of_le h), bytesAt, slice, if_pos (by simp)]
  simp

theorem udpChecksum_append (h : l.length ≤ 65535) (tail : List UInt8) (src dst : IpAddr) :
    udpChecksum (l ++ tail) (.ofNat l.length) src dst =
      udpChecksum l (.ofNat l.length) src dst := by
  have hall := bytesAt_packet h []
  rw [append_nil] at hall
  simp only [udpChecksum, bytesAt_packet h tail, hall]

/-- The number that `udp_checksum` takes the complement of. -/
theorem udpChecksum_eq (h : l.length ≤ 65535) (src dst : IpAddr) :
    ∃ sum : UInt32, udpChecksum l (.ofNat l.length) src dst = .ok (onesComplement sum) ∧
      sum.toNat = udpSum l src dst ∧ 0 < sum.toNat ∧ sum.toNat % 65535 =
        wordSum (pseudoHeader (.ofNat l.length) src dst ++ l) % 65535 := by
  have hread := bytesAt_packet h []
  rw [append_nil] at hread
  obtain ⟨heven, hpos, hlt⟩ := wordSum_pseudoHeader (.ofNat l.length) src dst
  have hle := wordSum_le l
  rw [wordSum_append _ heven]
  simp only [udpSum]
  generalize hph : pseudoHeader (.ofNat l.length) src dst = ph at *
  cases src with
  | v4 a =>
    obtain ⟨hexact, hlt', hmod⟩ := udpLoop_exact l 0 (by decide)
    rw [UInt32.toNat_zero] at hexact hlt' hmod
    refine ⟨cksumLoop (udpLoop 0 l) ph, ?_, ?_⟩
    · simp only [udpChecksum, hread, bind, Except.bind, not_addCarries, ← hph]
      rfl
    · rw [cksumLoop_toNat, hexact, Nat.mod_eq_of_lt (by omega)]
      exact ⟨rfl, by omega, by omega⟩
  | v6 a =>
    refine ⟨cksumLoop (cksumLoop 0 ph) l, ?_, ?_⟩
    · simp only [udpChecksum, hread, bind, Except.bind, not_addCarries, ← hph]
      rfl
    · rw [cksumLoop_toNat, cksumLoop_toNat, UInt32.toNat_zero, Nat.zero_add,
        Nat.mod_eq_of_lt (by omega), Nat.mod_eq_of_lt (by omega)]
      exact ⟨rfl, by omega, rfl⟩

theorem udpChecksum_checksumOf (h : l.length ≤ 65535) (src dst : IpAddr) :
    ChecksumOf (fun l => udpChecksum l (.ofNat l.length) src dst)
      (pseudoHeader (.ofNat l.length) src dst) l := by
  obtain ⟨heven, hpos, -⟩ := wordSum_pseudoHeader (.ofNat l.length) src dst
  refine checksumOf heven fun m hm => ?_
  obtain ⟨sum, heq, -, hsum, hmod⟩ := udpChecksum_eq (hm.trans_le h) src dst
  refine ⟨sum, heq, hm ▸ hmod, ?_⟩
  rw [wordSum_append _ heven]
  omega

/-- Every sequence of at most `65535` bytes: the loops do not overflow, the three checksums are the
complements of the ones' complement sums, over the pseudo-header where there is one, and with the
result in a field that was zero the same function returns `0`. -/
theorem checksums_exact (h : l.length ≤ 65535) :
    (cksumLoop 0 l).toNat = wordSum l ∧ ChecksumOf (fun l => .ok (ipChecksum l)) [] l ∧
    ∀ src dst, (∃ sum, udpChecksum l (.ofNat l.length) src dst = .ok (onesComplement sum) ∧
        sum.toNat = udpSum l src dst) ∧
      ChecksumOf (fun l => udpChecksum l (.ofNat l.length) src dst)
        (pseudoHeader (.ofNat l.length) src dst) l := by
  have hip : ∀ m : List UInt8, m.length = l.length → (cksumLoop 0 m).toNat = wordSum m := by
    intro m hm
    have hle := wordSum_le m
    rw [cksumLoop_toNat, UInt32.toNat_zero, Nat.zero_add, Nat.mod_eq_of_lt (by omega)]
  refine ⟨hip l rfl, checksumOf rfl fun m hm => ⟨_, rfl, ?_⟩, fun src dst => ⟨?_, ?_⟩⟩
  · rw [nil_append, hip m hm]
    exact ⟨rfl, .rfl⟩
  · obtain ⟨sum, heq, hsum, -⟩ := udpChecksum_eq h src dst
    exact ⟨sum, heq, hsum⟩
  · exact udpChecksum_checksumOf h src dst

/-- Three bytes in a packet of IPv6. -/
theorem checksums_exact_odd : ([1, 2, 3] : List UInt8).length ≤ 65535 ∧
    ∃ sum, udpChecksum [1, 2, 3] 3 (.v6 1) (.v6 2) = .ok sum ∧
      sum.toNat = 65535 - onesSum (pseudoHeader 3 (.v6 1) (.v6 2) ++ [1, 2, 3]) := by
  obtain ⟨-, -, hudp⟩ := checksums_exact (l := [1, 2, 3]) (by decide)
  obtain ⟨sum, heq, hsum, -⟩ := (hudp (.v6 1) (.v6 2)).2
  exact ⟨by decide, sum, heq, hsum⟩

/-! ## The header of IPv4 -/

section Header

variable (malloc : Malloc) (ipId : UInt16) {b : Lbuf} (src dst : BitVec 32) (proto : UInt8)

/-- The two bytes that become the field of the checksum. -/
def sumField (malloc : Malloc) (b : Lbuf) : List UInt8 :=
  let head := if 20 ≤ b.head.length then b.head else malloc.bytes 64
  (head.drop (head.length - 10)).take 2

/-- `pkt_push_ipv4` writes a header whose checksum is right. -/
def HeaderChecks (b : Lbuf) : Prop :=
  ∃ b' ipId', pktPushIpv4 malloc ipId b src dst proto = .ok (b', ipId') ∧
    ipChecksum (b'.data.take 20) = 0

/-- What was in the field is in the sum that goes into the field. -/
theorem Iphdr.ipChecksum_written {h : Iphdr} (hver : h.vihl >>> 4 = 4) :
    ipChecksum { h with check := ntohs (ipChecksum h.toBytes) }.toBytes = 0 ↔
      h.check.toNat = 0 ∨ h.check.toNat = 65535 := by
  obtain ⟨hlt, hmod⟩ := h.ipChecksum_toBytes hver
  obtain ⟨hlt', hmod'⟩ :=
    ipChecksum_toBytes (h := { h with check := ntohs (ipChecksum h.toBytes) }) hver
  have hc : h.check.toNat < 2 ^ 16 := h.check.toNat_lt
  rw [wordSum_toBytes, ntohs_toNat] at hmod
  rw [wordSum_toBytes, ntohs_ntohs] at hmod'
  rw [← UInt16.toNat_inj, UInt16.toNat_zero]
  dsimp only at hmod'
  omega

theorem headerChecks_of_room (h : 20 ≤ b.head.length) :
    HeaderChecks malloc ipId src dst proto b ↔
      sumField malloc b = [0, 0] ∨ sumField malloc b = [255, 255] := by
  obtain ⟨old, iph, hold, hiph, hpush⟩ := pktPushIpv4_eq malloc ipId h src dst proto
  have hfield : sumField malloc b = beBytes 2 old.check.toNat := by
    rw [sumField, if_pos h, show b.head.length - 10 = b.head.length - 20 + 10 by omega,
      ← drop_drop, hold]
    rfl
  have hdata : (b.push { iph with check := ntohs (ipChecksum iph.toBytes) }.toBytes).data.take 20 =
      { iph with check := ntohs (ipChecksum iph.toBytes) }.toBytes :=
    take_left' (Iphdr.toBytes_length _)
  have hver : iph.vihl >>> 4 = 4 := by
    rw [hiph]
    exact (by decide : (0x45 : UInt8) >>> 4 = 4)
  have hold' : iph.check = old.check := by rw [hiph]
  have hhigh : old.check.toNat / 256 < 2 ^ 8 := Nat.div_lt_of_lt_mul old.check.toNat_lt
  simp only [HeaderChecks, hpush, Except.ok.injEq, Prod.mk.injEq, exists_and_left,
    exists_eq_left', and_assoc, hdata]
  rw [Iphdr.ipChecksum_written hver, hold', hfield]
  simp only [beBytes, cons.injEq, and_true, ← UInt8.toNat_inj, UInt8.toNat_ofNat',
    UInt8.reduceToNat, pow_one, pow_zero, Nat.div_one, Nat.mod_eq_of_lt hhigh]
  omega

/-- `pkt_push_ipv4` writes a right checksum exactly over a field that was zero, in one of its two
representations, and in a buffer that has room or comes from the heap. -/
theorem header_checksum_iff (b : Lbuf) : HeaderChecks malloc ipId src dst proto b ↔
    (20 ≤ b.head.length ∨ b.source = .MALLOC) ∧
      (sumField malloc b = [0, 0] ∨ sumField malloc b = [255, 255]) := by
  by_cases h : 20 ≤ b.head.length
  · rw [headerChecks_of_room malloc ipId src dst proto h]
    simp [h]
  · have hlt : 20 > b.head.length := Nat.lt_of_not_le h
    cases hsource : b.source with
    | STACK =>
      have hfault : pktPushIpv4 malloc ipId b src dst proto = .error .badRelease := by
        rw [pktPushIpv4, Lbuf.pushUninit, Lbuf.preallocHeadroom, if_pos hlt, Lbuf.resize, hsource]
        rfl
      simp [HeaderChecks, hfault, h]
    | MALLOC =>
      obtain ⟨b', hresize, hhead⟩ : ∃ b', b.resize malloc (max 20 64) b.tail.length = .ok b' ∧
          b'.head = malloc.bytes 64 := by
        rw [Lbuf.resize, hsource]
        dsimp only
        rw [if_neg (by omega)]
        exact ⟨_, rfl, rfl⟩
      have hroom : 20 ≤ b'.head.length := by
        rw [hhead, malloc.length_bytes]
        decide
      have hpush : b.pushUninit malloc 20 = b'.pushUninit malloc 20 := by
        simp only [Lbuf.pushUninit, Lbuf.preallocHeadroom, if_pos hlt,
          if_neg (Nat.not_lt.mpr hroom),
          hresize]
      have hfield : sumField malloc b = sumField malloc b' := by
        rw [sumField, if_neg h, sumField, if_pos hroom, hhead]
      have h' := headerChecks_of_room malloc ipId src dst proto hroom
      rw [← hfield] at h'
      simp only [HeaderChecks, pktPushIpv4, hpush] at h' ⊢
      rw [h', and_iff_right (.inr trivial)]

end Header

/-- A second header in the place of one that was pulled: the checksum of the first is in its sum. -/
theorem header_checksum_second : ∃ b ipId b',
    pktPushIpv4 labMalloc 0 (labOut [1]) 0xc0000201#32 0xc0000202#32 IPPROTO_UDP = .ok (b, ipId) ∧
      b.pull 20 = some b' ∧
      HeaderChecks labMalloc 0 0xc0000201#32 0xc0000202#32 IPPROTO_UDP (labOut [1]) ∧
      ¬ HeaderChecks labMalloc ipId 0xc0000201#32 0xc0000202#32 IPPROTO_UDP b' := by
  refine ⟨_, _, _, rfl, rfl, ?_, ?_⟩
  · exact (headerChecks_of_room _ _ _ _ _ (by decide +kernel)).mpr (.inl (by decide +kernel))
  · rw [headerChecks_of_room _ _ _ _ _ (by decide +kernel)]
    decide +kernel

end Lispmob
