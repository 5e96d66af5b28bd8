import Mathlib.Data.List.TakeDrop
import Lispmob.Packets

/-!
# Encapsulation of data packets

`lisp_data_encap` puts a LISP, a UDP and an IP header in front of a packet and
`tun_read_and_decap_pkt` takes them off again. Time to live and type of service are copied out on
the way in and back on the way out, and the checksum of an inner IPv4 header is computed anew.

The sum is over the first 20 bytes of the header. So it is right when the words of the options add
up to `0` modulo `65535`, and wrong otherwise (`encap_decap_iff`).
-/

namespace Lispmob

open List Option

variable {b : Lbuf} {uh : Udphdr} {h : Iphdr} {l : List UInt8} {r : Lbuf}

/-! ## Valid headers -/

namespace IpHdr

/-- Nothing but time to live, type of service and checksum differs. -/
def SameButTtlTos : IpHdr → IpHdr → Prop
  | .v4 h, .v4 h' => h' = { h with ttl := h'.ttl, tos := h'.tos, check := h'.check }
  | .v6 h, .v6 h' => h' = { h with hops := h'.hops, flow := h'.flow } ∧
      h'.flow &&& 0xf00fffff#32 = h.flow &&& 0xf00fffff#32
  | _, _ => False

/-- The options at the start of what follows the first 20 bytes. -/
def options (rest : List UInt8) : IpHdr → List UInt8
  | .v4 h => rest.take (4 * (h.vihl &&& 0xf).toNat - 20)
  | .v6 _ => []

/-- A valid header: the version, and for IPv4 a length of at least five words that are there, and
words that add up to `0` in ones' complement arithmetic. -/
def Valid (rest : List UInt8) : IpHdr → Prop
  | .v4 h => h.vihl >>> 4 = 4 ∧ 5 ≤ (h.vihl &&& 0xf).toNat ∧
      4 * (h.vihl &&& 0xf).toNat ≤ 20 + rest.length ∧
      netSum (h.toBytes ++ options rest (.v4 h)) % 65535 = 0
  | .v6 h => h.flow >>> 28 = 6#32

end IpHdr

/-! ## `lisp_data_encap` -/

/-- `LISP_DATA_PORT`. -/
def LISP_DATA_PORT : UInt16 := 4341

/-- `MAX_LISP_PKT_ENCAP_LEN`. -/
def MAX_LISP_PKT_ENCAP_LEN : Nat := 40 + 8 + 8

/-- `MAX_IP_PKT_LEN`. -/
def MAX_IP_PKT_LEN : Nat := 4096

/-- `LBUF_STACK_OFFSET`. -/
def LBUF_STACK_OFFSET : Nat := 100

section Encap

variable (malloc : Malloc)

/-- `lisp_data_push_hdr`. The bit of the instance ID is not written. -/
def lispDataPushHdr (b : Lbuf) : Except Fault Lbuf := do
  let b ← b.pushUninit malloc 8
  let flags ← byteAt (b.deref b.dataPtr) 0
  return b.store b.dataPtr [flags &&& 0x08, 0, 0, 0, 0, 0, 0, 0]

/-- `lisp_data_encap`. Whether the outer headers could be pushed is not checked. -/
def lispDataEncap (ipId : UInt16) (b : Lbuf) (lp rp : UInt16) (la ra : IpAddr) :
    Except Fault (Lbuf × UInt16) := do
  let (ttl, tos) ← ipHdrTtlAndTos b b.dataPtr
  let b ← lispDataPushHdr malloc b
  let (_, b, ipId) ← pktPushUdpAndIp malloc ipId b lp rp la ra
  let (_, b) ← ipHdrSetTtlAndTos b b.dataPtr ttl tos
  return (b, ipId)

end Encap

/-! ## `tun_read_and_decap_pkt` -/

/-- What `recvmsg` gives: the data, and the ancillary data with time to live and type of service. -/
structure SockData where
  afi : Af
  bytes : List UInt8
  ttl : UInt8
  tos : UInt8

/-- A raw UDP socket gives the whole packet for IPv4, and the UDP packet for IPv6. -/
def rawSocketRecv (pkt : List UInt8) : Option SockData :=
  match pkt with
  | [] => none
  | v :: _ =>
    if v >>> 4 = 4 then
      (Iphdr.ofBytes pkt).map fun r => ⟨.INET, pkt, r.1.ttl, r.1.tos⟩
    else if v >>> 4 = 6 then
      (Ip6Hdr.ofBytes pkt).map fun r => ⟨.INET6, r.2, r.1.hops, ipv6GetTc r.1.flow⟩
    else none

/-- The results of the functions that read packets. -/
inductive TunRet where
  | GOOD
  | BAD
  | ERR_NOT_LISP
deriving DecidableEq

/-- The part of `sock_data_recv` that fills the buffer: no more than there is room for. -/
def Lbuf.recv (b : Lbuf) (bytes : List UInt8) : Lbuf :=
  let n := min bytes.length b.tail.length
  let m := bytes.take n ++ (b.data ++ b.tail).drop n
  { b with data := m.take (b.data.length + n), tail := m.drop (b.data.length + n) }

/-- `tun_read_and_decap_pkt` from the UDP header on. -/
def tunDecapUdp (b : Lbuf) (ttl tos : UInt8) : Except Fault (TunRet × Lbuf) := do
  let udph := b.dataPtr
  let b := b.resetUdp
  let b := (b.pull 8).getD b
  match Udphdr.ofBytes (b.deref udph) with
  | none => throw .outOfRange
  | some (uh, _) =>
    if uh.dest ≠ LISP_DATA_PORT then
      return (.ERR_NOT_LISP, b)
    else
      let lispHdr := (b.pull 8).map fun _ => b.dataPtr
      let b := ((b.pull 8).getD b).resetL3
      let (_, b) ← ipHdrSetTtlAndTos b b.dataPtr ttl tos
      match lispHdr with
      | none => throw .nullDeref
      | some hdr =>
        -- the bit of a Data-Map-Notify is only logged
        let _ ← byteAt (b.deref hdr) 0
        return (.GOOD, b)

/-- `tun_read_and_decap_pkt`. -/
def tunReadAndDecapPkt (sock : Option SockData) (b : Lbuf) : Except Fault (TunRet × Lbuf) :=
  match sock with
  | none => .ok (.BAD, b)
  | some d =>
    let b := b.recv d.bytes
    match d.afi with
    | .INET => do
      let b := b.resetIp
      let pulled ← pktPullIp b
      tunDecapUdp (pulled.getD b) d.ttl d.tos
    | .INET6 => tunDecapUdp b d.ttl d.tos

/-! ## What the headers are -/

theorem lispDataPushHdr_eq (malloc : Malloc) (h : 8 ≤ b.head.length) :
    ∃ l : List UInt8, l.length = 8 ∧ lispDataPushHdr malloc b = .ok (b.push l) := by
  obtain ⟨old, -, hold, hpush⟩ := Lbuf.pushUninit_eq malloc h
  obtain ⟨flags, l, -, rfl⟩ := exists_cons (by omega : 1 ≤ old.length)
  refine ⟨[flags &&& 0x08, 0, 0, 0, 0, 0, 0, 0], rfl, ?_⟩
  have hbyte :
    byteAt ((b.push (flags :: l)).deref (b.push (flags :: l)).dataPtr) 0 = .ok flags := by
    rw [Lbuf.deref_dataPtr]
    rfl
  simp only [lispDataPushHdr, hpush, bind, Except.bind, hbyte]
  exact congrArg Except.ok (Lbuf.store_push b (by rw [hold]; rfl))

/-- Three headers in front of the packet. The outermost has its type of service, and its time to
live unless that is `0`. -/
theorem lispDataEncap_eq (malloc : Malloc) (ipId : UInt16) {inner : IpHdr} {rest : List UInt8}
    (hdata : b.data = inner.toBytes ++ rest) (hver : inner.Versioned)
    (hhead : MAX_LISP_PKT_ENCAP_LEN ≤ b.head.length) (hoff : b.head.length < UINT16_MAX)
    (lp rp : UInt16) {la ra : IpAddr} (hfam : ipAddrAfi la = ipAddrAfi ra) :
    ∃ (outer : IpHdr) (uh : Udphdr) (l : List UInt8) (b' : Lbuf) (ipId' : UInt16),
      outer.Versioned ∧ outer.src = la ∧ outer.tos = inner.tos ∧
      outer.ttl = (if inner.ttl ≠ 0 then inner.ttl else 255) ∧ uh.dest = rp ∧ l.length = 8 ∧
      b'.data = outer.toBytes ++ (uh.toBytes ++ (l ++ (inner.toBytes ++ rest))) ∧
      lispDataEncap malloc ipId b lp rp la ra = .ok (b', ipId') := by
  have hderef : b.deref b.dataPtr = inner.toBytes ++ (rest ++ b.tail) := by
    rw [Lbuf.deref_dataPtr, hdata, append_assoc]
  have hread := ipHdrTtlAndTos_eq hderef hver
  simp only [MAX_LISP_PKT_ENCAP_LEN] at hhead
  obtain ⟨l, hl, hlisp⟩ := lispDataPushHdr_eq malloc (by omega : 8 ≤ b.head.length)
  have hlen := b.push_head_length l
  obtain ⟨hdr, uh, sum, ipId', b', hver', httl, hsrc, -, hdata', huh, -, -, hpush⟩ :=
    pktPushUdpAndIp_eq malloc ipId (by omega : 48 ≤ (b.push l).head.length) (by omega) lp rp hfam
  rw [show (b.push l).data = l ++ (inner.toBytes ++ rest) by rw [Lbuf.push, hdata]] at hdata'
  have hset := ipHdrSetTtlAndTos_eq hdata' hver' inner.ttl inner.tos
  refine ⟨hdr.setTtlAndTos inner.ttl inner.tos, { uh with check := ntohs sum }, l,
    { b' with data := (hdr.setTtlAndTos inner.ttl inner.tos).toBytes ++
      ({ uh with check := ntohs sum }.toBytes ++ (l ++ (inner.toBytes ++ rest))) }, ipId', ?_, ?_,
        ?_,
    ?_, by rw [huh], hl, rfl, ?_⟩
  · exact hver'.setTtlAndTos _ _
  · rw [IpHdr.src_setTtlAndTos, hsrc]
  · rw [IpHdr.tos_setTtlAndTos]
  · rw [IpHdr.ttl_setTtlAndTos, httl]
  · simp only [lispDataEncap, hread, bind, Except.bind, hlisp, hpush, hset]
    rfl

/-- The part in use becomes what was received, as far as there is room. -/
theorem Lbuf.recv_data (h : b.data = []) (bytes : List UInt8) :
    (b.recv bytes).data = bytes.take b.tail.length := by
  have hmin : bytes.take (min bytes.length b.tail.length) = bytes.take b.tail.length := by
    rcases Nat.le_total bytes.length b.tail.length with hle | hle
    · rw [Nat.min_eq_left hle, take_length, take_of_length_le hle]
    · rw [Nat.min_eq_right hle]
  have hlen : (bytes.take (min bytes.length b.tail.length)).length =
      min bytes.length b.tail.length := by
    rw [length_take]
    omega
  simp only [recv, h, length_nil, Nat.zero_add]
  rw [take_left' hlen, hmin]

/-- A UDP packet for the data port with a LISP header: what follows is the inner packet. -/
theorem tunDecapUdp_eq {l rest : List UInt8} {hdr : IpHdr}
    (hdata : b.data = uh.toBytes ++ (l ++ (hdr.toBytes ++ rest))) (hport : uh.dest = LISP_DATA_PORT)
    (hl : l.length = 8) (hver : hdr.Versioned) (ttl tos : UInt8) :
    ∃ b', tunDecapUdp b ttl tos = .ok (.GOOD, b') ∧
      b'.data = (hdr.setTtlAndTos ttl tos).toBytes ++ rest := by
  have hpull1 : b.resetUdp.pull 8 = some { b.resetUdp with
      head := b.head ++ uh.toBytes, data := l ++ (hdr.toBytes ++ rest) } :=
    (Udphdr.toBytes_length uh) ▸ Lbuf.pull_eq b.resetUdp hdata
  generalize hb1 : ({ b.resetUdp with
    head := b.head ++ uh.toBytes, data := l ++ (hdr.toBytes ++ rest) } : Lbuf) = b1 at hpull1
  have hread : Udphdr.ofBytes (b1.deref b.dataPtr) =
      some (uh, l ++ (hdr.toBytes ++ rest) ++ b1.tail) := by
    rw [Lbuf.dataPtr, Lbuf.deref_head b1 (by rw [← hb1]), ← hb1, Udphdr.ofBytes_toBytes]
  have hpull2 : b1.pull 8 = some { b1 with
      head := b1.head ++ l, data := hdr.toBytes ++ rest } :=
    hl ▸ Lbuf.pull_eq b1 (by rw [← hb1])
  generalize hb2 : ({ b1 with head := b1.head ++ l, data := hdr.toBytes ++ rest } : Lbuf) = b2
    at hpull2
  have hdata2 : b2.resetL3.data = hdr.toBytes ++ rest := by
    rw [← hb2]
    rfl
  have hset := ipHdrSetTtlAndTos_eq hdata2 hver ttl tos
  generalize hb3 : ({ b2.resetL3 with
    data := (hdr.setTtlAndTos ttl tos).toBytes ++ rest } : Lbuf) = b3 at hset
  obtain ⟨flags, l', -, rfl⟩ := exists_cons (by omega : 1 ≤ l.length)
  have hbyte : byteAt (b3.deref b1.dataPtr) 0 = .ok flags := by
    rw [Lbuf.dataPtr, Lbuf.deref_head b3 (by rw [← hb3, ← hb2]; rfl)]
    rfl
  refine ⟨b3, ?_, by rw [← hb3]⟩
  simp only [tunDecapUdp, hpull1, getD_some, hread, hport, ne_eq, not_true_eq_false, if_false,
    hpull2, map_some, bind, Except.bind, hset, hbyte]
  rfl

/-- The number of bytes of headers a socket gives in front of the inner packet. -/
def deliveredLen : IpAddr → Nat
  | .v4 _ => 20 + 8 + 8
  | .v6 _ => 8 + 8

theorem take_append_of_le (m : List UInt8) {n : Nat} (h : l.length ≤ n) :
    (l ++ m).take n = l ++ m.take (n - l.length) := by
  rw [take_append, take_of_length_le h]

theorem rawSocketRecv_v4 (hver : h.vihl >>> 4 = 4) (rest : List UInt8) :
    rawSocketRecv (h.toBytes ++ rest) = some ⟨.INET, h.toBytes ++ rest, h.ttl, h.tos⟩ := by
  change (if h.vihl >>> 4 = 4 then _ else _) = _
  rw [if_pos hver]
  exact congrArg (Option.map _) (h.ofBytes_toBytes rest)

theorem rawSocketRecv_v6 {h : Ip6Hdr} (hver : h.flow >>> 28 = 6#32) (rest : List UInt8) :
    rawSocketRecv (h.toBytes ++ rest) = some ⟨.INET6, rest, h.hops, ipv6GetTc h.flow⟩ := by
  have hversioned : (IpHdr.v6 h).Versioned := hver
  obtain ⟨v, hbyte, hv⟩ := hversioned.byteAt rest
  change (if UInt8.ofNat (h.flow.toNat / 256 ^ 3) >>> 4 = 4 then _ else _) = _
  obtain rfl : UInt8.ofNat (h.flow.toNat / 256 ^ 3) = v := Except.ok.inj hbyte
  rw [hv, IpHdr.version, if_neg (by decide), if_pos rfl]
  exact congrArg (Option.map _) (h.ofBytes_toBytes rest)

/-- The LISP packet that a socket hands over loses its headers, and what there is no room for. -/
theorem tunReadAndDecapPkt_eq {outer hdr : IpHdr} {l pkt rest : List UInt8}
    (houter : outer.Versioned) (hport : uh.dest = LISP_DATA_PORT) (hl : l.length = 8)
    (hr : r.data = []) (hroom : deliveredLen outer.src ≤ r.tail.length)
    (hpkt : pkt.take (r.tail.length - deliveredLen outer.src) = hdr.toBytes ++ rest)
    (hver : hdr.Versioned) :
    ∃ r', tunReadAndDecapPkt (rawSocketRecv (outer.toBytes ++ (uh.toBytes ++ (l ++ pkt)))) r =
        .ok (.GOOD, r') ∧
      r'.data = (hdr.setTtlAndTos outer.ttl outer.tos).toBytes ++ rest := by
  have hrecv : ∀ pre : List UInt8, pre.length + 16 = deliveredLen outer.src →
      (r.recv (pre ++ (uh.toBytes ++ (l ++ pkt)))).data =
        pre ++ (uh.toBytes ++ (l ++ (hdr.toBytes ++ rest))) := by
    intro pre hpre
    rw [Lbuf.recv_data hr, take_append_of_le _ (by omega : pre.length ≤ r.tail.length),
      take_append_of_le _ (by rw [Udphdr.toBytes_length]; omega),
      take_append_of_le _ (by rw [Udphdr.toBytes_length]; omega), ← hpkt, Udphdr.toBytes_length, hl,
      show r.tail.length - pre.length - 8 - 8 = r.tail.length - deliveredLen outer.src by omega]
  cases outer with
  | v4 h =>
    have hdata := hrecv h.toBytes (by rw [Iphdr.toBytes_length]; rfl)
    generalize hb : r.recv (h.toBytes ++ (uh.toBytes ++ (l ++ pkt))) = b at hdata
    have hpulled := pktPullIp_eq (b := b.resetIp) houter hdata
    obtain ⟨r', hr', hdata'⟩ := tunDecapUdp_eq (b := { b.resetIp with
      head := b.head ++ h.toBytes, data :=
        uh.toBytes ++ (l ++ (hdr.toBytes ++ rest)) }) rfl hport hl
      hver h.ttl h.tos
    refine ⟨r', ?_, hdata'⟩
    rw [IpHdr.toBytes, rawSocketRecv_v4 houter]
    simp only [tunReadAndDecapPkt, hb, hpulled, bind, Except.bind, getD_some]
    exact hr'
  | v6 h =>
    obtain ⟨r', hr', hdata'⟩ := tunDecapUdp_eq (hrecv [] rfl) hport hl hver h.hops
      (ipv6GetTc h.flow)
    refine ⟨r', ?_, hdata'⟩
    rw [IpHdr.toBytes, rawSocketRecv_v6 houter]
    exact hr'

/-! ## The checksum of the inner header -/

theorem ntohs_toNat (x : UInt16) : (ntohs x).toNat = x.toNat % 256 * 256 + x.toNat / 256 := by
  have hx : x.toNat < 2 ^ 16 := x.toNat_lt
  rw [ntohs, UInt16.toNat_ofNat']
  omega

@[simp] theorem ntohs_ntohs (x : UInt16) : ntohs (ntohs x) = x := by
  have hx : x.toNat < 2 ^ 16 := x.toNat_lt
  apply UInt16.toNat_inj.mp
  rw [ntohs_toNat, ntohs_toNat]
  omega

/-- The sum of a header is the sum without the checksum, and the checksum. -/
theorem Iphdr.wordSum_toBytes (h : Iphdr) :
    wordSum h.toBytes = wordSum { h with check := 0 }.toBytes + (ntohs h.check).toNat := by
  have hc : h.check.toNat < 2 ^ 16 := h.check.toNat_lt
  simp only [toBytes, beBytes, cons_append, nil_append, wordSum, ntohs_toNat,
    UInt8.toNat_ofNat', UInt16.toNat_zero]
  omega

theorem Iphdr.ipChecksum_toBytes (hver : h.vihl >>> 4 = 4) :
    (ipChecksum h.toBytes).toNat < 65535 ∧
      (wordSum h.toBytes + (ipChecksum h.toBytes).toNat) % 65535 = 0 := by
  have hpos : 0 < wordSum h.toBytes := by
    have hne : h.vihl.toNat ≠ 0 := by
      intro h0
      rw [UInt8.toNat_inj.mp (h0.trans UInt8.toNat_zero.symm)] at hver
      exact absurd hver (by decide)
    rw [toBytes, wordSum]
    omega
  have hlt : wordSum h.toBytes < 2 ^ 32 := by
    have hle := wordSum_le h.toBytes
    rw [toBytes_length] at hle
    omega
  exact onesComplement_cksumLoop hpos hlt

/-- Which checksum is the one of a header: the one that makes its first 20 bytes add up to `0`, and
is not the other representation of `0`. -/
theorem Iphdr.check_eq_iff (hver : h.vihl >>> 4 = 4) :
    h.check = ntohs (ipChecksum { h with check := 0 }.toBytes) ↔
      wordSum h.toBytes % 65535 = 0 ∧ h.check ≠ 0xffff := by
  obtain ⟨hlt, hsum⟩ := ipChecksum_toBytes (h := { h with check := 0 }) hver
  have hswap : h.check = 0xffff ↔ (ntohs h.check).toNat = 65535 := by
    have hc : h.check.toNat < 2 ^ 16 := h.check.toNat_lt
    rw [ntohs_toNat, ← UInt16.toNat_inj, show (0xffff : UInt16).toNat = 65535 from rfl]
    omega
  have hc : (ntohs h.check).toNat < 2 ^ 16 := (ntohs h.check).toNat_lt
  have heq : h.check = ntohs (ipChecksum { h with check := 0 }.toBytes) ↔
      (ntohs h.check).toNat = (ipChecksum { h with check := 0 }.toBytes).toNat := by
    rw [UInt16.toNat_inj]
    constructor
    · intro h0
      rw [h0, ntohs_ntohs]
    · intro h0
      rw [← h0, ntohs_ntohs]
  rw [heq, ne_eq, hswap, wordSum_toBytes]
  omega

namespace IpHdr

variable {rest : List UInt8} {hdr hdr' : IpHdr}

/-- The words of the options add up to `0`; without options they do. -/
def OptionsVanish (rest : List UInt8) (hdr : IpHdr) : Prop :=
  netSum (hdr.options rest) % 65535 = 0

/-- The checksum of an IPv4 header is not the other representation of `0`. -/
def CheckCanonical : IpHdr → Prop
  | .v4 h => h.check ≠ 0xffff
  | .v6 _ => True

theorem Valid.versioned (h : hdr.Valid rest) : hdr.Versioned := by
  cases hdr with
  | v4 _ => exact h.1
  | v6 _ => exact h

theorem netSum_options_iff (h : Iphdr) (l : List UInt8) :
    netSum (h.toBytes ++ l) % 65535 = 0 ↔ (wordSum h.toBytes + wordSum l) % 65535 = 0 := by
  rw [netSum_mod_eq_zero_iff, wordSum_append l (by rw [Iphdr.toBytes_length])]

theorem sameButTtlTos_setTtlAndTos (hdr : IpHdr) (ttl tos : UInt8) :
    hdr.SameButTtlTos (hdr.setTtlAndTos ttl tos) := by
  cases hdr with
  | v4 h =>
    simp only [SameButTtlTos, setTtlAndTos, Iphdr.setTtlAndTos]
    split_ifs <;> rfl
  | v6 h =>
    simp only [SameButTtlTos, setTtlAndTos, Ip6Hdr.setTtlAndTos]
    split_ifs <;> exact ⟨rfl, ipv6SetTc_mask _ _⟩

/-- Version, lengths and addresses are among what does not differ. -/
theorem SameButTtlTos.stays (h : hdr.SameButTtlTos hdr') (hver : hdr.Versioned) :
    hdr'.Versioned ∧ hdr'.src = hdr.src ∧ hdr'.toBytes.length = hdr.toBytes.length := by
  cases hdr with
  | v4 iph =>
    cases hdr' with
    | v4 iph' =>
      have hvihl : iph'.vihl = iph.vihl := by rw [h]
      have hsaddr : iph'.saddr = iph.saddr := by rw [h]
      refine ⟨?_, ?_, by simp [toBytes]⟩
      · rwa [Versioned, hvihl]
      · simp only [src, hsaddr]
    | v6 _ => exact h.elim
  | v6 iph =>
    cases hdr' with
    | v4 _ => exact h.elim
    | v6 iph' =>
      have hsrc : iph'.src = iph.src := by rw [h.1]
      refine ⟨(version_of_mask h.2).trans hver, ?_, by simp [toBytes]⟩
      simp only [src, hsrc]

theorem toBytes_inj {l l' : List UInt8} (h : hdr.Versioned)
    (h' : hdr'.Versioned) (heq : hdr.toBytes ++ l = hdr'.toBytes ++ l') : hdr = hdr' ∧ l = l' := by
  obtain ⟨v, hbyte, hv⟩ := h.byteAt l
  obtain ⟨v', hbyte', hv'⟩ := h'.byteAt l'
  have hversion : hdr.version = hdr'.version := by
    rw [heq, hbyte'] at hbyte
    rw [← hv, ← hv', Except.ok.inj hbyte]
  cases hdr with
  | v4 iph =>
    cases hdr' with
    | v4 iph' =>
      have hread := congrArg Iphdr.ofBytes heq
      simp only [toBytes, Iphdr.ofBytes_toBytes, some.injEq, Prod.mk.injEq] at hread
      exact ⟨congrArg _ hread.1, hread.2⟩
    | v6 _ => exact absurd hversion (show (4 : UInt8) ≠ 6 by decide)
  | v6 iph =>
    cases hdr' with
    | v4 _ => exact absurd hversion (show (6 : UInt8) ≠ 4 by decide)
    | v6 iph' =>
      have hread := congrArg Ip6Hdr.ofBytes heq
      simp only [toBytes, Ip6Hdr.ofBytes_toBytes, some.injEq, Prod.mk.injEq] at hread
      exact ⟨congrArg _ hread.1, hread.2⟩

/-- The checksum that is set makes the header without options valid. So the header is valid when
the options add up to `0`. -/
theorem Valid.setTtlAndTos_iff (h : hdr.Valid rest) (ttl tos : UInt8) :
    (hdr.setTtlAndTos ttl tos).Valid rest ↔ hdr.OptionsVanish rest := by
  cases hdr with
  | v4 iph =>
    obtain ⟨hver, hihl, hlen, -⟩ := h
    have hvihl : (iph.setTtlAndTos ttl tos).vihl = iph.vihl := by
      rw [Iphdr.setTtlAndTos]
      split_ifs <;> rfl
    have hcheck : wordSum (iph.setTtlAndTos ttl tos).toBytes % 65535 = 0 :=
      ((Iphdr.check_eq_iff (hvihl ▸ hver)).mp rfl).1
    have hopts : options rest (.v4 (iph.setTtlAndTos ttl tos)) = options rest (.v4 iph) := by
      rw [options, options, hvihl]
    rw [OptionsVanish, netSum_mod_eq_zero_iff, IpHdr.setTtlAndTos, Valid, hopts,
      netSum_options_iff, hvihl]
    constructor
    · omega
    · intro hvanish
      exact ⟨hver, hihl, hlen, by omega⟩
  | v6 iph =>
    have hver : (IpHdr.v6 iph).Versioned := h
    exact iff_of_true (hver.setTtlAndTos ttl tos) rfl

/-- What comes back when nothing changes on the way. -/
theorem Valid.setTtlAndTos_eq_self_iff (h : hdr.Valid rest) :
    hdr.setTtlAndTos (if hdr.ttl ≠ 0 then hdr.ttl else 255) hdr.tos = hdr ↔
      hdr.OptionsVanish rest ∧ hdr.CheckCanonical ∧ hdr.ttl ≠ 0 := by
  constructor
  · intro heq
    have hvanish : hdr.OptionsVanish rest := by
      rw [← h.setTtlAndTos_iff (if hdr.ttl ≠ 0 then hdr.ttl else 255) hdr.tos, heq]
      exact h
    have httl : hdr.ttl ≠ 0 := by
      intro h0
      have hset := congrArg IpHdr.ttl heq
      simp only [h0, ne_eq, not_true_eq_false, if_false, ttl_setTtlAndTos] at hset
      exact absurd hset (by decide)
    refine ⟨hvanish, ?_, httl⟩
    cases hdr with
    | v4 iph =>
      have hiph := IpHdr.v4.inj heq
      have hcheck : iph.check = ntohs (ipChecksum { iph with check := 0 }.toBytes) := by
        rw [← hiph]
        rfl
      exact ((Iphdr.check_eq_iff h.1).mp hcheck).2
    | v6 _ => trivial
  · rintro ⟨hvanish, hcanonical, httl⟩
    rw [if_pos httl]
    cases hdr with
    | v4 iph =>
      have hsum : wordSum iph.toBytes % 65535 = 0 := by
        have hall := (netSum_options_iff iph _).mp h.2.2.2
        have hopts := (netSum_mod_eq_zero_iff _).mp hvanish
        omega
      have hcheck := (Iphdr.check_eq_iff h.1).mpr ⟨hsum, hcanonical⟩
      have hset : iph.setTtlAndTos iph.ttl iph.tos =
          { iph with check := ntohs (ipChecksum { iph with check := 0 }.toBytes) } := by
        simp only [Iphdr.setTtlAndTos, if_pos (show iph.ttl ≠ 0 from httl)]
      simp only [IpHdr.setTtlAndTos, IpHdr.ttl, IpHdr.tos, hset, ← hcheck]
    | v6 iph =>
      have hset : iph.setTtlAndTos iph.hops (ipv6GetTc iph.flow) =
          { iph with flow := ipv6SetTc iph.flow (ipv6GetTc iph.flow) } := by
        simp only [Ip6Hdr.setTtlAndTos, if_pos (show iph.hops ≠ 0 from httl)]
      simp only [IpHdr.setTtlAndTos, IpHdr.ttl, IpHdr.tos, hset, ipv6SetTc_ipv6GetTc]

end IpHdr

/-! ## The round trip -/

/-- What can happen to a packet on the way: time to live, type of service and checksum of its
outermost header change. -/
def Forwarded (p q : List UInt8) : Prop :=
  ∃ (hdr hdr' : IpHdr) (rest : List UInt8), hdr.Versioned ∧ hdr.SameButTtlTos hdr' ∧
    p = hdr.toBytes ++ rest ∧ q = hdr'.toBytes ++ rest

/-- The headers that a socket gives and a packet fit in a buffer. -/
def HasRoom (r : Lbuf) (la : IpAddr) (pkt : List UInt8) : Prop :=
  deliveredLen la + pkt.length ≤ r.tail.length

/-- An inner packet comes out with its header changed, and without what there is no room for. -/
theorem tunReadAndDecapPkt_inner {outer inner : IpHdr} (rest : List UInt8)
    (houter : outer.Versioned) (hport : uh.dest = LISP_DATA_PORT) (hl : l.length = 8)
    (hr : r.data = []) (hroom : MAX_IP_PKT_LEN - LBUF_STACK_OFFSET ≤ r.tail.length)
    (hver : inner.Versioned) :
    ∃ r', tunReadAndDecapPkt (rawSocketRecv
          (outer.toBytes ++ (uh.toBytes ++ (l ++ (inner.toBytes ++ rest))))) r = .ok (.GOOD, r') ∧
      r'.data = (inner.setTtlAndTos outer.ttl outer.tos).toBytes ++
        rest.take (r.tail.length - deliveredLen outer.src - inner.toBytes.length) := by
  simp only [MAX_IP_PKT_LEN, LBUF_STACK_OFFSET] at hroom
  have hlen : deliveredLen outer.src ≤ 36 := by
    cases outer <;> simp [IpHdr.src, deliveredLen]
  have hinner := inner.toBytes_length_le
  exact tunReadAndDecapPkt_eq houter hport hl hr (by omega) (take_append_of_le rest (by omega)) hver

/-- Every valid inner packet in a buffer whose offsets have 16 bits, and two RLOCs of one family. A
packet that is not changed on the way comes back as it was exactly when it fits in the buffer, its
options add up to `0`, its checksum is not the other representation of `0` and its time to live is
not `0`. When the outer header changes on the way, only time to live, type of service and checksum
differ and the header is valid exactly when the packet fits and its options add up to `0`. -/
theorem encap_decap_iff (malloc : Malloc) (ipId : UInt16) {inner : IpHdr} {rest : List UInt8}
    (hvalid : inner.Valid rest) {la ra : IpAddr} (hfam : ipAddrAfi la = ipAddrAfi ra) (lp : UInt16)
    {b r : Lbuf} (hb : b.data = inner.toBytes ++ rest)
    (hhead : MAX_LISP_PKT_ENCAP_LEN ≤ b.head.length) (hoff : b.head.length < UINT16_MAX)
    (hr : r.data = [])
    (hroom : MAX_IP_PKT_LEN - LBUF_STACK_OFFSET ≤ r.tail.length) :
    ∃ b' ipId', lispDataEncap malloc ipId b lp LISP_DATA_PORT la ra = .ok (b', ipId') ∧
      (∃ r', tunReadAndDecapPkt (rawSocketRecv b'.data) r = .ok (.GOOD, r') ∧
        (r'.data = b.data ↔
          HasRoom r la b.data ∧ inner.OptionsVanish rest ∧ inner.CheckCanonical ∧ inner.ttl ≠ 0)) ∧
      ∀ q, Forwarded b'.data q →
        ∃ r', tunReadAndDecapPkt (rawSocketRecv q) r = .ok (.GOOD, r') ∧
          ((∃ hdr' : IpHdr, inner.SameButTtlTos hdr' ∧ r'.data = hdr'.toBytes ++ rest ∧
              hdr'.Valid rest) ↔
            HasRoom r la b.data ∧ inner.OptionsVanish rest) := by
  have hver := hvalid.versioned
  obtain ⟨outer, uh, l, b', ipId', houter, rfl, htos, httl, hport, hl, hdata, hencap⟩ :=
    lispDataEncap_eq malloc ipId hb hver hhead hoff lp LISP_DATA_PORT hfam
  have hfits : HasRoom r outer.src b.data ↔
      rest.take (r.tail.length - deliveredLen outer.src - inner.toBytes.length) = rest := by
    have hlen : deliveredLen outer.src ≤ 36 := by
      cases outer <;> simp [IpHdr.src, deliveredLen]
    have hinner := inner.toBytes_length_le
    simp only [MAX_IP_PKT_LEN, LBUF_STACK_OFFSET] at hroom
    rw [take_eq_self_iff, HasRoom, hb, length_append]
    omega
  refine ⟨b', ipId', hencap, ?_, ?_⟩
  · obtain ⟨r', hrun, hr'⟩ := tunReadAndDecapPkt_inner rest houter hport hl hr hroom hver
    refine ⟨r', hdata ▸ hrun, ?_⟩
    rw [hr', hb, ← hb, hfits, ← hvalid.setTtlAndTos_eq_self_iff, hb, httl, htos]
    constructor
    · intro heq
      have hparts := append_inj heq (IpHdr.setTtlAndTos_length _ _ _)
      exact ⟨hparts.2, (IpHdr.toBytes_inj (hver.setTtlAndTos _ _) hver heq).1⟩
    · rintro ⟨htake, hset⟩
      rw [htake, hset]
  · rintro q ⟨hdr, hdr', tail, hhdr, hsame, hp, rfl⟩
    rw [hdata] at hp
    obtain ⟨rfl, rfl⟩ := IpHdr.toBytes_inj houter hhdr hp
    obtain ⟨hver', hsrc, -⟩ := hsame.stays houter
    obtain ⟨r', hrun, hr'⟩ := tunReadAndDecapPkt_inner rest hver' hport hl hr hroom hver
    refine ⟨r', hrun, ?_⟩
    rw [hr', hsrc, hfits, ← hvalid.setTtlAndTos_iff hdr'.ttl hdr'.tos]
    constructor
    · rintro ⟨hdr2, hsame2, heq, hvalid2⟩
      obtain ⟨hver2, -, -⟩ := hsame2.stays hver
      obtain ⟨rfl, htake⟩ := IpHdr.toBytes_inj (hver.setTtlAndTos _ _) hver2 heq
      exact ⟨htake, hvalid2⟩
    · rintro ⟨htake, hset⟩
      exact ⟨_, inner.sameButTtlTos_setTtlAndTos _ _, by rw [htake], hset⟩

/-! ## Two packets

A packet from `10.0.0.1` to `10.1.0.1` without options, and one with the Router Alert option. -/

def labMalloc : Malloc where
  bytes n := List.replicate n 0
  length_bytes := zeros_length

def labPlain : IpHdr :=
  .v4 ⟨0x45, 0, 24, 1, 0, 64, 17, 0x66d2, 0x0a000001#32, 0x0a010001#32⟩

def labAlert : IpHdr :=
  .v4 ⟨0x46, 0, 28, 1, 0, 64, 17, 0xd1c9, 0x0a000001#32, 0x0a010001#32⟩

/-- The buffers of `tun_output_recv` and of `tun_rtr_process_input_packet`. -/
def labOut (pkt : List UInt8) : Lbuf :=
  ⟨.STACK, List.replicate 100 0, pkt, [], some 100, none, none⟩

def labIn : Lbuf :=
  ⟨.STACK, List.replicate 100 0, [], List.replicate 3996 0, none, none, none⟩

/-- The packet without options comes back, and is valid with another time to live. -/
theorem encap_decap_plain :
    ∃ b' ipId', lispDataEncap labMalloc 0 (labOut (labPlain.toBytes ++ [1, 2, 3, 4])) LISP_DATA_PORT
        LISP_DATA_PORT (.v4 0xc0000201#32) (.v4 0xc0000202#32) = .ok (b', ipId') ∧
      (∃ r', tunReadAndDecapPkt (rawSocketRecv b'.data) labIn = .ok (.GOOD, r') ∧
        r'.data = labPlain.toBytes ++ [1, 2, 3, 4]) ∧
      ∀ q, Forwarded b'.data q →
        ∃ r', tunReadAndDecapPkt (rawSocketRecv q) labIn = .ok (.GOOD, r') ∧
          ∃ hdr' : IpHdr, labPlain.SameButTtlTos hdr' ∧ r'.data = hdr'.toBytes ++ [1, 2, 3, 4] ∧
            hdr'.Valid [1, 2, 3, 4] := by
  have hvalid : labPlain.Valid [1, 2, 3, 4] :=
    ⟨by decide, by decide, by decide, by decide +kernel⟩
  have hfam : ipAddrAfi (.v4 0xc0000201#32) = ipAddrAfi (.v4 0xc0000202#32) := rfl
  obtain ⟨b', ipId', hencap, ⟨r', hrun, hsame⟩, hchanged⟩ :=
    encap_decap_iff labMalloc 0 hvalid hfam
      LISP_DATA_PORT (b := labOut (labPlain.toBytes ++ [1, 2, 3, 4])) (r := labIn) rfl
      (by decide +kernel) (by decide +kernel) rfl (by decide +kernel)
  have hfits : HasRoom labIn (.v4 0xc0000201#32) (labPlain.toBytes ++ [1, 2, 3, 4]) := by
    rw [HasRoom]
    decide +kernel
  refine ⟨b', ipId', hencap, ⟨r', hrun, hsame.mpr ⟨hfits, rfl, ?_, ?_⟩⟩, fun q hq => ?_⟩
  · exact (by decide : (0x66d2 : UInt16) ≠ 0xffff)
  · exact (by decide : (64 : UInt8) ≠ 0)
  · obtain ⟨r', hrun, hiff⟩ := hchanged q hq
    exact ⟨r', hrun, hiff.mpr ⟨hfits, rfl⟩⟩

/-- The packet with an option comes back with a checksum that is wrong. -/
theorem encap_decap_router_alert : labAlert.Valid [0x94, 4, 0, 0, 1, 2, 3, 4] ∧
    ∃ b' ipId' r', lispDataEncap labMalloc 0
        (labOut (labAlert.toBytes ++ [0x94, 4, 0, 0, 1, 2, 3, 4])) LISP_DATA_PORT
        LISP_DATA_PORT (.v4 0xc0000201#32) (.v4 0xc0000202#32) = .ok (b', ipId') ∧
      tunReadAndDecapPkt (rawSocketRecv b'.data) labIn = .ok (.GOOD, r') ∧
      r'.data ≠ labAlert.toBytes ++ [0x94, 4, 0, 0, 1, 2, 3, 4] ∧
      netSum (r'.data.take 24) % 65535 ≠ 0 := by
  refine ⟨⟨by decide, by decide, by decide, by decide +kernel⟩, ?_⟩
  obtain ⟨b', ipId', hencap, ret, r', hdecap, rfl, hsums⟩ : ∃ b' ipId', lispDataEncap labMalloc 0
      (labOut (labAlert.toBytes ++ [0x94, 4, 0, 0, 1, 2, 3, 4])) LISP_DATA_PORT
      LISP_DATA_PORT (.v4 0xc0000201#32) (.v4 0xc0000202#32) = .ok (b', ipId') ∧
      ∃ ret r', tunReadAndDecapPkt (rawSocketRecv b'.data) labIn = .ok (ret, r') ∧ ret = .GOOD ∧
        r'.data ≠ labAlert.toBytes ++ [0x94, 4, 0, 0, 1, 2, 3, 4] ∧
        netSum (r'.data.take 24) % 65535 ≠ 0 := by
    decide +kernel
  exact ⟨b', ipId', r', hencap, hdecap, hsums⟩

end Lispmob
