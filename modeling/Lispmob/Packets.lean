import Mathlib.Tactic.IntervalCases
import Lispmob.Checksum
import Lispmob.WireFormat

/-!
# Packet buffers and headers

`lbuf.c`, `packets.c` and `cksum.c`. A buffer is a piece of memory with a part in use; headers are
pushed in front of that part and pulled off it. `lbuf_push_uninit` gives the bytes as they are in
memory, and the functions that fill a header in do not always write all of it.

A header is a record with `toBytes` and `ofBytes`, which undo each other. The numbers in it are in
host order. The host is little-endian: the sums of `cksum.c` read and store words as they are in
memory, so a checksum is stored with `ntohs`.
-/

namespace Lispmob

open List

/-! ## Headers -/

/-- `ntohs`, which is also `htons`. -/
def ntohs (x : UInt16) : UInt16 :=
  UInt16.ofNat (x.toNat % 256 * 256 + x.toNat / 256)

/-- `struct iphdr`. The first byte is the version and the number of words. -/
structure Iphdr where
  vihl : UInt8
  tos : UInt8
  totLen : UInt16
  id : UInt16
  fragOff : UInt16
  ttl : UInt8
  protocol : UInt8
  check : UInt16
  saddr : BitVec 32
  daddr : BitVec 32
deriving DecidableEq

/-- `struct ip6_hdr`. The version, the traffic class and the flow label are one word. -/
structure Ip6Hdr where
  flow : BitVec 32
  plen : UInt16
  nxt : UInt8
  hops : UInt8
  src : BitVec 128
  dst : BitVec 128
deriving DecidableEq

/-- `struct udphdr`. -/
structure Udphdr where
  source : UInt16
  dest : UInt16
  len : UInt16
  check : UInt16
deriving DecidableEq

def Iphdr.toBytes (h : Iphdr) : List UInt8 :=
  h.vihl :: h.tos :: (beBytes 2 h.totLen.toNat ++ (beBytes 2 h.id.toNat ++
    (beBytes 2 h.fragOff.toNat ++ h.ttl :: h.protocol :: (beBytes 2 h.check.toNat ++
      (beBytes 4 h.saddr.toNat ++ beBytes 4 h.daddr.toNat)))))

def Iphdr.ofBytes (l : List UInt8) : Option (Iphdr × List UInt8) := do
  let (vihl, l) ← readByte l
  let (tos, l) ← readByte l
  let (totLen, l) ← readNat 2 l
  let (id, l) ← readNat 2 l
  let (fragOff, l) ← readNat 2 l
  let (ttl, l) ← readByte l
  let (protocol, l) ← readByte l
  let (check, l) ← readNat 2 l
  let (saddr, l) ← readNat 4 l
  let (daddr, l) ← readNat 4 l
  return (⟨vihl, tos, .ofNat totLen, .ofNat id, .ofNat fragOff, ttl, protocol, .ofNat check,
    .ofNat 32 saddr, .ofNat 32 daddr⟩, l)

def Ip6Hdr.toBytes (h : Ip6Hdr) : List UInt8 :=
  beBytes 4 h.flow.toNat ++ (beBytes 2 h.plen.toNat ++ h.nxt :: h.hops ::
    (beBytes 16 h.src.toNat ++ beBytes 16 h.dst.toNat))

def Ip6Hdr.ofBytes (l : List UInt8) : Option (Ip6Hdr × List UInt8) := do
  let (flow, l) ← readNat 4 l
  let (plen, l) ← readNat 2 l
  let (nxt, l) ← readByte l
  let (hops, l) ← readByte l
  let (src, l) ← readNat 16 l
  let (dst, l) ← readNat 16 l
  return (⟨.ofNat 32 flow, .ofNat plen, nxt, hops, .ofNat 128 src, .ofNat 128 dst⟩, l)

def Udphdr.toBytes (h : Udphdr) : List UInt8 :=
  beBytes 2 h.source.toNat ++ (beBytes 2 h.dest.toNat ++ (beBytes 2 h.len.toNat ++
    beBytes 2 h.check.toNat))

def Udphdr.ofBytes (l : List UInt8) : Option (Udphdr × List UInt8) := do
  let (source, l) ← readNat 2 l
  let (dest, l) ← readNat 2 l
  let (len, l) ← readNat 2 l
  let (check, l) ← readNat 2 l
  return (⟨.ofNat source, .ofNat dest, .ofNat len, .ofNat check⟩, l)

@[simp] theorem Iphdr.toBytes_length (h : Iphdr) : h.toBytes.length = 20 := by
  simp [toBytes]

@[simp] theorem Ip6Hdr.toBytes_length (h : Ip6Hdr) : h.toBytes.length = 40 := by
  simp [toBytes]

@[simp] theorem Udphdr.toBytes_length (h : Udphdr) : h.toBytes.length = 8 := by
  simp [toBytes]

section RoundTrips

private theorem u16_read (x : UInt16) : UInt16.ofNat (x.toNat % 256 ^ 2) = x := by
  rw [Nat.mod_eq_of_lt (show x.toNat < 256 ^ 2 from x.toNat_lt), UInt16.ofNat_toNat]

private theorem bv_read {w k : Nat} (h : k = 2 ^ w) (x : BitVec w) :
    BitVec.ofNat w (x.toNat % k) = x := by
  rw [h, Nat.mod_eq_of_lt x.isLt, BitVec.ofNat_toNat, BitVec.setWidth_eq]

@[simp] theorem Iphdr.ofBytes_toBytes (h : Iphdr) (l : List UInt8) :
    ofBytes (h.toBytes ++ l) = some (h, l) := by
  simp only [ofBytes, toBytes, cons_append, append_assoc, readByte_cons, readNat_beBytes,
    Option.bind_eq_bind, Option.bind_some, u16_read,
    bv_read (by decide : 256 ^ 4 = 2 ^ 32), Option.pure_def]

@[simp] theorem Ip6Hdr.ofBytes_toBytes (h : Ip6Hdr) (l : List UInt8) :
    ofBytes (h.toBytes ++ l) = some (h, l) := by
  simp only [ofBytes, toBytes, cons_append, append_assoc, readByte_cons, readNat_beBytes,
    Option.bind_eq_bind, Option.bind_some, u16_read, bv_read (by decide : 256 ^ 4 = 2 ^ 32),
    bv_read (by decide : 256 ^ 16 = 2 ^ 128), Option.pure_def]

@[simp] theorem Udphdr.ofBytes_toBytes (h : Udphdr) (l : List UInt8) :
    ofBytes (h.toBytes ++ l) = some (h, l) := by
  simp only [ofBytes, toBytes, append_assoc, readNat_beBytes, Option.bind_eq_bind,
    Option.bind_some, u16_read, Option.pure_def]

private theorem u16_ofNat {v : Nat} (h : v < 256 ^ 2) : (UInt16.ofNat v).toNat = v :=
  UInt16.toNat_ofNat_of_lt' h

private theorem bv_ofNat {n v : Nat} (h : v < 256 ^ n) : (BitVec.ofNat (8 * n) v).toNat = v := by
  have hpow : 2 ^ (8 * n) = 256 ^ n := Nat.pow_mul 2 8 n
  rw [BitVec.toNat_ofNat, hpow, Nat.mod_eq_of_lt h]

variable {l : List UInt8}

theorem Iphdr.exists_toBytes (h : 20 ≤ l.length) :
    ∃ (iph : Iphdr) (r : List UInt8), l = iph.toBytes ++ r := by
  obtain ⟨vihl, l, h1, rfl⟩ := exists_cons (by omega : 1 ≤ l.length)
  obtain ⟨tos, l, h2, rfl⟩ := exists_cons (by omega : 1 ≤ l.length)
  obtain ⟨totLen, l, hl, h3, rfl⟩ := exists_beBytes_append (by omega : 2 ≤ l.length)
  obtain ⟨id, l, hi, h4, rfl⟩ := exists_beBytes_append (by omega : 2 ≤ l.length)
  obtain ⟨fragOff, l, hf, h5, rfl⟩ := exists_beBytes_append (by omega : 2 ≤ l.length)
  obtain ⟨ttl, l, h6, rfl⟩ := exists_cons (by omega : 1 ≤ l.length)
  obtain ⟨protocol, l, h7, rfl⟩ := exists_cons (by omega : 1 ≤ l.length)
  obtain ⟨check, l, hc, h8, rfl⟩ := exists_beBytes_append (by omega : 2 ≤ l.length)
  obtain ⟨saddr, l, hs, h9, rfl⟩ := exists_beBytes_append (by omega : 4 ≤ l.length)
  obtain ⟨daddr, l, hd, -, rfl⟩ := exists_beBytes_append (by omega : 4 ≤ l.length)
  refine ⟨⟨vihl, tos, .ofNat totLen, .ofNat id, .ofNat fragOff, ttl, protocol, .ofNat check,
    .ofNat 32 saddr, .ofNat 32 daddr⟩, l, ?_⟩
  simp only [toBytes, u16_ofNat hl, u16_ofNat hi, u16_ofNat hf, u16_ofNat hc, bv_ofNat (n := 4) hs,
    bv_ofNat (n := 4) hd, cons_append, append_assoc]

theorem Ip6Hdr.exists_toBytes (h : 40 ≤ l.length) :
    ∃ (iph : Ip6Hdr) (r : List UInt8), l = iph.toBytes ++ r := by
  obtain ⟨flow, l, hf, h1, rfl⟩ := exists_beBytes_append (by omega : 4 ≤ l.length)
  obtain ⟨plen, l, hp, h2, rfl⟩ := exists_beBytes_append (by omega : 2 ≤ l.length)
  obtain ⟨nxt, l, h3, rfl⟩ := exists_cons (by omega : 1 ≤ l.length)
  obtain ⟨hops, l, h4, rfl⟩ := exists_cons (by omega : 1 ≤ l.length)
  obtain ⟨src, l, hs, h5, rfl⟩ := exists_beBytes_append (by omega : 16 ≤ l.length)
  obtain ⟨dst, l, hd, -, rfl⟩ := exists_beBytes_append (by omega : 16 ≤ l.length)
  refine ⟨⟨.ofNat 32 flow, .ofNat plen, nxt, hops, .ofNat 128 src, .ofNat 128 dst⟩, l, ?_⟩
  simp only [toBytes, u16_ofNat hp, bv_ofNat (n := 4) hf, bv_ofNat (n := 16) hs,
    bv_ofNat (n := 16) hd, cons_append, append_assoc]

end RoundTrips

/-- `IPV6_GET_TC`. -/
def ipv6GetTc (flow : BitVec 32) : UInt8 :=
  ⟨((flow &&& 0x0ff00000#32) >>> 20).setWidth 8⟩

/-- `IPV6_SET_TC`. -/
def ipv6SetTc (flow : BitVec 32) (value : UInt8) : BitVec 32 :=
  (flow &&& ~~~ 0x0ff00000#32) ||| ((value.toBitVec.setWidth 32 <<< 20) &&& 0x0ff00000#32)

@[simp] theorem ipv6GetTc_ipv6SetTc (flow : BitVec 32) (value : UInt8) :
    ipv6GetTc (ipv6SetTc flow value) = value := by
  apply UInt8.toBitVec_inj.mp
  simp only [ipv6GetTc, ipv6SetTc]
  ext i hi
  interval_cases i <;> simp

@[simp] theorem ipv6SetTc_ipv6GetTc (flow : BitVec 32) :
    ipv6SetTc flow (ipv6GetTc flow) = flow := by
  simp only [ipv6GetTc, ipv6SetTc]
  ext i hi
  interval_cases i <;> simp

theorem ipv6SetTc_mask (flow : BitVec 32) (value : UInt8) :
    ipv6SetTc flow value &&& 0xf00fffff#32 = flow &&& 0xf00fffff#32 := by
  simp only [ipv6SetTc]
  ext i hi
  interval_cases i <;> simp

theorem version_of_mask {flow flow' : BitVec 32}
    (h : flow' &&& 0xf00fffff#32 = flow &&& 0xf00fffff#32) : flow' >>> 28 = flow >>> 28 := by
  have hver : ∀ x : BitVec 32, x >>> 28 = (x &&& 0xf00fffff#32) >>> 28 := by
    intro x
    ext i hi
    interval_cases i <;> simp
  rw [hver flow', hver flow, h]

/-! ## IP headers of either version -/

/-- An IP header. -/
inductive IpHdr where
  | v4 (h : Iphdr)
  | v6 (h : Ip6Hdr)
deriving DecidableEq

namespace IpHdr

def toBytes : IpHdr → List UInt8
  | .v4 h => h.toBytes
  | .v6 h => h.toBytes

def ttl : IpHdr → UInt8
  | .v4 h => h.ttl
  | .v6 h => h.hops

def tos : IpHdr → UInt8
  | .v4 h => h.tos
  | .v6 h => ipv6GetTc h.flow

def src : IpHdr → IpAddr
  | .v4 h => .v4 h.saddr
  | .v6 h => .v6 h.src

def dst : IpHdr → IpAddr
  | .v4 h => .v4 h.daddr
  | .v6 h => .v6 h.dst

theorem toBytes_length_le (hdr : IpHdr) : hdr.toBytes.length ≤ 40 := by
  cases hdr <;> simp [toBytes]

def version : IpHdr → UInt8
  | .v4 _ => 4
  | .v6 _ => 6

/-- The version is the one of the header. -/
def Versioned : IpHdr → Prop
  | .v4 h => h.vihl >>> 4 = 4
  | .v6 h => h.flow >>> 28 = 6#32

/-- The upper half of the first byte is the version. -/
theorem Versioned.byteAt {hdr : IpHdr} (h : hdr.Versioned) (l : List UInt8) :
    ∃ v, Lispmob.byteAt (hdr.toBytes ++ l) 0 = .ok v ∧
      v >>> 4 = hdr.version := by
  cases hdr with
  | v4 iph => exact ⟨iph.vihl, rfl, h⟩
  | v6 iph =>
    refine ⟨.ofNat (iph.flow.toNat / 256 ^ 3), rfl, ?_⟩
    have hver : iph.flow.toNat / 2 ^ 28 = 6 := by
      simpa [Nat.shiftRight_eq_div_pow] using congrArg BitVec.toNat h
    apply UInt8.toNat_inj.mp
    simp only [version, UInt8.toNat_shiftRight, UInt8.toNat_ofNat', UInt8.reduceToNat,
      Nat.shiftRight_eq_div_pow, Nat.reduceMod, Nat.reducePow]
    omega

end IpHdr

/-! ## Checksums -/

/-- `ip_checksum`. -/
def ipChecksum (buffer : List UInt8) : UInt16 :=
  onesComplement (cksumLoop 0 buffer)

/-- The loop over a UDP packet, in which the carries are folded before they are lost. -/
def udpLoop : UInt32 → List UInt8 → UInt32
  | sum, x :: y :: buf =>
    let sum := sum + (x.toUInt32 + 256 * y.toUInt32)
    udpLoop (if sum &&& 0x80000000 ≠ 0 then (sum >>> 16) + (sum &&& 0xffff) else sum) buf
  | sum, [x] => sum + x.toUInt32
  | sum, [] => sum

/-- The loop that adds the carries until there are none. Two rounds are enough for 32 bits. -/
def addCarries : Nat → UInt32 → UInt32
  | 0, sum => sum
  | n + 1, sum =>
    if sum >>> 16 ≠ 0 then addCarries n ((sum >>> 16) + (sum &&& 0xffff)) else sum

theorem fold_toNat (x : UInt32) :
    ((x >>> 16) + (x &&& 0xffff)).toNat = x.toNat / 65536 + x.toNat % 65536 := by
  have hlt : x.toNat < 2 ^ 32 := x.toNat_lt
  have hmask : x.toNat &&& 65535 = x.toNat % 65536 := Nat.and_two_pow_sub_one_eq_mod _ 16
  simp only [UInt32.toNat_add, UInt32.toNat_and, UInt32.toNat_shiftRight, UInt32.reduceToNat,
    hmask, Nat.shiftRight_eq_div_pow, Nat.reduceMod, Nat.reducePow]
  omega

theorem noCarry_iff (x : UInt32) : x >>> 16 = 0 ↔ x.toNat < 65536 := by
  rw [← UInt32.toNat_inj]
  simp only [UInt32.toNat_shiftRight, UInt32.reduceToNat, Nat.shiftRight_eq_div_pow,
    Nat.reduceMod, Nat.reducePow]
  omega

/-- The bits that are inverted are those of `ip_checksum`, which folds twice in any case. -/
theorem not_addCarries (sum : UInt32) : (~~~ addCarries 2 sum).toUInt16 = onesComplement sum := by
  have hlt : sum.toNat < 2 ^ 32 := sum.toNat_lt
  have hsum : (addCarries 2 sum).toNat = (let f := sum.toNat / 65536 + sum.toNat % 65536
      (f + f / 65536) % 65536) := by
    simp only [addCarries, ne_eq, noCarry_iff, fold_toNat]
    split_ifs with h1 h2
    · omega
    · rw [fold_toNat, Nat.div_eq_of_lt h2, Nat.add_zero, Nat.mod_eq_of_lt h2]
    · rw [fold_toNat, fold_toNat]
      omega
  apply UInt16.toNat_inj.mp
  rw [onesComplement_eq, UInt32.toNat_toUInt16, UInt32.toNat_not, hsum, UInt32.size]
  dsimp only
  omega

/-- `IPPROTO_UDP`. -/
def IPPROTO_UDP : UInt8 := 17

/-- An address in network order. -/
def IpAddr.bytes : IpAddr → List UInt8
  | .v4 a => beBytes 4 a.toNat
  | .v6 a => beBytes 16 a.toNat

/-- `udp_checksum`, with `udp_ipv4_checksum` and `udp_ipv6_checksum`. The source and destination
are those of the IP header. -/
def udpChecksum (udph : List UInt8) (udpLen : UInt16) (src dst : IpAddr) : Except Fault UInt16 := do
  let udp ← bytesAt udph 0 udpLen.toNat
  match src with
  | .v4 _ =>
    let sum := cksumLoop (udpLoop 0 udp)
      (src.bytes ++ (dst.bytes ++ ([0, IPPROTO_UDP] ++ beBytes 2 udpLen.toNat)))
    return (~~~ addCarries 2 sum).toUInt16
  | .v6 _ =>
    let ph := src.bytes ++ (dst.bytes ++ (beBytes 4 udpLen.toNat ++ [0, 0, 0, IPPROTO_UDP]))
    return (~~~ addCarries 2 (cksumLoop (cksumLoop 0 ph) udp)).toUInt16

/-! ## Buffers -/

/-- What `xmalloc` returns: the bytes are whatever was in memory. -/
structure Malloc where
  bytes : Nat → List UInt8
  length_bytes : ∀ n, (bytes n).length = n

theorem zeros_length (n : Nat) : (List.replicate n (0 : UInt8)).length = n := length_replicate

/-- `lbuf_source_e`. -/
inductive LbufSource where
  | MALLOC
  | STACK
deriving DecidableEq

/-- `UINT16_MAX`, the offset of a header that is not set. -/
def UINT16_MAX : Nat := 2 ^ 16 - 1

/-- An offset in the 16 bits an `lbuf_t` has for it. -/
def lbufOffset (offset : Nat) : Option Nat :=
  if offset % 2 ^ 16 = UINT16_MAX then none else some (offset % 2 ^ 16)

theorem lbufOffset_of_lt {offset : Nat} (h : offset < UINT16_MAX) :
    lbufOffset offset = some offset := by
  simp only [UINT16_MAX] at h
  rw [lbufOffset, Nat.mod_eq_of_lt (by omega), if_neg (by simp only [UINT16_MAX]; omega)]

/-- An `lbuf_t`: the memory before, in and after the part in use, and the offsets of the headers
from the start. -/
structure Lbuf where
  source : LbufSource
  head : List UInt8
  data : List UInt8
  tail : List UInt8
  ip : Option Nat
  udp : Option Nat
  l3 : Option Nat

namespace Lbuf

/-- All of the memory. -/
def mem (b : Lbuf) : List UInt8 :=
  b.head ++ (b.data ++ b.tail)

/-- `lbuf_data`, as an offset. -/
def dataPtr (b : Lbuf) : Nat :=
  b.head.length

/-- The memory a pointer points to. -/
def deref (b : Lbuf) (ptr : Nat) : List UInt8 :=
  b.mem.drop ptr

/-- Write through a pointer. -/
def store (b : Lbuf) (ptr : Nat) (l : List UInt8) : Lbuf :=
  let m := poke b.mem ptr l
  { b with
    head := m.take b.head.length
    data := (m.drop b.head.length).take b.data.length
    tail := m.drop (b.head.length + b.data.length) }

@[simp] theorem deref_dataPtr (b : Lbuf) : b.deref b.dataPtr = b.data ++ b.tail :=
  drop_left

variable {pre post : List UInt8}

theorem deref_data (b : Lbuf) (hdata : b.data = pre ++ post) :
    b.deref (b.head.length + pre.length) = post ++ b.tail := by
  rw [deref, mem, hdata, ← drop_drop, drop_left, append_assoc, drop_left]

theorem deref_head (b : Lbuf) (hhead : b.head = pre ++ post) :
    b.deref pre.length = post ++ (b.data ++ b.tail) := by
  rw [deref, mem, hhead, append_assoc, drop_left]

theorem store_data (b : Lbuf) {pre l m post : List UInt8} (hdata : b.data = pre ++ (m ++ post))
    (h : l.length = m.length) :
    b.store (b.head.length + pre.length) l = { b with data := pre ++ (l ++ post) } := by
  have hmem : b.mem = (b.head ++ pre) ++ (m ++ (post ++ b.tail)) := by
    simp only [mem, hdata, append_assoc]
  have hlen : b.data.length = (pre ++ (l ++ post)).length := by
    simp only [hdata, length_append, h]
  have hpoke : poke b.mem (b.head.length + pre.length) l =
      b.head ++ ((pre ++ (l ++ post)) ++ b.tail) := by
    rw [hmem, ← length_append, poke_append _ _ h]
    simp only [append_assoc]
  simp only [store, hpoke]
  rw [← drop_drop, take_left, drop_left, hlen, take_left, drop_left]

/-- `lbuf_reset_ip`. -/
def resetIp (b : Lbuf) : Lbuf :=
  { b with ip := lbufOffset b.dataPtr }

/-- `lbuf_reset_udp`. -/
def resetUdp (b : Lbuf) : Lbuf :=
  { b with udp := lbufOffset b.dataPtr }

/-- `lbuf_reset_l3`. -/
def resetL3 (b : Lbuf) : Lbuf :=
  { b with l3 := lbufOffset b.dataPtr }

end Lbuf

/-- `lbuf_pull`. -/
def Lbuf.pull (b : Lbuf) (size : Nat) : Option Lbuf :=
  if size > b.data.length then none
  else some { b with head := b.head ++ b.data.take size, data := b.data.drop size }

theorem Lbuf.pull_eq (b : Lbuf) {l rest : List UInt8} (hdata : b.data = l ++ rest) :
    b.pull l.length = some { b with head := b.head ++ l, data := rest } := by
  have hle : ¬ l.length > b.data.length := by
    rw [hdata, length_append]
    omega
  rw [pull, if_neg hle, hdata, take_left, drop_left]

section Push

variable (malloc : Malloc) {b : Lbuf}

/-- `lbuf_resize_`. Only a buffer from the heap can be resized: otherwise the memory it came with
is freed. -/
def Lbuf.resize (b : Lbuf) (newHeadroom newTailroom : Nat) : Except Fault Lbuf :=
  match b.source with
  | .STACK => .error .badRelease
  | .MALLOC =>
    if newHeadroom = b.head.length then
      .ok { b with tail := (b.tail ++ malloc.bytes newTailroom).take newTailroom }
    else
      let shift := fun offset : Nat => lbufOffset (offset + (newHeadroom - b.head.length))
      .ok { b with
        head := malloc.bytes newHeadroom
        tail := malloc.bytes newTailroom
        ip := b.ip.bind shift
        udp := b.udp.bind shift
        l3 := b.l3.bind shift }

/-- `lbuf_prealloc_headroom`. -/
def Lbuf.preallocHeadroom (b : Lbuf) (size : Nat) : Except Fault Lbuf :=
  if size > b.head.length then b.resize malloc (max size 64) b.tail.length else .ok b

/-- `lbuf_push_uninit`. -/
def Lbuf.pushUninit (b : Lbuf) (size : Nat) : Except Fault Lbuf := do
  let b ← b.preallocHeadroom malloc size
  return { b with
    head := b.head.take (b.head.length - size)
    data := b.head.drop (b.head.length - size) ++ b.data }

/-- A buffer with these bytes in front of the part in use. -/
def Lbuf.push (b : Lbuf) (l : List UInt8) : Lbuf :=
  { b with head := b.head.take (b.head.length - l.length), data := l ++ b.data }

/-- With enough headroom, pushing leaves the bytes that are in memory in front. -/
theorem Lbuf.pushUninit_eq {size : Nat} (h : size ≤ b.head.length) :
    ∃ old : List UInt8, old = b.head.drop (b.head.length - size) ∧ old.length = size ∧
      b.pushUninit malloc size = .ok (b.push old) := by
  have hlen : (b.head.drop (b.head.length - size)).length = size := by
    rw [length_drop]
    omega
  refine ⟨_, rfl, hlen, ?_⟩
  rw [pushUninit, preallocHeadroom, if_neg (Nat.not_lt.mpr h), push, hlen]
  rfl

theorem Lbuf.store_push (b : Lbuf) {old l : List UInt8} (h : l.length = old.length) :
    (b.push old).store (b.push old).dataPtr l = b.push l := by
  have hstore := store_data (b.push old) (show (b.push old).data = [] ++ (old ++ b.data) from rfl) h
  simp only [push, h] at hstore ⊢
  exact hstore

theorem Lbuf.push_head_length (b : Lbuf) (l : List UInt8) :
    (b.push l).head.length = b.head.length - l.length := by
  rw [push, length_take]
  omega

/-! ## Pushing headers -/

/-- `pkt_push_udp`. -/
def pktPushUdp (b : Lbuf) (sp dp : UInt16) : Except Fault Lbuf := do
  let udpLen := 8 + b.data.length
  let b ← b.pushUninit malloc 8
  return b.store b.dataPtr (Udphdr.toBytes ⟨sp, dp, .ofNat udpLen, 0⟩)

/-- `IP_DF`. -/
def IP_DF : UInt16 := 0x4000

/-- `pkt_push_ipv4`. The sum is computed with whatever is in its own field. -/
def pktPushIpv4 (ipId : UInt16) (b : Lbuf) (src dst : BitVec 32) (proto : UInt8) :
    Except Fault (Lbuf × UInt16) := do
  let b ← b.pushUninit malloc 20
  match Iphdr.ofBytes (b.deref b.dataPtr) with
  | none => throw .outOfRange
  | some (old, _) =>
    let ipId := ipId + 1
    let iph : Iphdr := ⟨0x45, 0, .ofNat b.data.length, ipId, IP_DF, 255, proto, old.check, src, dst⟩
    let iph := { iph with check := ntohs (ipChecksum iph.toBytes) }
    return (b.store b.dataPtr iph.toBytes, ipId)

/-- `pkt_push_ipv6`. Of the first word only the first byte is written. -/
def pktPushIpv6 (b : Lbuf) (src dst : BitVec 128) (proto : UInt8) : Except Fault Lbuf := do
  let len := b.data.length
  let b ← b.pushUninit malloc 40
  match Ip6Hdr.ofBytes (b.deref b.dataPtr) with
  | none => throw .outOfRange
  | some (old, _) =>
    let flow := (old.flow &&& 0x00ffffff#32) ||| 0x60000000#32
    return b.store b.dataPtr (Ip6Hdr.toBytes ⟨flow, .ofNat len, proto, 255, src, dst⟩)

/-- `pkt_push_ip`. The result is `none` when the addresses are of two families. -/
def pktPushIp (ipId : UInt16) (b : Lbuf) (src dst : IpAddr) (proto : UInt8) :
    Except Fault (Option Lbuf × UInt16) :=
  match src, dst with
  | .v4 src, .v4 dst => (pktPushIpv4 malloc ipId b src dst proto).map fun r => (some r.1, r.2)
  | .v6 src, .v6 dst => (pktPushIpv6 malloc b src dst proto).map fun r => (some r, ipId)
  | _, _ => .ok (none, ipId)

/-- `pkt_push_udp_and_ip`. The comparison of the checksum with `-1` never holds: it has 16 bits. -/
def pktPushUdpAndIp (ipId : UInt16) (b : Lbuf) (sp dp : UInt16) (sip dip : IpAddr) :
    Except Fault (Ret × Lbuf × UInt16) := do
  let b ← pktPushUdp malloc b sp dp
  let b := b.resetUdp
  let (pushed, ipId) ← pktPushIp malloc ipId b sip dip IPPROTO_UDP
  match pushed with
  | none => return (.BAD, b, ipId)
  | some b =>
    let b := b.resetIp
    match b.udp with
    | none => throw .nullDeref
    | some udp =>
      match Udphdr.ofBytes (b.deref udp) with
      | none => throw .outOfRange
      | some (uh, _) =>
        let udpsum ← udpChecksum (b.deref udp) uh.len sip dip
        return (.GOOD, b.store udp { uh with check := ntohs udpsum }.toBytes, ipId)

/-! ## What is pushed -/

theorem pktPushUdp_eq (h : 8 ≤ b.head.length) (sp dp : UInt16) :
    pktPushUdp malloc b sp dp =
      .ok (b.push (Udphdr.toBytes ⟨sp, dp, .ofNat (8 + b.data.length), 0⟩)) := by
  obtain ⟨old, -, hold, hpush⟩ := Lbuf.pushUninit_eq malloc h
  simp only [pktPushUdp, hpush]
  exact congrArg Except.ok (Lbuf.store_push b (by rw [Udphdr.toBytes_length, hold]))

theorem pktPushIpv4_eq (ipId : UInt16) (h : 20 ≤ b.head.length) (src dst : BitVec 32)
    (proto : UInt8) :
    ∃ old iph : Iphdr, b.head.drop (b.head.length - 20) = old.toBytes ∧ iph =
        ⟨0x45, 0, .ofNat (20 + b.data.length), ipId + 1, IP_DF, 255, proto, old.check, src, dst⟩ ∧
      pktPushIpv4 malloc ipId b src dst proto =
        .ok (b.push { iph with check := ntohs (ipChecksum iph.toBytes) }.toBytes, ipId + 1) := by
  obtain ⟨old, heq, hold, hpush⟩ := Lbuf.pushUninit_eq malloc h
  obtain ⟨iph, r, hiph⟩ := Iphdr.exists_toBytes
    (show 20 ≤ (old ++ (b.data ++ b.tail)).length by simp [hold])
  have hsize : (b.push old).data.length = 20 + b.data.length := by
    rw [Lbuf.push, length_append, hold]
  have hderef : (b.push old).deref (b.push old).dataPtr = iph.toBytes ++ r := by
    rw [Lbuf.deref_dataPtr, ← hiph, Lbuf.push, append_assoc]
  refine ⟨iph, _, heq ▸ (append_inj hiph (by rw [hold, Iphdr.toBytes_length])).1, rfl, ?_⟩
  simp only [pktPushIpv4, hpush, bind, Except.bind, hderef, Iphdr.ofBytes_toBytes]
  rw [Lbuf.store_push b (by rw [Iphdr.toBytes_length, hold]), hsize]
  rfl

theorem pktPushIpv6_eq (h : 40 ≤ b.head.length) (src dst : BitVec 128) (proto : UInt8) :
    ∃ flow : BitVec 32, flow >>> 28 = 6#32 ∧ pktPushIpv6 malloc b src dst proto =
      .ok (b.push (Ip6Hdr.toBytes ⟨flow, .ofNat b.data.length, proto, 255, src, dst⟩)) := by
  obtain ⟨old, -, hold, hpush⟩ := Lbuf.pushUninit_eq malloc h
  obtain ⟨iph, r, hiph⟩ := Ip6Hdr.exists_toBytes
    (show 40 ≤ (old ++ (b.data ++ b.tail)).length by simp [hold])
  have hderef : (b.push old).deref (b.push old).dataPtr = iph.toBytes ++ r := by
    rw [Lbuf.deref_dataPtr, ← hiph, Lbuf.push, append_assoc]
  refine ⟨(iph.flow &&& 0x00ffffff#32) ||| 0x60000000#32, ?_, ?_⟩
  · ext i hi
    interval_cases i <;> simp
  · simp only [pktPushIpv6, hpush, bind, Except.bind, hderef, Ip6Hdr.ofBytes_toBytes]
    exact congrArg Except.ok (Lbuf.store_push b (by rw [Ip6Hdr.toBytes_length, hold]))

theorem pktPushIp_eq (ipId : UInt16) (h : 40 ≤ b.head.length) {src dst : IpAddr}
    (hfam : ipAddrAfi src = ipAddrAfi dst) (proto : UInt8) :
    ∃ (hdr : IpHdr) (ipId' : UInt16), hdr.Versioned ∧ hdr.ttl = 255 ∧ hdr.src = src ∧
      hdr.dst = dst ∧
      pktPushIp malloc ipId b src dst proto = .ok (some (b.push hdr.toBytes), ipId') := by
  cases src with
  | v4 src =>
    cases dst with
    | v4 dst =>
      obtain ⟨old, iph, -, hiph, hpush⟩ :=
        pktPushIpv4_eq malloc ipId (by omega : 20 ≤ b.head.length) src dst proto
      refine ⟨.v4 { iph with check := ntohs (ipChecksum iph.toBytes) }, ipId + 1, ?_,
        ?_, ?_, ?_, ?_⟩
      · rw [hiph]
        exact (by decide : (0x45 : UInt8) >>> 4 = 4)
      · rw [hiph]; rfl
      · rw [hiph]; rfl
      · rw [hiph]; rfl
      · simp only [pktPushIp, hpush]
        rfl
    | v6 dst => cases hfam
  | v6 src =>
    cases dst with
    | v4 dst => cases hfam
    | v6 dst =>
      obtain ⟨flow, hflow, hpush⟩ := pktPushIpv6_eq malloc h src dst proto
      refine ⟨.v6 ⟨flow, .ofNat b.data.length, proto, 255, src, dst⟩, ipId, hflow, rfl, rfl, rfl,
        ?_⟩
      simp only [pktPushIp, hpush]
      rfl

/-- The length of a UDP packet is in the header modulo `2 ^ 16`, so its sum reads no more. -/
theorem udpChecksum_ok {udp : List UInt8} {n : Nat} (h : n ≤ udp.length) (src dst : IpAddr) :
    ∃ sum, udpChecksum udp (.ofNat n) src dst = .ok sum := by
  have hle : 0 + (UInt16.ofNat n).toNat ≤ udp.length := by
    rw [UInt16.toNat_ofNat']
    omega
  have hbytes : ∃ l, bytesAt udp 0 (UInt16.ofNat n).toNat = .ok l := by
    rw [bytesAt, slice, if_pos hle]
    exact ⟨_, rfl⟩
  obtain ⟨l, hl⟩ := hbytes
  cases src with
  | v4 _ => exact ⟨_, by rw [udpChecksum, hl]; rfl⟩
  | v6 _ => exact ⟨_, by rw [udpChecksum, hl]; rfl⟩

/-- Two addresses of one family: a UDP header and an IP header are in front of the data. -/
theorem pktPushUdpAndIp_eq (ipId : UInt16) (h : 48 ≤ b.head.length)
    (hoff : b.head.length < UINT16_MAX) (sp dp : UInt16) {sip dip : IpAddr}
      (hfam : ipAddrAfi sip = ipAddrAfi dip) :
    ∃ (hdr : IpHdr) (uh : Udphdr) (sum ipId' : UInt16) (b' : Lbuf),
      hdr.Versioned ∧ hdr.ttl = 255 ∧ hdr.src = sip ∧ hdr.dst = dip ∧
      b'.data = hdr.toBytes ++ ({ uh with check := ntohs sum }.toBytes ++ b.data) ∧
      uh = ⟨sp, dp, .ofNat (8 + b.data.length), 0⟩ ∧
      b.head.length = b'.head.length + hdr.toBytes.length + 8 ∧
      udpChecksum (uh.toBytes ++ (b.data ++ b'.tail)) uh.len sip dip = .ok sum ∧
      pktPushUdpAndIp malloc ipId b sp dp sip dip = .ok (.GOOD, b', ipId') := by
  have hudp := pktPushUdp_eq malloc (by omega : 8 ≤ b.head.length) sp dp
  generalize hu : (⟨sp, dp, .ofNat (8 + b.data.length), 0⟩ : Udphdr) = uh at hudp
  generalize hb1 : (b.push uh.toBytes).resetUdp = b1
  have hhead : b1.head.length = b.head.length - 8 := by
    rw [← hb1]
    exact (Lbuf.push_head_length b _).trans (by rw [Udphdr.toBytes_length])
  obtain ⟨hdr, ipId', hver, httl, hsrc, hdst, hip⟩ := pktPushIp_eq malloc ipId
    (by omega : 40 ≤ b1.head.length) hfam IPPROTO_UDP
  generalize hb2 : (b1.push hdr.toBytes).resetIp = b2
  have hdata : b2.data = hdr.toBytes ++ (uh.toBytes ++ b.data) := by
    rw [← hb2, ← hb1]
    rfl
  have hle := hdr.toBytes_length_le
  have hhead2 : b2.head.length = b1.head.length - hdr.toBytes.length := by
    rw [← hb2]
    exact Lbuf.push_head_length b1 _
  -- the UDP header is where it was, now behind the IP header
  have hptr : b2.udp = some (b2.head.length + hdr.toBytes.length) := by
    have hsum : b2.head.length + hdr.toBytes.length = b1.head.length := by omega
    rw [hsum, ← lbufOffset_of_lt (by omega : b1.head.length < UINT16_MAX), ← hb2, ← hb1]
    rfl
  have hderef : b2.deref (b2.head.length + hdr.toBytes.length) =
      uh.toBytes ++ (b.data ++ b2.tail) := by
    rw [Lbuf.deref_data b2 hdata, append_assoc]
  obtain ⟨sum, hsum⟩ := udpChecksum_ok (n := 8 + b.data.length)
    (show 8 + b.data.length ≤ (uh.toBytes ++ (b.data ++ b2.tail)).length by simp) sip dip
  rw [show UInt16.ofNat (8 + b.data.length) = uh.len by rw [← hu]] at hsum
  have hstore := Lbuf.store_data b2 hdata
    (show { uh with check := ntohs sum }.toBytes.length = uh.toBytes.length by simp)
  refine ⟨hdr, uh, sum, ipId', b2.store (b2.head.length + hdr.toBytes.length)
    { uh with check := ntohs sum }.toBytes, hver, httl, hsrc, hdst, ?_, rfl, ?_, ?_, ?_⟩
  · rw [hstore]
  · rw [hstore]
    dsimp only
    omega
  · rw [hstore, hsum]
  · simp only [pktPushUdpAndIp, hudp, bind, Except.bind, hb1, hip, hb2, hptr, hderef,
      Udphdr.ofBytes_toBytes]
    rw [hsum]
    rfl

end Push

/-! ## Pulling headers -/

/-- `ip_hdr_ver_to_len`. -/
def ipHdrVerToLen (v : UInt8) : Nat :=
  if v = 4 then 20 else if v = 6 then 40 else 0

/-- `pkt_pull_ip`. The result is `none` for a null pointer; the buffer is then as it was. -/
def pktPullIp (b : Lbuf) : Except Fault (Option Lbuf) := do
  let v ← byteAt (b.deref b.dataPtr) 0
  let len := ipHdrVerToLen (v >>> 4)
  return if len < 1 then none else b.pull len

variable {rest : List UInt8} {b : Lbuf}

theorem pktPullIp_eq {hdr : IpHdr} (hver : hdr.Versioned) (hdata : b.data = hdr.toBytes ++ rest) :
    pktPullIp b = .ok (some { b with head := b.head ++ hdr.toBytes, data := rest }) := by
  obtain ⟨v, hbyte, hv⟩ := hver.byteAt (rest ++ b.tail)
  have hlen : ipHdrVerToLen hdr.version = hdr.toBytes.length := by
    cases hdr with
    | v4 h => exact h.toBytes_length.symm
    | v6 h => exact h.toBytes_length.symm
  have hpos : ¬ hdr.toBytes.length < 1 := by
    cases hdr <;> simp [IpHdr.toBytes]
  rw [pktPullIp, Lbuf.deref_dataPtr, hdata, append_assoc, hbyte]
  simp only [bind, Except.bind, hv, hlen, if_neg hpos, Lbuf.pull_eq b hdata]
  rfl

/-! ## Time to live and type of service -/

/-- `ip_hdr_ttl_and_tos`. What it does not find stays at the `0` of the caller. -/
def ipHdrTtlAndTos (b : Lbuf) (iph : Nat) : Except Fault (UInt8 × UInt8) := do
  let v ← byteAt (b.deref iph) 0
  if v >>> 4 = 4 then
    match Iphdr.ofBytes (b.deref iph) with
    | none => throw .outOfRange
    | some (h, _) => return (h.ttl, h.tos)
  else if v >>> 4 = 6 then
    match Ip6Hdr.ofBytes (b.deref iph) with
    | none => throw .outOfRange
    | some (h, _) => return (h.hops, ipv6GetTc h.flow)
  else return (0, 0)

/-- The changes `ip_hdr_set_ttl_and_tos` makes to an IPv4 header: a time to live of `0` is not
set, and the sum is over the header without options. -/
def Iphdr.setTtlAndTos (h : Iphdr) (ttl tos : UInt8) : Iphdr :=
  let h := if ttl ≠ 0 then { h with ttl := ttl } else h
  let h := { h with tos := tos, check := 0 }
  { h with check := ntohs (ipChecksum h.toBytes) }

/-- The changes `ip_hdr_set_ttl_and_tos` makes to an IPv6 header. -/
def Ip6Hdr.setTtlAndTos (h : Ip6Hdr) (ttl tos : UInt8) : Ip6Hdr :=
  let h := if ttl ≠ 0 then { h with hops := ttl } else h
  { h with flow := ipv6SetTc h.flow tos }

/-- `ip_hdr_set_ttl_and_tos`. -/
def ipHdrSetTtlAndTos (b : Lbuf) (iph : Nat) (ttl tos : UInt8) : Except Fault (Ret × Lbuf) := do
  let v ← byteAt (b.deref iph) 0
  if v >>> 4 = 4 then
    match Iphdr.ofBytes (b.deref iph) with
    | none => throw .outOfRange
    | some (h, _) => return (.GOOD, b.store iph (h.setTtlAndTos ttl tos).toBytes)
  else if v >>> 4 = 6 then
    match Ip6Hdr.ofBytes (b.deref iph) with
    | none => throw .outOfRange
    | some (h, _) => return (.GOOD, b.store iph (h.setTtlAndTos ttl tos).toBytes)
  else return (.BAD, b)

/-- The changes to a header of either version. -/
def IpHdr.setTtlAndTos (ttl tos : UInt8) : IpHdr → IpHdr
  | .v4 h => .v4 (h.setTtlAndTos ttl tos)
  | .v6 h => .v6 (h.setTtlAndTos ttl tos)

theorem IpHdr.setTtlAndTos_length (ttl tos : UInt8) (hdr : IpHdr) :
    (hdr.setTtlAndTos ttl tos).toBytes.length = hdr.toBytes.length := by
  cases hdr <;> simp [setTtlAndTos, toBytes]

@[simp] theorem IpHdr.ttl_setTtlAndTos (ttl tos : UInt8) (hdr : IpHdr) :
    (hdr.setTtlAndTos ttl tos).ttl = if ttl ≠ 0 then ttl else hdr.ttl := by
  cases hdr <;>
  · simp only [setTtlAndTos, IpHdr.ttl, Iphdr.setTtlAndTos, Ip6Hdr.setTtlAndTos]
    split_ifs <;> rfl

@[simp] theorem IpHdr.tos_setTtlAndTos (ttl tos : UInt8) (hdr : IpHdr) :
    (hdr.setTtlAndTos ttl tos).tos = tos := by
  cases hdr with
  | v4 _ => rfl
  | v6 _ => exact ipv6GetTc_ipv6SetTc _ _

theorem IpHdr.Versioned.setTtlAndTos {hdr : IpHdr} (h : hdr.Versioned) (ttl tos : UInt8) :
    (hdr.setTtlAndTos ttl tos).Versioned := by
  cases hdr with
  | v4 iph =>
    simp only [Versioned, IpHdr.setTtlAndTos, Iphdr.setTtlAndTos] at h ⊢
    split_ifs <;> exact h
  | v6 iph =>
    simp only [Versioned, IpHdr.setTtlAndTos, Ip6Hdr.setTtlAndTos] at h ⊢
    split_ifs <;> exact (version_of_mask (ipv6SetTc_mask _ _)).trans h

theorem IpHdr.src_setTtlAndTos (hdr : IpHdr) (ttl tos : UInt8) :
    (hdr.setTtlAndTos ttl tos).src = hdr.src := by
  cases hdr <;>
  · simp only [src, setTtlAndTos, Iphdr.setTtlAndTos, Ip6Hdr.setTtlAndTos]
    split_ifs <;> rfl

theorem ipHdrTtlAndTos_eq {ptr : Nat} {hdr : IpHdr}
    (hderef : b.deref ptr = hdr.toBytes ++ rest) (hver : hdr.Versioned) :
    ipHdrTtlAndTos b ptr = .ok (hdr.ttl, hdr.tos) := by
  obtain ⟨v, hbyte, hv⟩ := hver.byteAt rest
  cases hdr with
  | v4 h =>
    rw [ipHdrTtlAndTos, hderef, hbyte]
    simp only [bind, Except.bind, hv, IpHdr.version, if_true, IpHdr.toBytes, Iphdr.ofBytes_toBytes]
    rfl
  | v6 h =>
    rw [ipHdrTtlAndTos, hderef, hbyte]
    simp only [bind, Except.bind, hv, IpHdr.version, (by decide : (6 : UInt8) ≠ 4), if_true,
      if_false, IpHdr.toBytes, Ip6Hdr.ofBytes_toBytes]
    rfl

theorem ipHdrSetTtlAndTos_eq {hdr : IpHdr}
    (hdata : b.data = hdr.toBytes ++ rest) (hver : hdr.Versioned) (ttl tos : UInt8) :
    ipHdrSetTtlAndTos b b.dataPtr ttl tos =
      .ok (.GOOD, { b with data := (hdr.setTtlAndTos ttl tos).toBytes ++ rest }) := by
  have hderef : b.deref b.dataPtr = hdr.toBytes ++ (rest ++ b.tail) := by
    rw [Lbuf.deref_dataPtr, hdata, append_assoc]
  have hstore := Lbuf.store_data b (show b.data = [] ++ (hdr.toBytes ++ rest) from hdata)
    (hdr.setTtlAndTos_length ttl tos)
  obtain ⟨v, hbyte, hv⟩ := hver.byteAt (rest ++ b.tail)
  cases hdr with
  | v4 h =>
    rw [ipHdrSetTtlAndTos, hderef, hbyte]
    simp only [bind, Except.bind, hv, IpHdr.version, if_true, IpHdr.toBytes, Iphdr.ofBytes_toBytes]
    exact congrArg (fun b => Except.ok (Ret.GOOD, b)) hstore
  | v6 h =>
    rw [ipHdrSetTtlAndTos, hderef, hbyte]
    simp only [bind, Except.bind, hv, IpHdr.version, (by decide : (6 : UInt8) ≠ 4), if_true,
      if_false, IpHdr.toBytes, Ip6Hdr.ofBytes_toBytes]
    exact congrArg (fun b => Except.ok (Ret.GOOD, b)) hstore

end Lispmob
