import Lispmob.AddressWriting
import Lispmob.WireBounds

/-!
# Addresses that are read back

What `lisp_addr_write` writes is parsed by `lisp_addr_parse`, on the same host or on another one.
For addresses without prefixes that are written in the format the parser gives the address back and
consumes what the size function announced, as long as the lengths fit their fields
(`address_round_trip`). An LCAF with an instance or an AFI list is never read back: the length field
of the first fails the check of the parser, and the parser drops the second.
-/

namespace Lispmob

open Prog List

variable {b : List UInt8} {off : Nat} {type rsvd2 : UInt8} {parse : Nat → Except Fault AddrRead}
  {field : AddrField} {body : List UInt8}

/-! ## Reading what is there -/

section Reading

variable {l : List UInt8} {n : Nat}

theorem Holds.readBytes (h : Holds b off l) (hn : l.length = n) : bytesAt b off n = .ok l := by
  rw [bytesAt, ← hn, show slice b off l.length = some l from h]

theorem Holds.readByte {x : UInt8} (h : Holds b off (x :: l)) : byteAt b off = .ok x := by
  obtain ⟨pre, post, rfl, rfl⟩ := h.exists_append
  rw [byteAt_ok, getElem?_append_right (Nat.le_refl _), Nat.sub_self]
  rfl

theorem Holds.readUint16 (h : Holds b off (beBytes 2 n)) (hn : n < 65536) :
    uint16At b off = .ok n := by
  rw [uint16At, h.readBytes (beBytes_length 2 n)]
  exact congrArg Except.ok (beNat_beBytes_of_lt hn)

end Reading

/-! ## Nodes -/

theorem lcaf_whole {parts : List AddrField} (h : ∀ f ∈ parts, f.shape = .whole) (a : LispAddr) :
    AddrField.lcaf parts a = .set a := by
  have hwhole : Shape.over (parts.map AddrField.shape) = .whole := by
    have hfreed : Shape.freed ∉ parts.map AddrField.shape := by
      rintro hmem
      obtain ⟨f, hf, hshape⟩ := mem_map.mp hmem
      exact absurd ((h f hf).symm.trans hshape) (by decide)
    rw [Shape.over, if_neg hfreed, if_pos (forall_mem_map.mpr h)]
  rw [AddrField.lcaf, hwhole]

section Nodes

variable {α β : Type} {hdrLen fuel cur : Nat} {header : Nat → Except Fault α}
  {mk : α → LispAddr → β} {e : List UInt8} {l : List β}

/-- The bytes `e` at `cur` are read as the nodes `l`, all of them whole. -/
def NodesParsed (parse : Nat → Except Fault AddrRead) (hdrLen : Nat) (header : Nat → Except Fault α)
    (mk : α → LispAddr → β) (fuel cur : Nat) (e : List UInt8) (l : List β) : Prop :=
  ∃ nodes, nodesParse parse false hdrLen header fuel cur e.length =
      .ok (some (cur + e.length, nodes)) ∧
    (nodes.map fun n => mk n.1 n.2.outline) = l ∧ ∀ n ∈ nodes, n.2.shape = .whole

theorem NodesParsed.nil : NodesParsed parse hdrLen header mk fuel cur [] [] :=
  ⟨[], by cases fuel <;> rfl, rfl, by simp⟩

theorem NodesParsed.cons {hdr ea er : List UInt8} {x : α} {a : LispAddr}
    (hhdr : hdr.length = hdrLen) (hheader : header cur = .ok x)
    (haddr : parse (cur + hdrLen) = .ok ⟨ea.length, .set a⟩) (hpos : 0 < ea.length)
    (hrest : NodesParsed parse hdrLen header mk fuel (cur + hdrLen + ea.length) er l) :
    NodesParsed parse hdrLen header mk (fuel + 1) cur (hdr ++ (ea ++ er)) (mk x a :: l) := by
  obtain ⟨nodes, hnodes, rfl, hwhole⟩ := hrest
  refine ⟨(x, .set a) :: nodes, ?_, rfl, forall_mem_cons.mpr ⟨rfl, hwhole⟩⟩
  have hlen : hdrLen + (ea.length + er.length) ≠ 0 := by omega
  have hsub : hdrLen + (ea.length + er.length) - hdrLen - ea.length = er.length := by omega
  simp only [length_append, hhdr, nodesParse, if_neg hlen, hheader, haddr,
    if_neg (Nat.ne_of_gt hpos), hsub, hnodes, bind, Except.bind, pure, Except.pure]
  rw [Nat.add_assoc, Nat.add_assoc]

theorem NodesParsed.lcaf (list : List β → LispAddr) (hlen : uint16At b (off + 6) = .ok e.length)
    (h : NodesParsed parse hdrLen header mk e.length (off + 8) e l) :
    lcafNodes b parse false hdrLen header (.ofNodes mk list) off =
      .ok ⟨8 + e.length, .set (list l)⟩ := by
  obtain ⟨nodes, hnodes, rfl, hwhole⟩ := h
  have hsub : off + 8 + e.length - off = 8 + e.length := by omega
  have hset : AddrField.ofNodes mk list (some nodes) = .set (list _) :=
    lcaf_whole (by simpa using fun f x hmem => hwhole (x, f) hmem) _
  simp only [lcafNodes, hlen, hnodes, hsub, hset, bind, Except.bind, pure, Except.pure]

end Nodes

/-! ## Addresses -/

theorem Holds.lcaf (h : Holds b off (lcafEncoding type rsvd2 body)) :
    uint16At b off = .ok LISP_AFI_LCAF ∧ byteAt b (off + 4) = .ok type ∧
      byteAt b (off + 5) = .ok rsvd2 ∧ Holds b (off + 6) (beBytes 2 body.length) ∧
      Holds b (off + 8) body := by
  simp only [lcafEncoding, lcafHdrStart, append_assoc] at h
  have hrest := h.right
  have htype := Holds.right (l := [0, 0]) hrest
  have hrsvd := Holds.right (l := [0, 0, type]) hrest
  have hlen := Holds.right (l := [0, 0, type, rsvd2]) hrest
  have hbody := hlen.right
  exact ⟨h.left.readUint16 (by decide), htype.readByte, hrsvd.readByte, hlen.left, hbody⟩

theorem lispAddrParseBody_lcaf
    (h : Holds b off (lcafEncoding type rsvd2 body)) (hfit : body.length < 65536)
    (htype : type.toNat < MAX_LCAFS)
    (hparse : parseFcts b parse off type.toNat = some (.ok ⟨8 + body.length, field⟩)) :
    lispAddrParseBody b parse off = .ok ⟨8 + body.length, field⟩ := by
  obtain ⟨hafi, ht, -, hlen, -⟩ := h.lcaf
  simp only [lispAddrParseBody, hafi, bind, Except.bind, LISP_AFI_LCAF, lcafAddrParse, ht,
    if_neg (Nat.not_le.mpr htype), hparse, hlen.readUint16 hfit, pure, Except.pure,
    Nat.add_comm body.length 8]
  simp

theorem lispAddrParseBody_ip (parse : Nat → Except Fault AddrRead) {a : IpAddr}
    (h : Holds b off (ipAddrEncoding a)) :
    lispAddrParseBody b parse off = .ok ⟨(ipAddrEncoding a).length, .set (.ip a)⟩ := by
  have hbytes := h.right
  rw [beBytes_length] at hbytes
  cases a with
  | v4 a =>
    have hafi : uint16At b off = .ok 1 := h.left.readUint16 (by simp)
    have ha : BitVec.ofNat 32 (beNat (IpAddr.v4 a).bytes) = a := by
      rw [IpAddr.bytes, beNat_beBytes_of_lt a.isLt, BitVec.ofNat_toNat, BitVec.setWidth_eq]
    have hread := hbytes.readBytes (n := 4) (beBytes_length 4 _)
    have hlen : (ipAddrEncoding (.v4 a)).length = 6 := by simp [ipAddrEncoding, IpAddr.bytes]
    simp [lispAddrParseBody, hafi, hread, ha, hlen, bind, Except.bind, pure, Except.pure,
      -ipAddrEncoding_length]
  | v6 a =>
    have hafi : uint16At b off = .ok 2 := h.left.readUint16 (by simp)
    have ha : BitVec.ofNat 128 (beNat (IpAddr.v6 a).bytes) = a := by
      rw [IpAddr.bytes, beNat_beBytes_of_lt a.isLt, BitVec.ofNat_toNat, BitVec.setWidth_eq]
    have hread := hbytes.readBytes (n := 16) (beBytes_length 16 _)
    have hlen : (ipAddrEncoding (.v6 a)).length = 18 := by simp [ipAddrEncoding, IpAddr.bytes]
    simp [lispAddrParseBody, hafi, hread, ha, hlen, bind, Except.bind, pure, Except.pure,
      -ipAddrEncoding_length]

theorem elpNodeFlags_read (L P S : Bool) (a : LispAddr) :
    ElpNode.mk ((UInt8.ofNat (4 * L.toNat + 2 * P.toNat + S.toNat)).toNat.testBit 2)
      ((UInt8.ofNat (4 * L.toNat + 2 * P.toNat + S.toNat)).toNat.testBit 1)
      ((UInt8.ofNat (4 * L.toNat + 2 * P.toNat + S.toNat)).toNat.testBit 0) a = .mk L P S a := by
  cases L <;> cases P <;> cases S <;> rfl

mutual

/-- An address in the format is parsed, given the bytes it takes as a bound on the nesting. -/
theorem LispAddr.parse_encoding : ∀ {a : LispAddr} {e : List UInt8}, a.regular false = true →
    a.encoding = some e → e.length ≤ 65535 + 8 → ∀ {b : List UInt8} {off fuel : Nat},
      Holds b off e → e.length ≤ fuel → lispAddrParseFuel b fuel off = .ok ⟨e.length, .set a⟩
  | .noAddr, e, _, he, _, b, off, fuel, hb, hfuel => by
    cases he
    obtain ⟨k, rfl⟩ := Nat.exists_eq_add_of_le' (Nat.le_trans (by decide : 1 ≤ 2) hfuel)
    have hafi : uint16At b off = .ok 0 := Holds.readUint16 (n := 0) hb (by decide)
    simp [lispAddrParseFuel, lispAddrParseBody, hafi, bind, Except.bind, pure, Except.pure,
      LISP_AFI_LCAF]
  | .ip a, e, _, he, _, b, off, fuel, hb, hfuel => by
    cases he
    have hpos : 1 ≤ (ipAddrEncoding a).length := by
      rw [ipAddrEncoding_length, ipAddrGetSizeToWrite]
      omega
    obtain ⟨k, rfl⟩ := Nat.exists_eq_add_of_le' (Nat.le_trans hpos hfuel)
    exact lispAddrParseBody_ip _ hb
  | .mc srcPlen grpPlen iid s g, e, hreg, he, hfit, b, off, fuel, hb, hfuel => by
    rw [LispAddr.regular, Bool.and_eq_true] at hreg
    rw [LispAddr.encoding] at he
    obtain ⟨es, hs, eg, hg, rfl⟩ := do_two_eq_some_iff.mp he
    have hlen : (beBytes 4 iid.toNat ++ ([0, 0, srcPlen, grpPlen] ++ (es ++ eg))).length =
        8 + (es.length + eg.length) := by
      simp only [length_append, beBytes_length, length_cons, length_nil]
      omega
    rw [lcafEncoding_length, hlen] at hfit hfuel ⊢
    obtain ⟨k, rfl⟩ :=
      Nat.exists_eq_add_of_le' (Nat.le_trans (by omega : 1 ≤ 8) (by omega : 8 ≤ fuel))
    obtain ⟨-, -, -, -, hbody⟩ := hb.lcaf
    have hiid := hbody.left.readBytes (beBytes_length 4 _)
    have hrest := hbody.right
    rw [beBytes_length] at hrest
    have hsrcPlen := (Holds.right (l := [0, 0]) hrest).readByte
    have hgrpPlen := (Holds.right (l := [0, 0, srcPlen]) hrest).readByte
    have haddrs := Holds.right (l := [0, 0, srcPlen, grpPlen]) hrest
    have hsrc := LispAddr.parse_encoding hreg.1 hs (by omega) haddrs.left (by omega : _ ≤ k)
    have hgrp := LispAddr.parse_encoding hreg.2 hg (by omega) haddrs.right (by omega : _ ≤ k)
    have hnat : UInt32.ofNat (beNat (beBytes 4 iid.toNat)) = iid := by
      rw [beNat_beBytes_of_lt iid.toNat_lt, UInt32.ofNat_toNat]
    have hwhole : ∀ f ∈ [AddrField.set s, .set g], f.shape = .whole := by simp [AddrField.shape]
    have hparse : parseFcts b (lispAddrParseFuel b k) off 9 =
        some (.ok ⟨8 + (8 + (es.length + eg.length)), .set (.mc srcPlen grpPlen iid s g)⟩) := by
      simp only [length_cons, length_nil, Nat.add_assoc,
        Nat.reduceAdd] at hsrcPlen hgrpPlen hsrc hgrp
      simp [parseFcts, mcTypeParse, hiid, hsrcPlen, hgrpPlen, hsrc, hgrp, bind, Except.bind, pure,
        Except.pure, hnat, lcaf_whole hwhole, AddrField.outline, Nat.add_assoc]
      omega
    rw [← hlen] at hparse ⊢
    exact lispAddrParseBody_lcaf hb (by omega) (by decide) hparse
  | .elp nodes, e, hreg, he, hfit, b, off, fuel, hb, hfuel => by
    obtain ⟨r, hr, rfl⟩ := Option.map_eq_some_iff.mp he
    rw [lcafEncoding_length] at hfit hfuel ⊢
    obtain ⟨k, rfl⟩ :=
      Nat.exists_eq_add_of_le' (Nat.le_trans (by omega : 1 ≤ 8) (by omega : 8 ≤ fuel))
    obtain ⟨-, -, -, hlen, hbody⟩ := hb.lcaf
    have hnodes := elpNodes_parse hreg hr (by omega) hbody (by omega : r.length ≤ k) (Nat.le_refl _)
    exact lispAddrParseBody_lcaf hb (by omega) (by decide)
      (congrArg some (hnodes.lcaf .elp (hlen.readUint16 (by omega))))
  | .rle nodes, e, hreg, he, hfit, b, off, fuel, hb, hfuel => by
    obtain ⟨r, hr, rfl⟩ := Option.map_eq_some_iff.mp he
    rw [lcafEncoding_length] at hfit hfuel ⊢
    obtain ⟨k, rfl⟩ :=
      Nat.exists_eq_add_of_le' (Nat.le_trans (by omega : 1 ≤ 8) (by omega : 8 ≤ fuel))
    obtain ⟨-, -, -, hlen, hbody⟩ := hb.lcaf
    have hnodes := rleNodes_parse hreg hr (by omega) hbody (by omega : r.length ≤ k) (Nat.le_refl _)
    exact lispAddrParseBody_lcaf hb (by omega) (by decide)
      (congrArg some (hnodes.lcaf .rle (hlen.readUint16 (by omega))))

theorem elpNodes_parse : ∀ {l : List ElpNode} {e : List UInt8}, elpRegular false l = true →
    elpNodesEncoding l = some e → e.length ≤ 65535 → ∀ {b : List UInt8} {cur k fuel : Nat},
      Holds b cur e → e.length ≤ k → e.length ≤ fuel →
        NodesParsed (lispAddrParseFuel b k) 2 (fun cur => byteAt b (cur + 1))
          (fun (flags : UInt8) a => .mk (flags.toNat.testBit 2) (flags.toNat.testBit 1)
            (flags.toNat.testBit 0) a) fuel cur e l
  | [], e, _, he, _, b, cur, k, fuel, _, _, _ => by
    cases he
    exact .nil
  | .mk L P S a :: rest, e, hreg, he, hfit, b, cur, k, fuel, hb, hk, hfuel => by
    rw [elpRegular, Bool.and_eq_true] at hreg
    rw [elpNodesEncoding] at he
    obtain ⟨ea, ha, er, hr, rfl⟩ := do_two_eq_some_iff.mp he
    have hpos := (LispAddr.encoding_sized ha).pos
    simp only [length_append, elpNodeFlags_length] at hfit hk hfuel
    obtain ⟨f, rfl⟩ := Nat.exists_eq_add_of_le' (by omega : 1 ≤ fuel)
    have haddr := LispAddr.parse_encoding hreg.1 ha (by omega) hb.right.left (by omega : _ ≤ k)
    rw [← elpNodeFlags_read L P S a]
    exact .cons rfl (Holds.right (l := [0]) hb.left).readByte haddr hpos
      (elpNodes_parse hreg.2 hr (by omega) hb.right.right (by omega) (by omega))

theorem rleNodes_parse : ∀ {l : List RleNode} {e : List UInt8}, rleRegular false l = true →
    rleNodesEncoding l = some e → e.length ≤ 65535 → ∀ {b : List UInt8} {cur k fuel : Nat},
      Holds b cur e → e.length ≤ k → e.length ≤ fuel →
        NodesParsed (lispAddrParseFuel b k) 4 (fun cur => byteAt b (cur + 3)) .mk fuel cur e l
  | [], e, _, he, _, b, cur, k, fuel, _, _, _ => by
    cases he
    exact .nil
  | .mk level a :: rest, e, hreg, he, hfit, b, cur, k, fuel, hb, hk, hfuel => by
    rw [rleRegular, Bool.and_eq_true] at hreg
    rw [rleNodesEncoding] at he
    obtain ⟨ea, ha, er, hr, rfl⟩ := do_two_eq_some_iff.mp he
    have hpos := (LispAddr.encoding_sized ha).pos
    simp only [length_append, rleNodeHdr_length] at hfit hk hfuel
    obtain ⟨f, rfl⟩ := Nat.exists_eq_add_of_le' (by omega : 1 ≤ fuel)
    have haddr := LispAddr.parse_encoding hreg.1 ha (by omega) hb.right.left (by omega : _ ≤ k)
    exact .cons rfl (Holds.right (l := [0, 0, 0]) hb.left).readByte haddr hpos
      (rleNodes_parse hreg.2 hr (by omega) hb.right.right (by omega) (by omega))

end

mutual

theorem LispAddr.regular_of_noPrefix : ∀ {a : LispAddr}, a.regular false = true →
    a.regular true = true
  | .noAddr, _ => rfl
  | .ip _, _ => rfl
  | .mc _ _ _ s g, h => by
    rw [LispAddr.regular, Bool.and_eq_true] at h ⊢
    exact ⟨LispAddr.regular_of_noPrefix h.1, LispAddr.regular_of_noPrefix h.2⟩
  | .elp nodes, h => elpRegular_of_noPrefix (l := nodes) h
  | .rle nodes, h => rleRegular_of_noPrefix (l := nodes) h

theorem elpRegular_of_noPrefix : ∀ {l : List ElpNode}, elpRegular false l = true →
    elpRegular true l = true
  | [], _ => rfl
  | .mk _ _ _ a :: rest, h => by
    rw [elpRegular, Bool.and_eq_true] at h ⊢
    exact ⟨LispAddr.regular_of_noPrefix h.1, elpRegular_of_noPrefix h.2⟩

theorem rleRegular_of_noPrefix : ∀ {l : List RleNode}, rleRegular false l = true →
    rleRegular true l = true
  | [], _ => rfl
  | .mk _ a :: rest, h => by
    rw [rleRegular, Bool.and_eq_true] at h ⊢
    exact ⟨LispAddr.regular_of_noPrefix h.1, rleRegular_of_noPrefix h.2⟩

end

/-- The address is written into memory at `off`, and parsing what stands there gives it back and
consumes as much as was announced. -/
def RoundTrips (a : LispAddr) (m : List UInt8) (off : Nat) : Prop :=
  (lispAddrWrite a off).len = lispAddrSizeToWrite a ∧
    lispAddrParse ((lispAddrWrite a off).writes.apply m) off =
      .ok ⟨lispAddrSizeToWrite a, .set a⟩

/-- Addresses built from no address, IP addresses, multicast information, paths and replication
lists are read back, if the length after the header fits its 16 bits. -/
theorem address_round_trip {a : LispAddr} (hform : a.regular false = true)
    (hfit : lispAddrSizeToWrite a ≤ 65535 + 8) {m : List UInt8} {off : Nat}
    (hroom : off + lispAddrSizeToWrite a ≤ m.length) : RoundTrips a m off := by
  obtain ⟨e, he, hfills⟩ := LispAddr.regular_fills (LispAddr.regular_of_noPrefix hform)
  obtain ⟨hsize, -, hlen⟩ := LispAddr.encoding_sized he
  rw [hsize] at hfit hroom
  refine ⟨(hlen off).trans hsize.symm, ?_⟩
  rw [hsize, lispAddrParse, Writes.apply_length]
  exact LispAddr.parse_encoding hform he hfit ((hfills off).covers.holds hroom) (by omega)

/-- A path over a replication list with multicast information. -/
def labHops : LispAddr :=
  .elp [.mk true false true (.ip (.v4 0x0a000001#32)),
    .mk false true false (.rle [.mk 3 (.mc 24 32 77 (.ip (.v6 1#128)) .noAddr), .mk 0 (.elp [])])]

theorem address_round_trip_hops :
    labHops.regular false = true ∧ lispAddrSizeToWrite labHops ≤ 65535 + 8 ∧
      RoundTrips labHops (replicate 90 0xff) 5 :=
  ⟨by decide, by decide, address_round_trip (by decide) (by decide) (by decide)⟩

/-! ## Instances and AFI lists -/

theorem lispAddrParseBody_lcaf_inv {off n : Nat} {a : LispAddr}
    (h : Holds b off (lcafHdrStart type rsvd2)) (hn : n ≠ 0)
    (hparse : lispAddrParseBody b parse off = .ok ⟨n, .set a⟩) :
    parseFcts b parse off type.toNat = some (.ok ⟨n, .set a⟩) ∧
      ∃ len, uint16At b (off + 6) = .ok len ∧ n = len + 8 := by
  have hafi := h.left.readUint16 (by decide)
  have hrest := h.right
  rw [beBytes_length] at hrest
  have htype := (Holds.right (l := [0, 0]) hrest).readByte
  simp only [length_cons, length_nil, Nat.add_assoc, Nat.reduceAdd] at htype
  simp only [lispAddrParseBody, hafi, lcafAddrParse, htype, except_bind_ok,
    Except.ok.injEq, exists_eq_left', LISP_AFI_LCAF, Nat.reduceEqDiff, if_false, if_true] at hparse
  split_ifs at hparse
  split at hparse
  · cases except_pure_ok.mp hparse
  · rename_i result hfct
    simp only [except_bind_ok] at hparse
    obtain ⟨⟨k, _⟩, rfl, len, hlen, hparse⟩ := hparse
    cases except_pure_ok.mp hparse
    split_ifs at hn with hcheck
    · rw [if_pos hcheck]
      exact ⟨hfct, len, hlen, hcheck⟩
    · contradiction

/-- The parser does not keep the addresses of an AFI list. -/
theorem afiListTypeParse_bare {r : AddrRead} (h : afiListTypeParse b parse off = .ok r) :
    r.field = .bare := by
  simp only [afiListTypeParse, lcafNodes, except_bind_ok] at h
  obtain ⟨len, -, nodes, -, h⟩ := h
  split at h
  · rw [except_pure_ok.mp h]
  · rw [except_pure_ok.mp h]

/-- No LCAF with an instance over an IP address, and no AFI list of IP addresses, is read back. -/
theorem instance_and_list_not_read_back {a : LispAddr}
    (hkind : (∃ iid mlen ip, a = .iid iid mlen (.ip ip)) ∨
      ∃ l : List IpAddr, a = .afiList (l.map .ip))
    {m : List UInt8} {off : Nat} (hroom : off + lispAddrSizeToWrite a ≤ m.length) :
    ¬ RoundTrips a m off := by
  rintro ⟨-, hparse⟩
  obtain ⟨iid, mlen, ip, rfl⟩ | ⟨l, rfl⟩ := hkind
  · -- the length field counts the header, so it disagrees with the bytes read
    have hfills : Fills (lispAddrWrite (.iid iid mlen (.ip ip)) off).writes off
        ((lcafHdrStart 2 mlen ++ (beBytes 2 (12 + lispAddrSizeToWrite (.ip ip)) ++
          beBytes 4 iid.toNat)) ++ ipAddrEncoding ip) := by
      refine .cons ?_
      simpa [lispAddrWrite, ipAddrWriteToPkt] using Fills.single (off + 12) (ipAddrEncoding ip)
    have hholds := hfills.covers.holds (m := m) (by
      simp [lispAddrSizeToWrite] at hroom ⊢
      omega)
    have hfield := hholds.left.right.left
    rw [lcafHdrStart_length] at hfield
    obtain ⟨-, len, hlen, hsize⟩ := lispAddrParseBody_lcaf_inv hholds.left.left
      (by simp [lispAddrSizeToWrite]) hparse
    have hip : lispAddrSizeToWrite (.ip ip) ≤ 18 := by
      cases ip <;> simp [lispAddrSizeToWrite, ipAddrGetSizeToWrite, IpAddr.bytes]
    rw [hfield.readUint16 (by omega)] at hlen
    have hlen := Except.ok.inj hlen
    rw [show lispAddrSizeToWrite (.iid iid mlen (.ip ip)) =
      12 + lispAddrSizeToWrite (.ip ip) from rfl] at hsize
    omega
  · -- whatever stands in the length field, nothing is kept
    have hholds := (nodesLcafWrite_hdr 1 (afiListWrite_forward (l.map .ip)) off).holds (m := m) (by
      simp only [lispAddrSizeToWrite, lcafHdrStart_length] at hroom ⊢
      omega)
    obtain ⟨hfct, -⟩ := lispAddrParseBody_lcaf_inv hholds (by simp [lispAddrSizeToWrite]) hparse
    cases afiListTypeParse_bare (Option.some.inj hfct)

theorem instance_and_list_not_read_back_pair :
    (∃ l : List IpAddr, LispAddr.afiList [.ip (.v4 1#32), .ip (.v6 2#128)] = .afiList (l.map .ip)) ∧
      0 + lispAddrSizeToWrite (.afiList [.ip (.v4 1#32), .ip (.v6 2#128)]) ≤
        (replicate 40 (0 : UInt8)).length ∧
      ¬ RoundTrips (.afiList [.ip (.v4 1#32), .ip (.v6 2#128)]) (replicate 40 0) 0 :=
  ⟨⟨[.v4 1#32, .v6 2#128], rfl⟩, by decide,
    instance_and_list_not_read_back (.inr ⟨[.v4 1#32, .v6 2#128], rfl⟩) (by decide)⟩

/-- The instance 7 over an IPv4 address, and an AFI list with one, in a new message: the first is
not recognised and has its instance the other way round, and of the second eight bytes are read and
nothing is kept. -/
theorem instance_and_list_dropped :
    lispAddrParse ((lispAddrWrite (.iid 7 32 (.ip (.v4 1#32))) 0).writes.apply
        (replicate 18 0)) 0 = .ok ⟨0, .set (.iid 0x07000000 32 (.ip (.v4 1#32)))⟩ ∧
      lispAddrParse ((lispAddrWrite (.afiList [.ip (.v4 1#32)]) 0).writes.apply
        (replicate 14 0)) 0 = .ok ⟨8, .bare⟩ :=
  ⟨rfl, rfl⟩

end Lispmob
