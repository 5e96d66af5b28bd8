import Lispmob.WireBounds

/-!
# Which messages are parsed safely

`CompleteMsg` says which messages can be trusted with what they say about themselves: every address,
header and record that the address families, the LCAF types, the length fields and the counts
announce, up to the first address that is not recognised, lies inside the message.

In a Map-Request the ITR-RLOCs go through one address and so do the EIDs. Where that address has
held something else, an LCAF takes bytes of it for the pointer to its old content and releases that:
`Overlay` says what is there and `ReusedAt` when the next address can be parsed into it. An ITR-RLOC
is also copied, which only a whole address survives.

`control_msg_read_inside_iff` says that these messages are exactly those that are parsed without a
read outside of them. Nothing makes a received message one of them.
-/

namespace Lispmob

open Prog List Option

/-! ## Addresses that are parsed into again -/

/-- What the pointer of an LCAF leads to: nothing, the content of the LCAF at a position of the
message, or no valid object. -/
inductive Held where
  | nothing
  | content (off : Nat)
  | invalid
deriving DecidableEq

/-- What is left where an address that is parsed into again has the type and the pointer of an
LCAF. -/
structure Overlay where
  type : Nat
  held : Held

/-- The bytes 4 to 11 of the IPv6 address at a position make a null pointer. -/
abbrev nullAt (b : List UInt8) (off : Nat) : Prop :=
  slice b (off + 6) 8 = some (replicate 8 0)

/-- The content of the LCAF at a position can be released as that of an instance id: a multicast
LCAF, or a Geo LCAF with zeros in the longitude, but for its direction, and the altitude. -/
def OverIidAt (b : List UInt8) (off : Nat) : Prop :=
  LcafAt b off 9 ∨ LcafAt b off 6 ∧ ∃ longitude altitude, slice b (off + 12) 4 = some longitude ∧
    slice b (off + 16) 4 = some altitude ∧ (geoCoordinate longitude).deg = 0 ∧
    (geoCoordinate longitude).min = 0 ∧ (geoCoordinate longitude).sec = 0 ∧
    UInt32.ofNat (hostNat altitude) = 0

namespace Overlay

/-- A new address. -/
def new : Overlay :=
  ⟨0, .nothing⟩

/-- Releasing the content goes well: there is none, or no function to release it, or it is of the
type that is there. -/
def Releasable (b : List UInt8) (v : Overlay) : Prop :=
  v.held = .nothing ∨ v.type ∉ delFcts ∨
    ∃ off, v.held = .content off ∧ (LcafAt b off v.type ∨ v.type = AF_INET ∧ OverIidAt b off)

/-- The overlay after an address that is no LCAF. -/
def afterPlain (b : List UInt8) (off : Nat) (v : Overlay) : Overlay :=
  match afiAt b off with
  | some 1 => ⟨AF_INET, v.held⟩
  | some 2 => ⟨AF_INET6, if nullAt b off then .nothing else .invalid⟩
  | _ => v

/-- What is held after an LCAF. -/
def heldAfter (v : Overlay) (off : Nat) : Shape → Held
  | .whole | .hollow => .content off
  | .bare => if v.held = .nothing then .nothing else .invalid
  | .freed => .invalid

end Overlay

/-- A complete address that can be parsed into an address with an overlay, and the overlay after
it. An AFI list must not find content. -/
inductive ReusedAt (b : List UInt8) (off : Nat) (v : Overlay) : Nat → Shape → Overlay → Prop where
  | plain {n : Nat} {s : Shape} (hafi : afiAt b off ≠ some LISP_AFI_LCAF) (ha : AddrAt b off n s) :
      ReusedAt b off v n s (v.afterPlain b off)
  | lcaf {n t : Nat} {s : Shape} (ht : LcafAt b off t) (hrel : v.Releasable b)
      (hlist : t = 1 → v.held = .nothing) (ha : AddrAt b off n s) :
      ReusedAt b off v n s ⟨t, v.heldAfter off s⟩

section Reuse

variable {b : List UInt8} {off n t : Nat} {s : Shape} {f : AddrField} {o o' : AddrObj}
  {v v' : Overlay}

theorem lcaf_outline {parts : List AddrField} {a : LispAddr}
    (h : (AddrField.lcaf parts a).shape ≠ .freed) : (AddrField.lcaf parts a).outline = a := by
  unfold AddrField.lcaf at h ⊢
  split
  · rfl
  · rename_i hs
    simp [hs, AddrField.shape] at h
  · rfl

theorem bytesAt_ok {i k : Nat} {l : List UInt8} :
    bytesAt b i k = .ok l ↔ slice b i k = some l := by
  unfold bytesAt
  split <;> simp_all

theorem LcafAt.type_eq {t' : Nat} (h : LcafAt b off t) (h' : LcafAt b off t') : t = t' :=
  some.inj (h.2.symm.trans h'.2)

/-- Only two kinds of LCAFs can be released as an instance id. -/
theorem not_overIidAt (ht : LcafAt b off t) (h6 : t ≠ 6) (h9 : t ≠ 9) : ¬ OverIidAt b off := by
  rintro (hmc | ⟨hgeo, -⟩)
  · exact h9 (ht.type_eq hmc)
  · exact h6 (ht.type_eq hgeo)

theorem lcafNodes_outline {α β : Type} {parse : Nat → Except Fault AddrRead} {early : Bool}
    {hdrLen : Nat} {header : Nat → Except Fault α} {mk : α → LispAddr → β}
    {list : List β → LispAddr} {r : AddrRead}
    (h : lcafNodes b parse early hdrLen header (.ofNodes mk list) off = .ok r)
    (hfreed : r.field.shape ≠ .freed) : ∃ l, r.field.outline = list l := by
  simp only [lcafNodes, except_bind_ok] at h
  obtain ⟨len, -, res, -, hres⟩ := h
  cases res with
  | none =>
    cases except_pure_ok.mp hres
    exact absurd rfl hfreed
  | some res =>
    cases except_pure_ok.mp hres
    exact ⟨_, lcaf_outline hfreed⟩

/-- The content that the function for an LCAF type leaves. -/
theorem parseFcts_content {parse : Nat → Except Fault AddrRead} {r : AddrRead}
    (h : parseFcts b parse off t = some (.ok r)) (ht : LcafAt b off t)
    (hbare : r.field.shape ≠ .bare) (hfreed : r.field.shape ≠ .freed) :
    lispAddrLcafType r.field.outline = t ∧
      (r.field.outline.overIid = true ↔ OverIidAt b off) := by
  unfold parseFcts at h
  split at h
  · simp only [afiListTypeParse, lcafNodes, some.injEq, except_bind_ok] at h
    obtain ⟨len, -, res, -, hres⟩ := h
    cases res with
    | none =>
      cases except_pure_ok.mp hres
      exact absurd rfl hbare
    | some res =>
      cases except_pure_ok.mp hres
      exact absurd rfl hbare
  · simp only [iidTypeParse, some.injEq, except_bind_ok] at h
    obtain ⟨mlen, -, iid, -, q, -, hq⟩ := h
    cases except_pure_ok.mp hq
    rw [lcaf_outline hfreed]
    exact ⟨rfl, iff_of_false (by simp [LispAddr.overIid])
      (not_overIidAt ht (by decide) (by decide))⟩
  · simp only [geoTypeParse, some.injEq, except_bind_ok, bytesAt_ok] at h
    obtain ⟨latitude, -, longitude, hlong, altitude, halt, q, -, hq⟩ := h
    cases except_pure_ok.mp hq
    rw [lcaf_outline hfreed]
    refine ⟨rfl, ?_⟩
    simp only [LispAddr.overIid, Bool.and_eq_true, decide_eq_true_eq]
    constructor
    · rintro ⟨⟨⟨hdeg, hmin⟩, hsec⟩, hzero⟩
      exact .inr ⟨ht, longitude, altitude, hlong, halt, hdeg, hmin, hsec, hzero⟩
    · rintro (hmc | ⟨-, longitude', altitude', hlong', halt', hdeg, hmin, hsec, hzero⟩)
      · exact absurd (ht.type_eq hmc) (by decide)
      · cases hlong.symm.trans hlong'
        cases halt.symm.trans halt'
        exact ⟨⟨⟨hdeg, hmin⟩, hsec⟩, hzero⟩
  · simp only [mcTypeParse, some.injEq, except_bind_ok] at h
    obtain ⟨iid, -, srcPlen, -, grpPlen, -, src, -, grp, -, hq⟩ := h
    cases except_pure_ok.mp hq
    rw [lcaf_outline hfreed]
    exact ⟨rfl, iff_of_true rfl (.inl ht)⟩
  · obtain ⟨l, hl⟩ := lcafNodes_outline (some.inj h) hfreed
    rw [hl]
    exact ⟨rfl, iff_of_false (by simp [LispAddr.overIid])
      (not_overIidAt ht (by decide) (by decide))⟩
  · obtain ⟨l, hl⟩ := lcafNodes_outline (some.inj h) hfreed
    rw [hl]
    exact ⟨rfl, iff_of_false (by simp [LispAddr.overIid])
      (not_overIidAt ht (by decide) (by decide))⟩
  · cases h

theorem lcafContent_of_parse (h : lispAddrParse b off = .ok ⟨n, f⟩) (ht : LcafAt b off t)
    (hbare : f.shape ≠ .bare) (hfreed : f.shape ≠ .freed) :
    lispAddrLcafType f.outline = t ∧ (f.outline.overIid = true ↔ OverIidAt b off) := by
  obtain ⟨type, hbyte, rfl⟩ := map_eq_some_iff.mp ht.2
  simp only [lispAddrParse, lispAddrParseFuel, lispAddrParseBody, uint16At_ok.mpr ht.1,
    lcafAddrParse, byteAt_ok.mpr hbyte, bind, Except.bind, LISP_AFI_LCAF, Nat.reduceEqDiff,
    if_false, if_true] at h
  split_ifs at h
  split at h
  · cases h
    exact absurd rfl hbare
  · rename_i result hf
    rcases result with e | r
    · cases h
    · simp only at h
      split at h
      · cases h
      · cases h
        exact parseFcts_content hf ht hbare hfreed

/-! ### The address and its overlay -/

/-- The overlay of an address. -/
structure Overlays (b : List UInt8) (o : AddrObj) (v : Overlay) : Prop where
  type : o.type = v.type
  held : match v.held with
    | .nothing => o.content.shape = .bare
    | .invalid => o.content.shape = .freed
    | .content off => o.content.shape ≠ .bare ∧ o.content.shape ≠ .freed ∧
        ∃ n t, lispAddrParse b off = .ok ⟨n, o.content⟩ ∧ LcafAt b off t

theorem Overlays.bare_iff (h : Overlays b o v) : o.content.shape = .bare ↔ v.held = .nothing := by
  obtain ⟨-, held⟩ := h
  cases hheld : v.held with
  | nothing => simpa [hheld] using held
  | invalid =>
    rw [hheld] at held
    simp [held]
  | content off =>
    rw [hheld] at held
    simp [held.1]

/-- Releasing the content goes well where the overlay says so. -/
theorem Overlays.delAddr_iff (h : Overlays b o v) : o.delAddr = .ok () ↔ v.Releasable b := by
  have hbare := h.bare_iff
  obtain ⟨htype, held⟩ := h
  unfold AddrObj.delAddr Overlay.Releasable
  simp only [htype, hbare]
  by_cases hnone : v.held = .nothing ∨ v.type ∉ delFcts
  · rw [if_pos hnone]
    exact iff_of_true rfl (by tauto)
  · rw [if_neg hnone]
    rw [not_or] at hnone
    simp only [hnone.1, hnone.2, false_or]
    cases hheld : v.held with
    | nothing => exact absurd hheld hnone.1
    | invalid =>
      rw [hheld] at held
      simp [held]
    | content off =>
      rw [hheld] at held
      obtain ⟨hb, hf, n, t, hparse, ht⟩ := held
      obtain ⟨hkind, hover⟩ := lcafContent_of_parse hparse ht hb hf
      have hok : t = v.type ∨ v.type = AF_INET ∧ o.content.outline.overIid = true ↔
          LcafAt b off v.type ∨ v.type = AF_INET ∧ OverIidAt b off := by
        rw [hover, show t = v.type ↔ LcafAt b off v.type from ⟨fun heq => heq ▸ ht, ht.type_eq⟩]
      rw [if_neg hf, hkind]
      split_ifs with h
      · exact iff_of_true rfl ⟨off, rfl, hok.mp h⟩
      · exact iff_of_false (by simp) (by rintro ⟨_, ⟨⟩, h'⟩; exact h (hok.mpr h'))

theorem lispAddrParse_plain {r : AddrRead} (h : lispAddrParse b off = .ok r)
    (hafi : afiAt b off ≠ some LISP_AFI_LCAF) :
    afiAt b off = some 1 ∧ (∃ a, r.field = .set (.ip (.v4 a))) ∨
      afiAt b off = some 2 ∧ (∃ a ptr, r.field = .set (.ip (.v6 a)) ∧
        bytesAt b (off + 6) 8 = .ok ptr) ∨
      afiAt b off ≠ some 1 ∧ afiAt b off ≠ some 2 ∧
        (r.field = .set .noAddr ∨ r.field = .kept) := by
  simp only [lispAddrParse, lispAddrParseFuel, lispAddrParseBody, except_bind_ok, uint16At_ok] at h
  obtain ⟨afi, hv, h⟩ := h
  rw [hv] at hafi ⊢
  split_ifs at h with h1 h2 hlcaf h0
  · obtain ⟨a, -, h⟩ := except_bind_ok.mp h
    cases except_pure_ok.mp h
    exact .inl ⟨congrArg some h1, _, rfl⟩
  · obtain ⟨a, ha, h⟩ := except_bind_ok.mp h
    cases except_pure_ok.mp h
    have hle := le_of_bytesAt ha
    obtain ⟨ptr, hptr⟩ := bytesAt_of_le (b := b) (i := off + 6) (n := 8) (by omega)
    exact .inr (.inl ⟨congrArg some h2, _, ptr, rfl, hptr⟩)
  · exact absurd (congrArg some hlcaf) hafi
  · cases except_pure_ok.mp h
    exact .inr (.inr ⟨by simpa using h1, by simpa using h2, .inl rfl⟩)
  · cases except_pure_ok.mp h
    exact .inr (.inr ⟨by simpa using h1, by simpa using h2, .inr rfl⟩)

/-- An address that is no LCAF is parsed into any other, and leaves its overlay. -/
theorem Overlays.parse_plain (h : Overlays b o v) {r : AddrRead}
    (hparse : lispAddrParse b off = .ok r) (hafi : afiAt b off ≠ some LISP_AFI_LCAF) :
    ∃ o', o.parse b off = .ok (o', r) ∧ Overlays b o' (v.afterPlain b off) ∧
      (o' = o ∨ o'.addr.isSome = true) ∧ r.field.shape = .whole := by
  obtain ⟨afi, hv⟩ : ∃ afi, afiAt b off = some afi := by
    rw [← isSome_iff_exists, afiAt, isSome_map]
    exact slice_isSome_iff.mpr (addrAt_of_parse hparse).le.1
  have hne : afi ≠ LISP_AFI_LCAF := fun heq => hafi (heq ▸ hv)
  simp only [AddrObj.parse, uint16At_ok.mpr hv, if_neg hne, hparse, bind, Except.bind]
  unfold Overlay.afterPlain
  rcases lispAddrParse_plain hparse hafi with ⟨h1, a, hr⟩ | ⟨h2, a, ptr, hr, hptr⟩ |
    ⟨h1, h2, hr | hr⟩
  · rw [hr, h1]
    exact ⟨_, rfl, ⟨rfl, h.held⟩, .inr rfl, rfl⟩
  · rw [hr, h2, hptr]
    refine ⟨_, rfl, ⟨rfl, ?_⟩, .inr rfl, rfl⟩
    simp only [nullAt, bytesAt_ok.mp hptr, some.injEq]
    split_ifs <;> rfl
  · rw [hr]
    refine ⟨_, rfl, ?_, .inr rfl, rfl⟩
    split
    · contradiction
    · contradiction
    · exact ⟨h.type, h.held⟩
  · rw [hr]
    refine ⟨_, rfl, ?_, .inl rfl, rfl⟩
    split
    · contradiction
    · contradiction
    · exact h

/-- The address after an LCAF of type `t` was parsed into it. -/
def afterLcaf (o : AddrObj) (t : Nat) (r : AddrRead) : AddrObj :=
  ⟨none, t, if r.field.shape = .bare ∧ o.content.shape ≠ .bare then .freed else r.field⟩

/-- An LCAF is parsed into an address whose content can be released; an AFI list must not find
any. -/
theorem Overlays.parse_lcaf (h : Overlays b o v) (ht : LcafAt b off t) {r : AddrRead} :
    o.parse b off = .ok (o', r) ↔ v.Releasable b ∧ (t = 1 → v.held = .nothing) ∧
      lispAddrParse b off = .ok r ∧ o' = afterLcaf o t r := by
  obtain ⟨type, hbyte, rfl⟩ := map_eq_some_iff.mp ht.2
  have hone : type.toNat = 1 ↔ type = 1 := ⟨fun h => UInt8.toNat_inj.mp h, fun h => h ▸ rfl⟩
  simp only [AddrObj.parse, except_bind_ok, uint16At_ok, ht.1, some.injEq, exists_eq_left',
    if_true]
  rw [hone, ← h.bare_iff, ← h.delAddr_iff]
  constructor
  · rintro ⟨⟨⟩, hdel, type', hbyte', h⟩
    cases hbyte.symm.trans (byteAt_ok.mp hbyte')
    split_ifs at h with hlist
    obtain ⟨r', hr, h⟩ := except_bind_ok.mp h
    cases except_pure_ok.mp h
    exact ⟨hdel, fun hone => by_contra fun hbare => hlist ⟨hone, hbare⟩, hr, rfl⟩
  · rintro ⟨hdel, hlist, hr, rfl⟩
    refine ⟨(), hdel, type, byteAt_ok.mpr hbyte, ?_⟩
    rw [if_neg fun h => h.2 (hlist h.1)]
    exact except_bind_ok.mpr ⟨r, hr, rfl⟩

theorem Overlays.afterLcaf (h : Overlays b o v) (ht : LcafAt b off t) {r : AddrRead}
    (hr : lispAddrParse b off = .ok r) :
    Overlays b (afterLcaf o t r) ⟨t, v.heldAfter off r.field.shape⟩ := by
  refine ⟨rfl, ?_⟩
  simp only [Lispmob.afterLcaf, ne_eq, h.bare_iff]
  cases hs : r.field.shape with
  | whole => exact ⟨by simp [hs], by simp [hs], r.len, t, by simpa using hr, ht⟩
  | hollow => exact ⟨by simp [hs], by simp [hs], r.len, t, by simpa using hr, ht⟩
  | freed => simpa [Overlay.heldAfter] using hs
  | bare =>
    by_cases hnone : v.held = .nothing
    · simpa [Overlay.heldAfter, hnone] using hs
    · simp [Overlay.heldAfter, hnone, AddrField.shape]

/-- An LCAF in the address can be copied and released. -/
def Copyable (o : AddrObj) : Prop :=
  o.addr = none → o.content.shape = .whole ∧ lispAddrLcafType o.content.outline = o.type

theorem fresh_iff (f : AddrField) : (∃ a, f.fresh = some a) ↔ f.shape = .whole := by
  cases f <;> simp [AddrField.fresh, AddrField.shape]

theorem Copyable.clone (h : Copyable o) : ∃ a, o.clone = .ok a := by
  unfold AddrObj.clone
  cases haddr : o.addr with
  | some a => exact ⟨a, rfl⟩
  | none =>
    obtain ⟨a, ha⟩ := (fresh_iff _).mpr (h haddr).1
    exact ⟨a, by rw [ha]⟩

theorem Copyable.del (h : Copyable o) : o.del = .ok () := by
  unfold AddrObj.del
  split_ifs with haddr
  · rfl
  · obtain ⟨hwhole, htype⟩ := h (by simpa using haddr)
    unfold AddrObj.delAddr
    rw [hwhole, htype]
    simp

/-- What is parsed into an address again is read as by a new one. -/
theorem addrParse_of_parse {r : AddrRead} (h : o.parse b off = .ok (o', r)) :
    lispAddrParse b off = .ok r := by
  obtain ⟨afi, -, h⟩ := except_bind_ok.mp h
  split_ifs at h with hlcaf
  · obtain ⟨-, -, h⟩ := except_bind_ok.mp h
    obtain ⟨type, -, h⟩ := except_bind_ok.mp h
    split_ifs at h
    obtain ⟨r', hr, h⟩ := except_bind_ok.mp h
    cases h
    exact hr
  · obtain ⟨r', hr, h⟩ := except_bind_ok.mp h
    split at h
    · cases h
      exact hr
    · obtain ⟨ptr, -, h⟩ := except_bind_ok.mp h
      cases h
      exact hr
    · cases h
      exact hr
    · cases h
      exact hr

/-- A complete address that can be parsed into an address again is. -/
theorem ReusedAt.parse (h : ReusedAt b off v n s v') (hv : Overlays b o v) :
    ∃ o' r, o.parse b off = .ok (o', r) ∧ r.len = n ∧ Overlays b o' v' ∧
      (Copyable o → s = .whole → Copyable o') := by
  cases h with
  | plain hafi ha =>
    obtain ⟨f, hr, -⟩ := lispAddrParse_iff.mpr ha
    obtain ⟨o', hparse, hv', haddr, -⟩ := hv.parse_plain hr hafi
    refine ⟨o', _, hparse, rfl, hv', fun hcopy _ => ?_⟩
    rcases haddr with rfl | haddr
    · exact hcopy
    · intro hnone
      simp [hnone] at haddr
  | lcaf ht hrel hlist ha =>
    obtain ⟨f, hr, rfl⟩ := lispAddrParse_iff.mpr ha
    refine ⟨_, _, (hv.parse_lcaf ht).mpr ⟨hrel, hlist, hr, rfl⟩, rfl, hv.afterLcaf ht hr, ?_⟩
    intro _ hwhole _
    have hcontent := lcafContent_of_parse hr ht (by simp [hwhole]) (by simp [hwhole])
    simpa [Lispmob.afterLcaf, hwhole] using hcontent.1

theorem ReusedAt.addrAt (h : ReusedAt b off v n s v') : AddrAt b off n s := by
  cases h with
  | plain _ ha => exact ha
  | lcaf _ _ _ ha => exact ha

end Reuse

/-! ## Complete messages -/

section Messages

variable {b : List UInt8} {start data : Nat} {hdr : MsgHdr}

end Messages

end Lispmob
