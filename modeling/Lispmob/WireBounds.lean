import Lispmob.WireFormat

/-!
# Which addresses and records are read inside a message

The parsing functions trust what a message says about itself. `AddrAt b off n s` says which
addresses deserve it: everything that the address families, the LCAF types and the length fields
announce, up to the first address that is not recognised, lies inside the message, and no LCAF type
is as large as the tables of LCAF functions. The address takes `n` bytes, is not recognised when `n`
is `0`, and leaves an address of shape `s`. `RecordAt` is the same for mapping records.

`lispAddrParse_iff` says that complete addresses are exactly those parsed without leaving the
message, and `readMappingRecords_iff` says it of the records.
-/

namespace Lispmob

open Prog List Option

/-! ## Complete addresses -/

/-- The address family at a position. -/
def afiAt (b : List UInt8) (off : Nat) : Option Nat :=
  (slice b off 2).map beNat

/-- An LCAF of type `t` starts at `off`. -/
def LcafAt (b : List UInt8) (off t : Nat) : Prop :=
  afiAt b off = some LISP_AFI_LCAF ∧ (b[off + 4]?).map UInt8.toNat = some t

/-- The length field of the LCAF at a position. -/
def lcafLenAt (b : List UInt8) (off : Nat) : Nat :=
  (afiAt b (off + 6)).getD 0

/-- The length of an LCAF of which `n` bytes were read, `0` when its length field disagrees. -/
def acceptedLen (b : List UInt8) (off n : Nat) : Nat :=
  if n = lcafLenAt b off + 8 then n else 0

/-- The shape of an LCAF of nodes: `none` when one of them is not recognised, otherwise the end of
the last one and the shapes of all. -/
def nodesShape (t : Nat) (e : Option (Nat × List Shape)) : Shape :=
  if t = 1 then .bare else e.elim .freed fun e => .over e.2

mutual

/-- A complete address of `n` bytes, or one that is not recognised, for `n = 0`, and its shape. -/
inductive AddrAt (b : List UInt8) : Nat → Nat → Shape → Prop where
  | noAddr {off : Nat} (h : afiAt b off = some 0) : AddrAt b off 2 .whole
  | ipv4 {off : Nat} (h : afiAt b off = some 1) (hlen : off + 6 ≤ b.length) :
      AddrAt b off 6 .whole
  | ipv6 {off : Nat} (h : afiAt b off = some 2) (hlen : off + 18 ≤ b.length) :
      AddrAt b off 18 .whole
  | unknownAfi {off v : Nat} (h : afiAt b off = some v) (hv : v ∉ [0, 1, 2, LISP_AFI_LCAF]) :
      AddrAt b off 0 .whole
  | lcaf {off t n : Nat} {s : Shape} (h : LcafAt b off t) (hbody : LcafBodyAt b off t n s) :
      AddrAt b off (acceptedLen b off n) s

/-- The complete body of an LCAF of type `t`: how many bytes are read with its header, and its
shape. -/
inductive LcafBodyAt (b : List UInt8) : Nat → Nat → Nat → Shape → Prop where
  | unknown {off t : Nat} (hsize : t < MAX_LCAFS) (ht : t ∉ delFcts) : LcafBodyAt b off t 0 .bare
  | iid {off n : Nat} {s : Shape} (ha : AddrAt b (off + 12) n s) :
      LcafBodyAt b off 2 (12 + n) (.over [s])
  | geo {off n : Nat} {s : Shape} (ha : AddrAt b (off + 20) n s) :
      LcafBodyAt b off 6 (20 + n) (.over [s])
  | mc {off n k : Nat} {s s' : Shape} (hsrc : AddrAt b (off + 16) n s)
      (hgrp : AddrAt b (off + 16 + n) k s') : LcafBodyAt b off 9 (16 + n + k) (.over [s, s'])
  | nodes {off t hdrLen : Nat} {e : Option (Nat × List Shape)}
      (ht : (t, hdrLen) ∈ [(1, 0), (10, 2), (13, 4)]) (hhdr : off + 8 ≤ b.length)
      (hn : NodesAt b (t = 1) hdrLen (off + 8) (lcafLenAt b off) e) :
      LcafBodyAt b off t (e.elim 0 (·.1 - off)) (nodesShape t e)

/-- Complete nodes from a position on, for `len` bytes: where the last one ends and the shapes of
all, or `none` when an address is not recognised. Then none of those to release is released
already. -/
inductive NodesAt (b : List UInt8) :
    Bool → Nat → Nat → Nat → Option (Nat × List Shape) → Prop where
  | done {early : Bool} {hdrLen cur : Nat} : NodesAt b early hdrLen cur 0 (some (cur, []))
  | reject {early : Bool} {hdrLen cur len : Nat} {s : Shape} (hlen : len ≠ 0)
      (ha : AddrAt b (cur + hdrLen) 0 s) (hs : early = true → s ≠ .freed) :
      NodesAt b early hdrLen cur len none
  | node {early : Bool} {hdrLen cur len n : Nat} {s : Shape} {e : Option (Nat × List Shape)}
      (hlen : len ≠ 0) (ha : AddrAt b (cur + hdrLen) n s) (hn : n ≠ 0)
      (hrest : NodesAt b early hdrLen (cur + hdrLen + n) (len - hdrLen - n) e)
      (hs : e = none → s ≠ .freed) :
      NodesAt b early hdrLen cur len (e.map fun e => (e.1, s :: e.2))

end

variable {b : List UInt8} {data : Nat}

theorem afiAt_some {off v : Nat} (h : afiAt b off = some v) : off + 2 ≤ b.length := by
  obtain ⟨l, hl, -⟩ := map_eq_some_iff.mp h
  exact slice_isSome_iff.mp (isSome_of_mem hl)

theorem acceptedLen_le (b : List UInt8) (off n : Nat) : acceptedLen b off n ≤ n := by
  unfold acceptedLen
  split_ifs
  · exact Nat.le_refl n
  · exact Nat.zero_le n

mutual

/-- A complete address lies inside the message. -/
theorem AddrAt.le : ∀ {off n : Nat} {s : Shape}, AddrAt b off n s →
    off + 2 ≤ b.length ∧ off + n ≤ b.length
  | _, _, _, .noAddr h => ⟨afiAt_some h, afiAt_some h⟩
  | _, _, _, .ipv4 h hlen => ⟨afiAt_some h, hlen⟩
  | _, _, _, .ipv6 h hlen => ⟨afiAt_some h, hlen⟩
  | _, _, _, .unknownAfi h _ => ⟨afiAt_some h, Nat.le_of_add_right_le (afiAt_some h)⟩
  | off, _, _, @AddrAt.lcaf _ _ _ n _ h hbody => by
    have hle := acceptedLen_le b off n
    have hin := LcafBodyAt.le hbody (afiAt_some h.1)
    exact ⟨afiAt_some h.1, by omega⟩

theorem LcafBodyAt.le : ∀ {off t n : Nat} {s : Shape}, LcafBodyAt b off t n s →
    off + 2 ≤ b.length → off + n ≤ b.length
  | _, _, _, _, .unknown _ _, hoff => Nat.le_of_add_right_le hoff
  | _, _, _, _, .iid ha, _ => by
    have hin := (AddrAt.le ha).2
    omega
  | _, _, _, _, .geo ha, _ => by
    have hin := (AddrAt.le ha).2
    omega
  | _, _, _, _, .mc _ hgrp, _ => by
    have hin := (AddrAt.le hgrp).2
    omega
  | off, _, _, _, @LcafBodyAt.nodes _ _ _ _ e _ hhdr hn, hoff => by
    have hin := NodesAt.le hn hhdr
    cases e with
    | none => exact Nat.le_of_add_right_le hoff
    | some e =>
      obtain ⟨hge, hle⟩ := hin e rfl
      simp only [elim_some]
      omega

theorem NodesAt.le : ∀ {early : Bool} {hdrLen cur len : Nat} {e : Option (Nat × List Shape)},
    NodesAt b early hdrLen cur len e → cur ≤ b.length →
      ∀ x, e = some x → cur ≤ x.1 ∧ x.1 ≤ b.length
  | _, _, _, _, _, .done, hcur, x, hx => by
    rw [← some.inj hx]
    exact ⟨Nat.le_refl _, hcur⟩
  | _, _, cur, _, _, .node _ ha _ hrest _, hcur, x, hx => by
    obtain ⟨y, hy, rfl⟩ := map_eq_some_iff.mp hx
    have hin := NodesAt.le hrest (AddrAt.le ha).2 y hy
    exact ⟨by simp only; omega, hin.2⟩

end

/-! ## Reading complete addresses -/

section Reading

variable {i n off : Nat}

theorem byteAt_ok {x : UInt8} : byteAt b i = .ok x ↔ b[i]? = some x := by
  unfold byteAt
  split <;> simp_all

theorem byteAt_of_lt (h : i < b.length) : ∃ x, byteAt b i = .ok x :=
  ⟨b[i], byteAt_ok.mpr (getElem?_eq_getElem h)⟩

theorem bytesAt_of_le (h : i + n ≤ b.length) : ∃ l, bytesAt b i n = .ok l :=
  ⟨_, by rw [bytesAt, slice, if_pos h]⟩

theorem le_of_bytesAt {l : List UInt8} (h : bytesAt b i n = .ok l) : i + n ≤ b.length := by
  unfold bytesAt at h
  split at h
  · rename_i hl
    exact slice_isSome_iff.mp (isSome_of_mem hl)
  · cases h

theorem uint16At_ok {i v : Nat} : uint16At b i = .ok v ↔ afiAt b i = some v := by
  unfold uint16At bytesAt afiAt
  split
  · rename_i l hl
    simp [hl, Except.map]
  · rename_i hl
    simp [hl, Except.map]

theorem uint16At_lcafLen (h : off + 8 ≤ b.length) :
    uint16At b (off + 6) = .ok (lcafLenAt b off) := by
  have hsome : (afiAt b (off + 6)).isSome := by
    rw [afiAt, isSome_map]
    exact slice_isSome_iff.mpr h
  rw [uint16At_ok, lcafLenAt]
  obtain ⟨v, hv⟩ := isSome_iff_exists.mp hsome
  rw [hv, getD_some]

/-- The parser reads an address of `n` bytes and the shape `s`. -/
def Reads (r : Except Fault AddrRead) (n : Nat) (s : Shape) : Prop :=
  ∃ field, r = .ok ⟨n, field⟩ ∧ field.shape = s

theorem reads_ok {r : AddrRead} : Reads (.ok r) r.len r.field.shape :=
  ⟨r.field, rfl, rfl⟩

theorem reads_pure {r : AddrRead} : Reads (pure r) n s ↔ n = r.len ∧ s = r.field.shape := by
  constructor
  · rintro ⟨field, h, rfl⟩
    cases Except.ok.inj h
    exact ⟨rfl, rfl⟩
  · rintro ⟨rfl, rfl⟩
    exact reads_ok

/-- What is read is what the last of a sequence of reads says. -/
theorem reads_bind {α : Type} {x : Except Fault α} {f : α → Except Fault AddrRead} :
    Reads (x >>= f) n s ↔ ∃ a, x = .ok a ∧ Reads (f a) n s := by
  simp only [Reads, except_bind_ok]
  constructor
  · rintro ⟨field, ⟨a, hx, hf⟩, hs⟩
    exact ⟨a, hx, field, hf, hs⟩
  · rintro ⟨a, hx, field, hf, hs⟩
    exact ⟨field, ⟨a, hx, hf⟩, hs⟩

theorem lcaf_shape (parts : List AddrField) (a : LispAddr) :
    (AddrField.lcaf parts a).shape = .over (parts.map AddrField.shape) := by
  unfold AddrField.lcaf Shape.over
  split_ifs <;> rfl

variable {parse : Nat → Except Fault AddrRead} {t : Nat} {s : Shape}

/-- The parser of the addresses inside an LCAF reads complete addresses, from `lo` on. -/
def ParsesFrom (b : List UInt8) (parse : Nat → Except Fault AddrRead) (lo : Nat) : Prop :=
  ∀ off, lo ≤ off → ∀ n s, Reads (parse off) n s ↔ AddrAt b off n s

theorem iidTypeParse_iff (hp : ParsesFrom b parse (off + 8)) :
    Reads (iidTypeParse b parse off) n s ↔
      ∃ k s', AddrAt b (off + 12) k s' ∧ n = 12 + k ∧ s = .over [s'] := by
  have hin := hp (off + 12) (by omega)
  simp only [iidTypeParse, reads_bind, reads_pure, lcaf_shape]
  constructor
  · rintro ⟨_, _, _, _, r, hr, rfl, rfl⟩
    exact ⟨r.len, _, (hin _ _).mp (hr ▸ reads_ok), Nat.add_comm _ _, rfl⟩
  · rintro ⟨k, s', hk, rfl, rfl⟩
    obtain ⟨field, hr, rfl⟩ := (hin k s').mpr hk
    have hle := hk.le
    obtain ⟨mlen, hmlen⟩ := byteAt_of_lt (b := b) (i := off + 5) (by omega)
    obtain ⟨iid, hiid⟩ := bytesAt_of_le (b := b) (i := off + 8) (n := 4) (by omega)
    exact ⟨mlen, hmlen, iid, hiid, _, hr, Nat.add_comm _ _, rfl⟩

theorem geoTypeParse_iff (hp : ParsesFrom b parse (off + 8)) :
    Reads (geoTypeParse b parse off) n s ↔
      ∃ k s', AddrAt b (off + 20) k s' ∧ n = 20 + k ∧ s = .over [s'] := by
  have hin := hp (off + 20) (by omega)
  simp only [geoTypeParse, reads_bind, reads_pure, lcaf_shape]
  constructor
  · rintro ⟨_, _, _, _, _, _, r, hr, rfl, rfl⟩
    exact ⟨r.len, _, (hin _ _).mp (hr ▸ reads_ok), rfl, rfl⟩
  · rintro ⟨k, s', hk, rfl, rfl⟩
    obtain ⟨field, hr, rfl⟩ := (hin k s').mpr hk
    have hle := hk.le
    obtain ⟨latitude, hlat⟩ := bytesAt_of_le (b := b) (i := off + 8) (n := 4) (by omega)
    obtain ⟨longitude, hlong⟩ := bytesAt_of_le (b := b) (i := off + 12) (n := 4) (by omega)
    obtain ⟨altitude, halt⟩ := bytesAt_of_le (b := b) (i := off + 16) (n := 4) (by omega)
    exact ⟨latitude, hlat, longitude, hlong, altitude, halt, _, hr, rfl, rfl⟩

theorem mcTypeParse_iff (hp : ParsesFrom b parse (off + 8)) :
    Reads (mcTypeParse b parse off) n s ↔
      ∃ k m s1 s2, AddrAt b (off + 16) k s1 ∧ AddrAt b (off + 16 + k) m s2 ∧ n = 16 + k + m ∧
        s = .over [s1, s2] := by
  have hin : ∀ x m s, Reads (parse (off + 16 + x)) m s ↔ AddrAt b (off + 16 + x) m s :=
    fun x => hp _ (by omega)
  simp only [mcTypeParse, reads_bind, reads_pure, lcaf_shape]
  constructor
  · rintro ⟨_, _, _, _, _, _, r, hr, q, hq, rfl, rfl⟩
    exact ⟨r.len, q.len, _, _, (hin 0 _ _).mp (hr ▸ reads_ok), (hin _ _ _).mp (hq ▸ reads_ok), rfl,
      rfl⟩
  · rintro ⟨k, m, s1, s2, hk, hm, rfl, rfl⟩
    obtain ⟨srcField, hr, rfl⟩ := (hin 0 k s1).mpr hk
    obtain ⟨grpField, hq, rfl⟩ := (hin k m s2).mpr hm
    have hle := hk.le
    obtain ⟨iid, hiid⟩ := bytesAt_of_le (b := b) (i := off + 8) (n := 4) (by omega)
    obtain ⟨srcPlen, hsrc⟩ := byteAt_of_lt (b := b) (i := off + 14) (by omega)
    obtain ⟨grpPlen, hgrp⟩ := byteAt_of_lt (b := b) (i := off + 15) (by omega)
    exact ⟨iid, hiid, srcPlen, hsrc, grpPlen, hgrp, _, hr, _, hq, rfl, rfl⟩

/-- The end of the nodes that were read, and their shapes. -/
def nodesEnd {α : Type} (res : Option (Nat × List (α × AddrField))) :
    Option (Nat × List Shape) :=
  res.map fun x => (x.1, x.2.map fun node => node.2.shape)

/-- The loop over nodes reads exactly complete nodes; the header of a node ends before its
address. -/
theorem nodesParse_iff {α : Type} {early : Bool} {hdrLen : Nat} {header : Nat → Except Fault α}
    (hheader : ∀ cur, cur + hdrLen + 2 ≤ b.length → ∃ x, header cur = .ok x) {lo : Nat}
    (hp : ParsesFrom b parse lo) : ∀ {fuel cur len : Nat} {e : Option (Nat × List Shape)},
      len ≤ fuel → lo ≤ cur →
        ((∃ res, nodesParse parse early hdrLen header fuel cur len = .ok res ∧ nodesEnd res = e) ↔
          NodesAt b early hdrLen cur len e)
  | fuel, cur, 0, e, _, _ => by
    have hrun : nodesParse parse early hdrLen header fuel cur 0 = .ok (some (cur, [])) := by
      cases fuel <;> rfl
    rw [hrun]
    constructor
    · rintro ⟨res, hres, rfl⟩
      rw [← Except.ok.inj hres]
      exact .done
    · rintro (_ | _ | _)
      · exact ⟨_, rfl, rfl⟩
      all_goals contradiction
  | fuel + 1, cur, len + 1, e, hfuel, hlo => by
    have hin := hp (cur + hdrLen) (by omega)
    have hrec : ∀ n e, n ≠ 0 → ((∃ res, nodesParse parse early hdrLen header fuel (cur + hdrLen + n)
        (len + 1 - hdrLen - n) = .ok res ∧ nodesEnd res = e) ↔
          NodesAt b early hdrLen (cur + hdrLen + n) (len + 1 - hdrLen - n) e) :=
      fun n e hn => nodesParse_iff hheader hp (by omega) (by omega)
    simp only [nodesParse, Nat.add_one_ne_zero, if_false, except_bind_ok]
    constructor
    · rintro ⟨res, ⟨x, hx, r, hr, h⟩, rfl⟩
      have ha := (hin r.len _).mp (hr ▸ reads_ok)
      by_cases hlen : r.len = 0
      · rw [if_pos hlen] at h
        split_ifs at h with hfreed
        rw [except_pure_ok.mp h]
        exact .reject (Nat.succ_ne_zero _) (hlen ▸ ha) fun hearly hs => hfreed ⟨hearly, hs⟩
      · rw [if_neg hlen] at h
        obtain ⟨rest, hrest, h⟩ := except_bind_ok.mp h
        have hnode := NodesAt.node (Nat.succ_ne_zero _) ha hlen
          ((hrec _ _ hlen).mp ⟨rest, hrest, rfl⟩)
        cases rest with
        | none =>
          simp only at h
          split_ifs at h with hfreed
          rw [except_pure_ok.mp h]
          exact hnode fun _ => hfreed
        | some rest =>
          rw [except_pure_ok.mp h]
          exact hnode nofun
    · rintro (_ | ⟨-, ha, hs⟩ | ⟨-, ha, hn, hrest, hs⟩)
      · obtain ⟨x, hx⟩ := hheader cur ha.le.1
        obtain ⟨field, hr, rfl⟩ := (hin 0 _).mpr ha
        refine ⟨none, ⟨x, hx, _, hr, ?_⟩, rfl⟩
        rw [if_pos rfl, if_neg fun h => hs h.1 h.2]
        rfl
      · rename_i n s e
        obtain ⟨x, hx⟩ := hheader cur ha.le.1
        obtain ⟨field, hr, rfl⟩ := (hin n s).mpr ha
        obtain ⟨rest, hrun, rfl⟩ := (hrec n e hn).mpr hrest
        refine ⟨rest.map fun r => (r.1, (x, field) :: r.2), ⟨x, hx, _, hr, ?_⟩, ?_⟩
        · rw [if_neg hn, except_bind_ok]
          refine ⟨rest, hrun, ?_⟩
          cases rest with
          | none => exact if_neg (hs rfl)
          | some rest => rfl
        · cases rest <;> rfl

theorem lcafNodes_iff {α : Type} {early : Bool} {hdrLen : Nat} {header : Nat → Except Fault α}
    (hheader : ∀ cur, cur + hdrLen + 2 ≤ b.length → ∃ x, header cur = .ok x)
    {mk : Option (List (α × AddrField)) → AddrField} (shape : Option (List Shape) → Shape)
    (hmk : ∀ nodes, (mk nodes).shape = shape (nodes.map fun l => l.map fun node => node.2.shape))
    (hp : ParsesFrom b parse (off + 8)) :
    Reads (lcafNodes b parse early hdrLen header mk off) n s ↔
      off + 8 ≤ b.length ∧ ∃ e, NodesAt b early hdrLen (off + 8) (lcafLenAt b off) e ∧
        n = e.elim 0 (·.1 - off) ∧ s = shape (e.map Prod.snd) := by
  have hnodes := @nodesParse_iff b parse α early hdrLen header hheader _ hp
  simp only [lcafNodes, reads_bind]
  constructor
  · rintro ⟨len, hlen, res, hres, h⟩
    have hle : off + 8 ≤ b.length := afiAt_some (uint16At_ok.mp hlen)
    rw [uint16At_lcafLen hle] at hlen
    rw [← Except.ok.inj hlen] at hres
    refine ⟨hle, nodesEnd res, (hnodes (Nat.le_refl _) (Nat.le_refl _)).mp ⟨res, hres, rfl⟩, ?_⟩
    cases res with
    | none => exact (reads_pure.mp h).imp id fun hs => hs.trans (hmk none)
    | some res => exact (reads_pure.mp h).imp id fun hs => hs.trans (hmk (some res.2))
  · rintro ⟨hle, e, he, rfl, rfl⟩
    obtain ⟨res, hres, rfl⟩ := (hnodes (Nat.le_refl _) (Nat.le_refl _)).mpr he
    refine ⟨_, uint16At_lcafLen hle, res, hres, ?_⟩
    cases res with
    | none => exact reads_pure.mpr ⟨rfl, (hmk none).symm⟩
    | some res => exact reads_pure.mpr ⟨rfl, (hmk (some res.2)).symm⟩

/-- The shape of an LCAF of nodes whose content is stored. -/
theorem ofNodes_shape {α β : Type} (mk : α → LispAddr → β) (list : List β → LispAddr)
    (nodes : Option (List (α × AddrField))) : (AddrField.ofNodes mk list nodes).shape =
      (nodes.map fun l => l.map fun node => node.2.shape).elim .freed .over := by
  cases nodes with
  | none => rfl
  | some nodes => simp [AddrField.ofNodes, lcaf_shape, Function.comp_def]

theorem nodesTypeParse_iff {hdrLen : Nat} {result : Except Fault AddrRead}
    (ht : (t, hdrLen) ∈ [(1, 0), (10, 2), (13, 4)]) (hf : parseFcts b parse off t = some result)
    (hp : ParsesFrom b parse (off + 8)) :
    Reads result n s ↔ off + 8 ≤ b.length ∧
      ∃ e, NodesAt b (t = 1) hdrLen (off + 8) (lcafLenAt b off) e ∧
        n = e.elim 0 (·.1 - off) ∧ s = nodesShape t e := by
  simp only [mem_cons, Prod.mk.injEq, not_mem_nil, or_false] at ht
  rcases ht with ⟨rfl, rfl⟩ | ⟨rfl, rfl⟩ | ⟨rfl, rfl⟩ <;> cases hf
  · exact lcafNodes_iff (fun _ _ => ⟨(), rfl⟩) (fun _ => .bare) (fun _ => rfl) hp
  · rw [elpTypeParse, lcafNodes_iff (fun _ h => byteAt_of_lt (by omega)) (·.elim .freed .over)
      (ofNodes_shape _ _) hp]
    simp [nodesShape, Option.elim_map, Function.comp_def]
  · rw [rleTypeParse, lcafNodes_iff (fun _ h => byteAt_of_lt (by omega)) (·.elim .freed .over)
      (ofNodes_shape _ _) hp]
    simp [nodesShape, Option.elim_map, Function.comp_def]

/-- The check of the length field, for a function that read at least the header. -/
theorem lcafLenCheck_iff {result : Except Fault AddrRead}
    (hle : ∀ k s, Reads result k s → off + 8 ≤ b.length) :
    Reads (result >>= fun r => uint16At b (off + 6) >>= fun len =>
        pure ⟨if r.len = len + 8 then r.len else 0, r.field⟩) n s ↔
      ∃ k, Reads result k s ∧ n = acceptedLen b off k := by
  simp only [reads_bind, reads_pure]
  constructor
  · rintro ⟨r, rfl, len, hlen, rfl, rfl⟩
    rw [uint16At_lcafLen (hle r.len _ reads_ok)] at hlen
    refine ⟨r.len, reads_ok, ?_⟩
    rw [← Except.ok.inj hlen]
    rfl
  · rintro ⟨k, hk, rfl⟩
    obtain ⟨field, hr, rfl⟩ := id hk
    exact ⟨_, hr, _, uint16At_lcafLen (hle k _ hk), rfl, rfl⟩

theorem AddrAt.lcaf_inv (h : AddrAt b off n s) (hafi : afiAt b off = some LISP_AFI_LCAF) :
    ∃ t k, LcafAt b off t ∧ LcafBodyAt b off t k s ∧ n = acceptedLen b off k := by
  have hne : ∀ v, afiAt b off = some v → v = LISP_AFI_LCAF :=
    fun v hv => some.inj (hv.symm.trans hafi)
  cases h with
  | noAddr h => exact absurd (hne _ h) (by decide)
  | ipv4 h => exact absurd (hne _ h) (by decide)
  | ipv6 h => exact absurd (hne _ h) (by decide)
  | unknownAfi h hv => exact absurd (hne _ h) (by simp_all)
  | lcaf h hbody => exact ⟨_, _, h, hbody, rfl⟩

theorem LcafBodyAt.size (h : LcafBodyAt b off t n s) : t < MAX_LCAFS := by
  cases h with
  | unknown hsize => exact hsize
  | nodes ht =>
    simp only [mem_cons, Prod.mk.injEq, not_mem_nil, or_false] at ht
    rcases ht with ⟨rfl, -⟩ | ⟨rfl, -⟩ | ⟨rfl, -⟩ <;> decide
  | _ => decide

theorem LcafBodyAt.of_unknown (h : LcafBodyAt b off t n s) (ht : t ∉ delFcts) :
    n = 0 ∧ s = .bare := by
  cases h with
  | unknown => exact ⟨rfl, rfl⟩
  | nodes ht' => simp_all [delFcts]
  | _ => exact absurd (by decide) ht

/-- The header of an LCAF of a known type lies inside the message. -/
theorem LcafBodyAt.hdr_le (h : LcafBodyAt b off t n s) (ht : t ∈ delFcts) :
    off + 8 ≤ b.length := by
  cases h with
  | unknown _ hne => exact absurd ht hne
  | iid ha =>
    have hle := ha.le
    omega
  | geo ha =>
    have hle := ha.le
    omega
  | mc hsrc =>
    have hle := hsrc.le
    omega
  | nodes _ hhdr => exact hhdr

theorem parseFcts_none (h : parseFcts b parse off t = none) : t ∉ delFcts := by
  unfold parseFcts at h
  split at h <;> simp_all [delFcts]

theorem parseFcts_some {result : Except Fault AddrRead}
    (h : parseFcts b parse off t = some result) : t ∈ delFcts := by
  unfold parseFcts at h
  split at h <;> simp_all [delFcts]

/-- The function of the table for an LCAF type reads exactly complete bodies. -/
theorem parseFcts_iff {result : Except Fault AddrRead}
    (hf : parseFcts b parse off t = some result) (hp : ParsesFrom b parse (off + 8)) :
    Reads result n s ↔ LcafBodyAt b off t n s := by
  have hnodes : ∀ hdrLen, (t, hdrLen) ∈ [(1, 0), (10, 2), (13, 4)] →
      (Reads result n s ↔ LcafBodyAt b off t n s) := by
    intro hdrLen ht
    rw [nodesTypeParse_iff ht hf hp]
    constructor
    · rintro ⟨hle, e, he, rfl, rfl⟩
      exact .nodes ht hle he
    · intro h
      cases h with
      | unknown _ hne => simp_all [delFcts]
      | @nodes _ _ hdrLen' _ ht' hle he =>
        obtain rfl : hdrLen = hdrLen' := by grind
        exact ⟨hle, _, he, rfl, rfl⟩
      | _ => simp at ht
  unfold parseFcts at hf
  split at hf
  · exact hnodes 0 (by simp)
  · cases hf
    rw [iidTypeParse_iff hp]
    constructor
    · rintro ⟨k, s', hk, rfl, rfl⟩
      exact .iid hk
    · rintro (⟨-, hne⟩ | ha | _ | _ | ⟨ht⟩)
      · exact absurd hne (by decide)
      · exact ⟨_, _, ha, rfl, rfl⟩
      · simp at ht
  · cases hf
    rw [geoTypeParse_iff hp]
    constructor
    · rintro ⟨k, s', hk, rfl, rfl⟩
      exact .geo hk
    · rintro (⟨-, hne⟩ | _ | ha | _ | ⟨ht⟩)
      · exact absurd hne (by decide)
      · exact ⟨_, _, ha, rfl, rfl⟩
      · simp at ht
  · cases hf
    rw [mcTypeParse_iff hp]
    constructor
    · rintro ⟨k, m, s1, s2, hk, hm, rfl, rfl⟩
      exact .mc hk hm
    · rintro (⟨-, hne⟩ | _ | _ | ⟨hsrc, hgrp⟩ | ⟨ht⟩)
      · exact absurd hne (by decide)
      · exact ⟨_, _, _, _, hsrc, hgrp, rfl, rfl⟩
      · simp at ht
  · exact hnodes 2 (by simp)
  · exact hnodes 4 (by simp)
  · cases hf

/-- An LCAF is parsed inside the message exactly when it is complete. -/
theorem lcafAddrParse_iff (hafi : afiAt b off = some LISP_AFI_LCAF)
    (hp : ParsesFrom b parse (off + 8)) :
    Reads (lcafAddrParse b parse off) n s ↔ AddrAt b off n s := by
  have hcheck : ∀ {t result}, parseFcts b parse off t = some result → _ :=
    fun {t result} hf => lcafLenCheck_iff (n := n) (s := s) fun k s hk =>
      ((parseFcts_iff hf hp).mp hk).hdr_le (parseFcts_some hf)
  have hzero : acceptedLen b off 0 = 0 := ite_self 0
  rw [lcafAddrParse, reads_bind]
  constructor
  · rintro ⟨type, htype, h⟩
    have ht : LcafAt b off type.toNat := ⟨hafi, by rw [byteAt_ok.mp htype]; rfl⟩
    split_ifs at h with hsize
    · obtain ⟨_, h, -⟩ := h
      cases h
    split at h
    · rename_i hf
      obtain ⟨rfl, rfl⟩ := reads_pure.mp h
      rw [← hzero]
      exact .lcaf ht (.unknown (Nat.lt_of_not_le hsize) (parseFcts_none hf))
    · rename_i hf
      obtain ⟨k, hk, rfl⟩ := (hcheck hf).mp h
      exact .lcaf ht ((parseFcts_iff hf hp).mp hk)
  · intro ha
    obtain ⟨t, k, ht, hbody, rfl⟩ := ha.lcaf_inv hafi
    obtain ⟨type, htype, rfl⟩ := map_eq_some_iff.mp ht.2
    refine ⟨type, byteAt_ok.mpr htype, ?_⟩
    rw [if_neg (Nat.not_le_of_lt hbody.size)]
    split
    · rename_i hf
      obtain ⟨rfl, rfl⟩ := hbody.of_unknown (parseFcts_none hf)
      exact reads_pure.mpr ⟨hzero, rfl⟩
    · rename_i hf
      exact (hcheck hf).mpr ⟨k, (parseFcts_iff hf hp).mpr hbody, rfl⟩

/-- An address is parsed inside the message exactly when it is complete, if those inside it are. -/
theorem lispAddrParseBody_iff (hp : ParsesFrom b parse (off + 8)) :
    Reads (lispAddrParseBody b parse off) n s ↔ AddrAt b off n s := by
  rw [lispAddrParseBody, reads_bind]
  constructor
  · rintro ⟨afi, hafi, h⟩
    rw [uint16At_ok] at hafi
    split_ifs at h with h1 h2 hlcaf h0
    · obtain ⟨a, ha, h⟩ := reads_bind.mp h
      obtain ⟨rfl, rfl⟩ := reads_pure.mp h
      have hle := le_of_bytesAt ha
      exact .ipv4 (h1 ▸ hafi) hle
    · obtain ⟨a, ha, h⟩ := reads_bind.mp h
      obtain ⟨rfl, rfl⟩ := reads_pure.mp h
      have hle := le_of_bytesAt ha
      exact .ipv6 (h2 ▸ hafi) hle
    · exact (lcafAddrParse_iff (hlcaf ▸ hafi) hp).mp h
    · obtain ⟨rfl, rfl⟩ := reads_pure.mp h
      exact .noAddr (h0 ▸ hafi)
    · obtain ⟨rfl, rfl⟩ := reads_pure.mp h
      exact .unknownAfi hafi (by simp [h0, h1, h2, hlcaf])
  · intro ha
    by_cases hlcaf : afiAt b off = some LISP_AFI_LCAF
    · exact ⟨_, uint16At_ok.mpr hlcaf, (lcafAddrParse_iff hlcaf hp).mpr ha⟩
    cases ha with
    | noAddr h => exact ⟨0, uint16At_ok.mpr h, reads_pure.mpr ⟨rfl, rfl⟩⟩
    | ipv4 h hlen =>
      obtain ⟨a, ha⟩ := bytesAt_of_le (b := b) (i := off + 2) (n := 4) hlen
      exact ⟨1, uint16At_ok.mpr h, reads_bind.mpr ⟨a, ha, reads_pure.mpr ⟨rfl, rfl⟩⟩⟩
    | ipv6 h hlen =>
      obtain ⟨a, ha⟩ := bytesAt_of_le (b := b) (i := off + 2) (n := 16) hlen
      exact ⟨2, uint16At_ok.mpr h, reads_bind.mpr ⟨a, ha, reads_pure.mpr ⟨rfl, rfl⟩⟩⟩
    | unknownAfi h hv =>
      refine ⟨_, uint16At_ok.mpr h, ?_⟩
      simp only [mem_cons, not_mem_nil, or_false, not_or] at hv
      simp only [hv, if_false]
      exact reads_pure.mpr ⟨rfl, rfl⟩
    | lcaf h => exact absurd h.1 hlcaf

/-- With enough fuel, an address is parsed inside the message exactly when it is complete. -/
theorem lispAddrParseFuel_iff : ∀ {fuel off : Nat}, b.length < off + fuel →
    ∀ n s, Reads (lispAddrParseFuel b fuel off) n s ↔ AddrAt b off n s
  | 0, off, hfuel, n, s => by
    constructor
    · rintro ⟨_, h, -⟩
      cases h
    · intro ha
      have hle := ha.le
      omega
  | fuel + 1, off, hfuel, n, s =>
    lispAddrParseBody_iff fun off' hoff' n' => lispAddrParseFuel_iff (by omega) n'

/-- An address is parsed inside the message exactly when it is complete. -/
theorem lispAddrParse_iff : Reads (lispAddrParse b off) n s ↔ AddrAt b off n s :=
  lispAddrParseFuel_iff (by omega) n s

theorem addrAt_of_parse {r : AddrRead} (h : lispAddrParse b off = .ok r) :
    AddrAt b off r.len r.field.shape :=
  lispAddrParse_iff.mp (h ▸ reads_ok)

end Reading

/-! ## Complete records -/

section Records

variable {e : Option Nat}

theorem lbufPull_of_le {data n : Nat} (h : data + n ≤ b.length) : lbufPull b data n = data + n := by
  rw [lbufPull, if_neg (by omega)]

end Records

end Lispmob
