import Lispmob.MessageBounds

/-!
# Which bytes are accepted as an address

`lisp_msg_parse_addr` is to tell an address from bytes that are none. `WellFormedAt` says what an
address of a supported kind is: every address inside of it is well formed, and the length field of
an LCAF is the number of bytes after its first eight.

The function fails for a negative length only. No parser returns one: an unknown address family, an
unsupported LCAF and a wrong length field give `0`, and a message that ends too early is read past
its end. So well-formed addresses are accepted and left behind, and everything else is accepted too
or read outside the message. `lisp_msg_parse_eid_rec` has no failure at all, and does not step over
the header of its record.
-/

namespace Lispmob

variable {b : List UInt8}

mutual

/-- A well-formed address of `n` bytes. -/
inductive WellFormedAt (b : List UInt8) : Nat → Nat → Prop where
  | noAddr {off : Nat} (h : afiAt b off = some 0) : WellFormedAt b off 2
  | ipv4 {off : Nat} (h : afiAt b off = some 1) (hlen : off + 6 ≤ b.length) : WellFormedAt b off 6
  | ipv6 {off : Nat} (h : afiAt b off = some 2) (hlen : off + 18 ≤ b.length) :
      WellFormedAt b off 18
  /-- Instance ids and coordinates are followed by one address. -/
  | wrapped {off t hdrLen n : Nat} (h : LcafAt b off t) (ht : (t, hdrLen) ∈ [(2, 12), (6, 20)])
      (ha : WellFormedAt b (off + hdrLen) n) (hlen : hdrLen + n = lcafLenAt b off + 8) :
      WellFormedAt b off (hdrLen + n)
  | mc {off n k : Nat} (h : LcafAt b off 9) (hsrc : WellFormedAt b (off + 16) n)
      (hgrp : WellFormedAt b (off + 16 + n) k) (hlen : 16 + n + k = lcafLenAt b off + 8) :
      WellFormedAt b off (16 + n + k)
  | nodes {off t hdrLen : Nat} (h : LcafAt b off t)
      (ht : (t, hdrLen) ∈ [(1, 0), (10, 2), (13, 4)]) (hhdr : off + 8 ≤ b.length)
      (hn : WellFormedNodesAt b hdrLen (off + 8) (lcafLenAt b off)) :
      WellFormedAt b off (8 + lcafLenAt b off)

/-- Well-formed nodes that take `len` bytes: a header of `hdrLen` bytes and an address each. -/
inductive WellFormedNodesAt (b : List UInt8) : Nat → Nat → Nat → Prop where
  | done {hdrLen cur : Nat} : WellFormedNodesAt b hdrLen cur 0
  | node {hdrLen cur n len : Nat} (ha : WellFormedAt b (cur + hdrLen) n)
      (hrest : WellFormedNodesAt b hdrLen (cur + hdrLen + n) len) :
      WellFormedNodesAt b hdrLen cur (hdrLen + n + len)

end

mutual

/-- A well-formed address is complete and recognised. -/
theorem WellFormedAt.addrAt : ∀ {off n : Nat}, WellFormedAt b off n →
    (∃ s, AddrAt b off n s) ∧ 0 < n
  | _, _, .noAddr h => ⟨⟨_, .noAddr h⟩, by decide⟩
  | _, _, .ipv4 h hlen => ⟨⟨_, .ipv4 h hlen⟩, by decide⟩
  | _, _, .ipv6 h hlen => ⟨⟨_, .ipv6 h hlen⟩, by decide⟩
  | off, _, @WellFormedAt.wrapped _ _ t hdrLen n h ht ha hlen => by
    obtain ⟨⟨s, hat⟩, hpos⟩ := WellFormedAt.addrAt ha
    have hbody : LcafBodyAt b off t (hdrLen + n) (.over [s]) := by
      simp only [List.mem_cons, Prod.mk.injEq, List.not_mem_nil, or_false] at ht
      rcases ht with ⟨rfl, rfl⟩ | ⟨rfl, rfl⟩
      · exact .iid hat
      · exact .geo hat
    have hat := AddrAt.lcaf h hbody
    rw [acceptedLen, if_pos hlen] at hat
    exact ⟨⟨_, hat⟩, by omega⟩
  | off, _, @WellFormedAt.mc _ _ n k h hsrc hgrp hlen => by
    obtain ⟨⟨s, hs⟩, hpos⟩ := WellFormedAt.addrAt hsrc
    obtain ⟨⟨s', hg⟩, -⟩ := WellFormedAt.addrAt hgrp
    have hat := AddrAt.lcaf h (.mc hs hg)
    rw [acceptedLen, if_pos hlen] at hat
    exact ⟨⟨_, hat⟩, by omega⟩
  | off, _, .nodes h ht hhdr hn => by
    obtain ⟨shapes, hnodes⟩ := WellFormedNodesAt.nodesAt _ hn
    have hat := AddrAt.lcaf h (.nodes ht hhdr hnodes)
    have hlen : off + 8 + lcafLenAt b off - off = 8 + lcafLenAt b off := by omega
    rw [Option.elim_some, hlen, acceptedLen, if_pos (Nat.add_comm _ _)] at hat
    exact ⟨⟨_, hat⟩, by omega⟩

theorem WellFormedNodesAt.nodesAt : ∀ (early : Bool) {hdrLen cur len : Nat},
    WellFormedNodesAt b hdrLen cur len →
      ∃ shapes, NodesAt b early hdrLen cur len (some (cur + len, shapes))
  | _, _, _, _, .done => ⟨[], .done⟩
  | early, hdrLen, cur, _, @WellFormedNodesAt.node _ _ _ n len ha hrest => by
    obtain ⟨⟨s, hat⟩, hpos⟩ := WellFormedAt.addrAt ha
    obtain ⟨shapes, hrest⟩ := WellFormedNodesAt.nodesAt early hrest
    have hsub : hdrLen + n + len - hdrLen - n = len := by omega
    have hend : cur + (hdrLen + n + len) = cur + hdrLen + n + len := by omega
    refine ⟨s :: shapes, .node (e := some (_, shapes)) (by omega) hat (by omega) ?_ fun h => ?_⟩
    · rw [hsub, hend]
      exact hrest
    · cases h

end

theorem WellFormedAt.le {off n : Nat} (h : WellFormedAt b off n) : off + n ≤ b.length := by
  obtain ⟨⟨s, hat⟩, -⟩ := h.addrAt
  exact hat.le.2

/-! ## The return codes -/

end Lispmob
