import Lispmob.MappingDb

/-!
# The mapping database refines a finite map

`UnicastMap` is what the unicast part of the database is for: a map from masked prefixes, one per
address family, in which an addition to a key that is taken keeps what is there. `mdb_refines` says
that after any sequence of additions and removals of prefixes and multicast pairs, no call of which
faults, the lookups and removals of the database are those of the map. Multicast keys do not occur
in it.

`Mdb.Sized` is the invariant behind it: every trie accepts the keys of its family.
-/

namespace Lispmob

open AList

/-! ## The abstract map -/

/-- A map from the prefixes of each family, as bit strings. -/
def UnicastMap (β : Type) : Type :=
  Af → List Bool → Option β

section Abstract

variable {β : Type}

namespace UnicastMap

/-- No prefixes. -/
def empty : UnicastMap β :=
  fun _ _ => none

/-- Add a prefix, unless it is there. -/
def add (u : UnicastMap β) (afi : Af) (bits : List Bool) (d : β) : UnicastMap β :=
  fun afi' bits' => if afi' = afi ∧ bits' = bits then some ((u afi bits).getD d) else u afi' bits'

/-- Remove a prefix. -/
def remove (u : UnicastMap β) (afi : Af) (bits : List Bool) : UnicastMap β :=
  fun afi' bits' => if afi' = afi ∧ bits' = bits then none else u afi' bits'

/-- The result of a longest match: the value of the longest prefix that covers the address, or
nothing when no prefix does. -/
def IsBest (u : UnicastMap β) (a : IpAddr) : Option β → Prop
  | none => ∀ bits, bits <+: ipBits a → u (ipAddrAfi a) bits = none
  | some v => ∃ bits, bits <+: ipBits a ∧ u (ipAddrAfi a) bits = some v ∧
      ∀ bits', bits' <+: ipBits a → bits.length < bits'.length → u (ipAddrAfi a) bits' = none

end UnicastMap

/-- A call that changes the database. -/
inductive MdbCall (β : Type) where
  | add (addr : LispAddr) (data : β)
  | remove (addr : LispAddr)

/-- The key of a call. -/
def MdbCall.addr : MdbCall β → LispAddr
  | .add addr _ => addr
  | .remove addr => addr

/-- What a call does to the map: only prefixes count. -/
def MdbCall.onMap (u : UnicastMap β) : MdbCall β → UnicastMap β
  | .add (.ippref a plen) d => u.add (ipAddrAfi a) ((ipBits a).take plen.toNat) d
  | .remove (.ippref a plen) => u.remove (ipAddrAfi a) ((ipBits a).take plen.toNat)
  | _ => u

/-- What a call does to the database. -/
def MdbCall.onMdb (db : Mdb β) : MdbCall β → Except Fault (Mdb β)
  | .add addr d => do
    let (_, db') ← mdbAddEntry db addr d
    return db'
  | .remove addr => do
    let (_, db') ← mdbRemoveEntry db addr
    return db'

/-- What a sequence of calls does to the database. -/
def mdbCalls (db : Mdb β) : List (MdbCall β) → Except Fault (Mdb β)
  | [] => .ok db
  | c :: rest => do
    let db' ← c.onMdb db
    mdbCalls db' rest

/-- A prefix of valid length, or a multicast pair of one family with valid lengths. -/
def ValidKey : LispAddr → Prop
  | .ippref a plen => plen ≤ ipAddrAfiToDefaultMask a
  | .mc srcPlen grpPlen _ (.ip src) (.ip grp) => ipAddrAfi src = ipAddrAfi grp ∧
      srcPlen ≤ ipAddrAfiToDefaultMask src ∧ grpPlen ≤ ipAddrAfiToDefaultMask grp
  | _ => False

end Abstract

/-! ## Tries of the right size -/

/-- The number of bits of an address. -/
def Af.bits : Af → Nat
  | .INET => 32
  | .INET6 => 128

theorem mask_eq_bits (a : IpAddr) : (ipAddrAfiToDefaultMask a).toNat = (ipAddrAfi a).bits := by
  cases a <;> rfl

section Sized

variable {β : Type} {db db' : Mdb β} {pt pt' : Patricia β} {a : IpAddr} {plen : UInt8} {d : β}
  {strie : Patricia (Patricia β)} {srcPlen grpPlen : UInt8} {src grp : IpAddr} {addr : LispAddr}
  {afi : Af}

/-- Every trie of the database accepts the keys of its family. -/
structure Mdb.Sized (db : Mdb β) : Prop where
  ip : ∀ afi, ∃ pt, (db.ipDb afi).nodes.lookup [] = some pt ∧ pt.maxbits = afi.bits
  mc : ∀ afi, (getMcPtFromAfi db afi).maxbits = afi.bits
  grp : ∀ afi key gtrie, (getMcPtFromAfi db afi).nodes.lookup key = some gtrie →
    gtrie.maxbits = afi.bits

theorem mdbNew_sized : (mdbNew : Mdb β).Sized := by
  refine ⟨fun afi => ?_, fun afi => ?_, fun afi key gtrie h => ?_⟩
  · cases afi
    · exact ⟨newPatricia 32, rfl, rfl⟩
    · exact ⟨newPatricia 128, rfl, rfl⟩
  · cases afi <;> rfl
  · cases afi <;> cases h

/-- A prefix of valid length is a key of a trie of its family. -/
theorem prefix_accepted {γ : Type} {pt : Patricia γ} (hlen : plen ≤ ipAddrAfiToDefaultMask a)
    (hmax : pt.maxbits = (ipAddrAfi a).bits) :
    ptMakeIpPrefix a plen = .ok ((ipBits a).take plen.toNat) ∧
      pt.accepts ((ipBits a).take plen.toNat) = .ok () := by
  refine ⟨ptMakeIpPrefix_ok.mpr ⟨hlen, rfl⟩, ?_⟩
  unfold Patricia.accepts
  rw [if_pos]
  rw [List.length_take, ipBits_length, hmax, mask_eq_bits]
  exact Nat.min_le_right _ _

theorem ptAddNode_ok (hlen : plen ≤ ipAddrAfiToDefaultMask a)
    (hmax : pt.maxbits = (ipAddrAfi a).bits) :
    ∃ pt', ptAddNode pt a plen d = .ok pt' ∧ pt'.maxbits = pt.maxbits := by
  obtain ⟨hkey, hacc⟩ := prefix_accepted hlen hmax
  cases hl : pt.nodes.lookup ((ipBits a).take plen.toNat) with
  | some v =>
    simp [ptAddNode, hkey, hacc, hl, bind, Except.bind, pure, Except.pure]
  | none =>
    simp [ptAddNode, hkey, hacc, hl, bind, Except.bind, pure, Except.pure]

theorem ptRemoveIppref_ok (hlen : plen ≤ ipAddrAfiToDefaultMask a)
    (hmax : pt.maxbits = (ipAddrAfi a).bits) :
    ∃ o pt', ptRemoveIppref pt a plen = .ok (o, pt') ∧ pt'.maxbits = pt.maxbits := by
  obtain ⟨hkey, hacc⟩ := prefix_accepted hlen hmax
  simp [ptRemoveIppref, hkey, hacc, bind, Except.bind, pure, Except.pure]

theorem Mdb.Sized.setIpPt (h : db.Sized) (hmax : pt.maxbits = afi.bits) (n : Int) :
    ({ db.setIpPt afi pt with nEntries := n } : Mdb β).Sized := by
  refine ⟨fun afi' => ?_, fun afi' => ?_, fun afi' key gtrie hg => ?_⟩
  · by_cases heq : afi' = afi
    · subst heq
      refine ⟨pt, ?_, hmax⟩
      cases afi' <;> exact lookup_insert _
    · obtain ⟨pt0, hpt0, hmax0⟩ := h.ip afi'
      refine ⟨pt0, ?_, hmax0⟩
      rw [← hpt0]
      cases afi <;> cases afi' <;> first | rfl | exact absurd rfl heq
  · rw [← h.mc afi']
    cases afi <;> cases afi' <;> rfl
  · refine h.grp afi' key gtrie ?_
    rw [← hg]
    cases afi <;> cases afi' <;> rfl

/-- Writing back a multicast trie of the right size. -/
theorem Mdb.Sized.setMcPt (h : db.Sized) (hmax : strie.maxbits = afi.bits)
    (hgrp : ∀ key gtrie, strie.nodes.lookup key = some gtrie → gtrie.maxbits = afi.bits) (n : Int) :
    ({ db.setMcPt afi strie with nEntries := n } : Mdb β).Sized := by
  refine ⟨fun afi' => ?_, fun afi' => ?_, fun afi' key gtrie hg => ?_⟩
  · obtain ⟨pt0, hpt0, hmax0⟩ := h.ip afi'
    refine ⟨pt0, ?_, hmax0⟩
    rw [← hpt0]
    cases afi <;> cases afi' <;> rfl
  · by_cases heq : afi' = afi
    · subst heq
      rw [← hmax]
      cases afi' <;> rfl
    · rw [← h.mc afi']
      cases afi <;> cases afi' <;> first | rfl | exact absurd rfl heq
  · by_cases heq : afi' = afi
    · subst heq
      refine hgrp key gtrie ?_
      rw [← hg]
      cases afi' <;> rfl
    · refine h.grp afi' key gtrie ?_
      rw [← hg]
      cases afi <;> cases afi' <;> first | rfl | exact absurd rfl heq

theorem Mdb.countRemoved_eq (o : Option β) :
    db.countRemoved o = { db with nEntries := (db.countRemoved o).nEntries } := by
  unfold Mdb.countRemoved
  split_ifs <;> rfl

section Pairs

variable (hfam : ipAddrAfi src = ipAddrAfi grp) (hsrc : srcPlen ≤ ipAddrAfiToDefaultMask src)
  (hgrp : grpPlen ≤ ipAddrAfiToDefaultMask grp) (hmax : strie.maxbits = (ipAddrAfi src).bits)
  (hsized : ∀ key gtrie, strie.nodes.lookup key = some gtrie →
    gtrie.maxbits = (ipAddrAfi src).bits)

include hsized

theorem insert_sized {gtrie' gt : Patricia β} {k key : List Bool}
    (hg : gtrie'.maxbits = (ipAddrAfi src).bits)
    (hgt : (strie.nodes.insert k gtrie').lookup key = some gt) :
    gt.maxbits = (ipAddrAfi src).bits := by
  by_cases heq : key = k
  · rw [heq, lookup_insert] at hgt
    cases hgt
    exact hg
  · rw [lookup_insert_ne heq] at hgt
    exact hsized key gt hgt

include hfam hsrc hgrp hmax

theorem ptAddMcAddr_ok :
    ∃ strie', ptAddMcAddr strie src grp srcPlen grpPlen d = .ok strie' ∧
      strie'.maxbits = (ipAddrAfi src).bits ∧
      ∀ key gtrie, strie'.nodes.lookup key = some gtrie → gtrie.maxbits = (ipAddrAfi src).bits := by
  obtain ⟨hkey, hacc⟩ := prefix_accepted hsrc hmax
  have hg : ((strie.nodes.lookup ((ipBits src).take srcPlen.toNat)).getD
      (newPatricia (ipAddrAfiToDefaultMask grp).toNat)).maxbits = (ipAddrAfi grp).bits := by
    cases hl : strie.nodes.lookup ((ipBits src).take srcPlen.toNat) with
    | some gtrie => exact (hsized _ gtrie hl).trans (by rw [hfam])
    | none => exact mask_eq_bits grp
  obtain ⟨gtrie', hadd, hmax'⟩ := ptAddNode_ok (d := d) hgrp hg
  refine ⟨{ strie with nodes := strie.nodes.insert ((ipBits src).take srcPlen.toNat) gtrie' }, ?_,
    hmax, fun key gtrie => insert_sized hsized (by rw [hmax', hg, hfam])⟩
  simp [ptAddMcAddr, hkey, hacc, hadd, bind, Except.bind, pure, Except.pure]

theorem ptRemoveMcAddr_ok :
    ∃ o strie', ptRemoveMcAddr strie src grp srcPlen grpPlen = .ok (o, strie') ∧
      strie'.maxbits = (ipAddrAfi src).bits ∧
      ∀ key gtrie, strie'.nodes.lookup key = some gtrie → gtrie.maxbits = (ipAddrAfi src).bits := by
  obtain ⟨hkey, hacc⟩ := prefix_accepted hsrc hmax
  cases hl : strie.nodes.lookup ((ipBits src).take srcPlen.toNat) with
  | none =>
    refine ⟨none, strie, ?_, hmax, hsized⟩
    simp [ptRemoveMcAddr, hkey, hacc, hl, bind, Except.bind, pure, Except.pure]
  | some gtrie =>
    have hg : gtrie.maxbits = (ipAddrAfi grp).bits := (hsized _ gtrie hl).trans (by rw [hfam])
    obtain ⟨o, gtrie', hrm, hmax'⟩ := ptRemoveIppref_ok hgrp hg
    cases o with
    | none =>
      refine ⟨none, strie, ?_, hmax, hsized⟩
      simp [ptRemoveMcAddr, hkey, hacc, hl, hrm, bind, Except.bind, pure, Except.pure]
    | some v =>
      by_cases hempty : gtrie'.nodes.entries.isEmpty = true
      · refine ⟨some v, { strie with
          nodes := strie.nodes.erase ((ipBits src).take srcPlen.toNat) }, ?_, hmax,
          fun key gt hgt => ?_⟩
        · simp [ptRemoveMcAddr, hkey, hacc, hl, hrm, hempty, bind, Except.bind, pure, Except.pure]
        · by_cases heq : key = (ipBits src).take srcPlen.toNat
          · rw [heq, lookup_erase] at hgt
            cases hgt
          · rw [lookup_erase_ne heq] at hgt
            exact hsized key gt hgt
      · refine ⟨some v, { strie with
          nodes := strie.nodes.insert ((ipBits src).take srcPlen.toNat) gtrie' }, ?_, hmax,
          fun key gt => insert_sized hsized (by rw [hmax', hg, hfam])⟩
        simp [ptRemoveMcAddr, hkey, hacc, hl, hrm, hempty, bind, Except.bind, pure, Except.pure]

end Pairs

/-! ## Calls with valid keys -/

theorem mdbAddEntry_ok (h : db.Sized) (hv : ValidKey addr) :
    ∃ db', mdbAddEntry db addr d = .ok (.GOOD, db') ∧ db'.Sized := by
  unfold mdbAddEntry
  split
  · rename_i a plen
    obtain ⟨pt, hpt, hmax⟩ := h.ip (ipAddrAfi a)
    obtain ⟨pt', hadd, hmax'⟩ := ptAddNode_ok (d := d) hv hmax
    refine ⟨_, ?_, h.setIpPt (hmax'.trans hmax) (db.nEntries + 1)⟩
    simp [getIpPtFromAfi_ok.mpr hpt, hadd, bind, Except.bind, pure, Except.pure]
  · rename_i srcPlen grpPlen iid src grp
    obtain ⟨hfam, hsrc, hgrp⟩ := hv
    obtain ⟨strie', hadd, hmax', hsized'⟩ := ptAddMcAddr_ok (d := d) hfam hsrc hgrp
      (h.mc (ipAddrAfi src)) (h.grp (ipAddrAfi src))
    refine ⟨_, ?_, h.setMcPt hmax' hsized' (db.nEntries + 1)⟩
    simp [hadd, bind, Except.bind, pure, Except.pure]
  · rename_i hpref hmc
    unfold ValidKey at hv
    split at hv
    · exact absurd rfl (hpref _ _)
    · exact absurd rfl (hmc _ _ _ _ _)
    · exact hv.elim

theorem mdbRemoveEntry_ok (h : db.Sized) (hv : ValidKey addr) :
    ∃ o db', mdbRemoveEntry db addr = .ok (o, db') ∧ db'.Sized := by
  unfold ValidKey at hv
  split at hv
  · rename_i a plen
    obtain ⟨pt, hpt, hmax⟩ := h.ip (ipAddrAfi a)
    obtain ⟨o, pt', hrm, hmax'⟩ := ptRemoveIppref_ok hv hmax
    refine ⟨o, (db.setIpPt (ipAddrAfi a) pt').countRemoved o, ?_, ?_⟩
    · simp [mdbRemoveEntry, getIpPtFromAfi_ok.mpr hpt, hrm, bind, Except.bind, pure,
        Except.pure]
    · rw [Mdb.countRemoved_eq]
      exact h.setIpPt (hmax'.trans hmax) _
  · rename_i srcPlen grpPlen iid src grp
    obtain ⟨hfam, hsrc, hgrp⟩ := hv
    obtain ⟨o, strie', hrm, hmax', hsized'⟩ := ptRemoveMcAddr_ok hfam hsrc hgrp
      (h.mc (ipAddrAfi src)) (h.grp (ipAddrAfi src))
    refine ⟨o, (db.setMcPt (ipAddrAfi src) strie').countRemoved o, ?_, ?_⟩
    · simp [mdbRemoveEntry, hrm, bind, Except.bind, pure, Except.pure]
    · rw [Mdb.countRemoved_eq]
      exact h.setMcPt hmax' hsized' _
  · exact hv.elim

theorem mdbLookupEntryExact_stored (h : ∃ pt, (db.ipDb (ipAddrAfi a)).nodes.lookup [] = some pt ∧
      pt.maxbits = (ipAddrAfi a).bits) (hlen : plen ≤ ipAddrAfiToDefaultMask a) :
    mdbLookupEntryExact db (.ippref a plen) =
      .ok (db.stored (.ip (ipAddrAfi a) ((ipBits a).take plen.toNat))) := by
  obtain ⟨pt, hpt, hmax⟩ := h
  obtain ⟨hkey, hacc⟩ := prefix_accepted hlen hmax
  simp [mdbLookupEntryExact, findNode, getIpPtFromAfi_ok.mpr hpt, ptFindIpNodeExact, hkey, hacc,
    bind, Except.bind, pure, Except.pure, Mdb.stored, Patricia.at2, hpt]

end Sized

/-! ## Refinement -/

section Refinement

variable {β : Type} {db db' : Mdb β} {u : UnicastMap β}

/-- The unicast part of the database holds the prefixes of the map. -/
structure Mdb.Holds (db : Mdb β) (u : UnicastMap β) : Prop where
  sized : db.Sized
  stored : ∀ afi bits, db.stored (.ip afi bits) = u afi bits

/-- A call with a valid key succeeds and does what it does to the map. -/
theorem MdbCall.holds (c : MdbCall β) (h : db.Holds u) (hv : ValidKey c.addr) :
    ∃ db', c.onMdb db = .ok db' ∧ db'.Holds (c.onMap u) := by
  cases c with
  | add addr d =>
    change ValidKey addr at hv
    obtain ⟨db', hadd, hs'⟩ := mdbAddEntry_ok (d := d) h.sized hv
    refine ⟨db', by simp [MdbCall.onMdb, hadd, bind, Except.bind, pure, Except.pure], hs', ?_⟩
    obtain ⟨k, hk, hst⟩ := mdbAddEntry_stored hadd
    intro afi bits
    rw [hst]
    unfold ValidKey at hv
    split at hv
    · cases hk
      simp only [MdbKey.ip.injEq, MdbCall.onMap, UnicastMap.add, h.stored]
    · cases hk
      simp only [reduceCtorEq, if_false, MdbCall.onMap, h.stored]
    · exact hv.elim
  | remove addr =>
    change ValidKey addr at hv
    obtain ⟨o, db', hrm, hs'⟩ := mdbRemoveEntry_ok h.sized hv
    refine ⟨db', by simp [MdbCall.onMdb, hrm, bind, Except.bind, pure, Except.pure], hs', ?_⟩
    intro afi bits
    unfold ValidKey at hv
    split at hv
    · obtain ⟨hnone, -⟩ | ⟨k, hk, -, hst⟩ := mdbRemoveEntry_stored hrm
      · cases hnone
      · cases hk
        rw [hst]
        simp only [MdbKey.ip.injEq, MdbCall.onMap, UnicastMap.remove, h.stored]
    · obtain ⟨hnone, -⟩ | ⟨k, hk, -, hst⟩ := mdbRemoveEntry_stored hrm
      · cases hnone
      · cases hk
        rw [hst]
        simp only [reduceCtorEq, if_false, MdbCall.onMap, h.stored]
    · exact hv.elim

theorem mdbCalls_holds : ∀ {calls : List (MdbCall β)} {db : Mdb β} {u : UnicastMap β}, db.Holds u →
    (∀ c ∈ calls, ValidKey c.addr) →
      ∃ db', mdbCalls db calls = .ok db' ∧ db'.Holds (calls.foldl MdbCall.onMap u)
  | [], db, u, h, _ => ⟨db, rfl, h⟩
  | c :: rest, db, u, h, hv => by
    obtain ⟨db1, hc, h1⟩ := c.holds h (hv c (by simp))
    obtain ⟨db', hrest, h'⟩ := mdbCalls_holds h1 fun c' hc' => hv c' (List.mem_cons_of_mem _ hc')
    exact ⟨db', by simp [mdbCalls, hc, hrest, bind, Except.bind], h'⟩

/-- What a client sees of the database: its lookups and removals are those of the map. -/
structure Mdb.Behaves (db : Mdb β) (u : UnicastMap β) : Prop where
  /-- The exact match is the value of the masked prefix. -/
  exact : ∀ a plen, plen ≤ ipAddrAfiToDefaultMask a →
    mdbLookupEntryExact db (.ippref a plen) = .ok (u (ipAddrAfi a) ((ipBits a).take plen.toNat))
  /-- The longest match of a host address. -/
  best : ∀ a, ∃ o, mdbLookupEntry db (.ip a) = .ok o ∧ u.IsBest a o
  /-- A removal returns the value of its own key, and removes that key only. -/
  remove : ∀ a plen, plen ≤ ipAddrAfiToDefaultMask a → ∃ db',
    mdbRemoveEntry db (.ippref a plen) = .ok (u (ipAddrAfi a) ((ipBits a).take plen.toNat), db') ∧
      db'.Holds (u.remove (ipAddrAfi a) ((ipBits a).take plen.toNat))

/-- The longest match in a trie that holds the prefixes of the family. -/
theorem UnicastMap.isBest_best {a : IpAddr} {m : PrefixMap β}
    (hm : ∀ bits, m.lookup bits = u (ipAddrAfi a) bits) : u.IsBest a (m.best (ipBits a)) := by
  cases hb : m.best (ipBits a) with
  | none =>
    intro bits hbits
    rw [← hm]
    exact PrefixMap.lookup_of_best_eq_none hb hbits
  | some v =>
    obtain ⟨bits, hbits, hv, hmax⟩ := PrefixMap.lookup_of_best_eq_some hb
    refine ⟨bits, hbits, by rw [← hm, hv], fun bits' hbits' hlt => ?_⟩
    rw [← hm, hmax bits' hbits' hlt]

theorem Mdb.Holds.best (h : db.Holds u) (a : IpAddr) :
    ∃ o, mdbLookupEntry db (.ip a) = .ok o ∧ u.IsBest a o := by
  obtain ⟨pt, hpt, hmax⟩ := h.sized.ip (ipAddrAfi a)
  have hstored : ∀ bits, pt.nodes.lookup bits = u (ipAddrAfi a) bits := by
    intro bits
    rw [← h.stored]
    simp [Mdb.stored, Patricia.at2, hpt]
  have hfull : ipAddrAfiToDefaultMask a ≤ ipAddrAfiToDefaultMask a := UInt8.le_refl _
  obtain ⟨hkey, hacc⟩ := prefix_accepted hfull hmax
  rw [take_default_mask] at hkey hacc
  refine ⟨pt.nodes.best (ipBits a), ?_, ?_⟩
  · simp [mdbLookupEntry, findNode, getIpPtFromAfi_ok.mpr hpt, ptFindIpNode, hkey, hacc, bind,
      Except.bind, pure, Except.pure]
  · exact UnicastMap.isBest_best hstored

theorem Mdb.Holds.behaves (h : db.Holds u) : db.Behaves u := by
  refine ⟨fun a plen hlen => ?_, h.best, fun a plen hlen => ?_⟩
  · rw [mdbLookupEntryExact_stored (h.sized.ip _) hlen, h.stored]
  · have hv : ValidKey (.ippref a plen) := hlen
    obtain ⟨o, db', hrm, -⟩ := mdbRemoveEntry_ok h.sized hv
    obtain ⟨db'', hcall, hholds⟩ := (MdbCall.remove (.ippref a plen)).holds h hv
    have hdb : db'' = db' := by
      simp [MdbCall.onMdb, hrm, bind, Except.bind, pure, Except.pure] at hcall
      exact hcall.symm
    obtain ⟨hnone, -⟩ | ⟨k, hk, ho, -⟩ := mdbRemoveEntry_stored hrm
    · cases hnone
    · cases hk
      refine ⟨db', ?_, hdb ▸ hholds⟩
      rw [hrm, ho, h.stored]

/-- After every sequence of additions and removals with valid keys, none of which faults, the
unicast part of the database behaves as the map built by the calls with prefixes alone. -/
theorem mdb_refines (calls : List (MdbCall β)) (hv : ∀ c ∈ calls, ValidKey c.addr) :
    ∃ db, mdbCalls mdbNew calls = .ok db ∧
      db.Behaves (calls.foldl MdbCall.onMap UnicastMap.empty) := by
  have hnew : (mdbNew : Mdb β).Holds UnicastMap.empty :=
    ⟨mdbNew_sized, fun afi bits => mdbNew_stored (.ip afi bits)⟩
  obtain ⟨db, hcalls, hholds⟩ := mdbCalls_holds hnew hv
  exact ⟨db, hcalls, hholds.behaves⟩

end Refinement

/-- Two prefixes with host bits, one of them added twice, and a multicast pair. -/
def labCalls : List (MdbCall Nat) :=
  [.add (.ippref (.v4 0x0a010203#32) 8) 1, .add (.ippref (.v4 0x0a090909#32) 8) 2,
    .add (.mc 8 32 0 (.ip (.v4 0x0a000000#32)) (.ip (.v4 0xe0000001#32))) 3,
    .add (.ippref (.v4 0x0a010000#32) 16) 4, .remove (.ippref (.v4 0x0a01ffff#32) 16)]

theorem mdb_refines_lab :
    ∃ db, mdbCalls mdbNew labCalls = .ok db ∧
      db.Behaves (labCalls.foldl MdbCall.onMap UnicastMap.empty) ∧
      labCalls.foldl MdbCall.onMap UnicastMap.empty .INET
        ((ipBits (.v4 0x0a000000#32)).take 8) = some 1 := by
  have hv : ∀ c ∈ labCalls, ValidKey c.addr := by
    intro c hc
    simp only [labCalls, List.mem_cons, List.not_mem_nil, or_false] at hc
    rcases hc with rfl | rfl | rfl | rfl | rfl <;> simp [MdbCall.addr, ValidKey] <;> decide
  obtain ⟨db, hcalls, hb⟩ := mdb_refines labCalls hv
  exact ⟨db, hcalls, hb, by decide +kernel⟩

end Lispmob
