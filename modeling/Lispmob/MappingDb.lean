import Lispmob.Address
import Lispmob.PrefixMap
import Lispmob.Program

/-!
# The mapping database

`mdb_t` keeps the entries of a map cache, of the local mappings and of a Map-Server in patricia
tries: the IPv4 and IPv6 prefixes in a trie that hangs from the one node of an outer trie, the
multicast pairs in a trie of source prefixes whose nodes hold a trie of group prefixes. The
patricia library itself is modelled by `PrefixMap`.

`Mdb.stored` is the content of the database as a map from keys. `mdbAddEntry_stored`,
`mdbRemoveEntry_stored` and the lookup lemmas say what each operation does to it; in particular an
insertion at a key that is taken reports success and changes nothing.
-/

namespace Lispmob

open Prog Option AList

/-! ## Bit strings of addresses -/

/-- The bits of an address, most significant first. -/
def ipBits : IpAddr → List Bool
  | .v4 a => (List.range 32).map a.getMsbD
  | .v6 a => (List.range 128).map a.getMsbD

@[simp] theorem ipBits_length (a : IpAddr) :
    (ipBits a).length = (ipAddrAfiToDefaultMask a).toNat := by
  cases a <;> simp [ipBits, ipAddrAfiToDefaultMask]

/-- `pt_make_ip_prefix`: the first bits of the address; a length over that of the address fails an
assertion. -/
def ptMakeIpPrefix (ipaddr : IpAddr) (prefixlen : UInt8) : Except Fault (List Bool) :=
  if prefixlen ≤ ipAddrAfiToDefaultMask ipaddr then .ok ((ipBits ipaddr).take prefixlen.toNat)
  else .error .assertion

/-! ## Tries -/

/-- A `patricia_tree_t`. -/
structure Patricia (β : Type) where
  /-- The longest key the trie accepts. -/
  maxbits : Nat
  nodes : PrefixMap β

section Patricia

variable {β : Type}

/-- `New_Patricia`. -/
def newPatricia (maxbits : Nat) : Patricia β :=
  ⟨maxbits, ∅⟩

/-- The assertion at the head of the patricia functions. -/
def Patricia.accepts (pt : Patricia β) (key : List Bool) : Except Fault Unit :=
  if key.length ≤ pt.maxbits then .ok () else .error .assertion

/-- `pt_find_ip_node_exact`. -/
def ptFindIpNodeExact (pt : Patricia β) (ipaddr : IpAddr) (prefixlen : UInt8) :
    Except Fault (Option β) := do
  let key ← ptMakeIpPrefix ipaddr prefixlen
  pt.accepts key
  return pt.nodes.lookup key

/-- `pt_find_ip_node`: longest match of the full address. -/
def ptFindIpNode (pt : Patricia β) (ipaddr : IpAddr) : Except Fault (Option β) := do
  let key ← ptMakeIpPrefix ipaddr (ipAddrAfiToDefaultMask ipaddr)
  pt.accepts key
  return pt.nodes.best key

/-- `pt_add_node` with data: a node that already has data keeps it. -/
def ptAddNode (pt : Patricia β) (ipaddr : IpAddr) (prefixlen : UInt8) (data : β) :
    Except Fault (Patricia β) := do
  let key ← ptMakeIpPrefix ipaddr prefixlen
  pt.accepts key
  match pt.nodes.lookup key with
  | some _ => return pt
  | none => return { pt with nodes := pt.nodes.insert key data }

end Patricia

/-! ## The database -/

/-- An `mdb_t`. The IP tries hang from the root node of `af4IpDb` and `af6IpDb`. The count is an
`int` there, and is not taken to overflow. -/
structure Mdb (β : Type) where
  af4IpDb : Patricia (Patricia β)
  af6IpDb : Patricia (Patricia β)
  af4McDb : Patricia (Patricia β)
  af6McDb : Patricia (Patricia β)
  nEntries : Int

section Mdb

variable {β : Type}

/-- `mdb_new`. -/
def mdbNew : Mdb β :=
  { af4IpDb := ⟨32, AList.singleton [] (newPatricia 32)⟩
    af6IpDb := ⟨128, AList.singleton [] (newPatricia 128)⟩
    af4McDb := newPatricia 32
    af6McDb := newPatricia 128
    nEntries := 0 }

/-- The outer trie of the IP prefixes of a family. -/
def Mdb.ipDb (db : Mdb β) : Af → Patricia (Patricia β)
  | .INET => db.af4IpDb
  | .INET6 => db.af6IpDb

/-- `get_ip_pt_from_afi`: the data of the root node of the outer trie. -/
def getIpPtFromAfi (db : Mdb β) (afi : Af) : Except Fault (Patricia β) :=
  match (db.ipDb afi).nodes.lookup [] with
  | some pt => .ok pt
  | none => .error .nullDeref

/-- Write the IP trie of a family back. -/
def Mdb.setIpPt (db : Mdb β) (afi : Af) (pt : Patricia β) : Mdb β :=
  match afi with
  | .INET => { db with af4IpDb := { db.af4IpDb with nodes := db.af4IpDb.nodes.insert [] pt } }
  | .INET6 => { db with af6IpDb := { db.af6IpDb with nodes := db.af6IpDb.nodes.insert [] pt } }

/-- `get_mc_pt_from_afi`. -/
def getMcPtFromAfi (db : Mdb β) : Af → Patricia (Patricia β)
  | .INET => db.af4McDb
  | .INET6 => db.af6McDb

/-- Write the multicast trie of a family back. -/
def Mdb.setMcPt (db : Mdb β) (afi : Af) (strie : Patricia (Patricia β)) : Mdb β :=
  match afi with
  | .INET => { db with af4McDb := strie }
  | .INET6 => { db with af6McDb := strie }

/-- `pt_find_mc_node`: the source node by exact or longest match, the group always by longest
match. -/
def ptFindMcNode (strie : Patricia (Patricia β)) (src grp : IpAddr) (srcPlen : UInt8)
    (exact : Bool) : Except Fault (Option β) := do
  let snode ← (if exact then ptFindIpNodeExact strie src srcPlen else ptFindIpNode strie src)
  match snode with
  | none => return none
  | some gtrie => ptFindIpNode gtrie grp

/-- `_find_node`. The multicast trie is chosen by the family of the group. -/
def findNode (db : Mdb β) (laddr : LispAddr) (exact : Bool) : Except Fault (Option β) :=
  match laddr with
  | .ip a => do
    let pt ← getIpPtFromAfi db (ipAddrAfi a)
    if exact then ptFindIpNodeExact pt a (ipAddrAfiToDefaultMask a) else ptFindIpNode pt a
  | .ippref a plen => do
    let pt ← getIpPtFromAfi db (ipAddrAfi a)
    if exact then ptFindIpNodeExact pt a plen else ptFindIpNode pt a
  | .mc srcPlen _ _ (.ip src) (.ip grp) =>
    ptFindMcNode (getMcPtFromAfi db (ipAddrAfi grp)) src grp srcPlen exact
  | _ => .ok none

/-- `mdb_lookup_entry`. -/
def mdbLookupEntry (db : Mdb β) (laddr : LispAddr) : Except Fault (Option β) :=
  findNode db laddr false

/-- `mdb_lookup_entry_exact`. -/
def mdbLookupEntryExact (db : Mdb β) (laddr : LispAddr) : Except Fault (Option β) :=
  findNode db laddr true

/-- `pt_add_mc_addr`: the source node is created with an empty group trie if it is missing. -/
def ptAddMcAddr (strie : Patricia (Patricia β)) (src grp : IpAddr) (srcPlen grpPlen : UInt8)
    (data : β) : Except Fault (Patricia (Patricia β)) := do
  let key ← ptMakeIpPrefix src srcPlen
  strie.accepts key
  let gtrie := (strie.nodes.lookup key).getD (newPatricia (ipAddrAfiToDefaultMask grp).toNat)
  let gtrie' ← ptAddNode gtrie grp grpPlen data
  return { strie with nodes := strie.nodes.insert key gtrie' }

/-- `mdb_add_entry`: only prefixes and multicast pairs of IP addresses can be stored. -/
def mdbAddEntry (db : Mdb β) (addr : LispAddr) (data : β) : Except Fault (Ret × Mdb β) :=
  match addr with
  | .ippref a plen => do
    let pt ← getIpPtFromAfi db (ipAddrAfi a)
    let pt' ← ptAddNode pt a plen data
    return (.GOOD, { db.setIpPt (ipAddrAfi a) pt' with nEntries := db.nEntries + 1 })
  | .mc srcPlen grpPlen _ (.ip src) (.ip grp) => do
    let strie' ← ptAddMcAddr (getMcPtFromAfi db (ipAddrAfi src)) src grp srcPlen grpPlen data
    return (.GOOD, { db.setMcPt (ipAddrAfi src) strie' with nEntries := db.nEntries + 1 })
  | _ => .ok (.BAD, db)

/-- `pt_remove_ippref`: the data of the node, which is removed. -/
def ptRemoveIppref (pt : Patricia β) (a : IpAddr) (plen : UInt8) :
    Except Fault (Option β × Patricia β) := do
  let key ← ptMakeIpPrefix a plen
  pt.accepts key
  return (pt.nodes.lookup key, { pt with nodes := pt.nodes.erase key })

/-- `pt_remove_mc_addr`: a source node whose group trie becomes empty is removed too. -/
def ptRemoveMcAddr (strie : Patricia (Patricia β)) (src grp : IpAddr) (srcPlen grpPlen : UInt8) :
    Except Fault (Option β × Patricia (Patricia β)) := do
  let skey ← ptMakeIpPrefix src srcPlen
  strie.accepts skey
  match strie.nodes.lookup skey with
  | none => return (none, strie)
  | some gtrie =>
    let (data, gtrie') ← ptRemoveIppref gtrie grp grpPlen
    match data with
    | none => return (none, strie)
    | some d =>
      if gtrie'.nodes.entries.isEmpty then
        return (some d, { strie with nodes := strie.nodes.erase skey })
      else return (some d, { strie with nodes := strie.nodes.insert skey gtrie' })

/-- The count of entries after a removal. -/
def Mdb.countRemoved (db : Mdb β) (data : Option β) : Mdb β :=
  if data.isSome then { db with nEntries := db.nEntries - 1 } else db

/-- `mdb_remove_entry`: the data stored under the key, which is removed. -/
def mdbRemoveEntry (db : Mdb β) (laddr : LispAddr) : Except Fault (Option β × Mdb β) :=
  match laddr with
  | .ip a => do
    let pt ← getIpPtFromAfi db (ipAddrAfi a)
    let (data, pt') ← ptRemoveIppref pt a (ipAddrAfiToDefaultMask a)
    return (data, (db.setIpPt (ipAddrAfi a) pt').countRemoved data)
  | .ippref a plen => do
    let pt ← getIpPtFromAfi db (ipAddrAfi a)
    let (data, pt') ← ptRemoveIppref pt a plen
    return (data, (db.setIpPt (ipAddrAfi a) pt').countRemoved data)
  | .mc srcPlen grpPlen _ (.ip src) (.ip grp) => do
    let (data, strie') ← ptRemoveMcAddr (getMcPtFromAfi db (ipAddrAfi src)) src grp srcPlen grpPlen
    return (data, (db.setMcPt (ipAddrAfi src) strie').countRemoved data)
  | _ => .ok (none, db)

end Mdb

/-! ## The content of a database -/

/-- A key of the database: a prefix of a family, or a multicast pair under the source's family. -/
inductive MdbKey where
  | ip (afi : Af) (bits : List Bool)
  | mc (afi : Af) (srcBits grpBits : List Bool)
deriving DecidableEq

/-- The key an address is stored under, if it can be stored. -/
def mdbKey : LispAddr → Option MdbKey
  | .ip a => some (.ip (ipAddrAfi a) (ipBits a))
  | .ippref a plen => some (.ip (ipAddrAfi a) ((ipBits a).take plen.toNat))
  | .mc srcPlen grpPlen _ (.ip src) (.ip grp) =>
    some (.mc (ipAddrAfi src) ((ipBits src).take srcPlen.toNat) ((ipBits grp).take grpPlen.toNat))
  | _ => none

/-- What a trie of tries holds at a pair of keys. -/
def Patricia.at2 {β : Type} (pt : Patricia (Patricia β)) (k l : List Bool) : Option β :=
  (pt.nodes.lookup k).bind fun inner => inner.nodes.lookup l

/-- The content of the database. -/
def Mdb.stored {β : Type} (db : Mdb β) : MdbKey → Option β
  | .ip afi bits => (db.ipDb afi).at2 [] bits
  | .mc afi srcBits grpBits => (getMcPtFromAfi db afi).at2 srcBits grpBits

section Stored

variable {β : Type} {db db' : Mdb β} {k : MdbKey} {d : β} {a : IpAddr} {plen : UInt8}
  {pt pt' : Patricia β} {o : Option β} {laddr : LispAddr} {addr : LispAddr} {exact : Bool} {v : β}

theorem mdbNew_stored (k : MdbKey) : (mdbNew : Mdb β).stored k = none := by
  cases k with
  | ip afi bits => cases afi <;> rfl
  | mc afi s g => cases afi <;> rfl

theorem ptMakeIpPrefix_ok {key : List Bool} :
    ptMakeIpPrefix a plen = .ok key ↔
      plen ≤ ipAddrAfiToDefaultMask a ∧ key = (ipBits a).take plen.toNat := by
  unfold ptMakeIpPrefix
  split_ifs with h <;> simp [h, eq_comm]

/-- The full address is its own prefix of full length. -/
theorem take_default_mask (a : IpAddr) :
    (ipBits a).take (ipAddrAfiToDefaultMask a).toNat = ipBits a := by
  rw [← ipBits_length, List.take_length]

theorem getIpPtFromAfi_ok {afi : Af} :
    getIpPtFromAfi db afi = .ok pt ↔ (db.ipDb afi).nodes.lookup [] = some pt := by
  unfold getIpPtFromAfi
  cases (db.ipDb afi).nodes.lookup [] <;> simp

theorem stored_setIpPt (db : Mdb β) (afi : Af) (pt : Patricia β) (n : Int) :
    ∀ k, ({ db.setIpPt afi pt with nEntries := n } : Mdb β).stored k =
      match k with
      | .ip afi' bits => if afi' = afi then pt.nodes.lookup bits else db.stored (.ip afi' bits)
      | .mc afi' s g => db.stored (.mc afi' s g)
  | .ip afi' bits => by
    cases afi <;> cases afi' <;>
      simp [Mdb.stored, Mdb.setIpPt, Mdb.ipDb, Patricia.at2, lookup_insert]
  | .mc afi' s g => by
    cases afi <;> cases afi' <;> rfl

/-- The content after a multicast trie is written back. -/
theorem stored_setMcPt (db : Mdb β) (afi : Af) (strie : Patricia (Patricia β)) (n : Int) :
    ∀ k, ({ db.setMcPt afi strie with nEntries := n } : Mdb β).stored k =
      match k with
      | .ip afi' bits => db.stored (.ip afi' bits)
      | .mc afi' s g => if afi' = afi then strie.at2 s g else db.stored (.mc afi' s g)
  | .ip afi' bits => by
    cases afi <;> cases afi' <;> rfl
  | .mc afi' s g => by
    cases afi <;> cases afi' <;> rfl

/-- Adding a node: a key that is taken keeps its data. -/
theorem ptAddNode_lookup (h : ptAddNode pt a plen d = .ok pt') :
    plen ≤ ipAddrAfiToDefaultMask a ∧
      ∀ l, pt'.nodes.lookup l =
        if l = (ipBits a).take plen.toNat then
          some ((pt.nodes.lookup ((ipBits a).take plen.toNat)).getD d)
        else pt.nodes.lookup l := by
  simp only [ptAddNode, except_bind_ok, ptMakeIpPrefix_ok] at h
  obtain ⟨key, ⟨hlen, rfl⟩, -, -, h⟩ := h
  refine ⟨hlen, fun l => ?_⟩
  split at h
  · rename_i v hv
    rw [except_pure_ok.mp h, hv]
    split_ifs with hl
    · rw [hl, hv, getD_some]
    · rfl
  · rename_i hv
    rw [except_pure_ok.mp h, hv]
    split_ifs with hl
    · rw [hl, lookup_insert, getD_none]
    · rw [lookup_insert_ne hl]

/-- An insertion reports success also at a key that is taken, and then changes nothing. -/
theorem mdbAddEntry_stored (h : mdbAddEntry db addr d = .ok (.GOOD, db')) :
    ∃ k, mdbKey addr = some k ∧
      ∀ k', db'.stored k' = if k' = k then some ((db.stored k).getD d) else db.stored k' := by
  unfold mdbAddEntry at h
  split at h
  · rename_i a plen
    simp only [except_bind_ok, getIpPtFromAfi_ok] at h
    obtain ⟨pt, hpt, pt', hadd, h⟩ := h
    obtain ⟨hlen, hl⟩ := ptAddNode_lookup hadd
    refine ⟨.ip (ipAddrAfi a) ((ipBits a).take plen.toNat), rfl, fun k' => ?_⟩
    simp only [except_pure_ok, Prod.mk.injEq, true_and] at h
    rw [h, stored_setIpPt]
    have hst : ∀ bits, db.stored (.ip (ipAddrAfi a) bits) = pt.nodes.lookup bits := fun bits => by
      simp [Mdb.stored, Patricia.at2, hpt]
    cases k' with
    | ip afi' bits => grind
    | mc afi' s g => simp
  · rename_i srcPlen grpPlen iid src grp
    simp only [ptAddMcAddr, except_bind_ok, ptMakeIpPrefix_ok] at h
    obtain ⟨strie', ⟨skey, ⟨hslen, rfl⟩, -, -, gtrie', hadd, hst'⟩, h⟩ := h
    obtain ⟨hglen, hl⟩ := ptAddNode_lookup hadd
    refine ⟨.mc (ipAddrAfi src) ((ipBits src).take srcPlen.toNat)
      ((ipBits grp).take grpPlen.toNat), rfl, fun k' => ?_⟩
    simp only [except_pure_ok, Prod.mk.injEq, true_and] at h hst'
    rw [h, stored_setMcPt]
    cases k' with
    | ip afi' bits => simp
    | mc afi' s g =>
      have hnew : ∀ g', ((((getMcPtFromAfi db (ipAddrAfi src)).nodes.lookup
          ((ipBits src).take srcPlen.toNat)).getD
            (newPatricia (ipAddrAfiToDefaultMask grp).toNat)).nodes.lookup g') =
          db.stored (.mc (ipAddrAfi src) ((ipBits src).take srcPlen.toNat) g') := fun g' => by
        simp only [Mdb.stored, Patricia.at2]
        cases (getMcPtFromAfi db (ipAddrAfi src)).nodes.lookup
          ((ipBits src).take srcPlen.toNat) <;> simp [newPatricia]
      by_cases hafi : afi' = ipAddrAfi src
      · by_cases hs : s = (ipBits src).take srcPlen.toNat
        · subst hafi hs
          simp only [if_true, hst', Patricia.at2, lookup_insert, bind_some, hl, hnew,
            MdbKey.mc.injEq, true_and]
        · simp [hafi, hst', Patricia.at2, lookup_insert_ne hs, hs, Mdb.stored]
      · simp [hafi]
  · cases h

theorem mdbAddEntry_bad {ret : Ret}
    (h : mdbAddEntry db addr d = .ok (ret, db')) (hret : ret ≠ .GOOD) : db' = db := by
  unfold mdbAddEntry at h
  split at h
  · simp only [except_bind_ok, except_pure_ok] at h
    obtain ⟨_, -, _, -, h⟩ := h
    cases h
    exact absurd rfl hret
  · simp only [except_bind_ok, except_pure_ok] at h
    obtain ⟨_, -, h⟩ := h
    cases h
    exact absurd rfl hret
  · cases h
    rfl

theorem stored_countRemoved (o : Option β) : (db.countRemoved o).stored k = db.stored k := by
  unfold Mdb.countRemoved
  split_ifs
  · cases k with
    | ip afi bits => cases afi <;> rfl
    | mc afi s g => cases afi <;> rfl
  · rfl

theorem ptRemoveIppref_lookup (h : ptRemoveIppref pt a plen = .ok (o, pt')) :
    plen ≤ ipAddrAfiToDefaultMask a ∧ o = pt.nodes.lookup ((ipBits a).take plen.toNat) ∧
      ∀ l, pt'.nodes.lookup l =
        if l = (ipBits a).take plen.toNat then none else pt.nodes.lookup l := by
  simp only [ptRemoveIppref, except_bind_ok, ptMakeIpPrefix_ok, except_pure_ok, Prod.mk.injEq] at h
  obtain ⟨key, ⟨hlen, rfl⟩, -, -, ho, rfl⟩ := h
  refine ⟨hlen, ho, fun l => ?_⟩
  split_ifs with hl
  · rw [hl, lookup_erase]
  · exact lookup_erase_ne hl

theorem stored_remove_ip (hpt : getIpPtFromAfi db (ipAddrAfi a) = .ok pt)
    (h : ptRemoveIppref pt a plen = .ok (o, pt')) :
    o = db.stored (.ip (ipAddrAfi a) ((ipBits a).take plen.toNat)) ∧
      ∀ k', ((db.setIpPt (ipAddrAfi a) pt').countRemoved o).stored k' =
        if k' = .ip (ipAddrAfi a) ((ipBits a).take plen.toNat) then none else db.stored k' := by
  obtain ⟨-, ho, hl⟩ := ptRemoveIppref_lookup h
  have hst : ∀ bits, db.stored (.ip (ipAddrAfi a) bits) = pt.nodes.lookup bits := fun bits => by
    simp [Mdb.stored, Patricia.at2, getIpPtFromAfi_ok.mp hpt]
  refine ⟨by rw [ho, hst], fun k' => ?_⟩
  rw [stored_countRemoved]
  have hset := stored_setIpPt db (ipAddrAfi a) pt' (db.setIpPt (ipAddrAfi a) pt').nEntries k'
  rw [hset]
  cases k' with
  | ip afi' bits => grind
  | mc afi' s g => simp

theorem ptRemoveMcAddr_at2 {strie strie' : Patricia (Patricia β)} {src grp : IpAddr}
    {srcPlen grpPlen : UInt8} (h : ptRemoveMcAddr strie src grp srcPlen grpPlen = .ok (o, strie')) :
    o = strie.at2 ((ipBits src).take srcPlen.toNat) ((ipBits grp).take grpPlen.toNat) ∧
      ∀ s g, strie'.at2 s g =
        if s = (ipBits src).take srcPlen.toNat ∧ g = (ipBits grp).take grpPlen.toNat then none
        else strie.at2 s g := by
  simp only [ptRemoveMcAddr, except_bind_ok, ptMakeIpPrefix_ok] at h
  obtain ⟨skey, ⟨-, rfl⟩, -, -, h⟩ := h
  cases hg : strie.nodes.lookup ((ipBits src).take srcPlen.toNat) with
  | none =>
    simp only [hg, except_pure_ok, Prod.mk.injEq] at h
    obtain ⟨rfl, rfl⟩ := h
    refine ⟨by simp [Patricia.at2, hg], fun s g => ?_⟩
    split_ifs with hs
    · rw [hs.1, hs.2, Patricia.at2, hg, bind_none]
    · rfl
  | some gtrie =>
    simp only [hg, except_bind_ok] at h
    obtain ⟨⟨data, gtrie'⟩, hrm, h⟩ := h
    obtain ⟨-, hdata, hl⟩ := ptRemoveIppref_lookup hrm
    have hat : strie.at2 ((ipBits src).take srcPlen.toNat) ((ipBits grp).take grpPlen.toNat) =
        data := by simp [Patricia.at2, hg, hdata]
    cases data with
    | none =>
      obtain ⟨rfl, rfl⟩ := h
      refine ⟨hat.symm, fun s g => ?_⟩
      split_ifs with hs
      · rw [hs.1, hs.2, hat]
      · rfl
    | some v =>
      split_ifs at h with hempty
      · obtain ⟨rfl, rfl⟩ := h
        refine ⟨hat.symm, fun s g => ?_⟩
        -- the group trie is empty now, so the source held this pair only
        have hnone : ∀ l, gtrie'.nodes.lookup l = none := fun l => by
          rw [lookup_eq_none, mem_keys, keys, List.isEmpty_iff.mp hempty]
          simp
        by_cases hs : s = (ipBits src).take srcPlen.toNat
        · subst hs
          have hgl := hl g
          rw [hnone g] at hgl
          simp only [Patricia.at2, lookup_erase, bind_none, true_and, hg, bind_some]
          split_ifs with hgg
          · rfl
          · rw [if_neg hgg] at hgl
            exact hgl
        · simp [Patricia.at2, lookup_erase_ne hs, hs]
      · obtain ⟨rfl, rfl⟩ := h
        refine ⟨hat.symm, fun s g => ?_⟩
        by_cases hs : s = (ipBits src).take srcPlen.toNat
        · subst hs
          simp [Patricia.at2, hg, hl]
        · simp [Patricia.at2, lookup_insert_ne hs, hs]

/-- A removal returns what was stored under the key and removes it; an address without a key
removes nothing. -/
theorem mdbRemoveEntry_stored (h : mdbRemoveEntry db laddr = .ok (o, db')) :
    (mdbKey laddr = none ∧ o = none ∧ ∀ k', db'.stored k' = db.stored k') ∨
      ∃ k, mdbKey laddr = some k ∧ o = db.stored k ∧
        ∀ k', db'.stored k' = if k' = k then none else db.stored k' := by
  unfold mdbRemoveEntry at h
  split at h
  · simp only [except_bind_ok, except_pure_ok, Prod.mk.injEq] at h
    obtain ⟨pt, hpt, ⟨data, pt'⟩, hrm, rfl, rfl⟩ := h
    have hr := stored_remove_ip hpt hrm
    rw [take_default_mask] at hr
    exact .inr ⟨_, rfl, hr⟩
  · simp only [except_bind_ok, except_pure_ok, Prod.mk.injEq] at h
    obtain ⟨pt, hpt, ⟨data, pt'⟩, hrm, rfl, rfl⟩ := h
    exact .inr ⟨_, rfl, stored_remove_ip hpt hrm⟩
  · rename_i srcPlen grpPlen iid src grp
    simp only [except_bind_ok, except_pure_ok, Prod.mk.injEq] at h
    obtain ⟨⟨data, strie'⟩, hrm, rfl, rfl⟩ := h
    obtain ⟨ho, hat⟩ := ptRemoveMcAddr_at2 hrm
    refine .inr ⟨_, rfl, ho, fun k' => ?_⟩
    rw [stored_countRemoved, stored_setMcPt db (ipAddrAfi src) strie'
      (db.setMcPt (ipAddrAfi src) strie').nEntries k']
    cases k' with
    | ip afi' bits => simp
    | mc afi' s g =>
      simp only [hat, MdbKey.mc.injEq]
      by_cases hafi : afi' = ipAddrAfi src
      · subst hafi
        simp [Mdb.stored]
      · simp [hafi]
  · rename_i hip hpref hmc
    obtain ⟨rfl, rfl⟩ := h
    refine .inl ⟨?_, rfl, fun _ => rfl⟩
    unfold mdbKey
    split
    · exact absurd rfl (hip _)
    · exact absurd rfl (hpref _ _)
    · exact absurd rfl (hmc _ _ _ _ _)
    · rfl

/-- The exact match of a prefix is what is stored under its key. -/
theorem mdbLookupEntryExact_ippref (h : mdbLookupEntryExact db (.ippref a plen) = .ok o) :
    o = db.stored (.ip (ipAddrAfi a) ((ipBits a).take plen.toNat)) := by
  simp only [mdbLookupEntryExact, findNode, if_true, ptFindIpNodeExact, except_bind_ok,
    getIpPtFromAfi_ok, ptMakeIpPrefix_ok, except_pure_ok] at h
  obtain ⟨pt, hpt, key, ⟨-, rfl⟩, -, -, rfl⟩ := h
  simp [Mdb.stored, Patricia.at2, hpt]

/-- When the exact match of an address that is no multicast pair finds nothing, its key is free. -/
theorem mdbLookupEntryExact_none (h : mdbLookupEntryExact db laddr = .ok none)
    (hkey : mdbKey laddr = some k) (hmc : ∀ sp gp iid src grp, laddr ≠ .mc sp gp iid src grp) :
    db.stored k = none := by
  cases laddr with
  | ip a =>
    simp only [mdbLookupEntryExact, findNode, if_true, ptFindIpNodeExact, except_bind_ok,
      getIpPtFromAfi_ok, ptMakeIpPrefix_ok, except_pure_ok] at h
    obtain ⟨pt, hpt, key, ⟨-, rfl⟩, -, -, hnone⟩ := h
    cases hkey
    rw [take_default_mask] at hnone
    rw [Mdb.stored, Patricia.at2, hpt, bind_some, ← hnone]
  | ippref a plen =>
    cases hkey
    exact (mdbLookupEntryExact_ippref h).symm
  | mc sp gp iid src grp => exact absurd rfl (hmc sp gp iid src grp)
  | _ => cases hkey

/-- When the longest match of an address finds nothing, no stored prefix covers it. -/
theorem mdbLookupEntry_ip_none (h : mdbLookupEntry db (.ip a) = .ok none) {bits : List Bool}
    (hbits : bits <+: ipBits a) : db.stored (.ip (ipAddrAfi a) bits) = none := by
  simp only [mdbLookupEntry, findNode, Bool.false_eq_true, if_false, ptFindIpNode,
    except_bind_ok, getIpPtFromAfi_ok, ptMakeIpPrefix_ok,
    except_pure_ok] at h
  obtain ⟨pt, hpt, key, ⟨-, rfl⟩, -, -, hbest⟩ := h
  rw [take_default_mask] at hbest
  rw [Mdb.stored, Patricia.at2, hpt, bind_some]
  exact PrefixMap.lookup_of_best_eq_none hbest.symm hbits

/-- What an exact or longest match on a trie finds is stored in it. -/
theorem ptFind_lookup
    (h : (if exact then ptFindIpNodeExact pt a plen else ptFindIpNode pt a) = .ok (some v)) :
    ∃ key, pt.nodes.lookup key = some v := by
  cases exact with
  | true =>
    simp only [if_true, ptFindIpNodeExact, except_bind_ok, except_pure_ok] at h
    obtain ⟨key, -, -, -, hv⟩ := h
    exact ⟨key, hv.symm⟩
  | false =>
    simp only [Bool.false_eq_true, if_false, ptFindIpNode, except_bind_ok, except_pure_ok] at h
    obtain ⟨key, -, -, -, hv⟩ := h
    obtain ⟨key', -, hk, -⟩ := PrefixMap.lookup_of_best_eq_some hv.symm
    exact ⟨key', hk⟩

theorem findNode_stored (h : findNode db laddr exact = .ok (some v)) :
    ∃ k, db.stored k = some v := by
  unfold findNode at h
  split at h
  · rename_i a
    simp only [except_bind_ok, getIpPtFromAfi_ok] at h
    obtain ⟨pt, hpt, h⟩ := h
    obtain ⟨key, hk⟩ := ptFind_lookup h
    exact ⟨.ip (ipAddrAfi a) key, by simp [Mdb.stored, Patricia.at2, hpt, hk]⟩
  · rename_i a plen
    simp only [except_bind_ok, getIpPtFromAfi_ok] at h
    obtain ⟨pt, hpt, h⟩ := h
    obtain ⟨key, hk⟩ := ptFind_lookup h
    exact ⟨.ip (ipAddrAfi a) key, by simp [Mdb.stored, Patricia.at2, hpt, hk]⟩
  · rename_i srcPlen grpPlen iid src grp
    simp only [ptFindMcNode, except_bind_ok] at h
    obtain ⟨snode, hs, h⟩ := h
    cases snode with
    | none => cases h
    | some gtrie =>
      obtain ⟨skey, hsk⟩ := ptFind_lookup hs
      obtain ⟨gkey, hgk⟩ := ptFind_lookup (show (if false then ptFindIpNodeExact gtrie grp 0
        else ptFindIpNode gtrie grp) = .ok (some v) from h)
      exact ⟨.mc (ipAddrAfi grp) skey gkey, by simp [Mdb.stored, Patricia.at2, hsk, hgk]⟩
  · cases h

end Stored

end Lispmob
