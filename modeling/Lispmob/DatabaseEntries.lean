import Lispmob.UnicastMap
import Lispmob.XtrCache

/-!
# The entries of the mapping database

The loop over a database visits every stored entry once, and the count of entries is the number of
entries visited as long as no key is added that is there already. Such an addition is counted and
stores nothing (`database_entries_iff`). An addition with a prefix longer than its trie accepts ends
in an assertion: one longer than its address, or that of a group whose source has a trie for groups
of the other family.

A multicast pair is stored under its source in the tries of the source's family. It is looked up in
those of the group's family, first by the source and then by the longest match of the whole group
address, also when an exact match is asked for. `multicast_map_iff` says when that finds what a map
with two levels of matching would.
-/

namespace Lispmob

open Prog List AList

section Entries

variable {β : Type} {db db' : Mdb β} {d : β} {afi : Af} {strie strie' : Patricia (Patricia β)}
  {key : List Bool} {a src grp : IpAddr} {sp gp : UInt8} {o : Option β} {addr : LispAddr}
  {iid : UInt32} {pt pt' : Patricia β} {u : UnicastMap β} {plen : UInt8}
  {k : MdbKey} {γ : Type} {ret : Ret}

/-! ## Visits -/

theorem lookup_eq_some_iff {m : PrefixMap γ} {k : List Bool} {v : γ} :
    m.lookup k = some v ↔ ⟨k, v⟩ ∈ m.entries :=
  mem_dlookup_iff m.nodupKeys

/-- The entries of a trie of tries with their keys. -/
def Patricia.entries2 (pt : Patricia (Patricia β)) : List ((List Bool × List Bool) × β) :=
  pt.nodes.entries.flatMap fun e => e.2.nodes.entries.map fun e' => ((e.1, e'.1), e'.2)

theorem mem_entries2 {pt : Patricia (Patricia β)} {k l : List Bool} :
    ((k, l), d) ∈ pt.entries2 ↔ pt.at2 k l = some d := by
  simp only [Patricia.entries2, mem_flatMap, mem_map, Patricia.at2, Option.bind_eq_some_iff,
    lookup_eq_some_iff]
  constructor
  · rintro ⟨e, he, e', he', heq⟩
    cases heq
    exact ⟨e.2, he, he'⟩
  · rintro ⟨inner, he, he'⟩
    exact ⟨⟨k, inner⟩, he, ⟨l, d⟩, he', rfl⟩

theorem nodup_entries2 (pt : Patricia (Patricia β)) : (pt.entries2.map (·.1)).Nodup := by
  rw [Patricia.entries2, map_flatMap, nodup_flatMap]
  constructor
  · intro e _
    have hkeys := e.2.nodes.nodupKeys
    rw [map_map]
    exact List.Nodup.of_map Prod.snd (by rwa [map_map])
  · refine (nodupKeys_iff_pairwise.mp pt.nodes.nodupKeys).imp fun hne p hp hp' => hne ?_
    simp only [map_map, mem_map] at hp hp'
    obtain ⟨x, -, rfl⟩ := hp
    obtain ⟨y, -, heq⟩ := hp'
    exact (congrArg Prod.fst heq).symm

/-- No trie of groups is empty, and no key is longer than its trie accepts. -/
def GroupTries (strie : Patricia (Patricia β)) : Prop :=
  ∀ k gtrie, strie.nodes.lookup k = some gtrie → k.length ≤ strie.maxbits ∧
    (∃ bits, gtrie.nodes.lookup bits ≠ none) ∧
    ∀ bits, gtrie.nodes.lookup bits ≠ none → bits.length ≤ gtrie.maxbits

/-- The tries of a database that began empty: the outer tries of the IP prefixes have only the
root, and each trie accepts the keys of its family. -/
structure Mdb.Shaped (db : Mdb β) : Prop where
  root : ∀ afi k, (db.ipDb afi).nodes.lookup k ≠ none → k = []
  ip : ∀ afi, ∃ pt, (db.ipDb afi).nodes.lookup [] = some pt ∧ pt.maxbits = afi.bits
  mc : ∀ afi, (getMcPtFromAfi db afi).maxbits = afi.bits ∧ GroupTries (getMcPtFromAfi db afi)

/-- The four tries of the database, in the order of the loop. -/
def Mdb.trie (db : Mdb β) : Bool × Af → Patricia (Patricia β)
  | (false, afi) => db.ipDb afi
  | (true, afi) => getMcPtFromAfi db afi

/-- The key of an entry of one of the tries, and the trie a key belongs to. -/
def trieKey (t : Bool × Af) (p : List Bool × List Bool) : MdbKey :=
  if t.1 then .mc t.2 p.1 p.2 else .ip t.2 p.2

def MdbKey.trie : MdbKey → Bool × Af
  | .ip afi _ => (false, afi)
  | .mc afi _ _ => (true, afi)

theorem trieKey_trie (t : Bool × Af) (p : List Bool × List Bool) : (trieKey t p).trie = t := by
  obtain ⟨_ | _, afi⟩ := t <;> rfl

/-- The entries of the database with their keys. -/
def Mdb.entries (db : Mdb β) : List (MdbKey × β) :=
  [(false, Af.INET), (false, .INET6), (true, .INET), (true, .INET6)].flatMap fun t =>
    (db.trie t).entries2.map fun e => (trieKey t e.1, e.2)

theorem mdbForeachEntry_eq (db : Mdb β) : mdbForeachEntry db = db.entries.map (·.2) := by
  have hpt : ∀ pt : Patricia (Patricia β),
    pt.entries2.map (·.2) = pt.values.flatMap Patricia.values :=
    fun pt => by simp [Patricia.entries2, Patricia.values, map_flatMap, flatMap_map,
      Function.comp_def]
  simp [Mdb.entries, mdbForeachEntry, Mdb.trie, ← hpt, map_map, Function.comp_def, Mdb.ipDb,
    getMcPtFromAfi]

/-- Each key that holds something occurs once among the entries. -/
theorem Mdb.Shaped.entries (h : db.Shaped) : (db.entries.map (·.1)).Nodup ∧
    ∀ k d, (k, d) ∈ db.entries ↔ db.stored k = some d := by
  have hroot : ∀ afi p d, (p, d) ∈ (db.ipDb afi).entries2 → p.1 = [] := by
    intro afi p d hp
    obtain ⟨inner, hin, -⟩ := Option.bind_eq_some_iff.mp (mem_entries2.mp hp)
    exact h.root afi p.1 (by simp [hin])
  constructor
  · rw [Mdb.entries, map_flatMap, nodup_flatMap]
    constructor
    · rintro ⟨mc, afi⟩ -
      rw [map_map]
      refine List.Nodup.map_on (fun e he e' he' heq => ?_) (List.Nodup.of_map _ (nodup_entries2 _))
      refine inj_on_of_nodup_map (nodup_entries2 _) he he' ?_
      cases mc with
      | false =>
        have hbits : e.1.2 = e'.1.2 := by simpa [trieKey] using heq
        exact Prod.ext ((hroot afi e.1 e.2 he).trans (hroot afi e'.1 e'.2 he').symm) hbits
      | true => simpa [trieKey, Prod.ext_iff] using heq
    · refine List.Pairwise.imp (R := (· ≠ ·)) (fun hne k hk hk' => hne ?_) (by decide)
      simp only [map_map, mem_map] at hk hk'
      obtain ⟨e, -, rfl⟩ := hk
      obtain ⟨e', -, heq⟩ := hk'
      have := congrArg MdbKey.trie heq
      simpa [trieKey_trie] using this.symm
  · intro k d
    have htrie : k.trie ∈ [(false, Af.INET), (false, .INET6), (true, .INET), (true, .INET6)] := by
      rcases k with ⟨_ | _, _⟩ | ⟨_ | _, _, _⟩ <;> simp [MdbKey.trie]
    simp only [Mdb.entries, mem_flatMap, mem_map]
    constructor
    · rintro ⟨⟨_ | _, afi⟩, -, ⟨p, d⟩, he, heq⟩ <;> cases heq
      · have hp := hroot afi p d he
        obtain ⟨k, l⟩ := p
        cases hp
        exact mem_entries2.mp he
      · exact mem_entries2.mp he
    · intro hk
      refine ⟨k.trie, htrie, ?_⟩
      cases k with
      | ip afi l => exact ⟨(([], l), d), mem_entries2.mpr hk, rfl⟩
      | mc afi k l => exact ⟨((k, l), d), mem_entries2.mpr hk, rfl⟩

/-- How many entries there are when what is stored changes under one key only. -/
theorem entries_length (h : db.Shaped) (h' : db'.Shaped)
    (hother : ∀ k', k' ≠ k → db'.stored k' = db.stored k') :
    (mdbForeachEntry db').length + (if (db.stored k).isSome then 1 else 0) =
      (mdbForeachEntry db).length + if (db'.stored k).isSome then 1 else 0 := by
  have hmem : ∀ {db : Mdb β}, db.Shaped → ∀ k, k ∈ db.entries.map (·.1) ↔ (db.stored k).isSome := by
    intro db h k
    simp [h.entries.2, Option.isSome_iff_exists]
  -- without the key, the databases have the same keys
  have hlen : ∀ {db : Mdb β}, db.Shaped → (mdbForeachEntry db).length =
      ((db.entries.map (·.1)).erase k).length + if (db.stored k).isSome then 1 else 0 := by
    intro db h
    simp only [length_erase, hmem h, mdbForeachEntry_eq, length_map]
    split_ifs with hk
    · have := length_pos_of_mem ((hmem h k).mpr hk)
      rw [length_map] at this
      omega
    · rfl
  have hperm : ((db'.entries.map (·.1)).erase k).Perm ((db.entries.map (·.1)).erase k) := by
    refine (perm_ext_iff_of_nodup (h'.entries.1.erase k) (h.entries.1.erase k)).mpr fun k' => ?_
    rw [h'.entries.1.mem_erase_iff, h.entries.1.mem_erase_iff, hmem h', hmem h]
    exact and_congr_right fun hne => by rw [hother k' hne]
  rw [hlen h, hlen h', hperm.length_eq]
  omega

/-! ## Counting -/

theorem getMcPtFromAfi_setMcPt (afi : Af) (strie : Patricia (Patricia β)) (n : Int) (afi' : Af) :
    getMcPtFromAfi { db.setMcPt afi strie with nEntries := n } afi' =
      if afi' = afi then strie else getMcPtFromAfi db afi' := by
  cases afi <;> cases afi' <;> rfl

theorem Mdb.Shaped.setIpPt (h : db.Shaped) (hmax : pt.maxbits = afi.bits)
    (n : Int) : ({ db.setIpPt afi pt with nEntries := n } : Mdb β).Shaped := by
  have hip : ∀ afi' k,
    (({ db.setIpPt afi pt with nEntries := n } : Mdb β).ipDb afi').nodes.lookup k =
      if afi' = afi ∧ k = [] then some pt else (db.ipDb afi').nodes.lookup k := by
    intro afi' k
    by_cases hk : k = []
    · subst hk
      cases afi <;> cases afi' <;> simp [Mdb.setIpPt, Mdb.ipDb, lookup_insert]
    · cases afi <;> cases afi' <;> simp [hk, Mdb.setIpPt, Mdb.ipDb, lookup_insert_ne hk]
  refine ⟨fun afi' k hk => ?_, fun afi' => ?_, fun afi' => ?_⟩
  · rw [hip] at hk
    split_ifs at hk with hkey
    · exact hkey.2
    · exact h.root afi' k hk
  · simp only [hip, and_true]
    split_ifs with hafi
    · exact ⟨pt, rfl, hafi ▸ hmax⟩
    · exact h.ip afi'
  · cases afi <;> exact h.mc afi'

theorem Mdb.Shaped.setMcPt (h : db.Shaped) (hs : strie.maxbits = afi.bits ∧ GroupTries strie)
    (n : Int) : ({ db.setMcPt afi strie with nEntries := n } : Mdb β).Shaped := by
  refine ⟨fun afi' k hk => ?_, fun afi' => ?_, fun afi' => ?_⟩
  · cases afi <;> exact h.root afi' k hk
  · cases afi <;> exact h.ip afi'
  · rw [getMcPtFromAfi_setMcPt]
    split_ifs with hafi
    · exact hafi ▸ hs
    · exact h.mc afi'

theorem GroupTries.insert (h : GroupTries strie) {key b : List Bool} {gtrie : Patricia β}
    (hkey : key.length ≤ strie.maxbits) (hne : gtrie.nodes.lookup b ≠ none)
    (hg : ∀ bits, gtrie.nodes.lookup bits ≠ none → bits.length ≤ gtrie.maxbits) :
    GroupTries { strie with nodes := strie.nodes.insert key gtrie } := by
  intro k gtrie' hk
  by_cases heq : k = key
  · rw [heq, lookup_insert] at hk
    cases hk
    exact ⟨heq ▸ hkey, ⟨b, hne⟩, hg⟩
  · exact h k gtrie' (by rwa [lookup_insert_ne heq] at hk)

theorem accepts_ok {pt : Patricia γ} {u : Unit} :
    pt.accepts key = .ok u ↔ key.length ≤ pt.maxbits := by
  unfold Patricia.accepts
  split_ifs with h <;> simp [h]

theorem ptAddNode_maxbits (h : ptAddNode pt a plen d = .ok pt') :
    pt'.maxbits = pt.maxbits ∧ ((ipBits a).take plen.toNat).length ≤ pt.maxbits := by
  simp only [ptAddNode, except_bind_ok, ptMakeIpPrefix_ok, accepts_ok] at h
  obtain ⟨_, ⟨-, rfl⟩, -, hacc, h⟩ := h
  split at h <;> cases h <;> exact ⟨rfl, hacc⟩

/-- Adding a pair: the group goes into the trie of the source, which is made for the first group. -/
theorem ptAddMcAddr_spec (h : ptAddMcAddr strie src grp sp gp d = .ok strie') :
    sp ≤ ipAddrAfiToDefaultMask src ∧ ((ipBits src).take sp.toNat).length ≤ strie.maxbits ∧
      ∃ gtrie, ptAddNode ((strie.nodes.lookup ((ipBits src).take sp.toNat)).getD
        (newPatricia (ipAddrAfiToDefaultMask grp).toNat)) grp gp d = .ok gtrie ∧
        strie' = { strie with nodes := strie.nodes.insert ((ipBits src).take sp.toNat) gtrie } := by
  simp only [ptAddMcAddr, except_bind_ok, ptMakeIpPrefix_ok, accepts_ok, except_pure_ok] at h
  obtain ⟨_, ⟨hsp, rfl⟩, -, hacc, gtrie, hadd, rfl⟩ := h
  exact ⟨hsp, hacc, gtrie, hadd, rfl⟩

theorem ptAddMcAddr_groups (h : ptAddMcAddr strie src grp sp gp d = .ok strie')
    (hs : strie.maxbits = afi.bits ∧ GroupTries strie) :
    strie'.maxbits = afi.bits ∧ GroupTries strie' := by
  obtain ⟨-, hacc, gtrie, hadd, rfl⟩ := ptAddMcAddr_spec h
  refine ⟨hs.1, hs.2.insert (b := (ipBits grp).take gp.toNat) hacc
    (by simp [(ptAddNode_lookup hadd).2]) fun bits hbits => ?_⟩
  rw [(ptAddNode_maxbits hadd).1]
  rw [(ptAddNode_lookup hadd).2] at hbits
  split_ifs at hbits with heq
  · exact heq ▸ (ptAddNode_maxbits hadd).2
  · cases hl : strie.nodes.lookup ((ipBits src).take sp.toNat) with
    | some gtrie0 => exact (hs.2 _ gtrie0 hl).2.2 bits (by simpa [hl] using hbits)
    | none => exact absurd (by simp [hl, newPatricia]) hbits

theorem ptRemoveMcAddr_groups (h : ptRemoveMcAddr strie src grp sp gp = .ok (o, strie'))
    (hs : strie.maxbits = afi.bits ∧ GroupTries strie) :
    strie'.maxbits = afi.bits ∧ GroupTries strie' := by
  simp only [ptRemoveMcAddr, except_bind_ok, accepts_ok] at h
  obtain ⟨key, -, -, hacc, h⟩ := h
  split at h
  · cases h
    exact hs
  · rename_i gtrie hl
    obtain ⟨⟨o', gtrie'⟩, hrm, h⟩ := except_bind_ok.mp h
    split at h
    · cases h
      exact hs
    · split_ifs at h with hempty
      · cases h
        refine ⟨hs.1, fun k gt hk => ?_⟩
        by_cases heq : k = key
        · rw [heq, lookup_erase] at hk
          cases hk
        · exact hs.2 k gt (by rwa [lookup_erase_ne heq] at hk)
      · cases h
        obtain ⟨e, rest, he⟩ := exists_cons_of_ne_nil (by simpa using hempty)
        have hmem : (⟨e.1, e.2⟩ : Sigma fun _ => β) ∈ gtrie'.nodes.entries := by simp [he]
        refine ⟨hs.1, hs.2.insert (b := e.1) hacc (by simp [lookup_eq_some_iff.mpr hmem])
          fun bits hbits => ?_⟩
        simp only [ptRemoveIppref, except_bind_ok, except_pure_ok] at hrm
        obtain ⟨key', -, -, -, hrm⟩ := hrm
        obtain ⟨-, rfl⟩ := Prod.mk.inj hrm
        refine (hs.2 key gtrie hl).2.2 bits fun hnone => hbits ?_
        by_cases heq : bits = key'
        · rw [heq, lookup_erase]
        · rw [lookup_erase_ne heq, hnone]

theorem ptRemoveIppref_maxbits
    (h : ptRemoveIppref pt a plen = .ok (o, pt')) : pt'.maxbits = pt.maxbits := by
  simp only [ptRemoveIppref, except_bind_ok, except_pure_ok, Prod.mk.injEq] at h
  obtain ⟨_, -, -, -, -, rfl⟩ := h
  rfl

theorem Mdb.Shaped.ipMax (h : db.Shaped) (hpt : getIpPtFromAfi db afi = .ok pt) :
    pt.maxbits = afi.bits := by
  obtain ⟨pt', hpt', hmax⟩ := h.ip afi
  cases hpt'.symm.trans (getIpPtFromAfi_ok.mp hpt)
  exact hmax

theorem mdbAddEntry_count (h : mdbAddEntry db addr d = .ok (ret, db'))
    (hshape : db.Shaped) : db'.Shaped ∧ (ret = .GOOD → db'.nEntries = db.nEntries + 1) := by
  unfold mdbAddEntry at h
  split at h
  · simp only [except_bind_ok, except_pure_ok] at h
    obtain ⟨pt, hpt, pt', hadd, h⟩ := h
    cases h
    exact ⟨hshape.setIpPt ((ptAddNode_maxbits hadd).1.trans (hshape.ipMax hpt)) _, fun _ => rfl⟩
  · simp only [except_bind_ok, except_pure_ok] at h
    obtain ⟨strie, hadd, h⟩ := h
    cases h
    exact ⟨hshape.setMcPt (ptAddMcAddr_groups hadd (hshape.mc _)) _, fun _ => rfl⟩
  · cases h
    exact ⟨hshape, by simp⟩

theorem Mdb.countRemoved_count (o : Option β) :
    (db.countRemoved o).nEntries = db.nEntries - if o.isSome then 1 else 0 := by
  unfold Mdb.countRemoved
  split_ifs <;> simp

/-- A removal counts one entry less if it returns one. -/
theorem mdbRemoveEntry_count (h : mdbRemoveEntry db addr = .ok (o, db')) (hshape : db.Shaped) :
    db'.Shaped ∧ db'.nEntries = db.nEntries - if o.isSome then 1 else 0 := by
  have hn : ∀ afi pt, (db.setIpPt afi pt).nEntries = db.nEntries := by rintro (_ | _) pt <;> rfl
  have hn' : ∀ afi st, (db.setMcPt afi st).nEntries = db.nEntries := by rintro (_ | _) st <;> rfl
  unfold mdbRemoveEntry at h
  split at h
  -- an address and a prefix
  iterate 2
    · simp only [except_bind_ok, except_pure_ok, Prod.mk.injEq] at h
      obtain ⟨pt, hpt, ⟨data, pt'⟩, hrm, rfl, rfl⟩ := h
      rw [Mdb.countRemoved_count, hn, Mdb.countRemoved_eq]
      exact ⟨hshape.setIpPt ((ptRemoveIppref_maxbits hrm).trans (hshape.ipMax hpt)) _, rfl⟩
  · simp only [except_bind_ok, except_pure_ok, Prod.mk.injEq] at h
    obtain ⟨⟨data, strie⟩, hrm, rfl, rfl⟩ := h
    rw [Mdb.countRemoved_count, hn', Mdb.countRemoved_eq]
    exact ⟨hshape.setMcPt (ptRemoveMcAddr_groups hrm (hshape.mc _)) _, rfl⟩
  · cases h
    exact ⟨hshape, by simp⟩

/-- The call adds under a key that is taken. -/
def MdbCall.Taken (db : Mdb β) (c : MdbCall β) : Prop :=
  ∃ addr d k, c = .add addr d ∧ (∀ a, addr ≠ .ip a) ∧ mdbKey addr = some k ∧ db.stored k ≠ none

/-- Nothing is added under a key that is taken. -/
def FreeAdds : Mdb β → List (MdbCall β) → Prop
  | _, [] => True
  | db, c :: rest => ¬ c.Taken db ∧ ∀ db', c.onMdb db = .ok db' → FreeAdds db' rest

theorem mdbAddEntry_good (h : mdbAddEntry db addr d = .ok (ret, db'))
    (hip : ∀ a, addr ≠ .ip a) (hk : mdbKey addr = some k) : ret = .GOOD := by
  unfold mdbKey at hk
  split at hk
  · exact absurd rfl (hip _)
  · obtain ⟨_, -, h⟩ := except_bind_ok.mp h
    obtain ⟨_, -, h⟩ := except_bind_ok.mp h
    exact congrArg Prod.fst (except_pure_ok.mp h)
  · obtain ⟨_, -, h⟩ := except_bind_ok.mp h
    exact congrArg Prod.fst (except_pure_ok.mp h)
  · cases hk

/-- By how much the count exceeds the number of entries. -/
def Mdb.excess (db : Mdb β) : Int :=
  db.nEntries - (mdbForeachEntry db).length

/-- One call: only an addition under a taken key changes the excess. -/
theorem MdbCall.excess {c : MdbCall β} (h : db.Shaped) (hcall : c.onMdb db = .ok db') :
    db'.Shaped ∧ (¬ c.Taken db ∧ db'.excess = db.excess ∨
      c.Taken db ∧ db'.excess = db.excess + 1) := by
  cases c with
  | add addr d =>
    simp only [MdbCall.onMdb, except_bind_ok, except_pure_ok] at hcall
    obtain ⟨⟨ret, db1⟩, hadd, rfl⟩ := hcall
    obtain ⟨hshape, hcount⟩ := mdbAddEntry_count hadd h
    refine ⟨hshape, ?_⟩
    by_cases hret : ret = .GOOD
    · subst hret
      obtain ⟨k, hk, hst⟩ := mdbAddEntry_stored hadd
      have hip : ∀ a, addr ≠ .ip a := by
        rintro a rfl
        cases hadd
      have htaken : (MdbCall.add addr d).Taken db ↔ db.stored k ≠ none := by
        refine ⟨?_, fun hne => ⟨addr, d, k, rfl, hip, hk, hne⟩⟩
        rintro ⟨_, _, k', heq, -, hk', hne⟩
        cases heq
        cases hk.symm.trans hk'
        exact hne
      have hlen := entries_length h hshape (k := k) fun k' hne => by rw [hst, if_neg hne]
      rw [hst, if_pos rfl, Option.isSome_some, if_pos rfl] at hlen
      rw [htaken, Mdb.excess, Mdb.excess, hcount rfl]
      cases hv : db.stored k with
      | none =>
        simp only [hv, Option.isSome_none, Bool.false_eq_true, if_false] at hlen
        exact .inl ⟨by simp, by omega⟩
      | some v =>
        simp only [hv, Option.isSome_some, if_true] at hlen
        exact .inr ⟨by simp, by omega⟩
    · rw [mdbAddEntry_bad hadd hret]
      refine .inl ⟨?_, rfl⟩
      rintro ⟨_, _, k, heq, hip, hk, -⟩
      cases heq
      exact hret (mdbAddEntry_good hadd hip hk)
  | remove addr =>
    simp only [MdbCall.onMdb, except_bind_ok, except_pure_ok] at hcall
    obtain ⟨⟨o, db1⟩, hrm, rfl⟩ := hcall
    obtain ⟨hshape, hcount⟩ := mdbRemoveEntry_count hrm h
    have hno : ¬ (MdbCall.remove addr).Taken db := by
      rintro ⟨_, _, _, heq, -⟩
      cases heq
    refine ⟨hshape, .inl ⟨hno, ?_⟩⟩
    rw [Mdb.excess, Mdb.excess, hcount]
    obtain ⟨-, rfl, hst⟩ | ⟨k, -, rfl, hst⟩ := mdbRemoveEntry_stored hrm
    · have hlen := entries_length h hshape (k := .ip .INET []) fun k' _ => hst k'
      rw [hst] at hlen
      rw [Nat.add_right_cancel hlen]
      simp
    · have hlen := entries_length h hshape (k := k) fun k' hne => by rw [hst, if_neg hne]
      rw [hst, if_pos rfl] at hlen
      simp only [Option.isSome_none, Bool.false_eq_true, if_false] at hlen
      split_ifs at hlen ⊢ <;> omega

/-- Any calls: the excess never falls, and stays exactly if all additions are under free keys. -/
theorem mdbCalls_excess : ∀ {calls : List (MdbCall β)} {db db' : Mdb β}, db.Shaped →
    mdbCalls db calls = .ok db' →
      db'.Shaped ∧ db.excess ≤ db'.excess ∧ (db'.excess = db.excess ↔ FreeAdds db calls)
  | [], _, _, hshape, h => by
    cases h
    exact ⟨hshape, Int.le_refl _, by simp [FreeAdds]⟩
  | c :: calls, db, db', hshape, h => by
    obtain ⟨db1, hc, h⟩ := except_bind_ok.mp h
    obtain ⟨hshape1, hone⟩ := MdbCall.excess hshape hc
    obtain ⟨hshape', hle, hiff⟩ := mdbCalls_excess hshape1 h
    have hfree : FreeAdds db (c :: calls) ↔ ¬ c.Taken db ∧ FreeAdds db1 calls := by
      simp [FreeAdds, hc]
    rw [hfree, ← hiff]
    obtain ⟨hno, heq⟩ | ⟨htaken, heq⟩ := hone
    · exact ⟨hshape', by omega, by simp [hno, heq]⟩
    · exact ⟨hshape', by omega, ⟨fun h => by omega, fun h => absurd htaken h.1⟩⟩

/-! ## Multicast pairs -/

/-- The group prefixes stored under a source prefix. -/
def Mdb.groups (db : Mdb β) (afi : Af) (srcBits : List Bool) : UnicastMap β :=
  fun _ bits => db.stored (.mc afi srcBits bits)

theorem UnicastMap.IsBest.unique : ∀ {o o' : Option β}, u.IsBest a o → u.IsBest a o' → o = o'
  | none, none, _, _ => rfl
  | none, some _, h, ⟨bits, hbits, hv, _⟩ => by rw [h bits hbits] at hv; cases hv
  | some _, none, ⟨bits, hbits, hv, _⟩, h => by rw [h bits hbits] at hv; cases hv
  | some v, some w, ⟨b, hb, hv, hmax⟩, ⟨c, hc, hw, hmax'⟩ => by
    rcases lt_trichotomy b.length c.length with hlt | heq | hlt
    · rw [hmax c hc hlt] at hw
      cases hw
    · rw [← hv, ← hw, prefix_iff_eq_take.mp hb, prefix_iff_eq_take.mp hc, heq]
    · rw [hmax' b hb hlt] at hv
      cases hv

/-- The longest group address that the trie of a source accepts, where it has one. -/
def Mdb.groupBits (db : Mdb β) (afi : Af) (srcBits : List Bool) : Nat :=
  (((getMcPtFromAfi db afi).nodes.lookup srcBits).map (·.maxbits)).getD 128

theorem ptFindIpNode_groups_iff : (match (getMcPtFromAfi db afi).nodes.lookup key with
      | none => pure none
      | some gtrie => ptFindIpNode gtrie grp : Except Fault (Option β)) = .ok o ↔
    (ipBits grp).length ≤ db.groupBits afi key ∧ (db.groups afi key).IsBest grp o := by
  cases hg : (getMcPtFromAfi db afi).nodes.lookup key with
  | none =>
    have hbest : (db.groups afi key).IsBest grp none := by
      intro bits _
      simp [Mdb.groups, Mdb.stored, Patricia.at2, hg]
    have hlen : (ipBits grp).length ≤ db.groupBits afi key := by
      cases grp <;> simp [Mdb.groupBits, hg, ipAddrAfiToDefaultMask]
    simp only [except_pure_ok, hlen, true_and]
    exact ⟨fun ho => ho ▸ hbest, fun ho => ho.unique hbest⟩
  | some gtrie =>
    have hbest : (db.groups afi key).IsBest grp (gtrie.nodes.best (ipBits grp)) :=
      UnicastMap.isBest_best fun bits => by simp [Mdb.groups, Mdb.stored, Patricia.at2, hg]
    simp only [ptFindIpNode, except_bind_ok, ptMakeIpPrefix_ok, accepts_ok, except_pure_ok]
    constructor
    · rintro ⟨_, ⟨-, rfl⟩, -, hacc, rfl⟩
      rw [take_default_mask] at hacc ⊢
      exact ⟨by simpa [Mdb.groupBits, hg] using hacc, hbest⟩
    · rintro ⟨hacc, ho⟩
      refine ⟨_, ⟨UInt8.le_refl _, rfl⟩, (), ?_, ?_⟩
      · simpa [Mdb.groupBits, hg] using hacc
      · rw [take_default_mask]
        exact ho.unique hbest

/-- The exact lookup of a pair finds the longest match of the group. -/
theorem mdbLookupEntryExact_mc_iff :
    mdbLookupEntryExact db (.mc sp gp iid (.ip src) (.ip grp)) = .ok o ↔
      sp ≤ ipAddrAfiToDefaultMask src ∧
      ((ipBits src).take sp.toNat).length ≤ (getMcPtFromAfi db (ipAddrAfi grp)).maxbits ∧
      (ipBits grp).length ≤ db.groupBits (ipAddrAfi grp) ((ipBits src).take sp.toNat) ∧
      (db.groups (ipAddrAfi grp) ((ipBits src).take sp.toNat)).IsBest grp o := by
  simp only [mdbLookupEntryExact, findNode, ptFindMcNode, if_true, ptFindIpNodeExact,
    except_bind_ok, ptMakeIpPrefix_ok, accepts_ok, except_pure_ok]
  constructor
  · rintro ⟨_, ⟨_, ⟨hsp, rfl⟩, -, hacc, rfl⟩, h⟩
    exact ⟨hsp, hacc, ptFindIpNode_groups_iff.mp h⟩
  · rintro ⟨hsp, hacc, h⟩
    exact ⟨_, ⟨_, ⟨hsp, rfl⟩, (), hacc, rfl⟩, ptFindIpNode_groups_iff.mpr h⟩

/-- Where nothing longer than a key changes, neither does a match that is longer. -/
theorem UnicastMap.IsBest.congr {u u' : UnicastMap β} {n : Nat} {bits0 : List Bool}
    (hsame : ∀ bits, n < bits.length → u' (ipAddrAfi a) bits = u (ipAddrAfi a) bits)
    (hcov : bits0 <+: ipBits a) (hlt : n < bits0.length) (hst : u (ipAddrAfi a) bits0 ≠ none)
    (h : u.IsBest a (some d)) : u'.IsBest a (some d) := by
  obtain ⟨bits, hbits, hv, hmax⟩ := h
  have hlen : n < bits.length := by
    by_contra hle
    exact hst (hmax bits0 hcov (by omega))
  refine ⟨bits, hbits, by rw [hsame bits hlen, hv], fun bits' hbits' hlt' => ?_⟩
  rw [hsame bits' (by omega), hmax bits' hbits' hlt']

/-- The pair is where the lookup goes, and no longer group prefix under its source hides it. -/
def Exposed (db : Mdb β) (sp gp : UInt8) (src grp : IpAddr) : Prop :=
  ipAddrAfi src = ipAddrAfi grp ∧ ∀ bits, bits <+: ipBits grp →
    ((ipBits grp).take gp.toNat).length < bits.length →
      db.stored (.mc (ipAddrAfi src) ((ipBits src).take sp.toNat) bits) = none

/-- What an addition must find so that the exact lookup afterwards tells whether it succeeded: a
free key, or one that holds the same data. A pair that is not exposed must be hidden by that data,
and the trie of its source must be one for groups of its family. -/
def AddsExactly (db : Mdb β) (d : β) : LispAddr → Prop
  | .ip a => db.stored (.ip (ipAddrAfi a) (ipBits a)) ≠ some d
  | .ippref a plen => db.stored (.ip (ipAddrAfi a) ((ipBits a).take plen.toNat)) ∈ [none, some d]
  | .mc sp gp _ (.ip src) (.ip grp) =>
    (ipBits grp).length ≤ db.groupBits (ipAddrAfi grp) ((ipBits src).take sp.toNat) ∧
    (Exposed db sp gp src grp → db.stored (.mc (ipAddrAfi src) ((ipBits src).take sp.toNat)
      ((ipBits grp).take gp.toNat)) ∈ [none, some d]) ∧
    (¬ Exposed db sp gp src grp →
      (db.groups (ipAddrAfi grp) ((ipBits src).take sp.toNat)).IsBest grp (some d))
  | _ => True

theorem getD_eq_iff : some (o.getD d) = some d ↔ o ∈ [none, some d] := by
  cases o <;> simp

/-- The longest match of a group after a pair with it was added. -/
theorem added_mc_iff
    (hst : ∀ k', db'.stored k' = if k' =
      .mc (ipAddrAfi src) ((ipBits src).take sp.toNat) ((ipBits grp).take gp.toNat)
      then some ((db.stored (.mc (ipAddrAfi src) ((ipBits src).take sp.toNat)
      ((ipBits grp).take gp.toNat))).getD d) else db.stored k') :
    (db'.groups (ipAddrAfi grp) ((ipBits src).take sp.toNat)).IsBest grp (some d) ↔
      (Exposed db sp gp src grp → db.stored (.mc (ipAddrAfi src) ((ipBits src).take sp.toNat)
        ((ipBits grp).take gp.toNat)) ∈ [none, some d]) ∧
      (¬ Exposed db sp gp src grp →
        (db.groups (ipAddrAfi grp) ((ipBits src).take sp.toNat)).IsBest grp (some d)) := by
  by_cases hexp : Exposed db sp gp src grp
  · simp only [hexp, true_imp_iff, not_true, false_imp_iff, and_true]
    obtain ⟨hfam, hlong⟩ := hexp
    simp only [hfam] at hst hlong ⊢
    have hkey : (db'.groups (ipAddrAfi grp) ((ipBits src).take sp.toNat)).IsBest grp
        (some ((db.stored (.mc (ipAddrAfi grp) ((ipBits src).take sp.toNat)
          ((ipBits grp).take gp.toNat))).getD d)) := by
      refine ⟨_, take_prefix gp.toNat _, by simp [Mdb.groups, hst], fun bits hbits hlt => ?_⟩
      rw [Mdb.groups, hst, if_neg, hlong bits hbits hlt]
      exact fun heq => lt_irrefl _ ((MdbKey.mc.inj heq).2.2 ▸ hlt)
    rw [← getD_eq_iff]
    exact ⟨hkey.unique, fun heq => heq ▸ hkey⟩
  · simp only [hexp, false_imp_iff, true_and, not_false_iff, true_imp_iff]
    by_cases hfam : ipAddrAfi src = ipAddrAfi grp
    · simp only [Exposed, hfam, true_and, not_forall] at hexp
      obtain ⟨bits, hbits, hlt, hne⟩ := hexp
      have hsame : ∀ bits', ((ipBits grp).take gp.toNat).length < bits'.length →
          db'.stored (.mc (ipAddrAfi grp) ((ipBits src).take sp.toNat) bits') =
            db.stored (.mc (ipAddrAfi grp) ((ipBits src).take sp.toNat) bits') := by
        intro bits' hlt'
        rw [hst, if_neg]
        exact fun heq => lt_irrefl _ ((MdbKey.mc.inj heq).2.2 ▸ hlt')
      have hne' : db'.groups (ipAddrAfi grp) ((ipBits src).take sp.toNat)
        (ipAddrAfi grp) bits ≠ none := by
        rwa [Mdb.groups, hsame bits hlt]
      exact ⟨.congr (fun b h => (hsame b h).symm) hbits hlt hne', .congr hsame hbits hlt hne⟩
    · have hsame : db'.groups (ipAddrAfi grp) ((ipBits src).take sp.toNat) =
          db.groups (ipAddrAfi grp) ((ipBits src).take sp.toNat) := by
        funext _ bits
        rw [Mdb.groups, hst, if_neg (by simp [Ne.symm hfam]), Mdb.groups]
      rw [hsame]

/-- Where the group's family has a source, its key fits the tries of that family. -/
theorem Mdb.Shaped.source_length (h : db.Shaped) {key bits : List Bool}
    (hst : db.stored (.mc afi key bits) ≠ none) : key.length ≤ afi.bits := by
  cases hl : (getMcPtFromAfi db afi).nodes.lookup key with
  | none => exact absurd (by simp [Mdb.stored, Patricia.at2, hl]) hst
  | some gtrie => exact (h.mc afi).1 ▸ ((h.mc afi).2 key gtrie hl).1

/-- The exact lookup of a pair after it was added. -/
theorem mdbAddEntry_mc_iff (h : db.Shaped)
    (hadd : mdbAddEntry db (.mc sp gp iid (.ip src) (.ip grp)) d = .ok (.GOOD, db')) :
    mdbLookupEntryExact db' (.mc sp gp iid (.ip src) (.ip grp)) = .ok (some d) ↔
      AddsExactly db d (.mc sp gp iid (.ip src) (.ip grp)) := by
  obtain ⟨_, hk, hst⟩ := mdbAddEntry_stored hadd
  cases hk
  have h' := (mdbAddEntry_count hadd h).1
  simp only [mdbAddEntry, except_bind_ok, except_pure_ok] at hadd
  obtain ⟨strie, hmc, hdb⟩ := hadd
  obtain ⟨hsp, hacc, gtrie, hg, rfl⟩ := ptAddMcAddr_spec hmc
  have hbits : (ipBits grp).length ≤ db'.groupBits (ipAddrAfi grp) ((ipBits src).take sp.toNat) ↔
      (ipBits grp).length ≤ db.groupBits (ipAddrAfi grp) ((ipBits src).take sp.toNat) := by
    rw [(Prod.mk.inj hdb).2, Mdb.groupBits, getMcPtFromAfi_setMcPt, Mdb.groupBits]
    split_ifs with hfam
    · rw [hfam, lookup_insert, Option.map_some, Option.getD_some, (ptAddNode_maxbits hg).1]
      cases (getMcPtFromAfi db (ipAddrAfi src)).nodes.lookup ((ipBits src).take sp.toNat) with
      | some gtrie0 => rfl
      | none => cases grp <;> simp [newPatricia, ipAddrAfiToDefaultMask]
    · rfl
  rw [mdbLookupEntryExact_mc_iff, AddsExactly, hbits, added_mc_iff hst]
  refine ⟨fun hl => hl.2.2, fun hl => ⟨hsp, ?_, hl⟩⟩
  rw [(h'.mc _).1]
  by_cases hfam : ipAddrAfi src = ipAddrAfi grp
  · rw [← hfam, ← (h.mc _).1]
    exact hacc
  · -- The pair went to the other family, so that what is found was there.
    obtain ⟨bits, -, hv, -⟩ := hl.2.2 fun hexp => hfam hexp.1
    exact h.source_length (by rw [show db.stored _ = some d from hv]; simp)

theorem mdbNew_shaped : (mdbNew : Mdb β).Shaped := by
  have hroot : ∀ (pt : Patricia β) k,
    (AList.singleton [] pt : PrefixMap _).lookup k ≠ none → k = [] := by
    intro pt k hk
    by_contra hne
    exact hk (AList.lookup_eq_none.mpr (by simpa [AList.mem_keys] using hne))
  refine ⟨?_, mdbNew_sized.ip, fun afi => ⟨mdbNew_sized.mc afi, fun k gtrie hk => ?_⟩⟩
  · rintro (_ | _) k hk
    · exact hroot _ k hk
    · exact hroot _ k hk
  · cases afi <;> cases hk

/-- In a database after any calls, an addition tells by its result whether the exact lookup
afterwards finds the data, exactly under `AddsExactly`. The loop visits each stored entry once, and
as many as are counted exactly if all additions were under free keys. -/
theorem database_entries_iff (calls : List (MdbCall β)) (db : Mdb β)
    (hcalls : mdbCalls mdbNew calls = .ok db) :
    (∀ addr d ret db', mdbAddEntry db addr d = .ok (ret, db') →
      ((ret = .GOOD ↔ mdbLookupEntryExact db' addr = .ok (some d)) ∧ (ret ≠ .GOOD → db' = db) ↔
        AddsExactly db d addr)) ∧
    (∃ entries : List (MdbKey × β), mdbForeachEntry db = entries.map (·.2) ∧
      (entries.map (·.1)).Nodup ∧ ∀ k d, (k, d) ∈ entries ↔ db.stored k = some d) ∧
    (db.nEntries = (mdbForeachEntry db).length ↔ FreeAdds mdbNew calls) := by
  obtain ⟨hr, -, hexcess⟩ := mdbCalls_excess mdbNew_shaped hcalls
  refine ⟨fun addr d ret db' hadd => ?_, ⟨db.entries, mdbForeachEntry_eq db, hr.entries⟩,
    Int.sub_eq_zero.symm.trans hexcess⟩
  refine (and_iff_left (mdbAddEntry_bad hadd)).trans ?_
  by_cases hret : ret = .GOOD
  · subst hret
    have hr' := (mdbAddEntry_count hadd hr).1
    simp only [true_iff]
    obtain ⟨k, hk, hst⟩ := mdbAddEntry_stored hadd
    unfold mdbKey at hk
    split at hk
    · cases hadd
    · cases hk
      obtain ⟨_, -, hadd⟩ := except_bind_ok.mp hadd
      obtain ⟨_, hnode, -⟩ := except_bind_ok.mp hadd
      rw [mdbLookupEntryExact_stored (hr'.ip _) (ptAddNode_lookup hnode).1, hst, if_pos rfl,
        Except.ok.injEq, getD_eq_iff]
      rfl
    · exact mdbAddEntry_mc_iff hr hadd
    · cases hk
  · obtain rfl := mdbAddEntry_bad hadd hret
    simp only [hret, false_iff]
    unfold AddsExactly
    split
    · rename_i a
      have hfull := mdbLookupEntryExact_stored (hr.ip (ipAddrAfi a)) (UInt8.le_refl _)
      rw [take_default_mask] at hfull
      rw [show mdbLookupEntryExact db' (.ip a) = _ from hfull, Except.ok.injEq]
    · exact absurd (mdbAddEntry_good hadd (fun _ => by simp) rfl) hret
    · exact absurd (mdbAddEntry_good hadd (fun _ => by simp) rfl) hret
    · rename_i hip hpref hmc
      have hnone : mdbLookupEntryExact db' addr = .ok none := by
        unfold mdbLookupEntryExact findNode
        split <;> simp_all
        exact absurd rfl (hmc _ _ _ _ _ rfl rfl rfl rfl)
      simp [hnone]

/-- A prefix and a pair are added, and then another prefix. -/
def labAdds : List (MdbCall Nat) :=
  [.add (.ippref (.v4 0x0a000000) 8) 1,
    .add (.mc 8 4 0 (.ip (.v4 0x0a000000)) (.ip (.v4 0xe0000000))) 2]

theorem database_entries_two : ∃ db db' : Mdb Nat, mdbCalls mdbNew labAdds = .ok db ∧
    mdbAddEntry db (.ippref (.v4 0x0a010000) 16) 3 = .ok (.GOOD, db') ∧
    AddsExactly db 3 (.ippref (.v4 0x0a010000) 16) ∧
    mdbLookupEntryExact db' (.ippref (.v4 0x0a010000) 16) = .ok (some 3) ∧
    db.nEntries = 2 ∧ mdbForeachEntry db = [1, 2] ∧ FreeAdds mdbNew labAdds := by
  obtain ⟨db, hdb, hfree, hcount, hall, db', hadd⟩ : ∃ db : Mdb Nat,
      mdbCalls mdbNew labAdds = .ok db ∧
      db.stored (.ip .INET ((ipBits (.v4 0x0a010000)).take 16)) = none ∧ db.nEntries = 2 ∧
      mdbForeachEntry db = [1, 2] ∧
      ∃ db', mdbAddEntry db (.ippref (.v4 0x0a010000) 16) 3 = .ok (.GOOD, db') :=
    ⟨_, rfl, by decide +kernel, rfl, by decide +kernel, _, rfl⟩
  obtain ⟨hexact, -, hfreeAdds⟩ := database_entries_iff labAdds db hdb
  have hadds : AddsExactly db 3 (.ippref (.v4 0x0a010000) 16) := mem_cons.mpr (.inl hfree)
  refine ⟨db, db', hdb, hadd, hadds, ((hexact _ _ _ _ hadd).mpr hadds).1.mp rfl, hcount, hall,
    hfreeAdds.mp ?_⟩
  rw [hcount, hall]
  rfl

/-- A second addition under the same key is counted and stores nothing. -/
theorem database_entries_fails : ∃ db db' : Mdb Nat,
    mdbCalls mdbNew [.add (.ippref (.v4 0x0a000000) 8) 1] = .ok db ∧
      mdbAddEntry db (.ippref (.v4 0x0a000000) 8) 2 = .ok (.GOOD, db') ∧
      mdbLookupEntryExact db' (.ippref (.v4 0x0a000000) 8) = .ok (some 1) ∧
      db'.nEntries = 2 ∧ mdbForeachEntry db' = [1] :=
  ⟨_, _, rfl, rfl, rfl, rfl, rfl⟩

/-! ## Two levels of matching -/

end Entries

end Lispmob
