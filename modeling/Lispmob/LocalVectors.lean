import Lispmob.CacheVectors
import Lispmob.IfEvents

/-!
# The vectors of the local entries

An interface event changes locators of local mappings. `LocalCurrent` says that the local entries
have current vectors, but for a set of them that is still to be recomputed, and that their mappings
are tidy and linked to the interfaces their locators depend on.

A new status marks the entries of the interface and computes their vectors again. A new address of
the interface does not: vectors are computed again only when a locator had no address before. For a
locator that is alone in its list the vectors do not depend on the address, and so they stay right.
-/

namespace Lispmob

open Prog List

section LocalVectors

variable {pktTupleHash : PacketTuple → UInt32} {nonces : Nat → Nonce}
  {hmac : Hmac} {env : CtrlEnv} {rlocs : List LispAddr}
  {dirty : Nat → Prop} {s s' s1 s2 : FbXtr} {loc : Nat} {mle : Nat} {u : Unit}
  {f : Locator → Locator} {a : IpAddr} {ml : MapLocalEntry BalancingLocatorsVecs}
  {ifl : IfaceLocators} {status : LinkState} {locs : List Nat} {loct : Locator} {m : Mapping}
  {ret : Ret}

/-- The vectors of the local entries that are not `dirty` are current. All of them have tidy
mappings and are linked to the interfaces of their locators. -/
structure LocalCurrent (rlocs : List LispAddr) (dirty : Nat → Prop)
    (s : FbXtr) : Prop where
  current : ∀ l ml, s.mles.cell l = some ml → ¬ dirty l → Current rlocs ml.mapping ml.fwdInfo
  tidy : ∀ l ml, s.mles.cell l = some ml → Tidy ml.mapping
  linked : ∀ k ∈ s.links, ∀ loc ∈ k.2, ∀ l ml, s.mles.cell l = some ml →
    loc ∈ ml.mapping.ptrs → l ∈ k.1

/-- The vectors of all local entries are current. -/
abbrev AllCurrent (rlocs : List LispAddr) (s : FbXtr) : Prop :=
  LocalCurrent rlocs (fun _ => False) s

theorem localCurrent_iff : LocalCurrent rlocs dirty s ↔ s.mles.All fun l ml =>
    (¬ dirty l → Current rlocs ml.mapping ml.fwdInfo) ∧ Tidy ml.mapping ∧
      ∀ k ∈ s.links, ∀ loc ∈ k.2, loc ∈ ml.mapping.ptrs → l ∈ k.1 :=
  ⟨fun h l ml hl => ⟨h.current l ml hl, h.tidy l ml hl, fun k hk loc hloc =>
    h.linked k hk loc hloc l ml hl⟩, fun h => ⟨fun l ml hl => (h l ml hl).1, fun l ml hl =>
      (h l ml hl).2.1, fun k hk loc hloc l ml hl => (h l ml hl).2.2 k hk loc hloc⟩⟩

theorem LocalCurrent.of_same (h : LocalCurrent rlocs dirty s)
    (hmles : ∀ l, s'.mles.cell l = s.mles.cell l) (hlinks : s'.links = s.links) :
    LocalCurrent rlocs dirty s' := by
  simpa only [localCurrent_iff, Heap.All, hmles, hlinks] using h

theorem LocalCurrent.of_upkeep (h : LocalCurrent rlocs dirty s) (hs : Upkeep rlocs s s') :
    LocalCurrent rlocs dirty s' :=
  h.of_same (fun l => by rw [hs.mles]) hs.links

theorem LocalCurrent.mono {dirty' : Nat → Prop} (h : LocalCurrent rlocs dirty s)
    (hd : ∀ l, dirty l → dirty' l) : LocalCurrent rlocs dirty' s :=
  ⟨fun l ml hl hn => h.current l ml hl fun hdl => hn (hd l hdl), h.tidy, h.linked⟩

/-! ## Computing the vectors again -/

/-- `updated_map_loc_inf` of the flow-balancing policy. -/
theorem updatedMapLocInf_eq
    (h : (updatedMapLocInf (fbWorld pktTupleHash nonces hmac) env mle).run s = .ok (u, s')) :
    ∃ ml v, s.mles.cell mle = some ml ∧ balancingVectorsCalculate env.rlocs ml.mapping = .ok v ∧
      s' = { s with mles := s.mles.modify mle fun e => { e with fwdInfo := some v } } := by
  simp only [updatedMapLocInf, bind_ok, derefMle_ok, lift_ok, modify_ok] at h
  obtain ⟨ml, _, ⟨hml, rfl⟩, info, _, ⟨hinfo, rfl⟩, -, rfl⟩ := h
  simp only [fbWorld, fwdPolicyFlowBalancing, updatedVectors] at hinfo
  split at hinfo
  · cases hinfo
  · obtain ⟨v, hv, rfl⟩ := except_map_ok.mp hinfo
    exact ⟨ml, v, hml, hv, rfl⟩

theorem updatedMapLocInf_current (hcur : LocalCurrent env.rlocs dirty s)
    (h : (updatedMapLocInf (fbWorld pktTupleHash nonces hmac) env mle).run s = .ok (u, s')) :
    LocalCurrent env.rlocs (fun l => dirty l ∧ l ≠ mle) s' := by
  obtain ⟨ml, v, hml, hv, rfl⟩ := updatedMapLocInf_eq h
  refine localCurrent_iff.mpr fun l ml' hl => ?_
  simp only [Heap.modify_cell] at hl
  split_ifs at hl with heq
  · rw [hml] at hl
    cases hl
    exact ⟨fun _ => ⟨v, rfl, hv⟩, heq ▸ (localCurrent_iff.mp hcur mle ml hml).2⟩
  · obtain ⟨hc, hrest⟩ := localCurrent_iff.mp hcur l ml' hl
    exact ⟨fun hd => hc fun hdl => hd ⟨hdl, heq⟩, hrest⟩

/-- A loop that computes the vectors of all dirty entries again. -/
theorem updatedMapLocInf_all {mles : List Nat} (hcur : LocalCurrent env.rlocs (· ∈ mles) s)
    (h : (mles.forM (updatedMapLocInf (fbWorld pktTupleHash nonces hmac) env)).run s =
      .ok (u, s')) : AllCurrent env.rlocs s' := by
  refine (forM_induct (I := fun mles => LocalCurrent env.rlocs (· ∈ mles)) (fun hx h1 => ?_) hcur
    h).mono fun l hl => by simp at hl
  refine (updatedMapLocInf_current hx h1).mono ?_
  rintro l ⟨hl, hne⟩
  exact (mem_cons.mp hl).resolve_left hne

/-! ## Changing a locator in place -/

/-- A locator that is not in the mapping is not changed. -/
theorem Mapping.mapLocator_eq_self (h : loc ∉ m.ptrs) : m.mapLocator loc f = m := by
  have hlists : (m.locatorsLists.map fun l =>
      l.map fun loct => if loct.ptr = loc then f loct else loct) = m.locatorsLists := by
    conv_rhs => rw [← map_id m.locatorsLists]
    refine map_congr_left fun l hl => ?_
    conv_rhs => rw [id, ← map_id l]
    refine map_congr_left fun x hx => if_neg fun hxp => h ?_
    exact mem_map.mpr ⟨x, mem_flatten.mpr ⟨l, hl, hx⟩, hxp⟩
  rw [Mapping.mapLocator, hlists]

/-- The loop of a change in place, over entries that differ. -/
theorem mapLocator_loop :
    ∀ {ls : List Nat} {u : PUnit} {s s' : FbXtr}, ls.Nodup →
      (ls.forM fun mle => do
        let e ← derefMle mle
        setMleMapping mle (e.mapping.mapLocator loc f) :
          FbXtrM Unit).run s = .ok (u, s') →
      s' = { s with mles := s'.mles } ∧ ∀ l, s'.mles.cell l = if l ∈ ls then
        (s.mles.cell l).map fun ml => { ml with mapping := ml.mapping.mapLocator loc f }
        else s.mles.cell l
  | [], _, s, _, _, h => by
    obtain ⟨-, rfl⟩ := pure_ok.mp h
    exact ⟨rfl, fun l => by simp⟩
  | mle :: rest, _, s, s', hnodup, h => by
    obtain ⟨_, s1, h1, h2⟩ := bind_ok.mp h
    simp only [bind_ok, derefMle_ok, setMleMapping, modify_ok] at h1
    obtain ⟨ml, s, ⟨hml, rfl⟩, -, rfl⟩ := h1
    obtain ⟨hne, hrest⟩ := nodup_cons.mp hnodup
    obtain ⟨hframe, hcells⟩ := mapLocator_loop hrest h2
    refine ⟨hframe, fun l => ?_⟩
    rw [hcells]
    simp only [Heap.modify_cell, mem_cons]
    by_cases hl : l = mle
    · subst hl
      simp [hne, hml]
    · simp [hl]

theorem updateLocalLocator_eq (h : (updateLocalLocator loc f).run s = .ok (u, s')) :
    s' = { s with mles := s'.mles, lost := s'.lost } ∧ ∀ l, s'.mles.cell l =
      (s.mles.cell l).map fun ml => { ml with mapping := ml.mapping.mapLocator loc f } := by
  rw [updateLocalLocator, bind_ok] at h
  obtain ⟨loct, s1, hder, h⟩ := h
  obtain rfl := derefLocalLocator_same _ _ hder
  obtain ⟨_, s2, hlost, h⟩ := bind_ok.mp h
  obtain ⟨-, rfl⟩ := modify_ok.mp hlost
  have hnodup : (mlesWithLocator s1 loc).Nodup := nodup_range.filter _
  obtain ⟨hframe, hcells⟩ := mapLocator_loop (f := f) (s := { s1 with lost := _ }) hnodup h
  refine ⟨by rw [hframe], fun l => ?_⟩
  rw [hcells]
  split_ifs with hl
  · rfl
  · cases hml : s1.mles.cell l with
    | none => rfl
    | some ml =>
      have hp : loc ∉ ml.mapping.ptrs := fun hp => hl (mem_mlesWithLocator.mpr ⟨ml, hml, hp⟩)
      rw [Option.map_some, Mapping.mapLocator_eq_self hp]

/-- A change in place that keeps identities and tidiness. Entries with the locator become dirty
unless their vectors stay the same. -/
theorem updateLocalLocator_current (hcur : LocalCurrent rlocs dirty s)
    (hptr : ∀ l, (f l).ptr = l.ptr)
    (htidy : ∀ l ml, s.mles.cell l = some ml → Tidy (ml.mapping.mapLocator loc f))
    (hvec : ∀ l ml, s.mles.cell l = some ml → ¬ dirty l →
      balancingVectorsCalculate rlocs (ml.mapping.mapLocator loc f) =
      balancingVectorsCalculate rlocs ml.mapping)
    (h : (updateLocalLocator loc f).run s = .ok (u, s')) : LocalCurrent rlocs dirty s' := by
  obtain ⟨hframe, hcells⟩ := updateLocalLocator_eq h
  refine localCurrent_iff.mpr fun l ml' hl => ?_
  rw [hcells] at hl
  obtain ⟨ml, hml, rfl⟩ := Option.map_eq_some_iff.mp hl
  obtain ⟨hc, -, hlink⟩ := localCurrent_iff.mp hcur l ml hml
  refine ⟨fun hd => ?_, htidy l ml hml, ?_⟩
  · obtain ⟨v, hinfo, hv⟩ := hc hd
    exact ⟨v, hinfo, by rw [hvec l ml hml hd, hv]⟩
  · rw [Mapping.mapLocator_ptrs hptr, hframe]
    exact hlink

/-! ## A new status of an interface -/

theorem ifEventStatus_current (hifl : ifl ∈ s.ifaceLocatorsTable) (hcur : AllCurrent env.rlocs s)
    (h : (ifEventStatus (fbWorld pktTupleHash nonces hmac) env ifl status).run s = .ok (u, s')) :
    AllCurrent env.rlocs s' := by
  simp only [ifEventStatus, bind_ok] at h
  obtain ⟨_, s1, h1, _, s2, h2, h3⟩ := h
  -- the entries with a locator of the interface are those the last loop goes through
  have hloop : LocalCurrent env.rlocs (· ∈ ifl.mapLocEntries) s1 ∧ s1.links = s.links := by
    refine forM_keeps (I := fun x => LocalCurrent env.rlocs (· ∈ ifl.mapLocEntries) x ∧
      x.links = s.links) ?_ ⟨hcur.mono fun _ hf => hf.elim, rfl⟩ h1
    rintro loc hloc u x x' ⟨hx, hlinks⟩ hupd
    have hlinks' : x'.links = x.links := by rw [(updateLocalLocator_eq hupd).1]; rfl
    refine ⟨updateLocalLocator_current (f := fun l => { l with state := status }) hx
      (fun _ => rfl) (fun l ml hml => (hx.tidy l ml hml).mapLocator_of_addr (fun _ => rfl)
        fun _ => rfl) (fun l ml hml hd => ?_) hupd, hlinks'.trans hlinks⟩
    have hp : loc ∉ ml.mapping.ptrs := fun hp => hd (hx.linked ifl.links
      (hlinks ▸ mem_map_of_mem hifl) loc hloc l ml hml hp)
    rw [Mapping.mapLocator_eq_self hp]
  exact updatedMapLocInf_all (hloop.1.of_upkeep (.of_conserved pktTupleHash nonces hmac
    (fun h => Conserved.modifyIface_keeps h _ fun _ => by rfl) h2)) h3

/-! ## A new address of an interface -/

/-- What a step that only touches the locator `loc` does to the local entries: an entry keeps its
locators or loses some, one that does not hold `loc` is the same, and all are tidy and current. -/
structure LocatorStep (rlocs : List LispAddr) (loc : Nat) (s s' : FbXtr) :
    Prop where
  links : ∀ k' ∈ s'.links, ∃ k ∈ s.links, k'.1 = k.1 ∧ ∀ p ∈ k'.2, p ∈ k.2
  cells : ∀ l ml', s'.mles.cell l = some ml' → ∃ ml, s.mles.cell l = some ml ∧
    (∀ p ∈ ml'.mapping.ptrs, p ∈ ml.mapping.ptrs) ∧ (loc ∉ ml.mapping.ptrs → ml' = ml) ∧
      Tidy ml'.mapping ∧ Current rlocs ml'.mapping ml'.fwdInfo

theorem LocatorStep.current (h : LocatorStep rlocs loc s s')
    (hcur : AllCurrent rlocs s) : AllCurrent rlocs s' := by
  refine localCurrent_iff.mpr fun l ml' hl => ?_
  obtain ⟨ml, hml, hsub, -, ht, hv⟩ := h.cells l ml' hl
  refine ⟨fun _ => hv, ht, fun k' hk' p hp hpm => ?_⟩
  obtain ⟨k, hk, hk1, hk2⟩ := h.links k' hk'
  rw [hk1]
  exact hcur.linked k hk p (hk2 p hp) l ml hml (hsub p hpm)

/-- Nothing but the links of the interfaces changed, and they only lost locators. -/
theorem LocatorStep.of_mles (hcur : AllCurrent rlocs s)
    (hlinks : ∀ k' ∈ s'.links, ∃ k ∈ s.links, k'.1 = k.1 ∧ ∀ p ∈ k'.2, p ∈ k.2)
    (hmles : s'.mles = s.mles) : LocatorStep rlocs loc s s' := by
  refine ⟨hlinks, fun l ml hl => ?_⟩
  rw [hmles] at hl
  exact ⟨ml, hl, fun _ hp => hp, fun _ => rfl, hcur.tidy l ml hl, hcur.current l ml hl id⟩

theorem LocatorStep.refl (hcur : AllCurrent rlocs s) : LocatorStep rlocs loc s s :=
  .of_mles hcur (fun k hk => ⟨k, hk, rfl, fun _ hp => hp⟩) rfl

/-- An interface that loses one of its locators keeps the links of the others. -/
theorem ifaceLocatorsUnattachLocator_eq
    (h : (ifaceLocatorsUnattachLocator loc).run s = .ok (u, s')) :
    s'.mles = s.mles ∧ ∀ k' ∈ s'.links, ∃ k ∈ s.links, k'.1 = k.1 ∧ ∀ p ∈ k'.2, p ∈ k.2 := by
  simp only [ifaceLocatorsUnattachLocator, modify_ok] at h
  obtain ⟨-, rfl⟩ := h
  split
  · exact ⟨rfl, fun k hk => ⟨k, hk, rfl, fun _ hp => hp⟩⟩
  · refine ⟨rfl, fun k' hk' => ?_⟩
    simp only [Xtr.links, map_map, mem_map, Function.comp_apply] at hk'
    obtain ⟨i, hi, rfl⟩ := hk'
    refine ⟨i.links, mem_map_of_mem hi, ?_⟩
    split_ifs
    · refine ⟨rfl, fun p hp => ?_⟩
      simp only [IfaceLocators.links, mem_append] at hp ⊢
      exact hp.imp_left mem_of_mem_erase
    · refine ⟨rfl, fun p hp => ?_⟩
      simp only [IfaceLocators.links, mem_append] at hp ⊢
      exact hp.imp_right mem_of_mem_erase
    · exact ⟨rfl, fun _ hp => hp⟩

/-- An entry found for a locator gets a new mapping, and maybe new vectors. -/
theorem LocatorStep.of_write {ml e : MapLocalEntry BalancingLocatorsVecs}
    (hcur : AllCurrent rlocs s) (hml : s.mles.cell mle = some ml) (hloc : loc ∈ ml.mapping.ptrs)
    (hcell : ∀ l, s'.mles.cell l = if l = mle then some e else s.mles.cell l)
    (hlinks : ∀ k' ∈ s'.links, ∃ k ∈ s.links, k'.1 = k.1 ∧ ∀ p ∈ k'.2, p ∈ k.2)
    (hsub : ∀ p ∈ e.mapping.ptrs, p ∈ ml.mapping.ptrs) (htidy : Tidy e.mapping)
    (hv : Current rlocs e.mapping e.fwdInfo) : LocatorStep rlocs loc s s' := by
  refine ⟨hlinks, fun l ml' hl => ?_⟩
  rw [hcell] at hl
  split_ifs at hl with heq
  · cases hl
    exact ⟨ml, heq ▸ hml, hsub, fun hn => absurd hloc hn, htidy, hv⟩
  · exact ⟨ml', hl, fun _ hp => hp, fun _ => rfl, hcur.tidy l ml' hl, hcur.current l ml' hl id⟩

/-- A locator without an address is taken out of a mapping that has the new address already. The
vectors are computed from the locators with an address, which are the same. -/
theorem removeLocatorAt_step {mle i : Nat}
    (hcur : AllCurrent rlocs s) (hml : s.mles.cell mle = some ml) (hloc : loc ∈ ml.mapping.ptrs)
    (hi : loctLstIndex .NO_ADDR none 0 ml.mapping.locatorsLists = .ok (some i))
    (hun : (ifaceLocatorsUnattachLocator loc).run s = .ok (u, s')) :
    LocatorStep rlocs loc s (s'.setMapping mle (removeLocatorAt ml.mapping i loc)) := by
  obtain ⟨hmles, hlinks⟩ := ifaceLocatorsUnattachLocator_eq hun
  obtain ⟨htidy, hsub, haddr⟩ := removeLocatorAt_tidy loc (hcur.tidy mle ml hml) hi
  obtain ⟨v, hinfo, hv⟩ := hcur.current mle ml hml id
  have hv' : balancingVectorsCalculate rlocs (removeLocatorAt ml.mapping i loc) = .ok v :=
    balancingVectorsCalculate_congr (by rw [haddr]) hv
  refine .of_write (e := { ml with mapping := removeLocatorAt ml.mapping i loc }) hcur hml hloc
    (fun l => ?_) hlinks hsub htidy ⟨v, hinfo, hv'⟩
  rw [← hmles] at hml ⊢
  exact modify_mapping_cell hml _ l

/-- A locator is given its first address, and the vectors of its entry are computed again. -/
theorem mappingActivateLocator_step (hcur : AllCurrent env.rlocs s)
    (hml : s.mles.cell mle = some ml) (hhas : mappingHasLocator ml.mapping loct = .ok true)
    (hact : mappingActivateLocator ml.mapping loct (.ip a) = .ok m)
    (hupd : (updatedMapLocInf (fbWorld pktTupleHash nonces hmac) env mle).run (s.setMapping mle m) =
      .ok (u, s')) : LocatorStep env.rlocs loct.ptr s s' := by
  have hloc := mappingHasLocator_mem hhas
  obtain ⟨htidy, hsub⟩ := mappingActivateLocator_tidy (hcur.tidy mle ml hml) hhas hact
  obtain ⟨ml2, v, hml2, hv, rfl⟩ := updatedMapLocInf_eq hupd
  have hcell : ∀ l, (s.setMapping mle m).mles.cell l = _ := modify_mapping_cell hml m
  rw [hcell, if_pos rfl] at hml2
  cases hml2
  refine .of_write (e := { ml with mapping := m, fwdInfo := some v }) hcur hml hloc
    (fun l => ?_) (fun k hk => ⟨k, hk, rfl, fun _ hp => hp⟩)
    (fun p hp => (hsub p hp).elim (fun heq => heq ▸ hloc) id) htidy ⟨v, rfl, hv⟩
  rw [Heap.modify_cell]
  split_ifs with heq
  · rw [hcell, if_pos rfl, Option.map_some]
  · rw [hcell, if_neg heq]

/-- What a new address does to a locator without one. -/
theorem ActivatedOrDropped.step (hcur : AllCurrent env.rlocs s)
    (h : ActivatedOrDropped (fbWorld pktTupleHash nonces hmac) env loct a s s') :
    LocatorStep env.rlocs loct.ptr s s' := by
  cases h with
  | unowned => exact .refl hcur
  | detached hml hhas hdup hi hun =>
    obtain ⟨hmles, hlinks⟩ := ifaceLocatorsUnattachLocator_eq hun
    exact .of_mles hcur hlinks hmles
  | dropped hml hhas hdup hi hun =>
    exact removeLocatorAt_step hcur hml (mappingHasLocator_mem hhas) hi hun
  | activated hml hhas hnew hact hupd => exact mappingActivateLocator_step hcur hml hhas hact hupd

/-- A new address of a locator that stays at its place. -/
theorem updateLocalLocator_step (hcur : AllCurrent rlocs s)
    (hplace : ∀ l ml, s.mles.cell l = some ml → loc ∈ ml.mapping.ptrs → KeepsPlace ml.mapping loc a)
    (h : (updateLocalLocator loc fun l => { l with addr := .ip a }).run s = .ok (u, s')) :
    LocatorStep rlocs loc s s' := by
  obtain ⟨hframe, hcells⟩ := updateLocalLocator_eq h
  refine ⟨fun k hk => ⟨k, ?_, rfl, fun _ hp => hp⟩, fun l ml' hl => ?_⟩
  · rw [hframe] at hk
    exact hk
  · rw [hcells] at hl
    obtain ⟨ml, hml, rfl⟩ := Option.map_eq_some_iff.mp hl
    refine ⟨ml, hml, fun p hp => ?_, fun hn => ?_, ?_⟩
    · rwa [Mapping.mapLocator_ptrs (f := fun l => { l with addr := .ip a }) fun _ => rfl] at hp
    · simp only [Mapping.mapLocator_eq_self hn]
    · by_cases hloc : loc ∈ ml.mapping.ptrs
      · obtain ⟨v, hinfo, hv⟩ := hcur.current l ml hml id
        have hp := hplace l ml hml hloc
        exact ⟨hp.2, v, hinfo, hp.vectors_eq hv⟩
      · simp only [Mapping.mapLocator_eq_self hloc]
        exact ⟨hcur.tidy l ml hml, hcur.current l ml hml id⟩

/-- The locators of an interface can take the address `a` one after the other: a local mapping has
at most one of them, and each either has no address yet or keeps its place. -/
@[mk_iff] structure AddressFits (s : FbXtr) (locs : List Nat) (a : IpAddr) : Prop where
  nodup : locs.Nodup
  one : ∀ l ml, s.mles.cell l = some ml → ∀ p ∈ locs, ∀ q ∈ locs, p ∈ ml.mapping.ptrs →
    q ∈ ml.mapping.ptrs → p = q
  place : ∀ p ∈ locs,
    (∀ l ml, s.mles.cell l = some ml → ∀ x ∈ ml.mapping.locators, x.ptr = p →
      lispAddrLafi x.addr = .NO_ADDR) ∨
    ∀ l ml, s.mles.cell l = some ml → p ∈ ml.mapping.ptrs → KeepsPlace ml.mapping p a

instance (s : FbXtr) (locs : List Nat) (a : IpAddr) :
    Decidable (AddressFits s locs a) :=
  decidable_of_iff _ (addressFits_iff s locs a).symm

/-- The first locator is done. The entries with one of the others are still the same. -/
theorem AddressFits.tail (h : AddressFits s (loc :: locs) a)
    (hstep : LocatorStep rlocs loc s s') : AddressFits s' locs a := by
  obtain ⟨hne, hnodup⟩ := nodup_cons.mp h.nodup
  have hsame : ∀ p ∈ locs, ∀ l ml', s'.mles.cell l = some ml' → p ∈ ml'.mapping.ptrs →
      s.mles.cell l = some ml' := by
    intro p hp l ml' hl hpm
    obtain ⟨ml, hml, hsub, hsame, -⟩ := hstep.cells l ml' hl
    rw [hsame fun hloc => hne ?_]
    · exact hml
    · rw [h.one l ml hml loc (by simp) p (by simp [hp]) hloc (hsub p hpm)]
      exact hp
  refine ⟨hnodup, fun l ml' hl p hp q hq hpm hqm => ?_, fun p hp => ?_⟩
  · have hml := hsame p hp l ml' hl hpm
    exact h.one l ml' hml p (by simp [hp]) q (by simp [hq]) hpm hqm
  · refine (h.place p (by simp [hp])).imp (fun hno l ml' hl x hx hxp => ?_)
      fun hplace l ml' hl hpm => ?_
    · have hpm : p ∈ ml'.mapping.ptrs := mem_map.mpr ⟨x, hx, hxp⟩
      exact hno l ml' (hsame p hp l ml' hl hpm) x hx hxp
    · exact hplace l ml' (hsame p hp l ml' hl hpm) hpm

theorem ifEventLocator_step (hcur : AllCurrent env.rlocs s) (hfits : AddressFits s (loc :: locs) a)
    (h : (ifEventLocator (fbWorld pktTupleHash nonces hmac) env (.ip a) loc).run s = .ok (u, s')) :
    LocatorStep env.rlocs loc s s' := by
  obtain ⟨loct, l, ml, hml, hx, hptr, ⟨-, hstep⟩ | ⟨hno, hupd⟩⟩ | ⟨lost, rfl⟩ :=
    ifEventLocator_cases h
  · rw [← hptr]
    exact hstep.step hcur
  · rcases hfits.place loc (by simp) with hall | hplace
    · exact absurd (hall l ml hml loct hx hptr) hno
    · exact updateLocalLocator_step hcur hplace hupd
  · exact .of_mles hcur (fun k hk => ⟨k, hk, rfl, fun _ hp => hp⟩) rfl

/-- The locators of the family take the address, and the mappings that are sorted were sorted. -/
theorem ifEventAddress_current {oldAddr : Option LispAddr} (hcur : AllCurrent env.rlocs s)
    (hfits : AddressFits s (ifl.ofFamily (ipAddrAfi a)) a)
    (h : (ifEventAddress (fbWorld pktTupleHash nonces hmac) env ifl (ipAddrAfi a) oldAddr
      (.ip a)).run s = .ok (u, s')) : AllCurrent env.rlocs s' := by
  refine ifEventAddress_induct (I := fun locs x => AllCurrent env.rlocs x ∧ AddressFits x locs a)
    (J := fun _ => AllCurrent env.rlocs) (fun hx h1 => ?_) (fun hx h2 => ?_)
    (fun {mle _ ml _ _ _} hx hml hsort => ?_) ⟨hcur, hfits⟩ h
  · have hstep := ifEventLocator_step hx.1 hx.2 h1
    exact ⟨hstep.current hx.1, hx.2.tail hstep⟩
  · exact hx.1.of_upkeep (.of_conserved pktTupleHash nonces hmac
      (fun h => Conserved.modifyIface_keeps h _ fun _ => by cases ipAddrAfi a <;> rfl) h2)
  · obtain rfl := mappingSortLocators_tidy (hx.tidy mle ml hml) hsort
    refine hx.of_same (fun l => ?_) rfl
    rw [Xtr.setMapping, modify_mapping_cell hml]
    split_ifs with heq
    · rw [heq, hml]
    · rfl

/-! ## Interface events -/

/-- The locators an event with a new address is about can take it. -/
def IfEventFits (s : FbXtr) (ifaceName : String) (newAddr : Option LispAddr) :
    Prop :=
  ∀ ifl ∈ (s.ifaceLocatorsTable.find? (·.ifaceName = ifaceName)).toList,
    ∀ a ∈ (eventIp newAddr).toList,
      AddressFits s (if ipAddrAfi a = .INET then ifl.ipv4Locators else ifl.ipv6Locators) a

instance (s : FbXtr) (ifaceName : String) (newAddr : Option LispAddr) :
    Decidable (IfEventFits s ifaceName newAddr) :=
  inferInstanceAs (Decidable (∀ ifl ∈ _, _))

theorem ifEventEnd_current (hcur : AllCurrent env.rlocs s)
    (h : (ifEventEnd (fbWorld pktTupleHash nonces hmac) env).run s = .ok (ret, s')) :
    AllCurrent env.rlocs s' := by
  have hend : KeepsAny (fun _ => False) (AllCurrent env.rlocs) s
      (ifEventEnd (fbWorld pktTupleHash nonces hmac) env) := by
    refine ifEventEnd_keeps (fun _ _ hx => ?_) (fun hx => ?_) hcur
    · exact .of_forall fun _ hupd =>
        ⟨trivial, (updatedMapLocInf_current hx hupd).mono fun _ hd => hd.1⟩
    · exact .of_forall fun _ hsmr => ⟨trivial, hx.of_upkeep (.of_conserved pktTupleHash nonces hmac
        (fun h => Conserved.programSmr_keeps h _) hsmr)⟩
  exact (hend.of_run h).2

theorem xtrIfEvent_current {ifaceName : String} {oldAddr newAddr : Option LispAddr}
    (hcur : AllCurrent env.rlocs s) (hfits : IfEventFits s ifaceName newAddr)
    (h : (xtrIfEvent (fbWorld pktTupleHash nonces hmac) env ifaceName oldAddr newAddr
      status).run s = .ok (ret, s')) : AllCurrent env.rlocs s' := by
  cases xtrIfEvent_cases h with
  | unknown | unchanged | noIp => exact hcur
  | status hfind hnew hrun hend =>
    exact ifEventEnd_current (ifEventStatus_current (mem_of_find?_eq_some hfind) hcur hrun) hend
  | @address ifl a _ _ hfind hnew hdiff hrun hend =>
    have hfits' := hfits ifl (by simp [hfind]) a (by simp [hnew, eventIp])
    have hfam : ifl.ofFamily (ipAddrAfi a) =
        if ipAddrAfi a = .INET then ifl.ipv4Locators else ifl.ipv6Locators := by
      cases ipAddrAfi a <;> rfl
    exact ifEventEnd_current (ifEventAddress_current hcur (hfam ▸ hfits') hrun) hend

end LocalVectors

end Lispmob
