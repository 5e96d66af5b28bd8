import Lispmob.LocalVectors

/-!
# Balancing vectors in every reachable state

The vectors stored with the entries of a device are those of their mappings and of the list of RLOCs
as they are now, in every run whose steps meet `VectorsKept`:

* a probing timer that fires belongs to the entry stored under its EID;
* a new address of an interface fits (`IfEventFits`);
* the list of RLOCs changes only while no mapping has an explicit path;
* the Proxy-ETRs are deleted only when none of them has an address;
* new local mappings are tidy and linked to their interfaces.

Without the fourth the vectors of the Proxy-ETRs name locators that were deleted:
`lmapi_xtr_petrs_delete` empties the mapping and leaves the vectors as they are.
-/

namespace Lispmob

open Prog Option List Heap

section VectorsCurrent

variable {pktTupleHash : PacketTuple → UInt32} {nonces : Nat → Nonce}
  {hmac : Hmac} {env : CtrlEnv} {rlocs : List LispAddr}
  {s s' : FbXtr} {d d' : Device} {m : Mapping}
  {info : Option BalancingLocatorsVecs} {rlocs' : List LispAddr} {u : Unit}
  {h0 : Heap (MapLocalEntry BalancingLocatorsVecs)} {conf : FbConf}
  {dirty : Nat → Prop} {db : Mdb Nat}

/-- The vectors of all entries of a device are current. -/
structure DevCurrent (d : Device) : Prop where
  cache : CacheCurrent d.rlocs d.xtr
  mappings : LocalCurrent d.rlocs (fun _ => False) d.xtr

/-! ## The list of RLOCs changes -/

/-- No mapping of the router has a locator with an explicit path. -/
def NoElps (s : FbXtr) : Prop :=
  (s.mces.All fun _ me => ElpFree me.mapping) ∧ s.mles.All fun _ ml => ElpFree ml.mapping

instance (s : FbXtr) : Decidable (NoElps s) :=
  inferInstanceAs (Decidable (_ ∧ _))

theorem Current.of_elpFree (h : Current rlocs m info) (hm : ElpFree m) : Current rlocs' m info := by
  obtain ⟨v, hinfo, hv⟩ := h
  exact ⟨v, hinfo, hm.vectors_eq rlocs' hv⟩

theorem CacheCurrent.of_elpFree (h : CacheCurrent rlocs s)
    (hs : s.mces.All fun _ me => ElpFree me.mapping) : CacheCurrent rlocs' s :=
  fun e me hme => (h e me hme).imp_left fun hcur => hcur.of_elpFree (hs e me hme)

theorem LocalCurrent.of_elpFree (h : LocalCurrent rlocs dirty s)
    (hs : s.mles.All fun _ ml => ElpFree ml.mapping) : LocalCurrent rlocs' dirty s :=
  ⟨fun l ml hml hd => (h.current l ml hml hd).of_elpFree (hs l ml hml), h.tidy, h.linked⟩

/-! ## Requests about the Proxy-ETRs -/

/-- Only the mapping of one map-cache entry may differ, and the next identity of a locator. -/
def OnlyMapping (e : Nat) (s s' : FbXtr) : Prop :=
  ∃ g : Mce BalancingLocatorsVecs → Mce BalancingLocatorsVecs, ∃ n : Nat,
    s' = { s with mces := s.mces.modify e g, nextLoct := n }

theorem OnlyMapping.trans {e : Nat} {s₁ s₂ s₃ : FbXtr}
    (h1 : OnlyMapping e s₁ s₂) (h2 : OnlyMapping e s₂ s₃) : OnlyMapping e s₁ s₃ := by
  obtain ⟨g1, n1, rfl⟩ := h1
  obtain ⟨g2, n2, rfl⟩ := h2
  exact ⟨g2 ∘ g1, n2, by rw [← modify_modify]⟩

theorem petrsRemoveAll_eq (h : petrsRemoveAll.run s = .ok (u, s')) :
    ∃ me, s.mces.cell s.petrs = some me ∧ s' = { s with
      mces := s.mces.modify s.petrs fun e =>
        { e with mapping := { me.mapping with locatorsLists := [] } } } := by
  rw [petrsRemoveAll, get_bind_ok, bind_ok] at h
  obtain ⟨me, s1, hme, h⟩ := h
  obtain ⟨hme, rfl⟩ := derefMce_ok.mp hme
  exact ⟨me, hme, setMceMapping_ok.mp h⟩

theorem addProxyEtrEntry_only {addr : IpAddr} (h : (addProxyEtrEntry addr).run s = .ok (u, s')) :
    OnlyMapping s.petrs s s' := by
  rw [addProxyEtrEntry, get_bind_ok] at h
  simp only [bind_ok, derefMce_ok, lift_ok, modify_ok, setMceMapping_ok] at h
  obtain ⟨me, s, ⟨-, rfl⟩, ⟨_, m⟩, s, ⟨-, rfl⟩, _, _, ⟨-, rfl⟩, rfl⟩ := h
  exact ⟨_, _, rfl⟩

theorem lmapiXtrPetrsCreate_upkeep {addrList : List IpAddr} : Stays (Upkeep env.rlocs) s
    (lmapiXtrPetrsCreate (fbWorld pktTupleHash nonces hmac) env addrList) := by
  intro r s' h
  simp only [lmapiXtrPetrsCreate, bind_ok, get_ok, derefMce_ok, pure_ok] at h
  obtain ⟨_, s1, hrem, _, _, hadd, _, _, ⟨rfl, rfl⟩, me, s2, ⟨hme, rfl⟩, _, s3, hupd, -, rfl⟩ := h
  obtain ⟨me0, -, rfl⟩ := petrsRemoveAll_eq hrem
  have honly : OnlyMapping s.petrs s s2 := by
    refine forM_keeps (I := fun x => OnlyMapping s.petrs s x) ?_ ⟨_, _, rfl⟩ hadd
    intro addr _ u x x' hx hrun
    have hpetrs : x.petrs = s.petrs := by
      obtain ⟨_, _, rfl⟩ := hx
      rfl
    exact hx.trans (hpetrs ▸ addProxyEtrEntry_only hrun)
  obtain ⟨g, n, rfl⟩ := honly
  obtain ⟨v, hv, rfl⟩ := updatedMapCacheInf_eq hupd
  simp only [modify_cell, if_true] at hme
  obtain ⟨me1, hme1, rfl⟩ := map_eq_some_iff.mp hme
  -- only the entry of the Proxy-ETRs differs, and it has its vectors
  refine .of_cells (fun i me hi => ?_) rfl rfl rfl rfl
  simp only [modify_cell, if_true] at hi
  split_ifs at hi
  · rw [hme1] at hi
    cases hi
    exact .inr ⟨v, rfl, hv⟩
  · exact .inl ⟨me, hi, rfl, rfl⟩

/-- The vectors of a mapping with no locator that has an address. -/
theorem Current.of_no_address (h : Current rlocs m info) (hm : addressedLocators m = []) :
    Current rlocs { m with locatorsLists := [] } info := by
  obtain ⟨v, hinfo, hv⟩ := h
  exact ⟨v, hinfo, balancingVectorsCalculate_congr (by rw [hm]; rfl) hv⟩

theorem lmapiXtrPetrsDelete_upkeep
    (hnone : s.mces.All fun e me => e = s.petrs → addressedLocators me.mapping = []) :
    Stays (Upkeep rlocs) s lmapiXtrPetrsDelete := by
  intro r s' h
  simp only [lmapiXtrPetrsDelete, bind_ok, pure_ok] at h
  obtain ⟨_, s1, hrem, -, rfl⟩ := h
  obtain ⟨me, hme, rfl⟩ := petrsRemoveAll_eq hrem
  refine ⟨fun hc i me' hi => ?_, rfl, rfl, rfl, rfl⟩
  simp only [modify_cell] at hi
  split_ifs at hi with heq
  · rw [hme] at hi
    cases hi
    refine (hc s.petrs me hme).imp (fun hcur => ?_) fun hrtr => ⟨hrtr.1, heq, hrtr.2.2⟩
    exact hcur.of_no_address (hnone s.petrs me hme rfl)
  · exact hc i me' hi

/-! ## Requests about the local mappings -/

/-- The new local mappings are tidy, and the interfaces are linked to the entries whose locators
depend on them. -/
def ConfsLinked (mles : Heap (MapLocalEntry BalancingLocatorsVecs)) : List ConfMapping → Prop
  | [] => True
  | conf :: rest =>
    Tidy conf.mapping ∧
    (∀ i ∈ conf.ifaces, ∀ loc ∈ i.links.2, (mles.alloc ⟨conf.mapping, none⟩).All fun l ml =>
      loc ∈ ml.mapping.ptrs → l ∈ i.links.1) ∧
    ConfsLinked (mles.alloc ⟨conf.mapping, none⟩) rest

instance ConfsLinked.decidable : ∀ (confs : List ConfMapping)
    (mles : Heap (MapLocalEntry BalancingLocatorsVecs)), Decidable (ConfsLinked mles confs)
  | [], _ => isTrue trivial
  | conf :: rest, mles =>
    have := ConfsLinked.decidable rest (mles.alloc ⟨conf.mapping, none⟩)
    inferInstanceAs (Decidable (_ ∧ _ ∧ _))

/-- The entries of a heap are among those of another, with the same locators. -/
structure Covered (h h0 : Heap (MapLocalEntry BalancingLocatorsVecs)) : Prop where
  next : h.next = h0.next
  cells : ∀ l ml, h.cell l = some ml → ∃ ml₀, h0.cell l = some ml₀ ∧
    ml₀.mapping.ptrs = ml.mapping.ptrs

/-- Entries are released. The others and the links stay. -/
theorem localMapDbReplace_current (hcur : AllCurrent rlocs s)
    (h : localMapDbReplace.run s = .ok (u, s')) :
    AllCurrent rlocs s' ∧ Covered s'.mles s.mles ∧ s'.mces = s.mces ∧
      s'.petrs = s.petrs ∧ s'.mode = s.mode := by
  obtain ⟨x, hx, rfl⟩ := localMapDbReplace_keeps (I := fun x =>
    AllCurrent rlocs x ∧ Covered x.mles s.mles ∧ x.mces = s.mces ∧
      x.petrs = s.petrs ∧ x.mode = s.mode)
    (fun ⟨hx, hcov, hrest⟩ _ => ⟨localCurrent_iff.mpr ((localCurrent_iff.mp hx).free _),
      ⟨hcov.next, Heap.All.free hcov.cells _⟩, hrest⟩)
    ⟨hcur, ⟨rfl, fun l ml hl => ⟨ml, hl, rfl⟩⟩, rfl, rfl, rfl⟩ h
  exact ⟨hx.1.of_same (fun _ => rfl) rfl, hx.2⟩

theorem Tidy.of_lists {m m' : Mapping} (h : Tidy m) (hl : m'.locatorsLists = m.locatorsLists) :
    Tidy m' := by
  obtain ⟨hlists, hnodup⟩ := h
  refine ⟨by rwa [hl], ?_⟩
  rwa [Mapping.ptrs, Mapping.locators, hl]

/-- The interfaces are linked to other entries than before. -/
theorem LocalCurrent.relink {conf : ConfMapping}
    (hcur : AllCurrent rlocs s) (hcov : Covered s.mles h0)
    (hlinked : ∀ i ∈ conf.ifaces, ∀ loc ∈ i.links.2, h0.All fun l ml => loc ∈ ml.mapping.ptrs →
      l ∈ i.links.1) :
    AllCurrent rlocs
      { s with ifaceLocatorsTable := conf.ifaces, localMdb := db } := by
  refine ⟨hcur.current, hcur.tidy, fun k hk loc hloc l ml hl hp => ?_⟩
  obtain ⟨i, hi, rfl⟩ := mem_map.mp hk
  obtain ⟨ml0, hml0, hptrs⟩ := hcov.cells l ml hl
  exact hlinked i hi loc hloc l ml0 hml0 (hptrs ▸ hp)

theorem LocalCurrent.entry {conf : ConfMapping} {info : BalancingLocatorsVecs}
    (hcur : AllCurrent rlocs s) (hcov : Covered s.mles h0) (htidy : Tidy conf.mapping)
    (hlinked : ∀ i ∈ conf.ifaces, ∀ loc ∈ i.links.2,
      (h0.alloc ⟨conf.mapping, none⟩).All fun l ml => loc ∈ ml.mapping.ptrs → l ∈ i.links.1)
    (hinfo : balancingVectorsCalculate rlocs { conf.mapping with authoritative := 1 } = .ok info) :
    AllCurrent rlocs (s.withEntry conf info db) ∧
      Covered (s.withEntry conf info db).mles (h0.alloc ⟨conf.mapping, none⟩) := by
  have hcov' : Covered (s.withEntry conf info db).mles (h0.alloc ⟨conf.mapping, none⟩) := by
    refine ⟨?_, Heap.All.alloc (fun l ml hl => ?_) ?_⟩
    · rw [Xtr.withEntry, alloc_next, alloc_next, hcov.next]
    · obtain ⟨ml0, hml0, hptrs⟩ := hcov.cells l ml hl
      have hne : l ≠ h0.next := (hcov.next ▸ lt_next hl).ne
      exact ⟨ml0, by rw [alloc_cell, if_neg hne, hml0], hptrs⟩
    · exact ⟨⟨conf.mapping, none⟩, by rw [alloc_cell, if_pos hcov.next], rfl⟩
  refine ⟨⟨Heap.All.alloc hcur.current fun _ => ⟨info, rfl, hinfo⟩,
    Heap.All.alloc hcur.tidy (htidy.of_lists rfl), fun k hk loc hloc l ml hl hp => ?_⟩, hcov'⟩
  obtain ⟨i, hi, rfl⟩ := mem_map.mp hk
  obtain ⟨ml0, hml0, hptrs⟩ := hcov'.cells l ml hl
  exact hlinked i hi loc hloc l ml0 hml0 (hptrs ▸ hp)

theorem AddedMappings.current {confs : List ConfMapping} (h : AddedMappings rlocs confs s s')
    (hcur : AllCurrent rlocs s) (hcov : Covered s.mles h0) (hconfs : ConfsLinked h0 confs) :
    AllCurrent rlocs s' ∧ s'.mces = s.mces ∧ s'.petrs = s.petrs ∧
      s'.mode = s.mode := by
  induction h generalizing h0 with
  | stop => exact ⟨hcur, rfl, rfl, rfl⟩
  | @refused conf rest s =>
    obtain ⟨-, hlinked, -⟩ := hconfs
    refine ⟨hcur.relink hcov fun i hi loc hloc l ml hl => ?_, rfl, rfl, rfl⟩
    refine hlinked i hi loc hloc l ml ?_
    rw [alloc_cell, if_neg (lt_next hl).ne, hl]
  | entry db hinfo hrest ih =>
    obtain ⟨htidy, hlinked, hmore⟩ := hconfs
    obtain ⟨hcur1, hcov1⟩ := hcur.entry hcov htidy hlinked hinfo
    exact ih hcur1 hcov1 hmore

/-! ## One step -/

/-- What a step of the device must meet for the vectors to stay current. -/
def VectorsKept (d : Device) : DevEvent → Prop
  | .xtr (.wheel _) => ProbeFires d.xtr
  | .xtr (.ifEvent name _ newAddr _ _) => IfEventFits d.xtr name newAddr
  | .xtr _ => True
  | .setRlocs rlocs => rlocs = d.rlocs ∨ NoElps d.xtr
  | .api (.mapdbCreate confMappingList) _ => ConfsLinked d.xtr.mles confMappingList
  | .api .petrsDelete _ =>
    d.xtr.mces.All fun e me => e = d.xtr.petrs → addressedLocators me.mapping = []
  | .api _ _ => True

instance (d : Device) (ev : DevEvent) : Decidable (VectorsKept d ev) := by
  unfold VectorsKept
  split <;> infer_instance

theorem CacheCurrent.of_mces (h : CacheCurrent rlocs s) (hmces : s'.mces = s.mces)
    (hpetrs : s'.petrs = s.petrs) (hmode : s'.mode = s.mode) : CacheCurrent rlocs s' := by
  intro e me hme
  rw [hmces] at hme
  simpa only [EntryCurrent, hpetrs, hmode] using h e me hme

theorem DevCurrent.of_upkeep (h : DevCurrent d) (hs : Upkeep d.rlocs d.xtr s) :
    DevCurrent { d with xtr := s } :=
  ⟨hs.cache h.cache, h.mappings.of_upkeep hs⟩

theorem xtrStep_current {ev : XtrEvent} {out : XtrOut FwdEntry} (hcur : DevCurrent d)
    (hok : VectorsKept d (.xtr ev))
    (h : (xtrStep (fbWorld pktTupleHash nonces hmac) (ev.withRlocs d.rlocs)).run d.xtr =
      .ok (out, s)) : DevCurrent { d with xtr := s } := by
  by_cases hif : ∃ name old new status env, ev = .ifEvent name old new status env
  · obtain ⟨name, old, new, status, env, rfl⟩ := hif
    obtain rfl | h := xtrStep_cases h
    · exact hcur
    · obtain ⟨r, s, hx, h⟩ := bind_ok.mp h
      obtain ⟨-, rfl⟩ := pure_ok.mp h
      have hrest := (xtrIfEvent_local _ _ hx).rest
      have hmappings : AllCurrent (env.withRlocs d.rlocs).rlocs s :=
        xtrIfEvent_current hcur.mappings hok hx
      exact ⟨hcur.cache.of_mces (by rw [hrest]) (by rw [hrest]) (by rw [hrest]), hmappings⟩
  · refine hcur.of_upkeep (xtrStep_upkeep (fun name old new status env heq => ?_) ?_ h)
    · exact hif ⟨name, old, new, status, env, heq⟩
    · rintro env rfl
      exact hok

theorem processCall_current {call : ApiCall} {r : Ret} (hcur : DevCurrent d)
    (hok : VectorsKept d (.api call env))
    (h : (processCall (fbWorld pktTupleHash nonces hmac) (env.withRlocs d.rlocs) call).run d.xtr =
      .ok (r, s)) : DevCurrent { d with xtr := s } := by
  have hreg : ∀ {x x' : FbXtr} {u : Unit},
      (programMapRegister (fbWorld pktTupleHash nonces hmac)).run x = .ok (u, x') →
        Upkeep d.rlocs x x' :=
    .of_conserved pktTupleHash nonces hmac fun h => Conserved.programMapRegister_keeps h
  cases processCall_cases h with
  | refused => exact hcur
  | resolvers => exact hcur.of_upkeep ⟨id, rfl, rfl, rfl, rfl⟩
  | servers => exact hcur.of_upkeep ⟨id, rfl, rfl, rfl, rfl⟩
  | registered run =>
    refine hcur.of_upkeep (.trans _ _ _ ?_ (hreg run))
    exact ⟨id, rfl, rfl, rfl, rfl⟩
  | replaced run =>
    obtain ⟨hcur1, -, hmces, hpetrs, hmode⟩ := localMapDbReplace_current hcur.mappings run
    exact ⟨hcur.cache.of_mces hmces hpetrs hmode, hcur1⟩
  | @created _ _ _ _ s₂ _ replaced added done =>
    obtain ⟨hcur1, hcov, hmces1, hpetrs1, hmode1⟩ :=
      localMapDbReplace_current hcur.mappings replaced
    obtain ⟨hcur2, hmces2, hpetrs2, hmode2⟩ := (addConfMappings_cases added).current hcur1 hcov hok
    have hdev : DevCurrent { d with xtr := s₂ } :=
      ⟨hcur.cache.of_mces (hmces2.trans hmces1) (hpetrs2.trans hpetrs1) (hmode2.trans hmode1),
        hcur2⟩
    obtain rfl | ⟨u, run⟩ := done
    · exact hdev
    · exact hdev.of_upkeep (hreg run)
  | petrsCreated run => exact hcur.of_upkeep (lmapiXtrPetrsCreate_upkeep _ _ run)
  | petrsDeleted run => exact hcur.of_upkeep (lmapiXtrPetrsDelete_upkeep hok _ _ h)

theorem devStep_current {ev : DevEvent} (hcur : DevCurrent d) (hok : VectorsKept d ev)
    (h : (devStep (fbWorld pktTupleHash nonces hmac) ev).run d = .ok (u, d')) : DevCurrent d' := by
  obtain rfl | ⟨xev, out, s, rfl, hx, rfl⟩ | ⟨rlocs, rfl, rfl⟩ |
    ⟨call, env, r, s, rfl, -, hx, rfl⟩ :=
    devStep_cases h
  · exact hcur
  · exact xtrStep_current hcur hok hx
  · rcases hok with rfl | ⟨hmces, hmles⟩
    · exact hcur
    · exact ⟨hcur.cache.of_elpFree hmces, hcur.mappings.of_elpFree hmles⟩
  · exact processCall_current hcur hok hx

/-! ## The start -/

/-- A configuration as the configuration code makes it. The Proxy-ETRs and the static entries have
no explicit paths, and the vectors of the Proxy-ETRs were computed when there were no RLOCs yet; the
local mappings are tidy, linked to their interfaces, and in the local database, or the mapping of
all locators of a re-encapsulating router. -/
structure VectorsConfigured (conf : FbConf) : Prop where
  petrs : ElpFree (petrsEntry conf).mapping
  petrsInfo : Current [] (petrsEntry conf).mapping conf.petrsInfo ∨
    conf.petrsInfo = none ∧ conf.mode = .RTR_MODE
  statics : ∀ m ∈ conf.statics, ElpFree m
  tidy : conf.mles.All fun _ ml => Tidy ml.mapping
  linked : ∀ i ∈ conf.ifaceLocatorsTable, ∀ loc ∈ i.links.2, conf.mles.All fun l ml =>
    loc ∈ ml.mapping.ptrs → l ∈ i.links.1
  stored : conf.mode ≠ .RTR_MODE → conf.mles.All fun l _ => l ∈ mdbForeachEntry conf.localMdb
  allLocs : conf.mode = .RTR_MODE → conf.mles.All fun l _ => conf.allLocsMap = some l

/-- The start of a device: the vectors are those for an empty list of RLOCs, and do not depend on
the list. -/
structure Starting (s : FbXtr) (conf : FbConf) :
    Prop where
  cache : CacheCurrent [] s
  elpFree : s.mces.All fun _ me => ElpFree me.mapping
  mles : s.mles = conf.mles
  links : s.links = conf.ifaceLocatorsTable.map IfaceLocators.links
  localMdb : s.localMdb = conf.localMdb
  allLocsMap : s.allLocsMap = conf.allLocsMap
  mode : s.mode = conf.mode

theorem Starting.framed (h : Starting s conf) (hf : Framed s s') : Starting s' conf :=
  ⟨h.cache.of_mces hf.mces hf.petrs hf.mode, by rw [hf.mces]; exact h.elpFree,
    hf.mles.trans h.mles, hf.links.trans h.links, hf.localMdb.trans h.localMdb,
    hf.allLocsMap.trans h.allLocsMap, hf.mode.trans h.mode⟩

theorem Starting.construct (h : VectorsConfigured conf) :
    Starting (xtrCtrlConstruct conf) conf := by
  have hcell : ∀ {P : Nat → Mce BalancingLocatorsVecs → Prop}, P 0 (petrsEntry conf) →
      (xtrCtrlConstruct conf).mces.All P := by
    intro P hpetrs e me hme
    simp only [xtrCtrlConstruct, alloc_cell, empty_cell] at hme
    split_ifs at hme with heq
    cases hme
    exact heq ▸ hpetrs
  refine ⟨hcell ?_, hcell h.petrs, rfl, rfl, rfl, rfl, rfl⟩
  exact h.petrsInfo.imp_right fun hrtr => ⟨hrtr.1, rfl, hrtr.2⟩

theorem configureStatic_starting (hs : Starting s conf) (hm : ElpFree m)
    (h : (configureStatic (fbWorld pktTupleHash nonces hmac) (env.withRlocs []) m).run s =
      .ok (u, s')) : Starting s' conf := by
  rw [configureStatic, bind_ok] at h
  obtain ⟨o, s0, hlook, h⟩ := h
  obtain ⟨-, rfl⟩ := mcacheLookupExact_ok.mp hlook
  cases o with
  | some _ =>
    obtain ⟨-, rfl⟩ := pure_ok.mp h
    exact hs
  | none =>
    simp only [trMcacheAddStaticMapping, mcacheEntryNew, newMapCachePolicyInf, bind_ok,
      get_ok, set_ok, lift_ok, setMceRoutingInfo_ok, pure_ok] at h
    obtain ⟨r, _,
      ⟨_, _, ⟨_, s, ⟨rfl, rfl⟩, _, _, ⟨-, rfl⟩, rfl, rfl⟩, _, _, ⟨info, _, ⟨hinfo, rfl⟩, _, _,
      rfl, rfl, rfl⟩, h⟩, -, rfl⟩ := h
    obtain ⟨v, hv, rfl⟩ := except_map_ok.mp hinfo
    simp only [alloc_modify, isSome_some, if_true, mcacheAddEntry, bind_ok,
      get_ok, lift_ok, modify_ok, pure_ok] at h
    obtain ⟨ret, _, ⟨_, _, ⟨rfl, rfl⟩, ⟨_, db⟩, _, ⟨-, rfl⟩, _, _, ⟨-, rfl⟩, rfl, rfl⟩, h⟩ := h
    have hnew : Starting { s with
        mces := s.mces.alloc ⟨.MCE_STATIC, .ACTIVE, m, some v⟩, mapCache := db } conf := by
      have hup : Upkeep [] s { s with
          mces := s.mces.alloc ⟨.MCE_STATIC, .ACTIVE, m, some v⟩, mapCache := db } :=
        upkeep_of_alloc _ db ⟨v, rfl, hv⟩
      refine ⟨hup.cache hs.cache, fun e me hme => ?_, hs.mles, hs.links, hs.localMdb,
        hs.allLocsMap, hs.mode⟩
      simp only [alloc_cell] at hme
      split_ifs at hme
      · cases hme
        exact hm
      · exact hs.elpFree e me hme
    split_ifs at h
    · simp only [bind_ok, pure_ok] at h
      obtain ⟨_, _, hprog, -, rfl⟩ := h
      exact hnew.framed (programMceRlocProbing_framed _ _ hprog)
    · obtain ⟨-, rfl⟩ := pure_ok.mp h
      exact hnew

/-- The local entries that `xtr_ctrl_run` computes the vectors of are all there are. -/
theorem Starting.mappings (h : Starting s conf) (hconf : VectorsConfigured conf)
    (hdirty : conf.mles.All fun l _ => dirty l) : LocalCurrent rlocs dirty s := by
  rw [localCurrent_iff, h.mles, h.links]
  refine fun l ml hl => ⟨absurd (hdirty l ml hl), hconf.tidy l ml hl, fun k hk loc hloc => ?_⟩
  obtain ⟨i, hi, rfl⟩ := mem_map.mp hk
  exact hconf.linked i hi loc hloc l ml hl

theorem rtrRun_current (hs : Starting s conf) (hconf : VectorsConfigured conf)
    (hmode : conf.mode = .RTR_MODE)
    (h : (rtrRun (fbWorld pktTupleHash nonces hmac) (env.withRlocs rlocs)).run s = .ok (u, s')) :
    DevCurrent ⟨s', rlocs⟩ := by
  have hcache : CacheCurrent rlocs s := hs.cache.of_elpFree hs.elpFree
  have hstored := hconf.allLocs hmode
  rw [rtrRun, get_bind_ok, hs.allLocsMap] at h
  cases hall : conf.allLocsMap with
  | none =>
    simp only [hall] at h
    obtain ⟨-, rfl⟩ := pure_ok.mp h
    refine ⟨hcache, hs.mappings hconf fun l ml hl => ?_⟩
    have hl' := hstored l ml hl
    simp [hall] at hl'
  | some mle =>
    simp only [hall] at h
    have hdirty : LocalCurrent rlocs (· = mle) s := hs.mappings hconf fun l ml hl =>
      Option.some.inj ((hstored l ml hl).symm.trans hall)
    have hrest := (updatedMapLocInf_local _ _ h).rest
    have hcur : LocalCurrent (env.withRlocs rlocs).rlocs (fun l => l = mle ∧ l ≠ mle) s' :=
      updatedMapLocInf_current hdirty h
    exact ⟨hcache.of_mces (by rw [hrest]) (by rw [hrest]) (by rw [hrest]),
      hcur.mono fun l hd => hd.2 hd.1⟩

theorem xtrRun_current (hs : Starting s conf) (hconf : VectorsConfigured conf)
    (hmode : conf.mode ≠ .RTR_MODE)
    (h : (xtrRun (fbWorld pktTupleHash nonces hmac) (env.withRlocs rlocs)).run s = .ok (u, s')) :
    DevCurrent ⟨s', rlocs⟩ := by
  have hcache : CacheCurrent rlocs s := hs.cache.of_elpFree hs.elpFree
  have hdirty : LocalCurrent rlocs (· ∈ mdbForeachEntry s.localMdb) s :=
    hs.mappings hconf (hs.localMdb ▸ hconf.stored hmode)
  rw [xtrRun, get_bind_ok, bind_ok] at h
  obtain ⟨petr, s0, hpetr, h⟩ := h
  obtain ⟨hpetr, rfl⟩ := derefMce_ok.mp hpetr
  -- the vectors of the Proxy-ETRs are computed again, from their mapping
  have hend : ∀ {x : FbXtr}, Upkeep rlocs s0 x →
      (do (mdbForeachEntry s0.localMdb).forM (updatedMapLocInf
            (fbWorld pktTupleHash nonces hmac) (env.withRlocs rlocs))
          programMapRegister (fbWorld pktTupleHash nonces hmac)
          programSmr 1
          programMceRlocProbing s0.petrs : FbXtrM Unit).run x = .ok (u, s') →
      DevCurrent ⟨s', rlocs⟩ := by
    intro x hx hrun
    simp only [bind_ok] at hrun
    obtain ⟨_, s1, hall, _, s2, hreg, _, s3, hsmr, hprobe⟩ := hrun
    have hcur1 : AllCurrent (env.withRlocs rlocs).rlocs s1 :=
      updatedMapLocInf_all (hdirty.of_upkeep hx) hall
    have hloop : CacheCurrent rlocs s1 := by
      refine forM_keeps (I := CacheCurrent rlocs) (fun mle _ u x x' hx hrun => ?_)
        (hx.cache hcache) hall
      have hrest := (updatedMapLocInf_local _ _ hrun).rest
      exact hx.of_mces (by rw [hrest]) (by rw [hrest]) (by rw [hrest])
    have hreg := Conserved.programMapRegister_keeps
      (C := conservedVectors pktTupleHash nonces hmac rlocs s1) (Upkeep.refl s1) |>.of_run hreg
    have hsmr := (Conserved.programSmr_keeps hreg.2 1).of_run hsmr
    have hprobe := (Conserved.programMceRlocProbing_keeps hsmr.2 _).of_run hprobe
    exact DevCurrent.of_upkeep (d := ⟨s1, rlocs⟩) ⟨hloop, hcur1⟩ hprobe.2
  split_ifs at h
  · obtain ⟨_, s1, hupd, h⟩ := bind_ok.mp h
    exact hend (.of_conserved pktTupleHash nonces hmac (fun h => Conserved.updatedMapCacheInf_keeps
      (by exact rfl) ((conservedVectors _ _ _ _ _).reopen h hpetr)) hupd) h
  · exact hend (.refl _) h

theorem devBoot_current (hconf : VectorsConfigured conf)
    (h : (devBoot (fbWorld pktTupleHash nonces hmac) env rlocs conf.statics).run
      (xtrCtrlConstruct conf) = .ok (u, s)) : DevCurrent ⟨s, rlocs⟩ := by
  rw [devBoot, bind_ok] at h
  obtain ⟨_, s1, hstat, h⟩ := h
  have hs : Starting s1 conf := forM_keeps (I := (Starting · conf))
    (fun m hm _ _ _ hx hrun => configureStatic_starting hx (hconf.statics m hm) hrun)
    (.construct hconf) hstat
  rw [get_bind_ok] at h
  split at h
  · rename_i hmode
    exact rtrRun_current hs hconf (hs.mode ▸ hmode) h
  · rename_i hmode
    exact xtrRun_current hs hconf (hs.mode ▸ hmode) h

/-! ## Every reachable state -/

theorem DevReach.current (h : DevReach (fbWorld pktTupleHash nonces hmac) VectorsConfigured
    VectorsKept d) : DevCurrent d := by
  refine Reach.invariant ?_ ?_ h
  · rintro d ⟨conf, env, u, hconf, hboot⟩
    exact devBoot_current hconf hboot
  · intro d ev u d' hcur hok hstep
    exact devStep_current hcur hok hstep

/-- Vectors name only locators of the mapping they are computed from. -/
theorem Current.mem_ptrs (h : Current rlocs m info) : ∀ v ∈ info, ∀ p ∈ v.ptrs, p ∈ m.ptrs := by
  obtain ⟨v, rfl, hv⟩ := h
  rintro v' hv' p hp
  cases hv'
  exact mem_map.mpr (balancingVectorsCalculate_mem hv p hp)

/-- In every state such a run reaches, the vectors of every map-cache entry, of the Proxy-ETRs and
of every local entry are those of its mapping and of the list of RLOCs, and name only locators of
the mapping. -/
theorem vectors_current_of_reach (h : DevReach (fbWorld pktTupleHash nonces hmac) VectorsConfigured
    VectorsKept d) :
    (∀ e me, d.xtr.mces.cell e = some me → EntryCurrent d.rlocs d.xtr e me ∧
      ∀ v ∈ me.routingInfo, ∀ p ∈ v.ptrs, p ∈ me.mapping.ptrs) ∧
    (∀ l ml, d.xtr.mles.cell l = some ml → Current d.rlocs ml.mapping ml.fwdInfo ∧
      ∀ v ∈ ml.fwdInfo, ∀ p ∈ v.ptrs, p ∈ ml.mapping.ptrs) := by
  have hcur := DevReach.current h
  refine ⟨fun e me hme => ⟨hcur.cache e me hme, ?_⟩, fun l ml hml => ?_⟩
  · rcases hcur.cache e me hme with hv | ⟨hnone, -⟩
    · exact hv.mem_ptrs
    · simp [hnone]
  · have hv := hcur.mappings.current l ml hml id
    exact ⟨hv, hv.mem_ptrs⟩

end VectorsCurrent

/-! ## A device with a Proxy-ETR -/

/-- The locator of the local mapping, on `eth0`. -/
def labLocalLocator : Locator := ⟨0, .ip (.v4 0xc0000201#32), .UP, 1, 100, 255, 0⟩

/-- The configured Proxy-ETR. -/
def labPetr : Locator := ⟨1, .ip (.v4 0xc6336401#32), .UP, 1, 100, 255, 0⟩

def labLocalMapping : Mapping :=
  { mappingNewInit (.ippref (.v4 0x0a000000#32) 8) with
    locatorsLists := [[labLocalLocator]]
    locatorCount := 1 }

/-- The small network, with the local prefix reached over `eth0` and one Proxy-ETR. -/
def labDevConf : FbConf where
  mode := .xTR_MODE
  mapRequestRetries := 3
  probeInterval := 30
  probeRetries := 1
  probeRetriesInterval := 5
  pitrs := []
  petrs := [[labPetr]]
  petrsInfo := (balancingVectorsCalculate []
    { mappingNewInit (.ip (.v4 0)) with locatorsLists := [[labPetr]], locatorCount := 1 }).toOption
  statics := []
  localMdb := labConf.localMdb
  mles := Heap.empty.alloc
    ⟨labLocalMapping, (balancingVectorsCalculate [] labLocalMapping).toOption⟩
  allLocsMap := none
  mapResolvers := [.ip (.v4 2)]
  mapServers := []
  ifaceLocatorsTable := [⟨"eth0", [0], [0], [], none, none, false⟩]
  nextLoct := 2
  locators_nodup := by decide
  locators_lt := by decide

theorem labDevConf_configured : VectorsConfigured labDevConf where
  petrs := by decide
  petrsInfo := by
    left
    have hsome : (labDevConf.petrsInfo).isSome = true := by decide +kernel
    obtain ⟨v, hv⟩ := isSome_iff_exists.mp hsome
    exact ⟨v, hv, except_toOption_eq_some_iff.mp hv⟩
  statics := by decide
  tidy := by decide
  linked := by decide
  stored := by decide +kernel
  allLocs := by decide

def labFbWorld : FbWorld :=
  fbWorld (fun _ => 0) (fun n => UInt64.ofNat n) fun _ _ => []

/-- The states of all runs in this world. -/
abbrev LabDevReach : Device → Prop :=
  DevReach labFbWorld (fun _ => True) fun _ _ => True

/-- `eth0` gets a new address and goes down, and the Proxy-ETR is replaced. -/
theorem vectors_current_of_reach_eth0 : ∃ d, DevReach labFbWorld VectorsConfigured VectorsKept d ∧
    (∃ me, d.xtr.mces.cell d.xtr.petrs = some me ∧ me.mapping.ptrs = [2] ∧
      EntryCurrent d.rlocs d.xtr d.xtr.petrs me) ∧
    ∃ ml, d.xtr.mles.cell 0 = some ml ∧
      (ml.mapping.locators.map fun l => (l.addr, l.state)) = [(.ip (.v4 0xc0000202#32), .DOWN)] ∧
      Current d.rlocs ml.mapping ml.fwdInfo := by
  have hrun : ∃ d, DevReach labFbWorld VectorsConfigured VectorsKept d ∧
      (d.xtr.mces.cell d.xtr.petrs).map (fun me => me.mapping.ptrs) = some [2] ∧
      (d.xtr.mles.cell 0).map (fun ml => ml.mapping.locators.map fun l => (l.addr, l.state)) =
        some [(.ip (.v4 0xc0000202#32), .DOWN)] := DevReach.of_events
    labDevConf labEnv [.ip (.v4 0xc0000201#32)]
    [.setRlocs [.ip (.v4 0xc0000202#32)],
      .xtr (.ifEvent "eth0" (some (.ip (.v4 0xc0000201#32))) (some (.ip (.v4 0xc0000202#32))) .UP
        labEnv),
      .xtr (.ifEvent "eth0" none none .DOWN labEnv),
      .api (.petrsCreate [.v4 0xc6336402#32]) labEnv]
    labDevConf_configured (by decide +kernel)
  obtain ⟨d, hreach, hpetrs, hlocal⟩ := hrun
  obtain ⟨me, hme, hptrs⟩ := map_eq_some_iff.mp hpetrs
  obtain ⟨ml, hml, hlocs⟩ := map_eq_some_iff.mp hlocal
  obtain ⟨hcache, hmappings⟩ := vectors_current_of_reach hreach
  exact ⟨d, hreach, ⟨me, hme, hptrs, (hcache _ me hme).1⟩, ml, hml, hlocs, (hmappings 0 ml hml).1⟩

/-- After the Proxy-ETRs are deleted, their vectors still name the locator that was deleted. -/
theorem vectors_stale_after_petrsDelete :
    ∃ d, DevReach labFbWorld VectorsConfigured (fun _ _ => True) d ∧
      ∃ me, d.xtr.mces.cell d.xtr.petrs = some me ∧
        ¬ EntryCurrent d.rlocs d.xtr d.xtr.petrs me ∧
        ¬ ∀ v ∈ me.routingInfo, ∀ p ∈ v.ptrs, p ∈ me.mapping.ptrs := by
  have hrun : ∃ d, DevReach labFbWorld VectorsConfigured (fun _ _ => True) d ∧
      (d.xtr.mces.cell d.xtr.petrs).any (fun me => me.mapping.ptrs = [] ∧
        me.routingInfo.any (fun v => 1 ∈ v.ptrs)) = true ∧ d.xtr.mode ≠ .RTR_MODE :=
    DevReach.of_events labDevConf labEnv [.ip (.v4 0xc0000201#32)] [.api .petrsDelete labEnv]
      labDevConf_configured (by decide +kernel)
  obtain ⟨d, hreach, hpetrs, hmode⟩ := hrun
  obtain ⟨me, hme, hstale⟩ := (any_eq_true _ _).mp hpetrs
  obtain ⟨hptrs, hinfo⟩ := of_decide_eq_true hstale
  obtain ⟨v, hv, hp⟩ := (any_eq_true _ _).mp hinfo
  have hbad : ¬ ∀ v ∈ me.routingInfo, ∀ p ∈ v.ptrs, p ∈ me.mapping.ptrs := by
    intro hall
    have hmem := hall v hv 1 (of_decide_eq_true hp)
    simp [hptrs] at hmem
  refine ⟨d, hreach, me, hme, ?_, hbad⟩
  rintro (hcur | ⟨-, -, hrtr⟩)
  · exact hbad hcur.mem_ptrs
  · exact hmode hrtr

end Lispmob
