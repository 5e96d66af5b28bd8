import Lispmob.ListsFormed

/-!
# The locators attached to the interfaces

The table of the interfaces keeps, for each interface and family, the locators that take their
address from it. The objects belong to the mappings of the local entries. `Detached` is what an
interface event may do to both at once: a locator that leaves its mapping is taken off its
interface, and all others stay where they are.

An event does no more than that (`xtrIfEvent_detached`) as long as the lists of the mappings stay
well formed.
-/

namespace Lispmob

open Prog Option

/-! ## Mappings -/

section Mappings

variable {m m' : Mapping} {loct : Locator} {a : IpAddr}

theorem mappingGetLoctWithAddr_none (h : WellFormedLists m.locatorsLists)
    (hget : mappingGetLoctWithAddr m (.ip a) = .ok none) : .ip a ∉ addresses m.locators := by
  intro hmem
  obtain ⟨x, hx, hhas, haddr⟩ := mem_addresses.mp hmem
  rw [mappingGetLoctWithAddr, mappingGetLoctLstWithAddrType] at hget
  rcases loctLstIndex_cases (a := .ip a) (plain_lafi rfl) fun l hl => (h.lists l hl).nonempty with
    ⟨-, hall⟩ | ⟨i, y, l, hsome, hgeti, hy⟩
  · obtain ⟨l, hl, hxl⟩ := List.mem_flatten.mp hx
    cases l with
    | nil => cases hxl
    | cons y l =>
      have hk := (h.lists _ hl).oneKind x hxl y (by simp)
      exact hall _ hl y rfl (haddr ▸ hk)
  · obtain ⟨A, B, -, hgetD, -⟩ := lists_at hgeti
    have hl := h.lists _ (List.mem_of_getElem? hgeti)
    have hkind : ∀ z ∈ y :: l, sameKind (.ip a) z.addr := fun z hz =>
      hy.trans (hl.oneKind y (by simp) z hz)
    have hxl : x ∈ y :: l := mem_list_of_kind h hgeti (by simp) hx (haddr ▸ hy.symm)
    obtain ⟨z, -, hz, -⟩ := locatorListGetLocatorWithAddr_some rfl hkind
      (mem_addresses.mpr ⟨x, hxl, hhas, haddr⟩)
    rw [hsome] at hget
    simp only [bind, Except.bind, hgetD, hz] at hget
    cases hget

/-- A locator that gets its first address stays in the mapping. -/
theorem mappingActivateLocator_ptrs (h : WellFormedLists m.locatorsLists)
    (hhas : mappingHasLocator m loct = .ok true)
    (hnew : mappingGetLoctWithAddr m (.ip a) = .ok none)
    (hact : mappingActivateLocator m loct (.ip a) = .ok m') : m'.ptrs.Perm m.ptrs := by
  obtain rfl | ⟨-, m1, x, ret, hptr, hperm, hadded⟩ := mappingActivateLocator_added h hhas hact
  · exact .refl _
  · have hfree : ∀ y ∈ m1.locators, y.addr ≠ .ip a := by
      intro y hy haddr
      refine mappingGetLoctWithAddr_none h hnew (mem_addresses.mpr ⟨y, ?_, ?_, haddr⟩)
      · exact hperm.mem_iff.mpr (List.mem_cons_of_mem _ hy)
      · simp [Locator.hasAddr, haddr, lispAddrLafi]
    cases hadded with
    | inserted _ hlocs =>
      refine (hlocs.map _).trans ?_
      rw [List.map_cons, ← hptr]
      exact (hperm.map _).symm
    | replaced haddr _ hold => exact absurd haddr (hfree _ (hold.mem_iff.mpr (by simp)))
    | kept hy haddr => exact absurd haddr (hfree _ hy)

theorem eq_noAddr {a : LispAddr} (h : lispAddrLafi a = .NO_ADDR) : a = .noAddr := by
  cases a with
  | noAddr => rfl
  | _ => cases h

/-- A locator without address is taken out of its list. -/
theorem removeLocatorAt_ptrs {i : Nat} (h : WellFormedLists m.locatorsLists)
    (hno : lispAddrLafi loct.addr = .NO_ADDR) (hhas : mappingHasLocator m loct = .ok true)
    (hi : loctLstIndex .NO_ADDR none 0 m.locatorsLists = .ok (some i)) :
    m.ptrs.Perm (loct.ptr :: (removeLocatorAt m i loct.ptr).ptrs) := by
  obtain ⟨j, l, x, hj, hget, hx, hptr⟩ := mappingHasLocator_list hhas
  obtain rfl : j = i := by
    rw [mappingGetLoctLstWithAddrType, eq_noAddr hno] at hj
    simpa using hj.symm.trans hi
  have hb : m.Becomes (removeLocatorAt m j loct.ptr) l (l.eraseP (·.ptr = x.ptr)) :=
    .set hget (by simp [removeLocatorAt, List.getD_eq_getElem?_getD, hget, hptr])
  exact hptr ▸ (hb.perm_erase (h.lists l hb.mem).nodup hx).map _

end Mappings

/-! ## Interfaces -/

/-- The locators attached to an interface, with its name and the family. -/
def IfaceLocators.attachments (i : IfaceLocators) : List (Nat × String × Af) :=
  i.ipv4Locators.map (·, i.ifaceName, .INET) ++ i.ipv6Locators.map (·, i.ifaceName, .INET6)

variable {i : IfaceLocators} {name : String}

theorem IfaceLocators.mem_attachments {p : Nat} {afi : Af} :
    (p, name, afi) ∈ i.attachments ↔ name = i.ifaceName ∧ p ∈ i.ofFamily afi := by
  cases afi <;> simp [attachments, ofFamily, and_comm, eq_comm]

/-- The locators attached to the interfaces. -/
def Xtr.attachments {R : Type} (s : Xtr R) : List (Nat × String × Af) :=
  s.ifaceLocatorsTable.flatMap IfaceLocators.attachments

section Links

variable {R F : Type} {W : World R F} {env : CtrlEnv} {s s' s1 : Xtr R} {loc : Nat} {a : IpAddr}
  {gone : List Nat} {mle : Nat} {u : Unit}

/-- No locator is in the mappings of two local entries. -/
def OneOwner (s : Xtr R) : Prop :=
  ∀ l l' ml ml' p, s.mles.cell l = some ml → s.mles.cell l' = some ml' → p ∈ ml.mapping.ptrs →
    p ∈ ml'.mapping.ptrs → l = l'

instance (s : Xtr R) : Decidable (OneOwner s) :=
  decidable_of_iff (s.mles.All fun l ml => s.mles.All fun l' ml' => ∀ p ∈ ml.mapping.ptrs,
      p ∈ ml'.mapping.ptrs → l = l')
    ⟨fun h l l' ml ml' p hl hl' => h l ml hl l' ml' hl' p, fun h l ml hl l' ml' hl' p =>
      h l l' ml ml' p hl hl'⟩

/-- The locators of `gone` left their mappings and interfaces. Nothing else did. -/
structure Detached (gone : List Nat) (s s' : Xtr R) : Prop where
  localMdb : s'.localMdb = s.localMdb
  nextLoct : s'.nextLoct = s.nextLoct
  entries : s'.ifaceLocatorsTable.map (·.mapLocEntries) = s.ifaceLocatorsTable.map (·.mapLocEntries)
  attachments : s'.attachments = s.attachments.filter fun x => x.1 ∉ gone
  kept : ∀ l ml, s.mles.cell l = some ml → ∃ ml', s'.mles.cell l = some ml' ∧
    ∀ p, p ∈ ml'.mapping.ptrs ↔ p ∈ ml.mapping.ptrs ∧ p ∉ gone
  old : ∀ l ml', s'.mles.cell l = some ml' → ∃ ml, s.mles.cell l = some ml

namespace Detached

theorem of_same (hmdb : s'.localMdb = s.localMdb) (hnext : s'.nextLoct = s.nextLoct)
    (htable : s'.ifaceLocatorsTable = s.ifaceLocatorsTable)
    (hcells : ∀ l, (s'.mles.cell l).map (·.mapping) = (s.mles.cell l).map (·.mapping)) :
    Detached [] s s' := by
  refine ⟨hmdb, hnext, by rw [htable], ?_, fun l ml hl => ?_, fun l ml' hl => ?_⟩
  · simp [Xtr.attachments, htable]
  · have hcell := hcells l
    rw [hl, map_some, map_eq_some_iff] at hcell
    obtain ⟨ml', hl', hm⟩ := hcell
    exact ⟨ml', hl', fun p => by simp [hm]⟩
  · have hcell := hcells l
    rw [hl, map_some, eq_comm, map_eq_some_iff] at hcell
    obtain ⟨ml, hml, -⟩ := hcell
    exact ⟨ml, hml⟩

theorem refl (s : Xtr R) : Detached [] s s :=
  .of_same rfl rfl rfl fun _ => rfl

theorem trans {gone' : List Nat} (h : Detached gone s s1) (h' : Detached gone' s1 s') :
    Detached (gone ++ gone') s s' := by
  refine ⟨h'.localMdb.trans h.localMdb, h'.nextLoct.trans h.nextLoct,
    h'.entries.trans h.entries, ?_,
    fun l ml hl => ?_, fun l ml' hl => ?_⟩
  · rw [h'.attachments, h.attachments, List.filter_filter]
    simp [Bool.and_comm]
  · obtain ⟨ml1, hml1, hp1⟩ := h.kept l ml hl
    obtain ⟨ml2, hml2, hp2⟩ := h'.kept l ml1 hml1
    refine ⟨ml2, hml2, fun p => ?_⟩
    rw [hp2, hp1, List.mem_append, not_or, and_assoc]
  · obtain ⟨ml1, hml1⟩ := h'.old l ml' hl
    exact h.old l ml1 hml1

/-- One mapping gets its locators in another order. -/
theorem of_setMapping {ml : MapLocalEntry R} {m : Mapping} {lost : List Locator}
    (hml : s.mles.cell mle = some ml) (hptrs : m.ptrs.Perm ml.mapping.ptrs) :
    Detached [] s ({ s with lost := lost }.setMapping mle m) := by
  refine ⟨rfl, rfl, rfl, by simp [Xtr.attachments, Xtr.setMapping], fun l ml1 hl => ?_,
    fun l ml' hl => ?_⟩
  · rw [Xtr.setMapping, modify_mapping_cell hml]
    split_ifs with heq
    · obtain rfl : ml = ml1 := by
        rw [heq, hml] at hl
        exact some.inj hl
      exact ⟨_, rfl, fun p => by simp [hptrs.mem_iff]⟩
    · exact ⟨ml1, hl, fun p => by simp⟩
  · rw [Xtr.setMapping, modify_mapping_cell hml] at hl
    split_ifs at hl with heq
    · exact ⟨ml, heq ▸ hml⟩
    · exact ⟨ml', hl⟩

theorem oneOwner (h : Detached gone s s') (hs : OneOwner s) : OneOwner s' := by
  have hold : ∀ {l ml' p}, s'.mles.cell l = some ml' → p ∈ ml'.mapping.ptrs →
      ∃ ml, s.mles.cell l = some ml ∧ p ∈ ml.mapping.ptrs := by
    intro l ml' p hl hp
    obtain ⟨ml, hml⟩ := h.old l ml' hl
    obtain ⟨ml'', hl', hptrs⟩ := h.kept l ml hml
    cases hl.symm.trans hl'
    exact ⟨ml, hml, ((hptrs p).mp hp).1⟩
  intro l l' ml ml' p hl hl' hp hp'
  obtain ⟨ml1, hml1, hp1⟩ := hold hl hp
  obtain ⟨ml2, hml2, hp2⟩ := hold hl' hp'
  exact hs l l' ml1 ml2 p hml1 hml2 hp1 hp2

theorem nodup (h : Detached gone s s') (hs : (s.attachments.map (·.1)).Nodup) :
    (s'.attachments.map (·.1)).Nodup := by
  rw [h.attachments]
  exact hs.sublist (List.filter_sublist.map _)

end Detached

/-! ## Taking a locator off its interface -/

theorem attachments_map_fst : s.attachments.map (·.1) =
    s.ifaceLocatorsTable.flatMap fun i => i.ipv4Locators ++ i.ipv6Locators := by
  rw [Xtr.attachments, List.map_flatMap]
  congr
  simp [IfaceLocators.attachments, Function.comp_def]

theorem filter_attachments (h : loc ∉ i.ipv4Locators ++ i.ipv6Locators) :
    (i.attachments.filter fun x => x.1 ∉ [loc]) = i.attachments := by
  refine List.filter_eq_self.mpr fun x hx => ?_
  simp only [IfaceLocators.attachments, List.mem_append, List.mem_map] at hx
  simp only [List.mem_append, not_or] at h
  obtain ⟨p, hp, rfl⟩ | ⟨p, hp, rfl⟩ := hx
  · simpa using ne_of_mem_of_not_mem hp h.1
  · simpa using ne_of_mem_of_not_mem hp h.2

/-- The record of an interface with one locator less. -/
theorem erase_attachments (h : (i.ipv4Locators ++ i.ipv6Locators).Nodup) :
    (if loc ∈ i.ipv4Locators then { i with ipv4Locators := i.ipv4Locators.erase loc }
      else { i with ipv6Locators := i.ipv6Locators.erase loc }).attachments =
      i.attachments.filter fun x => x.1 ∉ [loc] := by
  obtain ⟨h4, h6, hdisj⟩ := List.nodup_append'.mp h
  have hfilter : ∀ l : List Nat, l.Nodup → l.erase loc = l.filter fun p => p ∉ [loc] := by
    intro l hl
    rw [hl.erase_eq_filter]
    exact List.filter_congr fun p _ => by simp [bne, beq_eq_decide]
  have hself : ∀ l : List Nat, loc ∉ l → (l.filter fun p => p ∉ [loc]) = l := by
    intro l hl
    refine List.filter_eq_self.mpr fun p hp => ?_
    simpa using ne_of_mem_of_not_mem hp hl
  have hboth : i.attachments.filter (fun x => x.1 ∉ [loc]) =
      (i.ipv4Locators.filter fun p => p ∉ [loc]).map (·, i.ifaceName, .INET) ++
        (i.ipv6Locators.filter fun p => p ∉ [loc]).map (·, i.ifaceName, .INET6) := by
    rw [IfaceLocators.attachments, List.filter_append, List.filter_map, List.filter_map]
    rfl
  rw [hboth]
  split_ifs with h4m
  · rw [hself i.ipv6Locators fun h6m => hdisj h4m h6m, ← hfilter _ h4]
    rfl
  · rw [hself i.ipv4Locators h4m, ← hfilter _ h6]
    rfl

/-- `iface_locators_unattach_locator` takes the locator off, whatever interface it is on. -/
theorem ifaceLocatorsUnattachLocator_attachments (hnodup : (s.attachments.map (·.1)).Nodup)
    (h : (ifaceLocatorsUnattachLocator loc).run s = .ok (u, s')) :
    s'.attachments = s.attachments.filter (fun x => x.1 ∉ [loc]) ∧
      s' = { s with ifaceLocatorsTable := s'.ifaceLocatorsTable } ∧
      s'.ifaceLocatorsTable.map (·.mapLocEntries) = s.ifaceLocatorsTable.map (·.mapLocEntries) := by
  rw [attachments_map_fst, List.nodup_flatMap] at hnodup
  simp only [ifaceLocatorsUnattachLocator, modify_ok] at h
  obtain ⟨-, rfl⟩ := h
  split
  · rename_i hfind
    refine ⟨(List.filter_eq_self.mpr fun x hx => ?_).symm, rfl, rfl⟩
    obtain ⟨i, hi, hx⟩ := List.mem_flatMap.mp hx
    have hnot := List.find?_eq_none.mp hfind i hi
    have hloc : loc ∉ i.ipv4Locators ++ i.ipv6Locators := by simpa using hnot
    have hmem := (filter_attachments hloc).symm ▸ hx
    exact (List.mem_filter.mp hmem).2
  · rename_i found hfind
    have : Std.Symm fun i j : IfaceLocators => (i.ipv4Locators ++ i.ipv6Locators).Disjoint
        (j.ipv4Locators ++ j.ipv6Locators) := ⟨fun _ _ hij _ hx hy => hij hy hx⟩
    have hfound := List.mem_of_find?_eq_some hfind
    have hloc : loc ∈ found.ipv4Locators ++ found.ipv6Locators := by
      simpa using List.find?_some hfind
    refine ⟨?_, rfl, ?_⟩
    · simp only [Xtr.attachments, List.flatMap_map, List.filter_flatMap]
      refine List.flatMap_congr fun i hi => ?_
      by_cases hin : loc ∈ i.ipv4Locators ++ i.ipv6Locators
      · -- it is on no other interface
        obtain rfl : i = found := by
          by_contra hne
          exact hnodup.2.forall hi hfound hne hin hloc
        rw [if_pos rfl]
        exact erase_attachments (hnodup.1 i hi)
      · rw [filter_attachments hin]
        simp only [List.mem_append, not_or] at hin
        rw [if_neg hin.1, List.erase_of_not_mem hin.2]
        split_ifs <;> rfl
    · rw [List.map_map]
      refine List.map_congr_left fun i _ => ?_
      simp only [Function.comp_apply]
      split_ifs <;> rfl

/-! ## Events -/

theorem updatedMapLocInf_detached
    (h : (updatedMapLocInf W env mle).run s = .ok (u, s')) : Detached [] s s' := by
  simp only [updatedMapLocInf, bind_ok, derefMle_ok, lift_ok, modify_ok] at h
  obtain ⟨ml, s, ⟨hml, rfl⟩, info, s, ⟨-, rfl⟩, -, rfl⟩ := h
  refine .of_same rfl rfl rfl fun l => ?_
  rw [Heap.modify_cell]
  split_ifs with heq
  · rw [heq, map_map]
    rfl
  · rfl

end Links

section IfEvents

variable {W : FbWorld} {env : CtrlEnv} {loc : Nat} {a : IpAddr}
  {s s' : FbXtr} {entries : List Nat} {u : Unit} {ifl : IfaceLocators}
  {status : LinkState} {ret : Ret}

theorem updateLocalLocator_detached {f : Locator → Locator} (hf : ∀ x, (f x).ptr = x.ptr)
    (h : (updateLocalLocator loc f).run s = .ok (u, s')) : Detached [] s s' := by
  obtain ⟨hframe, hcells⟩ := updateLocalLocator_eq h
  refine ⟨by rw [hframe], by rw [hframe], by rw [hframe], by rw [hframe]; simp [Xtr.attachments],
    fun l ml hl => ?_, fun l ml' hl => ?_⟩
  · refine ⟨_, by rw [hcells, hl, map_some], fun p => ?_⟩
    simp [Mapping.mapLocator_ptrs hf]
  · rw [hcells] at hl
    obtain ⟨ml, hml, -⟩ := map_eq_some_iff.mp hl
    exact ⟨ml, hml⟩

/-- What a new address does to a locator without one. -/
theorem ActivatedOrDropped.links {loct : Locator} (hno : lispAddrLafi loct.addr = .NO_ADDR)
    (hnodup : (s.attachments.map (·.1)).Nodup) (hown : OneOwner s) (hf : FormedAt s [loct.ptr])
    (hstep : ActivatedOrDropped W env loct a s s') : ∃ gone, Detached gone s s' := by
  cases hstep with
  | unowned => exact ⟨[], .refl s⟩
  | detached hml hhas hdup hi hun =>
    -- there is a list of those without address: the locator was found in it
    obtain ⟨i, -, -, hget, -⟩ := mappingHasLocator_list hhas
    rw [mappingGetLoctLstWithAddrType, eq_noAddr hno] at hget
    cases hget.symm.trans hi
  | @dropped mle i ml _ s1 hml hhas hdup hi hun =>
    have hloc := mappingHasLocator_mem hhas
    have hperm := removeLocatorAt_ptrs (hf mle ml hml loct.ptr (by simp) hloc) hno hhas hi
    have hgone := (List.nodup_cons.mp (hperm.nodup_iff.mp
      (hf mle ml hml loct.ptr (by simp) hloc).isTidy.nodup)).1
    obtain ⟨hatt, hframe, hentries⟩ := ifaceLocatorsUnattachLocator_attachments hnodup hun
    have hml1 : s1.mles.cell mle = some ml := by rw [hframe, hml]
    refine ⟨[loct.ptr], by rw [hframe]; rfl, by rw [hframe]; rfl, hentries, hatt,
      fun l ml2 hl => ?_,
      fun l ml' hl => ?_⟩
    · rw [Xtr.setMapping, modify_mapping_cell hml1]
      split_ifs with heq
      · obtain rfl : ml = ml2 := by
          rw [heq, hml] at hl
          exact some.inj hl
        refine ⟨_, rfl, fun p => ?_⟩
        rw [hperm.mem_iff, List.mem_cons, List.mem_singleton]
        constructor
        · exact fun hp => ⟨.inr hp, fun heq => hgone (heq ▸ hp)⟩
        · exact fun h => h.1.resolve_left h.2
      · refine ⟨ml2, by rw [hframe, hl], fun p => ?_⟩
        rw [List.mem_singleton]
        refine ⟨fun hp => ⟨hp, ?_⟩, fun hp => hp.1⟩
        rintro rfl
        exact heq (hown l mle ml2 ml _ hl hml hp hloc)
    · rw [Xtr.setMapping, modify_mapping_cell hml1] at hl
      split_ifs at hl with heq
      · exact ⟨ml, heq ▸ hml⟩
      · exact ⟨ml', by rw [← hl, hframe]⟩
  | @activated mle ml m _ hml hhas hnew hact hupd =>
    have hloc := mappingHasLocator_mem hhas
    have hperm := mappingActivateLocator_ptrs (hf mle ml hml loct.ptr (by simp) hloc) hhas hnew hact
    exact ⟨[] ++ [], (Detached.of_setMapping hml hperm).trans (updatedMapLocInf_detached hupd)⟩

/-- What is known of the links between interfaces and mappings along an event. -/
structure LinksDistinct (s : FbXtr) : Prop where
  attachments : (s.attachments.map (·.1)).Nodup
  owners : OneOwner s

theorem Detached.distinct {gone : List Nat} (h : Detached gone s s') (hs : LinksDistinct s) :
    LinksDistinct s' :=
  ⟨h.nodup hs.attachments, h.oneOwner hs.owners⟩

/-- What a new address does to one locator of the interface. -/
theorem ifEventLocator_detached {locs : List Nat} (hl : LinksDistinct s)
    (hf : FormedAt s (loc :: locs))
      (hrun : (ifEventLocator W env (.ip a) loc).run s = .ok (u, s')) :
    ∃ gone, Detached gone s s' := by
  obtain ⟨loct, l, ml, hml, hx, rfl, ⟨hno, hstep⟩ | ⟨-, hupd⟩⟩ | ⟨lost, rfl⟩ :=
    ifEventLocator_cases hrun
  · refine hstep.links hno hl.attachments hl.owners fun l ml hl p hp => ?_
    exact hf l ml hl p (by simp_all)
  · exact ⟨[], updateLocalLocator_detached (f := fun l => { l with addr := .ip a }) (fun _ => rfl)
      hupd⟩
  · exact ⟨[], .of_same rfl rfl rfl fun _ => rfl⟩

theorem modifyIface_detached {f : IfaceLocators → IfaceLocators}
    (hf : ∀ i, (f i).attachments = i.attachments ∧ (f i).mapLocEntries = i.mapLocEntries)
    (hrun : (modifyIface name f).run s = .ok (u, s')) : Detached [] s s' := by
  obtain ⟨-, rfl⟩ := hrun
  refine ⟨rfl, rfl, ?_, ?_, fun l ml hl => ⟨ml, hl, by simp⟩, fun l ml hl => ⟨ml, hl⟩⟩
  · rw [List.map_map]
    refine List.map_congr_left fun i _ => ?_
    simp only [Function.comp_apply]
    split_ifs
    · exact (hf i).2
    · rfl
  · simp only [Xtr.attachments, List.flatMap_map, List.not_mem_nil, not_false_eq_true, decide_true,
      List.filter_true]
    refine List.flatMap_congr fun i _ => ?_
    split_ifs
    · exact (hf i).1
    · rfl

theorem ifEventEnd_detached (hrun : (ifEventEnd W env).run s = .ok (ret, s')) :
    Detached [] s s' := by
  have hend : ∀ {x : FbXtr},
      (do programSmr LISPD_SMR_TIMEOUT; return Ret.GOOD :
        FbXtrM Ret).run x = .ok (ret, s') → Detached [] x s' := by
    intro x hx
    obtain ⟨_, s2, hsmr, hx⟩ := bind_ok.mp hx
    obtain ⟨-, rfl⟩ := pure_ok.mp hx
    rw [programSmr_eq hsmr]
    exact .of_same rfl rfl rfl fun _ => rfl
  rw [ifEventEnd, get_bind_ok] at hrun
  split at hrun
  · obtain ⟨_, s1, hupd, hrun⟩ := bind_ok.mp hrun
    exact (updatedMapLocInf_detached hupd).trans (hend hrun)
  · exact hend hrun

theorem ifEventAddress_detached {oldAddr : Option LispAddr} (h : Formed s)
    (hl : LinksDistinct s) (hs : AddressSettles s ifl.mapLocEntries (ifl.ofFamily (ipAddrAfi a)) a)
    (hrun : (ifEventAddress W env ifl (ipAddrAfi a) oldAddr (.ip a)).run s = .ok (u, s')) :
    ∃ gone, Detached gone s s' := by
  refine (ifEventAddress_induct
    (I := fun locs x => Settling ifl.mapLocEntries a locs x ∧ ∃ gone, Detached gone s x)
    (J := fun entries x => FormedBut entries a x ∧ ∃ gone, Detached gone s x)
    ?_ ?_ ?_ ⟨h.settling hs, [], .refl s⟩ hrun).2
  · rintro loc locs _ x x' ⟨hx, gone, hd⟩ h1
    obtain ⟨gone', hstep⟩ := ifEventLocator_detached (hd.distinct hl) hx.formedAt h1
    exact ⟨hx.step h1, _, hd.trans hstep⟩
  · rintro _ x x' ⟨hx, gone, hd⟩ h2
    exact ⟨hx.iface h2, _, hd.trans (modifyIface_detached (fun i => by
      cases ipAddrAfi a <;> exact ⟨rfl, rfl⟩) h2)⟩
  · rintro mle entries ml m lost x ⟨hx, gone, hd⟩ hml hsort
    obtain ⟨hformed, hptrs⟩ := hx.sort hml hsort
    exact ⟨hformed, _, hd.trans (.of_setMapping hml hptrs)⟩

theorem ifEventStatus_detached
    (hrun : (ifEventStatus W env ifl status).run s = .ok (u, s')) : Detached [] s s' := by
  simp only [ifEventStatus, bind_ok] at hrun
  obtain ⟨_, s1, h1, _, s2, h2, h3⟩ := hrun
  have hd1 : Detached [] s s1 := forM_keeps (fun loc _ u x x' hx hupd => hx.trans
    (updateLocalLocator_detached (f := fun l => { l with state := status }) (fun _ => rfl) hupd))
    (.refl s) h1
  have hd2 : Detached [] s1 s2 := modifyIface_detached
    (f := fun i => { i with statusChanged := !i.statusChanged }) (fun i => ⟨rfl, rfl⟩) h2
  exact forM_keeps (fun mle _ u x x' hx hupd => hx.trans (updatedMapLocInf_detached hupd))
    (hd1.trans hd2) h3

/-- An interface event takes locators out of mappings and off interfaces together. -/
theorem xtrIfEvent_detached {ifaceName : String} {oldAddr newAddr : Option LispAddr}
    (h : ∀ a ∈ eventIp newAddr, Formed s) (hl : LinksDistinct s)
    (hs : IfEventSettles s ifaceName newAddr)
    (hrun : (xtrIfEvent W env ifaceName oldAddr newAddr status).run s = .ok (ret, s')) :
    ∃ gone, Detached gone s s' := by
  cases xtrIfEvent_cases hrun with
  | unknown | unchanged | noIp => exact ⟨[], .refl s⟩
  | status hfind hnew hst hend =>
    exact ⟨_, (ifEventStatus_detached hst).trans (ifEventEnd_detached hend)⟩
  | @address ifl a _ _ hfind hnew hdiff hadr hend =>
    have ha : a ∈ eventIp newAddr := by simp [hnew, eventIp]
    obtain ⟨gone, hd⟩ := ifEventAddress_detached (h a ha) hl
      (hs ifl (by simp [hfind]) a (by simpa using ha)) hadr
    exact ⟨_, hd.trans (ifEventEnd_detached hend)⟩

end IfEvents

end Lispmob
