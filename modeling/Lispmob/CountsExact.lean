import Lispmob.DeviceRuns
import Lispmob.LocatorCounts
import Lispmob.MessageBounds
import Lispmob.VectorsCurrent

/-!
# The counts of locators in the runs of a device

`CountsExact` says that every mapping a router holds, in the map cache or of its own, has an exact
count. Messages, timers and packets keep it. An interface whose address changes must have plain
locators only (`AddressTaken`), since others can be lost when their list is sorted; and the list of
Proxy-ETRs may be replaced or deleted only when its count is `0`, which `glist_remove_all` does not
reset.

The main result is `locator_counts_exact`.
-/

namespace Lispmob

open AddrField List Option Prog

variable {b : List UInt8} {m : Mapping} {α : Type}

/-! ## Records of a message -/

/-- An address that was read from a message is no IP prefix. -/
def AddrField.NoPrefix (f : AddrField) : Prop :=
  ∀ a, f.fresh = some a → lispAddrLafi a ≠ .IPPREF

/-- The parser returns no IP prefix: what it stores of an LCAF is an LCAF. -/
theorem lispAddrParse_noPrefix {off : Nat} :
    SafeResult (fun _ => False) (fun r => r.field.NoPrefix) (lispAddrParse b off) := by
  refine .of_forall fun r hr a ha hpref => ?_
  by_cases hafi : afiAt b off = some LISP_AFI_LCAF
  · obtain ⟨t, k, ht, hbody, -⟩ := (addrAt_of_parse hr).lcaf_inv hafi
    have hwhole : r.field.shape = .whole := (fresh_iff _).mp ⟨a, ha⟩
    obtain ⟨htype, -⟩ := lcafContent_of_parse hr ht (by simp [hwhole]) (by simp [hwhole])
    have hzero : lispAddrLcafType r.field.outline = 0 := by
      cases hf : r.field <;> rw [hf] at ha <;> cases ha
      · rfl
      · cases a <;> first | rfl | cases hpref
    obtain ⟨-, hbare⟩ := hbody.of_unknown (by rw [← htype, hzero]; decide)
    rw [hwhole] at hbare
    cases hbare
  · rcases lispAddrParse_plain hr hafi with ⟨-, _, hf⟩ | ⟨-, _, _, hf, -⟩ | ⟨-, -, hf | hf⟩
    all_goals
      rw [hf] at ha
      cases ha
      cases hpref

theorem lispMsgParseLoc_noPrefix {data : Nat} : SafeResult (fun _ => False)
    (fun o => ∀ p, o = some p → p.1.addr.NoPrefix) (lispMsgParseLoc b data) := by
  refine .bind .any fun flags _ => .bind lispAddrParse_noPrefix fun r hr => ?_
  split_ifs
  · rintro _ ⟨⟩
  · refine .bind .any fun _ _ => .bind .any fun _ _ => .bind .any fun _ _ =>
      .bind .any fun _ _ => ?_
    rintro _ ⟨⟩
    exact hr

theorem readLocators_noPrefix : ∀ {n data : Nat}, SafeResult (fun _ => False)
    (fun o => ∀ p, o = some p → p.1.length = n ∧ ∀ l ∈ p.1, l.addr.NoPrefix) (readLocators b n data)
  | 0, _ => by
    rintro _ ⟨⟩
    simp
  | n + 1, data => by
    refine .bind lispMsgParseLoc_noPrefix fun o hloc => ?_
    cases o with
    | none => rintro _ ⟨⟩
    | some p =>
      refine .bind readLocators_noPrefix fun rest hrest => ?_
      rintro _ hmap
      obtain ⟨⟨locs, e⟩, rfl, rfl⟩ := map_eq_some_iff.mp hmap
      obtain ⟨hlen, hall⟩ := hrest _ rfl
      exact ⟨by rw [length_cons, hlen], forall_mem_cons.mpr ⟨hloc p rfl, hall⟩⟩

/-- The results of a partial function on the elements of a list. -/
theorem mapM_some {β : Type} {f : α → Option β} {l : List α} {l' : List β}
    (h : l.mapM f = some l') : l'.length = l.length ∧ ∀ y ∈ l', ∃ x ∈ l, f x = some y := by
  induction l generalizing l' with
  | nil =>
    cases h
    simp
  | cons x l ih =>
    simp only [mapM_cons, bind_eq_bind, bind_eq_some_iff, Option.pure_def, some.injEq] at h
    obtain ⟨y, hy, ys, hys, rfl⟩ := h
    grind

/-- A record read from the bytes of a message, with addresses that are whole, is one of those the
results are about. -/
theorem readMappingRecord_readable {data e : Nat} {r : RecordRead} {rec : MappingRecord}
    (h : readMappingRecord b data = .ok (some (r, e))) (hrec : r.record = some rec) :
    (RawRecord.wellFormed rec).Readable := by
  simp only [readMappingRecord, except_bind_ok] at h
  obtain ⟨ttl, -, flags, -, eid, -, h⟩ := h
  split_ifs at h
  · cases except_pure_ok.mp h
  · simp only [except_bind_ok] at h
    obtain ⟨plen, -, count, -, o, hlocs, h⟩ := h
    cases o with
    | none => cases except_pure_ok.mp h
    | some p =>
      obtain ⟨locs, e'⟩ := p
      cases except_pure_ok.mp h
      obtain ⟨hlen, hall⟩ : locs.length = count.toNat ∧ ∀ l ∈ locs, l.addr.NoPrefix :=
        (congrArg (SafeResult (fun _ => False) _) hlocs).mp readLocators_noPrefix _ rfl
      simp only [RecordRead.record, bind_eq_bind, bind_eq_some_iff,
        Option.pure_def, Option.some.injEq] at hrec
      obtain ⟨a, -, locators, hmap, rfl⟩ := hrec
      obtain ⟨hlen', hmem⟩ := mapM_some hmap
      refine ⟨?_, fun x hx => ?_⟩
      · rw [hlen', hlen]
        exact count.toNat_lt
      · obtain ⟨l, hl, hlx⟩ := hmem x hx
        obtain ⟨a, ha, rfl⟩ := map_eq_some_iff.mp hlx
        exact hall l hl a ha

/-- A record whose addresses are whole has no IP prefix among its locators, and the mapping that is
built from it has none and an exact count. -/
theorem read_record_counted (data next : Nat) (probed : Probed) {e : Nat} {r : RecordRead}
    {rec : MappingRecord} {p : ParsedRecord} (h : readMappingRecord b data = .ok (some (r, e)))
    (hrec : r.record = some rec)
    (hp : lispMsgParseMappingRecord next probed (.wellFormed rec) = .ok p) (hret : p.ret = .GOOD) :
    (∀ l ∈ rec.locators, lispAddrLafi l.addr ≠ .IPPREF) ∧ NoPrefixes p.m.locators ∧
      Counted p.m := by
  have hread := readMappingRecord_readable h hrec
  obtain ⟨hcounted, hprefixes⟩ := lispMsgParseMappingRecord_counted hread hret hp
  exact ⟨hread.2, hprefixes, hcounted⟩

/-- `10.0.0.0/8` with an IPv4 and an IPv6 locator. -/
def labRecordBytes : List UInt8 :=
  [0, 0, 0, 10, 2, 8, 0x10, 0, 0, 0, 0, 1, 10, 0, 0, 0] ++
    [1, 100, 255, 0, 0, 1, 0, 1, 192, 0, 2, 1] ++
    [2, 100, 255, 0, 0, 1, 0, 2, 0x20, 1, 0x0d, 0xb8] ++ List.replicate 11 0 ++ [1]

theorem read_record_counted_two : ∃ r e rec p,
    readMappingRecord labRecordBytes 0 = .ok (some (r, e)) ∧ r.record = some rec ∧
      rec.locators.length = 2 ∧ lispMsgParseMappingRecord 0 .null (.wellFormed rec) = .ok p ∧
      (∀ l ∈ rec.locators, lispAddrLafi l.addr ≠ .IPPREF) ∧ NoPrefixes p.m.locators ∧
      Counted p.m :=
  ⟨_, _, _, _, rfl, rfl, rfl, rfl,
    read_record_counted (b := labRecordBytes) 0 0 .null rfl rfl rfl rfl⟩

/-! ## The invariant -/

/-- The mapping of a map-cache entry: its count is exact, and its lists can be copied. -/
structure CacheCounted (m : Mapping) : Prop where
  counted : Counted m
  prefixes : NoPrefixes m.locators

/-- Every mapping of the router has an exact count. -/
structure CountsExact {R : Type} (s : Xtr R) : Prop where
  cache : s.mces.All fun _ me => CacheCounted me.mapping
  mappings : s.mles.All fun _ ml => Counted ml.mapping

section Router

variable {R F : Type} {s s' : Xtr R}

theorem CacheCounted.empty (hlists : m.locatorsLists = [])
    (hcount : m.locatorCount = 0) : CacheCounted m :=
  ⟨.empty hlists hcount, by simp [NoPrefixes, Mapping.locators, hlists]⟩

theorem CountsExact.congr (h : CountsExact s) (hmces : s'.mces = s.mces)
    (hmles : s'.mles = s.mles) : CountsExact s' :=
  ⟨hmces ▸ h.cache, hmles ▸ h.mappings⟩

theorem CountsExact.writeLocal (h : CountsExact s) (hm : Counted m) (mle : Nat) :
    CountsExact { s with mles := s.mles.modify mle fun e => { e with mapping := m } } :=
  ⟨h.cache, h.mappings.modify fun _ _ => hm⟩

/-- The functions of the router keep the counts exact. -/
def conservedCounts (W : World R F) : Conserved W (fun _ => False) where
  inv := CountsExact
  mapping := CacheCounted
  record := RawRecord.Readable
  policy := .of_false W
  mapping_cell h hme := h.cache _ _ hme
  start h _ := h.congr rfl rfl
  insert h _ := h.congr rfl rfl
  reset h _ := h.congr rfl rfl
  create h _ _ _ := h.congr rfl rfl
  createSmr h := h.congr rfl rfl
  stopAll _ h := .of_forall fun _ _ => h.congr rfl rfl
  stopType _ _ h := .of_forall fun _ _ => h.congr rfl rfl
  advance h := h.congr rfl rfl
  rotated h _ := h.congr rfl rfl
  expired h _ := h.congr rfl rfl
  lookup _ _ _ := .of_forall fun _ _ => trivial
  lookupLocal _ _ _ := .of_forall fun _ _ => trivial
  add _ h _ := .of_forall fun _ _ => h.congr rfl rfl
  remove h _ := .of_forall fun _ _ => h.congr rfl rfl
  alloc _ _ h hm := ⟨h.cache.alloc hm, h.mappings⟩
  write _ h hm := ⟨h.cache.modify fun _ _ => hm, h.mappings⟩
  compute h _ _ := ⟨h.cache.modify fun _ hme => hme, h.mappings⟩
  activate _ h := ⟨h.cache.modify fun _ hme => hme, h.mappings⟩
  free e h := ⟨h.cache.free e, h.mappings⟩
  iface h _ := h.congr rfl rfl
  rest h := h.congr rfl rfl
  placeholder _ := .empty rfl rfl
  parse _ _ hraw := .of_forall fun _ hx hret =>
    have hp := lispMsgParseMappingRecord_counted hraw hret hx
    ⟨hp.1, hp.2⟩
  update _ _ hm := .of_forall fun _ hx =>
    have hp := mappingUpdateLocators_counted hm.counted hm.prefixes hx
    ⟨hp.1, hp.2⟩
  state _ _ hm :=
    ⟨hm.counted.mapLocator fun _ _ _ => ⟨rfl, rfl⟩, hm.prefixes.mapLocator fun _ => rfl⟩

theorem localRule_counts (W : World R F) : LocalRule W (fun _ => False) CountsExact :=
  ⟨(conservedCounts W).policy.loc,
    fun _ h hf => ⟨h.cache, h.mappings.modify fun ml hml => hf ml ▸ hml⟩⟩

end Router

/-! ## Interface events -/

section IfEvents

variable {W : FbWorld} {env : CtrlEnv} {loc : Nat}
  {s s' : FbXtr} {a : IpAddr} {u : Unit} {ifl : IfaceLocators}
  {status : LinkState} {locs : List Nat} {mle : Nat}

/-- The local entries after a step that only touches the locator `loc`. -/
def OthersKept (loc : Nat) (s s' : FbXtr) : Prop :=
  ∀ l ml', s'.mles.cell l = some ml' → ∃ ml, s.mles.cell l = some ml ∧
    ∀ x ∈ ml'.mapping.locators, x.ptr = loc ∨ x ∈ ml.mapping.locators

theorem OthersKept.of_mles (h : s'.mles = s.mles) : OthersKept loc s s' :=
  fun _ ml hl => ⟨ml, h ▸ hl, fun _ hx => .inr hx⟩

theorem OthersKept.of_write {ml : MapLocalEntry BalancingLocatorsVecs}
    (hml : s.mles.cell mle = some ml) (hm : ∀ x ∈ m.locators, x.ptr = loc ∨ x ∈ ml.mapping.locators)
    (hmles : s'.mles = s.mles.modify mle fun e => { e with mapping := m }) :
    OthersKept loc s s' := by
  intro l ml' hl
  rw [hmles, modify_mapping_cell hml] at hl
  split_ifs at hl with heq
  · cases hl
    exact ⟨ml, heq ▸ hml, hm⟩
  · exact ⟨ml', hl, fun _ hx => .inr hx⟩

/-- The locators of an interface can take the address `a` one after the other: each has no address
yet, or one of the family of `a`. -/
@[mk_iff] structure AddressTaken (s : FbXtr) (locs : List Nat) (a : IpAddr) : Prop where
  nodup : locs.Nodup
  family : ∀ p ∈ locs,
    (∀ l ml, s.mles.cell l = some ml → ∀ x ∈ ml.mapping.locators, x.ptr = p →
      sameFamily .noAddr x.addr) ∨
    ∀ l ml, s.mles.cell l = some ml → ∀ x ∈ ml.mapping.locators, x.ptr = p →
      sameFamily (.ip a) x.addr

instance (s : FbXtr) (locs : List Nat) (a : IpAddr) :
    Decidable (AddressTaken s locs a) :=
  decidable_of_iff _ (addressTaken_iff s locs a).symm

/-- The first locator is done; the others are still as they were. -/
theorem AddressTaken.tail (h : AddressTaken s (loc :: locs) a)
    (hkept : OthersKept loc s s') : AddressTaken s' locs a := by
  obtain ⟨hne, hnodup⟩ := nodup_cons.mp h.nodup
  have hold : ∀ {p : Nat} {b : LispAddr}, p ∈ locs →
      (∀ l ml, s.mles.cell l = some ml → ∀ x ∈ ml.mapping.locators, x.ptr = p →
        sameFamily b x.addr) →
      ∀ l ml, s'.mles.cell l = some ml → ∀ x ∈ ml.mapping.locators, x.ptr = p →
        sameFamily b x.addr := by
    intro p b hp hall l ml' hl x hx hxp
    obtain ⟨ml, hml, hsub⟩ := hkept l ml' hl
    obtain hloc | hx := hsub x hx
    · exact absurd (hxp.symm.trans hloc ▸ hp) hne
    · exact hall l ml hml x hx hxp
  refine ⟨hnodup, fun p hp => ?_⟩
  exact (h.family p (mem_cons_of_mem _ hp)).imp (hold hp) (hold hp)

theorem updatedMapLocInf_counts (loc : Nat) (h : CountsExact s)
    (hrun : (updatedMapLocInf W env mle).run s = .ok (u, s')) :
    CountsExact s' ∧ OthersKept loc s s' := by
  refine ⟨(((localRule_counts W).updatedMapLocInf_keeps h mle).of_run hrun).2, ?_⟩
  simp only [updatedMapLocInf, bind_ok, derefMle_ok, lift_ok, modify_ok] at hrun
  obtain ⟨ml, s, ⟨hml, rfl⟩, info, s, ⟨-, rfl⟩, -, rfl⟩ := hrun
  intro l ml' hl
  rw [Heap.modify_cell] at hl
  split_ifs at hl with heq
  · rw [hml] at hl
    cases hl
    exact ⟨ml, heq ▸ hml, fun _ hx => .inr hx⟩
  · exact ⟨ml', hl, fun _ hx => .inr hx⟩

/-- What a new address does to a locator without one. -/
theorem ActivatedOrDropped.counts {loct : Locator} (h : CountsExact s) (hno : loct.hasAddr = false)
    (hstep : ActivatedOrDropped W env loct a s s') : CountsExact s' ∧ OthersKept loct.ptr s s' := by
  have hunattach : ∀ {x : FbXtr},
      (ifaceLocatorsUnattachLocator loct.ptr).run s = .ok ((), x) → CountsExact x := fun hun =>
    h.congr (by rw [((localOnly_rule (W := W) s).unattach _ (.refl s) |>.of_run hun).2.rest])
      (ifaceLocatorsUnattachLocator_eq hun).1
  cases hstep with
  | unowned => exact ⟨h, .of_mles rfl⟩
  | detached hml hhas hdup hi hun =>
    exact ⟨hunattach hun, .of_mles (ifaceLocatorsUnattachLocator_eq hun).1⟩
  | @dropped mle i ml _ _ hml hhas hdup hi hun =>
    have hmles := (ifaceLocatorsUnattachLocator_eq hun).1
    obtain ⟨hm, hsub⟩ := removeLocatorAt_counted (h.mappings mle ml hml) loct.ptr hi
    exact ⟨(hunattach hun).writeLocal hm mle, .of_write hml (fun x hx => .inr (hsub.subset hx))
      (by rw [Xtr.setMapping, hmles])⟩
  | @activated mle ml m _ hml hhas hnew hact hupd =>
    obtain ⟨hm, hsub⟩ := mappingActivateLocator_counted (h.mappings mle ml hml) hno hhas hact
    obtain ⟨h', hkept⟩ := updatedMapLocInf_counts loct.ptr (h.writeLocal hm mle) hupd
    refine ⟨h', fun l ml' hl => ?_⟩
    obtain ⟨ml2, hml2, hsub2⟩ := hkept l ml' hl
    obtain ⟨ml1, hml1, hsub1⟩ := OthersKept.of_write hml hsub rfl l ml2 hml2
    exact ⟨ml1, hml1, fun x hx => (hsub2 x hx).elim .inl (hsub1 x)⟩

/-- A locator is changed in place and stays in its family. -/
theorem updateLocalLocator_counts {f : Locator → Locator} (h : CountsExact s)
    (hptr : ∀ x, (f x).ptr = x.ptr)
    (hf : ∀ l ml, s.mles.cell l = some ml → ∀ x ∈ ml.mapping.locators, x.ptr = loc →
      sameFamily (f x).addr x.addr) (hrun : (updateLocalLocator loc f).run s = .ok (u, s')) :
    CountsExact s' ∧ OthersKept loc s s' := by
  obtain ⟨hframe, hcells⟩ := updateLocalLocator_eq hrun
  have hcell : ∀ l ml', s'.mles.cell l = some ml' → ∃ ml, s.mles.cell l = some ml ∧
      ml' = { ml with mapping := ml.mapping.mapLocator loc f } := by
    intro l ml' hl
    rw [hcells] at hl
    obtain ⟨ml, hml, rfl⟩ := map_eq_some_iff.mp hl
    exact ⟨ml, hml, rfl⟩
  have hmces : s'.mces = s.mces := by rw [hframe]
  refine ⟨⟨hmces ▸ h.cache, fun l ml' hl => ?_⟩, fun l ml' hl => ?_⟩
  · obtain ⟨ml, hml, rfl⟩ := hcell l ml' hl
    exact (h.mappings l ml hml).mapLocator (hf l ml hml)
  · obtain ⟨ml, hml, rfl⟩ := hcell l ml' hl
    refine ⟨ml, hml, fun x hx => ?_⟩
    rw [Mapping.mapLocator_locators] at hx
    obtain ⟨y, hy, rfl⟩ := mem_map.mp hx
    split_ifs with hyp
    · exact .inl ((hptr y).trans hyp)
    · exact .inr hy

/-- What a new address does to one locator of the interface. -/
theorem ifEventLocator_counts (h : CountsExact s) (ht : AddressTaken s (loc :: locs) a)
    (hrun : (ifEventLocator W env (.ip a) loc).run s = .ok (u, s')) :
    CountsExact s' ∧ AddressTaken s' locs a := by
  have hstep : CountsExact s' ∧ OthersKept loc s s' := by
    obtain ⟨loct, l, ml, hml, hx, hptr, ⟨hno, hstep⟩ | ⟨hno, hupd⟩⟩ | ⟨lost, rfl⟩ :=
      ifEventLocator_cases hrun
    · rw [← hptr]
      exact hstep.counts h (by simp [Locator.hasAddr, hno])
    · rcases ht.family loc (by simp) with hnone | hfam
      · exact absurd (hnone l ml hml loct hx hptr).1.symm hno
      · exact updateLocalLocator_counts (f := fun l => { l with addr := .ip a }) h
          (fun _ => rfl) hfam
          hupd
    · exact ⟨h.congr rfl rfl, .of_mles rfl⟩
  exact ⟨hstep.1, ht.tail hstep.2⟩

theorem ifEventAddress_counts {oldAddr : Option LispAddr} (h : CountsExact s)
    (ht : AddressTaken s (ifl.ofFamily (ipAddrAfi a)) a)
    (hrun : (ifEventAddress W env ifl (ipAddrAfi a) oldAddr (.ip a)).run s = .ok (u, s')) :
    CountsExact s' :=
  ifEventAddress_induct (I := fun locs x => CountsExact x ∧ AddressTaken x locs a)
    (J := fun _ => CountsExact) (fun hx => ifEventLocator_counts hx.1 hx.2)
    (fun hx h2 => ((Conserved.modifyIface_keeps (C := conservedCounts W) hx.1 _
      fun _ => by cases ipAddrAfi a <;> rfl).of_run h2).2)
    (fun {mle _ ml _ _ _} hx hml hsort => (hx.writeLocal
      (mappingSortLocators_counted (hx.mappings mle ml hml) hsort) mle).congr rfl rfl) ⟨h, ht⟩ hrun

theorem ifEventStatus_counts (h : CountsExact s)
    (hrun : (ifEventStatus W env ifl status).run s = .ok (u, s')) : CountsExact s' := by
  simp only [ifEventStatus, bind_ok] at hrun
  obtain ⟨_, s1, h1, _, s2, h2, h3⟩ := hrun
  have hc1 : CountsExact s1 := by
    refine forM_keeps (fun loc _ u x x' hx hupd => ?_) h h1
    exact (updateLocalLocator_counts (f := fun l => { l with state := status }) hx (fun _ => rfl)
      (fun _ _ _ _ _ _ => ⟨rfl, rfl⟩) hupd).1
  have hc2 :=
    ((Conserved.modifyIface_keeps (C := conservedCounts W) hc1 _ fun _ => by rfl).of_run h2).2
  refine forM_keeps (fun mle _ u x x' hx hupd => ?_) hc2 h3
  exact (((localRule_counts W).updatedMapLocInf_keeps hx mle).of_run hupd).2

/-- The locators an event with a new address is about can take it. -/
def IfEventTaken (s : FbXtr) (ifaceName : String)
    (newAddr : Option LispAddr) : Prop :=
  ∀ ifl ∈ (s.ifaceLocatorsTable.find? (·.ifaceName = ifaceName)).toList,
    ∀ a ∈ (eventIp newAddr).toList, AddressTaken s (ifl.ofFamily (ipAddrAfi a)) a

instance (s : FbXtr) (ifaceName : String) (newAddr : Option LispAddr) :
    Decidable (IfEventTaken s ifaceName newAddr) :=
  inferInstanceAs (Decidable (∀ ifl ∈ _, _))

theorem xtrIfEvent_counts {ifaceName : String} {oldAddr newAddr : Option LispAddr}
    {ret : Ret} (h : CountsExact s) (ht : IfEventTaken s ifaceName newAddr)
    (hrun : (xtrIfEvent W env ifaceName oldAddr newAddr status).run s = .ok (ret, s')) :
    CountsExact s' := by
  have hend : ∀ {x : FbXtr}, CountsExact x →
      (ifEventEnd W env).run x = .ok (ret, s') → CountsExact s' := fun hx hrun =>
    (((localRule_counts W).ifEventEnd_keeps
      (Conserved.programSmr_keeps (C := conservedCounts W) · _) hx).of_run hrun).2
  cases xtrIfEvent_cases hrun with
  | unknown | unchanged | noIp => exact h
  | status hfind hnew hst hend' => exact hend (ifEventStatus_counts h hst) hend'
  | @address ifl a _ _ hfind hnew hdiff hadr hend' =>
    exact hend (ifEventAddress_counts h (ht ifl (by simp [hfind]) a (by simp [hnew, eventIp])) hadr)
      hend'

end IfEvents

/-! ## Requests -/

section Requests

variable {W : FbWorld} {env : CtrlEnv} {rlocs : List LispAddr}
  {s s' : FbXtr} {u : Unit}

theorem localMapDbReplace_counts (h : CountsExact s)
    (hrun : localMapDbReplace.run s = .ok (u, s')) : CountsExact s' := by
  obtain ⟨x, hx, rfl⟩ := localMapDbReplace_keeps (I := CountsExact)
    (fun hx _ => ⟨hx.cache, hx.mappings.free _⟩) h hrun
  exact hx.congr rfl rfl

theorem AddedMappings.counts {confs : List ConfMapping} (h : AddedMappings rlocs confs s s')
    (hs : CountsExact s) (hconfs : ∀ conf ∈ confs, Counted conf.mapping) : CountsExact s' := by
  induction h with
  | stop => exact hs
  | refused => exact hs.congr rfl rfl
  | entry db hinfo hrest ih =>
    exact ih ⟨hs.cache, hs.mappings.alloc ((hconfs _ (by simp)).congr rfl rfl)⟩
      fun conf' hconf' => hconfs conf' (by simp [hconf'])

theorem addProxyEtrEntry_counts : ∀ {addrs : List IpAddr} {u : PUnit}
    {s s' : FbXtr}, CountsExact s →
      (∀ me, s.mces.cell s.petrs = some me → me.mapping.locators.length + addrs.length < 2 ^ 16) →
      (addrs.forM addProxyEtrEntry).run s = .ok (u, s') → CountsExact s'
  | [], _, _, _, h, _, hrun => by
    obtain ⟨-, rfl⟩ := pure_ok.mp hrun
    exact h
  | addr :: addrs, _, s, s', h, hfew, hrun => by
    obtain ⟨_, s1, h1, h2⟩ := bind_ok.mp hrun
    rw [addProxyEtrEntry, get_bind_ok] at h1
    simp only [bind_ok, derefMce_ok, lift_ok, modify_ok, setMceMapping] at h1
    obtain ⟨me, s, ⟨hme, rfl⟩, ⟨ret, m⟩, s, ⟨hadd, rfl⟩, _, _, ⟨-, rfl⟩, -, rfl⟩ := h1
    have hsub := mappingAddLocator_subperm hadd
    have hroom := hfew me hme
    have hle := hsub.length_le
    rw [length_cons] at hroom hle
    have hold := h.cache _ me hme
    have hm : CacheCounted m := by
      refine ⟨mappingAddLocator_counted hold.counted (by omega) (.inr rfl) hadd, fun x hx => ?_⟩
      obtain rfl | hx := mem_cons.mp (hsub.subset hx)
      · simp [lispAddrLafi]
      · exact hold.prefixes x hx
    refine addProxyEtrEntry_counts ?_ (fun me' hme' => ?_) h2
    · exact ⟨h.cache.modify fun _ _ => hm, h.mappings⟩
    · rw [Heap.modify_cell, if_pos rfl, hme] at hme'
      cases hme'
      dsimp only
      omega

theorem petrsRemoveAll_counts (h : CountsExact s)
    (hcount : ∀ me, s.mces.cell s.petrs = some me → me.mapping.locatorCount = 0)
    (hrun : petrsRemoveAll.run s = .ok (u, s')) : CountsExact s' ∧
      ∀ me, s'.mces.cell s'.petrs = some me → me.mapping.locators = [] := by
  rw [petrsRemoveAll, get_bind_ok] at hrun
  simp only [bind_ok, derefMce_ok, setMceMapping, modify_ok] at hrun
  obtain ⟨me, s, ⟨hme, rfl⟩, -, rfl⟩ := hrun
  refine ⟨⟨h.cache.modify fun _ _ => .empty rfl (hcount me hme), h.mappings⟩, fun me' hme' => ?_⟩
  rw [Heap.modify_cell, if_pos rfl, hme] at hme'
  cases hme'
  rfl

/-- What a request has to meet: new local mappings are counted, and the Proxy-ETRs are replaced or
deleted only when their count is `0`. -/
def RequestCounts (s : FbXtr) : ApiCall → Prop
  | .mapdbCreate confMappingList => ∀ conf ∈ confMappingList, Counted conf.mapping
  | .petrsCreate addrList => addrList.length < 2 ^ 16 ∧
    s.mces.All fun e me => e = s.petrs → me.mapping.locatorCount = 0
  | .petrsDelete => s.mces.All fun e me => e = s.petrs → me.mapping.locatorCount = 0
  | _ => True

instance (s : FbXtr) (call : ApiCall) : Decidable (RequestCounts s call) := by
  unfold RequestCounts
  split <;> infer_instance

theorem processCall_counts {call : ApiCall} {r : Ret} (h : CountsExact s)
    (hok : RequestCounts s call) (hrun : (processCall W env call).run s = .ok (r, s')) :
    CountsExact s' := by
  have hreg : ∀ {x x' : FbXtr} {u : Unit}, CountsExact x →
      (programMapRegister W).run x = .ok (u, x') → CountsExact x' := fun hx hrun =>
    ((Conserved.programMapRegister_keeps (C := conservedCounts W) hx).of_run hrun).2
  cases processCall_cases hrun with
  | refused => exact h
  | resolvers => exact h.congr rfl rfl
  | servers => exact h.congr rfl rfl
  | registered run =>
    refine hreg ?_ run
    exact h.congr rfl rfl
  | replaced run => exact localMapDbReplace_counts h run
  | created replaced added done =>
    have hadded := (addConfMappings_cases added).counts (localMapDbReplace_counts h replaced) hok
    obtain rfl | ⟨u, run⟩ := done
    · exact hadded
    · exact hreg hadded run
  | petrsCreated run =>
    simp only [lmapiXtrPetrsCreate, bind_ok] at run
    obtain ⟨_, s1, hremove, _, s2, hadd, run⟩ := run
    obtain ⟨h1, hnone⟩ := petrsRemoveAll_counts h (fun me hme => hok.2 _ me hme rfl) hremove
    have h2 : CountsExact s2 := by
      refine addProxyEtrEntry_counts h1 (fun me hme => ?_) hadd
      rw [hnone me hme, length_nil, Nat.zero_add]
      exact hok.1
    simp only [get_ok, derefMce_ok, pure_ok] at run
    obtain ⟨_, _, ⟨rfl, rfl⟩, me, _, ⟨-, rfl⟩, _, _, hupd, -, rfl⟩ := run
    exact ((Conserved.updatedMapCacheInf_keeps (C := conservedCounts W) trivial h2).of_run hupd).2
  | petrsDeleted run => exact (petrsRemoveAll_counts h (fun me hme => hok _ me hme rfl) run).1

end Requests

/-! ## Runs -/

section Runs

variable {W : FbWorld} {d : Device}

/-- What a step of the device has to meet for the counts to stay exact. The records of messages are
as they can be read. -/
def CountsKept (d : Device) : DevEvent → Prop
  | .xtr (.mapReply msg _ _) => ∀ r ∈ msg.records, r.Readable
  | .xtr (.mapNotify msg _) => ∀ r ∈ msg.records, r.Readable
  | .xtr (.ifEvent name _ newAddr _ _) => IfEventTaken d.xtr name newAddr
  | .xtr _ => True
  | .setRlocs _ => True
  | .api call _ => RequestCounts d.xtr call

instance (d : Device) : DecidablePred (CountsKept d) := by
  rintro ((_ | _ | _ | _ | _ | _ | _) | _ | _) <;> dsimp only [CountsKept] <;> infer_instance

/-- A configuration as the configuration code makes it, by adding the locators one by one. -/
structure CountsConfigured (conf : FbConf) : Prop where
  petrs : CacheCounted (petrsEntry conf).mapping
  statics : ∀ m ∈ conf.statics, CacheCounted m
  mappings : conf.mles.All fun _ ml => Counted ml.mapping

theorem xtrStep_counts {ev : XtrEvent} {out : XtrOut FwdEntry} {s : FbXtr}
    (h : CountsExact d.xtr) (hok : CountsKept d (.xtr ev))
    (hrun : (xtrStep W (ev.withRlocs d.rlocs)).run d.xtr = .ok (out, s)) : CountsExact s := by
  refine (conservedCounts W).xtrStep_inv (fun h => h.congr rfl rfl) h ?_
    (Conserved.IgnoresData.downsKept ⟨.rfl, fun _ => trivial⟩ _ _) (fun heq hx => ?_) hrun
  · cases ev with
    | mapReply | mapNotify => exact ⟨trivial, hok⟩
    | mapRequest => exact ⟨trivial, fun _ _ => trivial⟩
    | packet | ifEvent | tick | wheel => trivial
  · cases ev with
    | ifEvent =>
      cases heq
      exact xtrIfEvent_counts h hok hx
    | _ => cases heq

theorem DevStartedWith.countsExact (h : DevStartedWith W CountsConfigured d) :
    CountsExact d.xtr := by
  obtain ⟨conf, env, u, hconf, hboot⟩ := h
  have hnew : CountsExact (xtrCtrlConstruct conf) :=
    ⟨Heap.All.alloc (fun _ _ hi => by cases hi) hconf.petrs, hconf.mappings⟩
  have hkeeps : (conservedCounts W).Any (xtrCtrlConstruct conf)
      (devBoot W env d.rlocs conf.statics) := by
    refine .seq (Conserved.configureStatics_keeps trivial hnew hconf.statics) fun _ s1 h1 =>
      .get_bind ?_
    split
    · exact Conserved.rtrRun_keeps (localRule_counts W) h1
    · exact Conserved.xtrRun_keeps trivial (localRule_counts W) h1
  exact (hkeeps.of_run hboot).2

theorem DevReach.countsExact (h : DevReach W CountsConfigured CountsKept d) : CountsExact d.xtr :=
  h.invariant_of (fun _ hd => hd.countsExact)
    (fun _ _ _ _ _ hok hrun h => xtrStep_counts h hok hrun)
    fun _ _ _ _ _ _ hok hrun h => processCall_counts h hok hrun

/-- The count is the number of locators with an address. It fits the counter of the source, and is
`0` exactly for the mappings without such a locator. -/
structure CountExact (m : Mapping) : Prop where
  count : m.locatorCount = m.addressed
  fits : m.locatorCount < 2 ^ 16
  zero : m.locatorCount = 0 ↔ ∀ x ∈ m.locators, x.addr = .noAddr

theorem Locator.hasAddr_eq_false_iff {x : Locator} : x.hasAddr = false ↔ x.addr = .noAddr := by
  cases hx : x.addr <;> simp [Locator.hasAddr, hx, lispAddrLafi]

theorem Counted.exact (h : Counted m) : CountExact m := by
  refine ⟨h.count, ?_, ?_⟩
  · rw [h.count]
    exact Nat.lt_of_le_of_lt countP_le_length h.few
  · rw [h.count, Mapping.addressed, countP_eq_zero]
    refine forall₂_congr fun x _ => ?_
    rw [Bool.not_eq_true, Locator.hasAddr_eq_false_iff]

/-- In every run whose steps all meet `CountsKept`, the count of every mapping of the router is the
number of its locators that have an address, and the test for the presence of Proxy-ETRs says
whether there is one with an address. -/
theorem locator_counts_exact (W : FbWorld) (d : Device)
    (h : DevReach W CountsConfigured CountsKept d) :
    (∀ e me, d.xtr.mces.cell e = some me → CountExact me.mapping) ∧
    (∀ l ml, d.xtr.mles.cell l = some ml → CountExact ml.mapping) ∧
    ∀ has s, petrsHasLocators.run d.xtr = .ok (has, s) →
      (has = true ↔ ∃ me, d.xtr.mces.cell d.xtr.petrs = some me ∧
        ∃ x ∈ me.mapping.locators, x.addr ≠ .noAddr) := by
  have hexact := h.countsExact
  have hcache : ∀ e me, d.xtr.mces.cell e = some me → CountExact me.mapping := fun e me hme =>
    (hexact.cache e me hme).counted.exact
  refine ⟨hcache, fun l ml hml => (hexact.mappings l ml hml).exact, fun has s hrun => ?_⟩
  rw [petrsHasLocators, get_bind_ok] at hrun
  simp only [bind_ok, derefMce_ok, pure_ok] at hrun
  obtain ⟨me, _, ⟨hme, rfl⟩, rfl, -⟩ := hrun
  have hzero := (hcache _ me hme).zero
  simp only [decide_eq_true_eq, hme, Option.some.injEq, exists_eq_left', Nat.pos_iff_ne_zero, ne_eq,
    hzero]
  push Not
  rfl

end Runs

/-! ## Runs of a small device -/

theorem labDevConf_counts : CountsConfigured labDevConf where
  petrs := ⟨by decide, by decide⟩
  statics := by simp [labDevConf]
  mappings := by decide

/-- `eth0` gets a new address, and the Map-Request for a packet is answered. -/
theorem locator_counts_exact_eth0 : ∃ d, DevReach labFbWorld CountsConfigured CountsKept d ∧
    (∃ me, d.xtr.mces.cell 2 = some me ∧ me.mapping.locators.length = 1 ∧ CountExact me.mapping) ∧
    ∃ ml, d.xtr.mles.cell 0 = some ml ∧ ml.mapping.locators.length = 1 ∧ CountExact ml.mapping := by
  have hrun : ∃ d, DevReach labFbWorld CountsConfigured CountsKept d ∧
      (d.xtr.mces.cell 2).map (fun me => me.mapping.locators.length) = some 1 ∧
      (d.xtr.mles.cell 0).map (fun ml => ml.mapping.locators.length) = some 1 :=
    DevReach.of_events labDevConf labEnv [.ip (.v4 0xc0000201#32)]
      [.xtr (.ifEvent "eth0" (some (.ip (.v4 0xc0000201#32))) (some (.ip (.v4 0xc0000202#32))) .UP
        labEnv), .xtr labPacket, .xtr (labReply 0 [labRecord 0xc0000200#32 1])]
      labDevConf_counts (by decide +kernel)
  obtain ⟨d, hreach, hentry, hlocal⟩ := hrun
  obtain ⟨me, hme, hlen⟩ := map_eq_some_iff.mp hentry
  obtain ⟨ml, hml, hlen'⟩ := map_eq_some_iff.mp hlocal
  obtain ⟨hcache, hmappings, -⟩ := locator_counts_exact labFbWorld d hreach
  exact ⟨d, hreach, ⟨me, hme, hlen, hcache 2 me hme⟩, ml, hml, hlen', hmappings 0 ml hml⟩

/-- A local mapping with two explicit paths, the first over `eth0`. -/
def labPaths : Mapping :=
  { mappingNewInit (.ippref (.v4 0x0a000000#32) 8) with
    locatorsLists := [[
      ⟨0, .elp [.mk false false false (.ip (.v4 0xc0000201#32))], .UP, 1, 100, 255, 0⟩,
      ⟨3, .elp [.mk false false false (.ip (.v4 0xc0000301#32))], .UP, 1, 100, 255, 0⟩]]
    locatorCount := 2 }

def labPathsConf : FbConf :=
  { labDevConf with
    mles := Heap.empty.alloc ⟨labPaths, (balancingVectorsCalculate [] labPaths).toOption⟩ }

theorem labPathsConf_counts : CountsConfigured labPathsConf where
  petrs := labDevConf_counts.petrs
  statics := labDevConf_counts.statics
  mappings := by decide

/-- After the Proxy-ETRs are deleted one is still counted, and the test for their presence succeeds.
A new address of `eth0` is written over the path of the local mapping, and the locator is lost when
the list is sorted. And `mapping_remove_locator` counts a locator that it takes out. -/
theorem locator_counts_wrong :
    (∃ d, DevReach labFbWorld CountsConfigured (fun _ _ => True) d ∧
      (∃ me, d.xtr.mces.cell d.xtr.petrs = some me ∧ me.mapping.locatorCount = 1 ∧
        me.mapping.locators = []) ∧ petrsHasLocators.run d.xtr = .ok (true, d.xtr)) ∧
    (∃ d, DevReach labFbWorld CountsConfigured (fun _ _ => True) d ∧
      ∃ ml, d.xtr.mles.cell 0 = some ml ∧ ml.mapping.locatorCount = 2 ∧
        ml.mapping.addressed = 1) ∧
    ∃ m, mappingRemoveLocator labLocalMapping labLocalLocator = .ok m ∧ m.locatorCount = 1 ∧
      m.locators = [] := by
  have hpetrs : ∃ d, DevReach labFbWorld CountsConfigured (fun _ _ => True) d ∧
      (d.xtr.mces.cell d.xtr.petrs).any (fun me => me.mapping.locatorCount = 1 ∧
        me.mapping.locators = []) = true :=
    DevReach.of_events labDevConf labEnv [.ip (.v4 0xc0000201#32)] [.api .petrsDelete labEnv]
      labDevConf_counts (by decide +kernel)
  have hpaths : ∃ d, DevReach labFbWorld CountsConfigured (fun _ _ => True) d ∧
      (d.xtr.mles.cell 0).any (fun ml => ml.mapping.locatorCount = 2 ∧
        ml.mapping.addressed = 1) = true :=
    DevReach.of_events labPathsConf labEnv [.ip (.v4 0xc0000201#32)]
      [.xtr (.ifEvent "eth0" (some (.ip (.v4 0xc0000201#32))) (some (.ip (.v4 0xc0000202#32))) .UP
        labEnv)] labPathsConf_counts (by decide +kernel)
  obtain ⟨d, hreach, hd⟩ := hpetrs
  obtain ⟨me, hme, hcount⟩ := (any_eq_true _ _).mp hd
  obtain ⟨hcount, hnone⟩ := of_decide_eq_true hcount
  obtain ⟨d', hreach', hd'⟩ := hpaths
  obtain ⟨ml, hml, hlost⟩ := (any_eq_true _ _).mp hd'
  refine ⟨⟨d, hreach, ⟨me, hme, hcount, hnone⟩, ?_⟩,
    ⟨d', hreach', ml, hml, of_decide_eq_true hlost⟩, _, rfl, rfl, rfl⟩
  rw [petrsHasLocators, get_bind_ok]
  simp only [bind_ok, derefMce_ok, pure_ok]
  exact ⟨me, _, ⟨hme, rfl⟩, by simp [hcount], rfl⟩

end Lispmob
