import Lispmob.CountsExact
import Lispmob.LocatorKinds

/-!
# The locator lists of local mappings along interface events

An interface event changes locators of local mappings: it sets their state, gives an address to a
locator that had none, removes it if the mapping has that address already, or overwrites an address
in place and sorts the locator again. `WellFormed` says what the lists of a mapping should be like.

They stay so (`local_lists_well_formed`) as long as each event with a new address meets
`AddressSettles`: the locators of the interface are in different mappings, one that has an address
has an IP address of the new one's family and no other locator has the new one, and one that has
none is not the last of its kind if the mapping has the new address already. Otherwise the list of
locators without address is left empty, an address occurs twice, or an IP address is written into a
list of explicit paths.
-/

namespace Lispmob

open Prog List

variable {m m' : Mapping} {A B L : List (List Locator)} {loct : Locator} {l k : List Locator}
  {x : Locator} {a : IpAddr} {i : Nat}

/-! ## Well-formed mappings -/

/-- The locators of a mapping are kept in lists by the kind of their address. -/
@[mk_iff] structure WellFormed (m : Mapping) : Prop where
  nonempty : [] ∉ m.locatorsLists
  oneKind : ∀ l ∈ m.locatorsLists, ∀ x ∈ l, ∀ y ∈ l, sameKind x.addr y.addr
  onePerKind : m.locatorsLists.Pairwise fun l l' => ∀ x ∈ l, ∀ y ∈ l', ¬ sameKind x.addr y.addr
  sorted : ∀ l ∈ m.locatorsLists, (∀ x ∈ l, lispAddrLafi x.addr = .IP) → l.Pairwise Before
  distinct : (addresses m.locators).Nodup
  /-- No locator is in the mapping twice. -/
  identities : m.ptrs.Nodup
  locators : ∀ x ∈ m.locators, lispAddrLafi x.addr ≠ .IPPREF

instance (m : Mapping) : Decidable (WellFormed m) :=
  decidable_of_iff _ (wellFormed_iff m).symm

theorem tidyList_of_oneKind (hkind : ∀ x ∈ l, ∀ y ∈ l, sameKind x.addr y.addr)
    (hsorted : (∀ x ∈ l, lispAddrLafi x.addr = .IP) → l.Pairwise Before)
    (hpref : ∀ x ∈ l, lispAddrLafi x.addr ≠ .IPPREF) : TidyList l := by
  cases l with
  | nil => exact .inl (by simp)
  | cons x l =>
    have hx : ∀ y ∈ x :: l, lispAddrLafi y.addr = lispAddrLafi x.addr := fun y hy =>
      (hkind x (by simp) y hy).1.1.symm
    cases hlafi : lispAddrLafi x.addr with
    | NO_ADDR => exact .inl fun y hy => (hx y hy).trans hlafi
    | LCAF => exact .inr (.inl fun y hy => (hx y hy).trans hlafi)
    | IP =>
      have hip : ∀ y ∈ x :: l, lispAddrLafi y.addr = .IP := fun y hy => (hx y hy).trans hlafi
      exact .inr (.inr ⟨hip, hsorted hip⟩)
    | IPPREF => exact absurd hlafi (hpref x (by simp))

theorem wellFormed_iff_lists : WellFormed m ↔ WellFormedLists m.locatorsLists := by
  constructor
  · intro h
    have hsub : ∀ {l}, l ∈ m.locatorsLists → l.Sublist m.locators := fun hl =>
      sublist_flatten_of_mem hl
    refine ⟨fun l hl => ⟨fun hnil => h.nonempty (hnil ▸ hl), ?_, h.oneKind l hl,
      h.distinct.sublist (((hsub hl).filter _).map _), h.identities.sublist ((hsub hl).map _)⟩, ?_⟩
    · exact tidyList_of_oneKind (h.oneKind l hl) (h.sorted l hl) fun x hx =>
        h.locators x ((hsub hl).subset hx)
    · have hptrs := h.identities
      rw [Mapping.ptrs, Mapping.locators, map_flatten, nodup_flatten] at hptrs
      refine (h.onePerKind.and (pairwise_map.mp hptrs.2)).imp ?_
      rintro l l' ⟨hkind, hdisj⟩ x hx y hy
      exact ⟨hkind x hx y hy, fun heq =>
        hdisj (mem_map_of_mem hx) (heq ▸ mem_map_of_mem hy)⟩
  · intro h
    refine ⟨fun hmem => (h.lists [] hmem).nonempty rfl, fun l hl => (h.lists l hl).oneKind,
      h.apart.imp fun hab x hx y hy => (hab x hx y hy).1, fun l hl hip => ?_, h.distinct, h.nodup,
      fun x hx => ?_⟩
    · cases l with
      | nil => exact .nil
      | cons x l => exact (h.lists _ hl).tidy.sorted (hip x (by simp))
    · obtain ⟨l, hl, hx⟩ := mem_flatten.mp hx
      rcases (h.lists l hl).tidy with hk | hk | ⟨hk, -⟩ <;> rw [hk x hx] <;> decide

/-! ## Taking out and activating -/

theorem WellFormedLists.isTidy (h : WellFormedLists m.locatorsLists) : Tidy m :=
  ⟨fun l hl => (h.lists l hl).tidy, h.nodup⟩

/-- One of the lists is replaced by another one of its kind and its locators. -/
theorem WellFormedLists.swap {l l' : List Locator} (h : WellFormedLists (A ++ l :: B))
    (hl' : WellFormedList l')
    (hmem : ∀ y ∈ l', ∃ z ∈ l, sameKind z.addr y.addr ∧ ∃ w ∈ l, w.ptr = y.ptr) :
    WellFormedLists (A ++ l' :: B) := by
  obtain ⟨-, hapart, hrest⟩ := wellFormedLists_cons.mp (h.perm perm_middle.symm)
  refine .perm (wellFormedLists_cons.mpr ⟨hl', fun k hk y hy z hz => ?_, hrest⟩) perm_middle
  obtain ⟨v, hv, hkind, w, hw, hptr⟩ := hmem y hy
  exact ⟨fun hyz => (hapart k hk v hv z hz).1 (hkind.trans hyz), hptr ▸ (hapart k hk w hw z hz).2⟩

theorem WellFormedList.sublist (h : WellFormedList l) (hk : k.Sublist l)
    (hne : k ≠ []) : WellFormedList k :=
  ⟨hne, h.tidy.sublist hk, fun x hx y hy => h.oneKind x (hk.subset hx) y (hk.subset hy),
    h.distinct.sublist ((hk.filter _).map _), h.nodup.sublist (hk.map _)⟩

theorem WellFormedLists.shrink (h : WellFormedLists (A ++ l :: B))
    (hk : k.Sublist l) (hne : k ≠ []) : WellFormedLists (A ++ k :: B) :=
  h.swap ((h.lists l (by simp)).sublist hk hne) fun y hy =>
    ⟨y, hk.subset hy, .refl _, y, hk.subset hy, rfl⟩

theorem WellFormedLists.drop (h : WellFormedLists (A ++ l :: B)) : WellFormedLists (A ++ B) :=
  (wellFormedLists_cons.mp (h.perm perm_middle.symm)).2.2

/-- The list of the locators without an address is the one for its kind. -/
theorem mem_list_of_kind {x y : Locator} (h : WellFormedLists L)
    (hget : L[i]? = some l) (hx : x ∈ l) (hy : y ∈ L.flatten) (hkind : sameKind x.addr y.addr) :
    y ∈ l := by
  obtain ⟨A, B, hL, -⟩ := lists_at hget
  rw [hL] at h hy
  obtain ⟨-, hapart, -⟩ := wellFormedLists_cons.mp (h.perm perm_middle.symm)
  obtain ⟨k, hk, hyk⟩ := mem_flatten.mp hy
  simp only [mem_append, mem_cons] at hk
  rcases hk with hk | rfl | hk
  · exact absurd hkind (hapart k (by simp [hk]) x hx y hyk).1
  · exact hyk
  · exact absurd hkind (hapart k (by simp [hk]) x hx y hyk).1

theorem sameKind_noAddr {a : LispAddr} (h : lispAddrLafi a = .NO_ADDR) : sameKind a .noAddr := by
  cases a with
  | noAddr => exact .refl _
  | _ => cases h

/-- A locator without address is taken out, and another one stays. -/
theorem removeLocatorAt_wellFormed {i loc : Nat} (h : WellFormedLists m.locatorsLists)
    (hi : loctLstIndex .NO_ADDR none 0 m.locatorsLists = .ok (some i))
    (hother : ∃ y ∈ m.locators, y.ptr ≠ loc ∧ y.addr = .noAddr) :
    WellFormedLists (removeLocatorAt m i loc).locatorsLists := by
  obtain ⟨x, l, hget, hx, -⟩ := loctLstIndex_head hi
  obtain ⟨y, hy, hne, hno⟩ := hother
  have hyl : y ∈ x :: l :=
    mem_list_of_kind h hget (by simp) hy (hno ▸ sameKind_noAddr hx)
  obtain ⟨A, B, hL, hgetD, hset, -⟩ := lists_at hget
  rw [removeLocatorAt, hgetD]
  simp only [hset]
  rw [hL] at h
  refine h.shrink eraseP_sublist (ne_nil_of_mem (a := y) ?_)
  exact (mem_eraseP_of_neg (by simpa using hne)).mpr hyl

/-- Fewer locators in one of the lists, which is dropped if it is empty. -/
theorem WellFormedLists.becomes {k : List Locator}
    (h : WellFormedLists m.locatorsLists) (hk : k.Sublist l) (hb : m.Becomes m' l k)
    (hne : [] ∈ m'.locatorsLists → [] ∈ m.locatorsLists) : WellFormedLists m'.locatorsLists := by
  obtain ⟨A, B, hL, hL' | ⟨-, hL'⟩⟩ := hb
  · have hnil : k ≠ [] := by
      rintro rfl
      exact (h.lists [] (hne (by simp [hL']))).nonempty rfl
    rw [hL] at h
    exact hL' ▸ h.shrink hk hnil
  · rw [hL] at h
    exact hL' ▸ h.drop

theorem mappingActivateLocator_added
    (h : WellFormedLists m.locatorsLists) (hhas : mappingHasLocator m loct = .ok true)
    (hact : mappingActivateLocator m loct (.ip a) = .ok m') :
    m' = m ∨ WellFormedLists m'.locatorsLists ∧ ∃ m1 x ret, x.ptr = loct.ptr ∧
      m.locators.Perm (x :: m1.locators) ∧ LocatorAdded m1 { loct with addr := .ip a } ret m' := by
  obtain rfl | ⟨m1, ret, hrem, hadd⟩ := mappingActivateLocator_cases hact
  · exact .inl rfl
  · obtain ⟨l, x, hx, hptr, hb, hne, -⟩ := mappingRemoveLocator_becomes hhas hrem
    have hgone := removed_not_mem h.isTidy hx hb
    rw [hptr] at hgone
    obtain ⟨ret', m2, hadd', h', hadded⟩ := mappingAddLocator_wellFormed
      (h.becomes eraseP_sublist hb hne) (x := { loct with addr := .ip a }) rfl hgone
    cases hadd.symm.trans hadd'
    exact .inr ⟨h', m1, x, ret, hptr, hb.perm_erase (h.lists l hb.mem).nodup hx, hadded⟩

theorem mappingActivateLocator_wellFormed
    (h : WellFormedLists m.locatorsLists) (hhas : mappingHasLocator m loct = .ok true)
    (hact : mappingActivateLocator m loct (.ip a) = .ok m') : WellFormedLists m'.locatorsLists := by
  obtain rfl | ⟨h', -⟩ := mappingActivateLocator_added h hhas hact
  · exact h
  · exact h'

/-! ## Changing a locator in place -/

section InPlace

variable {p : Nat} {f : Locator → Locator}

/-- The lists with one of the locators changed, for a change that keeps kinds and identities. -/
theorem apart_mapLocator
    (hkind : ∀ x ∈ L.flatten, sameKind (f x).addr x.addr) (hptr : ∀ x, (f x).ptr = x.ptr)
    (h : L.Pairwise Apart) : (L.map (·.map f)).Pairwise Apart := by
  refine pairwise_map.mpr (h.imp_of_mem fun {l l'} hl hl' hapart v hv w hw => ?_)
  obtain ⟨x, hx, rfl⟩ := mem_map.mp hv
  obtain ⟨y, hy, rfl⟩ := mem_map.mp hw
  have hx' := hkind x (mem_flatten.mpr ⟨l, hl, hx⟩)
  have hy' := hkind y (mem_flatten.mpr ⟨l', hl', hy⟩)
  rw [hptr, hptr]
  exact ⟨fun hk => (hapart x hx y hy).1 (hx'.symm.trans (hk.trans hy')), (hapart x hx y hy).2⟩

theorem WellFormedLists.map_of_addr
    (h : WellFormedLists L) (haddr : ∀ x, (f x).addr = x.addr) (hptr : ∀ x, (f x).ptr = x.ptr) :
    WellFormedLists (L.map (·.map f)) := by
  refine ⟨fun l' hl' => ?_, apart_mapLocator (fun x _ => haddr x ▸ .refl _) hptr h.apart⟩
  obtain ⟨l, hl, rfl⟩ := mem_map.mp hl'
  have hwf := h.lists l hl
  have hlafi : ∀ {k : LmAfi}, (∀ x ∈ l, lispAddrLafi x.addr = k) →
      ∀ x ∈ l.map f, lispAddrLafi x.addr = k := by
    intro k hk x hx
    obtain ⟨y, hy, rfl⟩ := mem_map.mp hx
    rw [haddr, hk y hy]
  refine ⟨by simpa using hwf.nonempty, ?_, fun v hv w hw => ?_, ?_, ?_⟩
  · rcases hwf.tidy with hk | hk | ⟨hk, hs⟩
    · exact .inl (hlafi hk)
    · exact .inr (.inl (hlafi hk))
    · refine .inr (.inr ⟨hlafi hk, pairwise_map.mpr (hs.imp fun {x y} hxy => ?_)⟩)
      simpa only [Before, locatorCmpAddr, haddr] using hxy
  · obtain ⟨x, hx, rfl⟩ := mem_map.mp hv
    obtain ⟨y, hy, rfl⟩ := mem_map.mp hw
    rw [haddr, haddr]
    exact hwf.oneKind x hx y hy
  · have hsame : addresses (l.map f) = addresses l := by
      simp only [addresses, filter_map, map_map]
      have hhas : Locator.hasAddr ∘ f = Locator.hasAddr := by
        funext x
        simp only [Function.comp_apply, Locator.hasAddr, haddr]
      rw [hhas]
      exact map_congr_left fun x _ => haddr x
    rw [hsame]
    exact hwf.distinct
  · rw [map_map]
    have hsame : (fun x : Locator => x.ptr) ∘ f = fun x => x.ptr := by
      funext x
      exact hptr x
    rw [hsame]
    exact hwf.nodup

/-- The locator `p` can change its address to `a`: it has one of that kind, and no other locator of
the mapping has the address. -/
@[mk_iff] structure Moves (m : Mapping) (p : Nat) (a : IpAddr) : Prop where
  kind : ∀ x ∈ m.locators, x.ptr = p → sameKind (.ip a) x.addr
  free : ∀ x ∈ m.locators, x.ptr ≠ p → x.addr ≠ .ip a

instance (m : Mapping) (p : Nat) (a : IpAddr) : Decidable (Moves m p a) :=
  decidable_of_iff _ (moves_iff m p a).symm

/-- The locator `p` with the address `a`. -/
def Locator.readdress (p : Nat) (a : IpAddr) (x : Locator) : Locator :=
  if x.ptr = p then { x with addr := .ip a } else x

/-- The mapping with the new address of the locator, which is where the old one was. -/
def Mapping.readdress (m : Mapping) (p : Nat) (a : IpAddr) : Mapping :=
  m.mapLocator p fun l => { l with addr := .ip a }

theorem Mapping.readdress_lists : (m.readdress p a).locatorsLists =
    m.locatorsLists.map (·.map (Locator.readdress p a)) :=
  rfl

@[simp]
theorem Locator.readdress_ptr (x : Locator) : (x.readdress p a).ptr = x.ptr := by
  rw [Locator.readdress]
  split_ifs <;> rfl

theorem map_readdress_eq_self (h : ∀ x ∈ l, x.ptr ≠ p) : l.map (Locator.readdress p a) = l := by
  conv_rhs => rw [← map_id l]
  exact map_congr_left fun x hx => if_neg (h x hx)

theorem eraseP_readdress : ∀ {l : List Locator}, (l.map (·.ptr)).Nodup →
    (l.map (Locator.readdress p a)).eraseP (·.ptr = p) = l.eraseP (·.ptr = p)
  | [], _ => rfl
  | x :: l, h => by
    obtain ⟨hx, hl⟩ := nodup_cons.mp h
    by_cases hp : x.ptr = p
    · have hsame : l.map (Locator.readdress p a) = l := map_readdress_eq_self fun y hy hyp =>
        hx (mem_map.mpr ⟨y, hy, hyp.trans hp.symm⟩)
      simp [hp, hsame]
    · have hself : x.readdress p a = x := if_neg hp
      simp [hp, hself, eraseP_readdress hl]

/-- The list of the kind of the new address is the one with the locator. -/
theorem loctLstIndex_readdress (h : WellFormedLists m.locatorsLists) (hp : p ∈ m.ptrs)
    (hm : Moves m p a) : ∃ i l x, m.locatorsLists[i]? = some l ∧ x ∈ l ∧ x.ptr = p ∧
      mappingGetLoctLstWithAddrType (m.readdress p a) (.ip a) = .ok (some i) ∧
      ∀ z ∈ l, sameKind (.ip a) z.addr := by
  obtain ⟨x, hx, rfl⟩ := mem_map.mp hp
  have hkind : ∀ z ∈ m.locators, sameKind (z.readdress x.ptr a).addr z.addr := by
    intro z hz
    rw [Locator.readdress]
    split_ifs with hzx
    · exact hm.kind z hz hzx
    · exact .refl _
  have hne : ∀ l ∈ (m.readdress x.ptr a).locatorsLists, l ≠ [] := by
    intro l hl
    obtain ⟨k, hk, rfl⟩ := mem_map.mp hl
    simpa using (h.lists k hk).nonempty
  -- a list of the kind is the one of the locator
  have hlist : ∀ {i : Nat} {y : Locator} {k : List Locator},
      (m.readdress x.ptr a).locatorsLists[i]? = some (y :: k) → sameKind (.ip a) y.addr →
        ∃ l, m.locatorsLists[i]? = some l ∧ x ∈ l ∧ ∀ z ∈ l, sameKind (.ip a) z.addr := by
    intro i y k hget hy
    rw [Mapping.readdress_lists, getElem?_map, Option.map_eq_some_iff] at hget
    obtain ⟨l, hget, hl⟩ := hget
    cases l with
    | nil => cases hl
    | cons y0 l =>
      obtain ⟨rfl, -⟩ := List.cons.inj hl
      have hl0 := mem_of_getElem? hget
      have hy0 := hy.trans (hkind y0 (mem_flatten.mpr ⟨_, hl0, by simp⟩))
      refine ⟨y0 :: l, hget, ?_, fun z hz => hy0.trans ((h.lists _ hl0).oneKind y0 (by simp) z hz)⟩
      exact mem_list_of_kind h hget (x := y0) (by simp) hx (hy0.symm.trans (hm.kind x hx rfl))
  rcases loctLstIndex_cases (a := .ip a) (plain_lafi rfl) hne with ⟨-, hnone⟩ |
    ⟨i, y, k, hsome, hget, hy⟩
  · obtain ⟨l, hl, hxl⟩ := mem_flatten.mp hx
    cases l with
    | nil => cases hxl
    | cons y0 l =>
      have hy0 : y0 ∈ m.locators := mem_flatten.mpr ⟨_, hl, by simp⟩
      refine absurd ?_ (hnone _ (mem_map_of_mem hl) _ rfl)
      exact (hm.kind x hx rfl).trans (((h.lists _ hl).oneKind x hxl y0 (by simp)).trans
        (hkind y0 hy0).symm)
  · obtain ⟨l, hget', hxl, hall⟩ := hlist hget hy
    exact ⟨i, l, x, hget', hxl, rfl, hsome, hall⟩

theorem set_readdress (h : WellFormedLists m.locatorsLists)
    (hget : m.locatorsLists[i]? = some l) (hx : x ∈ l) (l' : List Locator) :
    (m.readdress x.ptr a).locatorsLists.set i l' = m.locatorsLists.set i l' := by
  refine ext_getElem? fun j => ?_
  rw [getElem?_set, getElem?_set, Mapping.readdress_lists, length_map]
  by_cases hij : i = j
  · rw [if_pos hij, if_pos hij]
  · rw [if_neg hij, if_neg hij, getElem?_map]
    cases hk : m.locatorsLists[j]? with
    | none => rfl
    | some k =>
      obtain ⟨hi, hli⟩ := List.getElem?_eq_some_iff.mp hget
      obtain ⟨hj, hkj⟩ := List.getElem?_eq_some_iff.mp hk
      have hapart : Apart l k := by
        rw [← hli, ← hkj]
        rcases Nat.lt_or_gt_of_ne hij with hlt | hgt
        · exact pairwise_iff_getElem.mp h.apart i j hi hj hlt
        · exact (pairwise_iff_getElem.mp h.apart j i hj hi hgt).symm
      rw [Option.map_some, map_readdress_eq_self fun z hz hzx => (hapart x hx z hz).2 hzx.symm]

/-- `mapping_sort_locators` puts the locator where it belongs with its new address. -/
theorem mappingSortLocators_readdress (h : WellFormedLists m.locatorsLists)
    (hp : p ∈ m.ptrs) (hm : Moves m p a)
    (hsort : mappingSortLocators (m.readdress p a) (.ip a) = .ok m') :
    WellFormedLists m'.locatorsLists ∧ m'.ptrs.Perm m.ptrs := by
  obtain ⟨i, l, x, hget, hx, rfl, hindex, hkind⟩ := loctLstIndex_readdress h hp hm
  obtain ⟨A, B, hL, -, hset, -⟩ := lists_at hget
  have hl := h.lists l (mem_of_getElem? hget)
  have hlm : ∀ z ∈ l, z ∈ m.locators := fun z hz =>
    mem_flatten.mpr ⟨l, mem_of_getElem? hget, hz⟩
  -- the list with the new address, and the locator that is found in it
  have hgetD : (m.readdress x.ptr a).locatorsLists.getD i [] =
      l.map (Locator.readdress x.ptr a) := by
    rw [getD_eq_getElem?_getD, Mapping.readdress_lists, getElem?_map, hget]
    rfl
  have hkind' : ∀ z ∈ l.map (Locator.readdress x.ptr a), sameKind (.ip a) z.addr := by
    intro z hz
    obtain ⟨y, hy, rfl⟩ := mem_map.mp hz
    rw [Locator.readdress]
    split_ifs
    · exact .refl _
    · exact hkind y hy
  have hmem : .ip a ∈ addresses (l.map (Locator.readdress x.ptr a)) :=
    mem_addresses.mpr ⟨x.readdress x.ptr a, mem_map_of_mem hx,
      by simp [Locator.readdress, Locator.hasAddr, lispAddrLafi], by simp [Locator.readdress]⟩
  obtain ⟨x', hx', hfind, haddr, -⟩ := locatorListGetLocatorWithAddr_some rfl hkind' hmem
  have hptr : x'.ptr = x.ptr := by
    obtain ⟨z, hz, rfl⟩ := mem_map.mp hx'
    by_contra hne
    rw [Locator.readdress_ptr] at hne
    rw [Locator.readdress, if_neg hne] at haddr
    exact hm.free z (hlm z hz) hne haddr
  -- the rest of the list
  have hperm := perm_eraseP_ptr hl.nodup hx
  have hgone : x.ptr ∉ (l.eraseP (·.ptr = x.ptr)).map (·.ptr) :=
    (nodup_cons.mp ((hperm.map _).nodup_iff.mp hl.nodup)).1
  have hrest : ((l.map (Locator.readdress x.ptr a)).eraseP (·.ptr = x'.ptr)) =
      l.eraseP (·.ptr = x.ptr) := by
    rw [hptr]
    exact eraseP_readdress hl.nodup
  have hnew : x'.addr ∉ addresses (l.eraseP (·.ptr = x.ptr)) := by
    rw [haddr]
    intro hmem
    obtain ⟨z, hz, -, hza⟩ := mem_addresses.mp hmem
    have hzx : z.ptr ≠ x.ptr := fun heq => hgone (mem_map.mpr ⟨z, hz, heq⟩)
    exact hm.free z (hlm z (eraseP_subset hz)) hzx hza
  have hcmp : ∀ z ∈ l.eraseP (·.ptr = x.ptr), 0 ≤ locatorCmpAddr x' z := by
    intro z hz
    have hk := hkind z (eraseP_subset hz)
    rw [locatorCmpAddr, haddr]
    exact lispAddrCmp_nonneg rfl (hk.1.plain rfl) hk.1
  obtain ⟨l', hadd⟩ := glistAdd_of_comparable hcmp
  have hl' : WellFormedList l' := hl.insert eraseP_sublist (by rw [haddr]; rfl)
    (by rwa [haddr]) hnew (by rwa [hptr]) hadd
  have hperm' := glistAdd_perm hadd
  have hlocs : m'.locatorsLists = A ++ l' :: B := by
    rw [mappingSortLocators, hindex] at hsort
    simp only [bind, Except.bind, hgetD, hfind, hrest, hadd, Option.getD_some, pure,
      Except.pure, Except.ok.injEq] at hsort
    rw [← hsort, ← hset]
    exact set_readdress h hget hx l'
  have hsub : ∀ z ∈ l', ∃ w ∈ l, w.ptr = z.ptr := by
    intro z hz
    obtain rfl | hz := mem_cons.mp (hperm'.mem_iff.mp hz)
    · exact ⟨x, hx, hptr.symm⟩
    · exact ⟨z, eraseP_subset hz, rfl⟩
  refine ⟨?_, ?_⟩
  · rw [hlocs]
    rw [hL] at h
    refine h.swap hl' fun z hz => ⟨x, hx, ?_, hsub z hz⟩
    have hzk : sameKind (.ip a) z.addr := by
      obtain rfl | hz := mem_cons.mp (hperm'.mem_iff.mp hz)
      · rw [haddr]
        exact .refl _
      · exact hkind z (eraseP_subset hz)
    exact (hkind x hx).symm.trans hzk
  · have hptrs : (l'.map (·.ptr)).Perm (l.map (·.ptr)) := by
      refine (hperm'.map _).trans ?_
      rw [map_cons, hptr]
      exact (hperm.map _).symm
    simp only [Mapping.ptrs, Mapping.locators, hlocs, hL, flatten_append, flatten_cons, map_append]
    exact ((List.Perm.refl _).append (hptrs.append (.refl _)))

end InPlace

/-! ## Interface events -/

section IfEvents

variable {W : FbWorld} {env : CtrlEnv} {loc : Nat}
  {s s' : FbXtr} {entries : List Nat} {mle : Nat}
  {locs : List Nat} {u : Unit} {ml : MapLocalEntry BalancingLocatorsVecs} {ifl : IfaceLocators}
  {status : LinkState}

/-- What does not write the mappings of the local entries keeps what is known of them. -/
def conservedLocal {R F : Type} (W : World R F) (P : Nat → Mapping → Prop) :
    Conserved W (fun _ => False) where
  inv s := s.mles.All fun l ml => P l ml.mapping
  policy := .of_false W
  start h _ := h
  insert h _ := h
  reset h _ := h
  create h _ _ _ := h
  createSmr h := h
  stopAll _ h := .of_forall fun _ _ => h
  stopType _ _ h := .of_forall fun _ _ => h
  advance h := h
  rotated h _ := h
  expired h _ := h
  lookup _ _ _ := .of_forall fun _ _ => trivial
  lookupLocal _ _ _ := .of_forall fun _ _ => trivial
  add _ h _ := .of_forall fun _ _ => h
  remove h _ := .of_forall fun _ _ => h
  alloc _ _ h _ := h
  write _ h _ := h
  compute h _ _ := h
  activate _ h := h
  free _ h := h
  iface h _ := h
  rest h := h
  parse := @parse_any
  update := @update_any

theorem localRule_mappings {R F : Type} (W : World R F) (P : Nat → Mapping → Prop) :
    LocalRule W (fun _ => False) (conservedLocal W P).inv :=
  ⟨(conservedLocal W P).policy.loc, fun _ h hf => h.modify fun ml hml => hf ml ▸ hml⟩

/-- The mapping has a locator whose address was changed to `a` and that is still to be sorted. -/
def Displaced (a : IpAddr) (m : Mapping) : Prop :=
  ∃ m₀ p, WellFormedLists m₀.locatorsLists ∧ p ∈ m₀.ptrs ∧ Moves m₀ p a ∧ m = m₀.readdress p a

/-- The lists of the local mappings are well formed, but for those of `entries`, which are still to
be sorted. -/
def FormedBut (entries : List Nat) (a : IpAddr) (s : FbXtr) : Prop :=
  s.mles.All fun l ml => WellFormedLists ml.mapping.locatorsLists ∨
    l ∈ entries ∧ Displaced a ml.mapping

/-- What is done to one locator of an interface: the mappings with the locator may change, and are
then well formed or still to be sorted. No mapping gets another locator. -/
def LocatorDone (entries : List Nat) (a : IpAddr) (loc : Nat)
    (s s' : FbXtr) : Prop :=
  ∀ l ml', s'.mles.cell l = some ml' → ∃ ml, s.mles.cell l = some ml ∧
    (∀ p ∈ ml'.mapping.ptrs, p ∈ ml.mapping.ptrs) ∧ (ml'.mapping = ml.mapping ∨
      loc ∈ ml.mapping.ptrs ∧ (WellFormedLists ml'.mapping.locatorsLists ∨
        l ∈ entries ∧ Displaced a ml'.mapping))

theorem LocatorDone.of_mles (h : s'.mles = s.mles) : LocatorDone entries a loc s s' :=
  fun _ ml hl => ⟨ml, h ▸ hl, fun _ hp => hp, .inl rfl⟩

/-- One entry with the locator gets a new mapping. -/
theorem LocatorDone.of_write (hml : s.mles.cell mle = some ml) (hloc : loc ∈ ml.mapping.ptrs)
    (hsub : ∀ p ∈ m.ptrs, p ∈ ml.mapping.ptrs) (hm : WellFormedLists m.locatorsLists)
    (hmles : s'.mles = s.mles.modify mle fun e => { e with mapping := m }) :
    LocatorDone entries a loc s s' := by
  intro l ml' hl
  rw [hmles, modify_mapping_cell hml] at hl
  split_ifs at hl with heq
  · cases hl
    exact ⟨ml, heq ▸ hml, hsub, .inr ⟨hloc, .inl hm⟩⟩
  · exact ⟨ml', hl, fun _ hp => hp, .inl rfl⟩

theorem LocatorDone.formedBut (h : LocatorDone entries a loc s s') (hs : FormedBut entries a s) :
    FormedBut entries a s' := by
  intro l ml' hl
  obtain ⟨ml, hml, -, hsame | ⟨-, hnew⟩⟩ := h l ml' hl
  · rw [hsame]
    exact hs l ml hml
  · exact hnew

/-- A locator without address can be given `a`, or be dropped if the mapping has it already: there
is another one without address then. -/
def TakesAddress (m : Mapping) (p : Nat) (a : IpAddr) : Prop :=
  (∀ x ∈ m.locators, x.ptr = p → x.addr = .noAddr) ∧
    (.ip a ∈ addresses m.locators → ∃ y ∈ m.locators, y.ptr ≠ p ∧ y.addr = .noAddr)

instance (m : Mapping) (p : Nat) (a : IpAddr) : Decidable (TakesAddress m p a) :=
  inferInstanceAs (Decidable (_ ∧ _))

/-- The locators of an interface with the entries `entries` settle at the address `a`. -/
@[mk_iff] structure AddressSettles (s : FbXtr) (entries locs : List Nat) (a : IpAddr) :
    Prop where
  nodup : locs.Nodup
  /-- They are in different mappings. -/
  apart : s.mles.All fun _ ml => ∀ p ∈ locs, ∀ q ∈ locs, p ∈ ml.mapping.ptrs →
    q ∈ ml.mapping.ptrs → p = q
  settles : ∀ p ∈ locs,
    (s.mles.All fun _ ml => p ∈ ml.mapping.ptrs → TakesAddress ml.mapping p a) ∨
      s.mles.All fun l ml => p ∈ ml.mapping.ptrs → l ∈ entries ∧ Moves ml.mapping p a

instance (s : FbXtr) (entries locs : List Nat) (a : IpAddr) :
    Decidable (AddressSettles s entries locs a) :=
  decidable_of_iff _ (addressSettles_iff s entries locs a).symm

/-- The mappings with one of the locators are well formed still. -/
def FormedAt (s : FbXtr) (locs : List Nat) : Prop :=
  s.mles.All fun _ ml => ∀ p ∈ locs, p ∈ ml.mapping.ptrs → WellFormedLists ml.mapping.locatorsLists

/-- A mapping with one of the other locators is the same. -/
theorem LocatorDone.same {p l : Nat} {ml' : MapLocalEntry BalancingLocatorsVecs}
    (h : LocatorDone entries a loc s s') (hs : AddressSettles s entries (loc :: locs) a)
    (hp : p ∈ locs) (hl : s'.mles.cell l = some ml') (hpm : p ∈ ml'.mapping.ptrs) :
    ∃ ml, s.mles.cell l = some ml ∧ ml'.mapping = ml.mapping := by
  obtain ⟨ml, hml, hsub, hsame | ⟨hloc, -⟩⟩ := h l ml' hl
  · exact ⟨ml, hml, hsame⟩
  · have heq := hs.apart l ml hml loc (by simp) p (by simp [hp]) hloc (hsub p hpm)
    exact absurd (heq ▸ hp) (nodup_cons.mp hs.nodup).1

/-- The first locator is done; the others are where they were. -/
theorem LocatorDone.tail (h : LocatorDone entries a loc s s')
    (hs : AddressSettles s entries (loc :: locs) a) (hf : FormedAt s (loc :: locs)) :
    AddressSettles s' entries locs a ∧ FormedAt s' locs := by
  refine ⟨⟨(nodup_cons.mp hs.nodup).2, fun l ml' hl p hp q hq hpm hqm => ?_, fun p hp => ?_⟩,
    fun l ml' hl p hp hpm => ?_⟩
  · obtain ⟨ml, hml, heq⟩ := h.same hs hp hl hpm
    rw [heq] at hpm hqm
    exact hs.apart l ml hml p (by simp [hp]) q (by simp [hq]) hpm hqm
  · refine (hs.settles p (by simp [hp])).imp (fun hall l ml' hl hpm => ?_)
      fun hall l ml' hl hpm => ?_
    · obtain ⟨ml, hml, heq⟩ := h.same hs hp hl hpm
      rw [heq] at hpm ⊢
      exact hall l ml hml hpm
    · obtain ⟨ml, hml, heq⟩ := h.same hs hp hl hpm
      rw [heq] at hpm ⊢
      exact hall l ml hml hpm
  · obtain ⟨ml, hml, heq⟩ := h.same hs hp hl hpm
    rw [heq] at hpm ⊢
    exact hf l ml hml p (by simp [hp]) hpm

theorem LocatorDone.then {s₁ : FbXtr} (h : LocatorDone entries a loc s s₁)
    (hsame : s'.mles.All fun l ml' => ∃ ml, s₁.mles.cell l = some ml ∧ ml'.mapping = ml.mapping) :
    LocatorDone entries a loc s s' := by
  intro l ml' hl
  obtain ⟨ml1, hml1, heq⟩ := hsame l ml' hl
  rw [heq]
  exact h l ml1 hml1

theorem updatedMapLocInf_mappings (hrun : (updatedMapLocInf W env mle).run s = .ok (u, s')) :
    s'.mles.All fun l ml' => ∃ ml, s.mles.cell l = some ml ∧ ml'.mapping = ml.mapping :=
  (((localRule_mappings W fun l m => ∃ ml, s.mles.cell l = some ml ∧
    m = ml.mapping).updatedMapLocInf_keeps (fun _ ml hl => ⟨ml, hl, rfl⟩) mle).of_run
      hrun).2

/-- The locator that is found for an IP address has it. -/
theorem mappingGetLoctWithAddr_some (h : WellFormedLists m.locatorsLists)
    (hget : mappingGetLoctWithAddr m (.ip a) = .ok (some x)) : x ∈ m.locators ∧ x.addr = .ip a := by
  rw [mappingGetLoctWithAddr, mappingGetLoctLstWithAddrType] at hget
  rcases loctLstIndex_cases (a := .ip a) (plain_lafi rfl) fun l hl => (h.lists l hl).nonempty with
    ⟨hnone, -⟩ | ⟨i, y, l, hsome, hgeti, hy⟩
  · rw [hnone] at hget
    cases hget
  · obtain ⟨A, B, -, hgetD, -⟩ := lists_at hgeti
    rw [hsome] at hget
    simp only [bind, Except.bind, hgetD, except_pure_ok] at hget
    have hx : x ∈ y :: l := mem_of_find?_eq_some hget.symm
    have hl := mem_of_getElem? hgeti
    have hkind := (hy.trans ((h.lists _ hl).oneKind y (by simp) x hx)).symm
    have hcmp := (plain_cmp_eq_zero (hkind.symm.1.plain rfl) hkind).mp
      (by simpa using find?_some hget.symm)
    exact ⟨mem_flatten.mpr ⟨_, hl, hx⟩, hcmp.1⟩

/-- What a new address does to a locator without one. -/
theorem ActivatedOrDropped.done (hf : FormedAt s [loct.ptr])
    (ht : s.mles.All fun _ ml => loct.ptr ∈ ml.mapping.ptrs → TakesAddress ml.mapping loct.ptr a)
    (hstep : ActivatedOrDropped W env loct a s s') : LocatorDone entries a loct.ptr s s' := by
  cases hstep with
  | unowned => exact .of_mles rfl
  | detached hml hhas hdup hi hun => exact .of_mles (ifaceLocatorsUnattachLocator_eq hun).1
  | @dropped mle i ml _ _ hml hhas hdup hi hun =>
    have hloc := mappingHasLocator_mem hhas
    have hwf := hf mle ml hml loct.ptr (by simp) hloc
    obtain ⟨hx, haddr⟩ := mappingGetLoctWithAddr_some hwf hdup
    have hother := (ht mle ml hml hloc).2
      (mem_addresses.mpr ⟨_, hx, by simp [Locator.hasAddr, haddr, lispAddrLafi], haddr⟩)
    refine .of_write hml hloc (removeLocatorAt_tidy loct.ptr hwf.isTidy hi).2.1
      (removeLocatorAt_wellFormed hwf hi hother) ?_
    rw [Xtr.setMapping, (ifaceLocatorsUnattachLocator_eq hun).1]
  | @activated mle ml m _ hml hhas hnew hact hupd =>
    have hloc := mappingHasLocator_mem hhas
    have hwf := hf mle ml hml loct.ptr (by simp) hloc
    have hptrs := (mappingActivateLocator_tidy hwf.isTidy hhas hact).2
    refine LocatorDone.then (.of_write hml hloc (fun p hp => (hptrs p hp).elim (· ▸ hloc) id)
      (mappingActivateLocator_wellFormed hwf hhas hact) ?_) (updatedMapLocInf_mappings hupd)
    rfl

theorem updateLocalLocator_done (hf : FormedAt s [loc])
    (hm : s.mles.All fun l ml => loc ∈ ml.mapping.ptrs → l ∈ entries ∧ Moves ml.mapping loc a)
    (hrun : (updateLocalLocator loc fun l => { l with addr := .ip a }).run s = .ok (u, s')) :
    LocatorDone entries a loc s s' := by
  obtain ⟨-, hcells⟩ := updateLocalLocator_eq hrun
  intro l ml' hl
  rw [hcells] at hl
  obtain ⟨ml, hml, rfl⟩ := Option.map_eq_some_iff.mp hl
  refine ⟨ml, hml, fun p hp => ?_, ?_⟩
  · exact Mapping.mapLocator_ptrs (f := fun l => { l with addr := .ip a }) (fun _ => rfl) ▸ hp
  · by_cases hloc : loc ∈ ml.mapping.ptrs
    · obtain ⟨hl, hmoves⟩ := hm l ml hml hloc
      exact .inr ⟨hloc,
        .inr ⟨hl, ml.mapping, loc, hf l ml hml loc (by simp) hloc, hloc, hmoves, rfl⟩⟩
    · exact .inl (Mapping.mapLocator_eq_self hloc)

/-- What a new address does to one locator of the interface. -/
theorem ifEventLocator_done (hs : AddressSettles s entries (loc :: locs) a)
    (hf : FormedAt s (loc :: locs))
      (hrun : (ifEventLocator W env (.ip a) loc).run s = .ok (u, s')) :
    LocatorDone entries a loc s s' := by
  have hf' : FormedAt s [loc] := fun l ml hl p hp => hf l ml hl p (by simp_all)
  obtain ⟨loct, l, ml, hml, hx, rfl, ⟨hno, hstep⟩ | ⟨hno, hupd⟩⟩ | ⟨lost, rfl⟩ :=
    ifEventLocator_cases hrun
  · have hloc : loct.ptr ∈ ml.mapping.ptrs := mem_map_of_mem hx
    rcases hs.settles loct.ptr (by simp) with htakes | hmoves
    · exact hstep.done hf' htakes
    · cases ((hmoves l ml hml hloc).2.kind loct hx rfl).1.1.trans hno
  · have hloc : loct.ptr ∈ ml.mapping.ptrs := mem_map_of_mem hx
    rcases hs.settles loct.ptr (by simp) with htakes | hmoves
    · rw [(htakes l ml hml hloc).1 loct hx rfl] at hno
      exact absurd rfl hno
    · exact updateLocalLocator_done hf' hmoves hupd
  · exact .of_mles rfl

/-- Along the locators of the interface. -/
structure Settling (entries : List Nat) (a : IpAddr) (locs : List Nat)
    (s : FbXtr) : Prop where
  settles : AddressSettles s entries locs a
  formedAt : FormedAt s locs
  formed : FormedBut entries a s

theorem Settling.step (h : Settling entries a (loc :: locs) s)
    (hrun : (ifEventLocator W env (.ip a) loc).run s = .ok (u, s')) :
    Settling entries a locs s' := by
  have hdone := ifEventLocator_done h.settles h.formedAt hrun
  obtain ⟨hs, hf⟩ := hdone.tail h.settles h.formedAt
  exact ⟨hs, hf, hdone.formedBut h.formed⟩

theorem Settling.iface {name : String} {f : IfaceLocators → IfaceLocators}
    (h : Settling entries a locs s) (hrun : (modifyIface name f).run s = .ok (u, s')) :
    FormedBut entries a s' := by
  obtain ⟨-, rfl⟩ := hrun
  exact h.formed

/-- One of the mappings is sorted, with its locators. -/
theorem FormedBut.sort (h : FormedBut (mle :: entries) a s) (hml : s.mles.cell mle = some ml)
    (hsort : mappingSortLocators ml.mapping (.ip a) = .ok m) :
    FormedBut entries a (s.setMapping mle m) ∧ m.ptrs.Perm ml.mapping.ptrs := by
  have hm : WellFormedLists m.locatorsLists ∧ m.ptrs.Perm ml.mapping.ptrs := by
    rcases h mle ml hml with hwf | ⟨-, m0, p, hwf, hp, hmoves, hm⟩
    · rw [mappingSortLocators_tidy hwf.isTidy hsort]
      exact ⟨hwf, .refl _⟩
    · rw [hm] at hsort ⊢
      have hptrs : (m0.readdress p a).ptrs = m0.ptrs := Mapping.mapLocator_ptrs fun _ => rfl
      rw [hptrs]
      exact mappingSortLocators_readdress hwf hp hmoves hsort
  refine ⟨fun l ml' hl => ?_, hm.2⟩
  rw [Xtr.setMapping, modify_mapping_cell hml] at hl
  split_ifs at hl with heq
  · cases hl
    exact .inl hm.1
  · refine (h l ml' hl).imp_right fun h => ⟨?_, h.2⟩
    exact (mem_cons.mp h.1).resolve_left heq

/-- The lists of the local mappings are well formed. -/
def Formed (s : FbXtr) : Prop :=
  s.mles.All fun _ ml => WellFormedLists ml.mapping.locatorsLists

abbrev conservedFormed (W : FbWorld) : Conserved W (fun _ => False) :=
  conservedLocal W fun _ m => WellFormedLists m.locatorsLists

theorem localRule_formed (W : FbWorld) :
    LocalRule W (fun _ => False) Formed :=
  localRule_mappings W fun _ m => WellFormedLists m.locatorsLists

theorem Formed.settling (h : Formed s) (hs : AddressSettles s entries locs a) :
    Settling entries a locs s :=
  ⟨hs, fun l ml hl _ _ _ => h l ml hl, fun l ml hl => .inl (h l ml hl)⟩

theorem ifEventAddress_formed {oldAddr : Option LispAddr} (h : Formed s)
    (hs : AddressSettles s ifl.mapLocEntries (ifl.ofFamily (ipAddrAfi a)) a)
    (hrun : (ifEventAddress W env ifl (ipAddrAfi a) oldAddr (.ip a)).run s = .ok (u, s')) :
    Formed s' := by
  have hbut := ifEventAddress_induct (I := Settling ifl.mapLocEntries a)
    (J := fun entries => FormedBut entries a) (fun hx => hx.step) (fun hx => hx.iface)
    (fun hx hml hsort => (hx.sort hml hsort).1) (h.settling hs) hrun
  exact fun l ml hl => (hbut l ml hl).resolve_right (by simp)

theorem ifEventStatus_formed (h : Formed s)
    (hrun : (ifEventStatus W env ifl status).run s = .ok (u, s')) : Formed s' := by
  simp only [ifEventStatus, bind_ok] at hrun
  obtain ⟨_, s1, h1, _, s2, h2, h3⟩ := hrun
  have hf1 : Formed s1 := by
    refine forM_keeps (fun loc _ u x x' hx hupd => ?_) h h1
    obtain ⟨-, hcells⟩ := updateLocalLocator_eq hupd
    intro l ml' hl
    rw [hcells] at hl
    obtain ⟨ml, hml, rfl⟩ := Option.map_eq_some_iff.mp hl
    refine (hx l ml hml).map_of_addr (fun y => ?_) fun y => ?_
    · split_ifs <;> rfl
    · split_ifs <;> rfl
  have hf2 : Formed s2 :=
    ((Conserved.modifyIface_keeps (C := conservedFormed W) hf1 _ fun _ => by rfl).of_run h2).2
  refine forM_keeps (fun mle _ u x x' hx hupd => ?_) hf2 h3
  exact (((localRule_formed W).updatedMapLocInf_keeps hx mle).of_run hupd).2

/-- The locators an event with a new address is about settle at it. -/
def IfEventSettles (s : FbXtr) (ifaceName : String)
    (newAddr : Option LispAddr) : Prop :=
  ∀ ifl ∈ (s.ifaceLocatorsTable.find? (·.ifaceName = ifaceName)).toList,
    ∀ a ∈ (eventIp newAddr).toList,
      AddressSettles s ifl.mapLocEntries (ifl.ofFamily (ipAddrAfi a)) a

instance (s : FbXtr) (ifaceName : String) (newAddr : Option LispAddr) :
    Decidable (IfEventSettles s ifaceName newAddr) :=
  inferInstanceAs (Decidable (∀ ifl ∈ _, _))

theorem xtrIfEvent_formed {ifaceName : String} {oldAddr newAddr : Option LispAddr}
    {ret : Ret} (h : Formed s) (hs : IfEventSettles s ifaceName newAddr)
    (hrun : (xtrIfEvent W env ifaceName oldAddr newAddr status).run s = .ok (ret, s')) :
    Formed s' := by
  have hend : ∀ {x : FbXtr}, Formed x →
      (ifEventEnd W env).run x = .ok (ret, s') → Formed s' := fun hx hrun =>
    (((localRule_formed W).ifEventEnd_keeps
      (Conserved.programSmr_keeps (C := conservedFormed W) · _) hx).of_run hrun).2
  cases xtrIfEvent_cases hrun with
  | unknown | unchanged | noIp => exact h
  | status hfind hnew hst hend' => exact hend (ifEventStatus_formed h hst) hend'
  | @address ifl a _ _ hfind hnew hdiff hadr hend' =>
    exact hend (ifEventAddress_formed h (hs ifl (by simp [hfind]) a (by simp [hnew, eventIp])) hadr)
      hend'

end IfEvents

/-! ## Runs -/

section Runs

variable {W : FbWorld} {s s' : FbXtr}

/-- The local mappings are configured with well-formed lists. -/
def FormedConfigured (conf : FbConf) : Prop :=
  conf.mles.All fun _ ml => WellFormed ml.mapping

/-- The locators settle at the new address of an interface. -/
def FormKept (s : FbXtr) : XtrEvent → Prop
  | .ifEvent name _ newAddr _ _ => IfEventSettles s name newAddr
  | _ => True

instance (s : FbXtr) (ev : XtrEvent) : Decidable (FormKept s ev) := by
  unfold FormKept
  split <;> infer_instance

theorem xtrStep_formed {ev : XtrEvent} {out : XtrOut FwdEntry} (h : Formed s) (hok : FormKept s ev)
    (hrun : (xtrStep W ev).run s = .ok (out, s')) : Formed s' := by
  refine (conservedFormed W).xtrStep_inv id h ?_
    (Conserved.IgnoresData.downsKept ⟨.rfl, fun _ => trivial⟩ _ _) (fun heq hx => ?_) hrun
  · cases ev with
    | mapReply | mapNotify => exact ⟨trivial, fun _ _ => trivial⟩
    | mapRequest => exact ⟨trivial, fun _ _ => trivial⟩
    | packet | ifEvent | tick | wheel => trivial
  · cases heq
    exact xtrIfEvent_formed h hok hx

/-- In every run whose steps all meet `FormKept` the lists of the local mappings stay well formed.
-/
theorem local_lists_well_formed (W : FbWorld)
    (s : FbXtr) (h : XtrReach W FormedConfigured FormKept s) :
    ∀ l ml, s.mles.cell l = some ml → WellFormed ml.mapping := by
  have hformed : Formed s := by
    refine Reach.invariant (I := Formed) ?_ ?_ h
    · rintro s ⟨conf, env, u, hconf, hboot⟩
      have hnew : Formed (xtrCtrlConstruct conf) :=
        fun l ml hl => wellFormed_iff_lists.mp (hconf l ml hl)
      exact ((Conserved.boot_keeps (C := conservedFormed W) trivial (localRule_formed W) hnew
        fun _ _ => trivial).of_run hboot).2
    · exact fun s ev out s' hs hok hrun => xtrStep_formed hs hok hrun
  exact fun l ml hl => wellFormed_iff_lists.mpr (hformed l ml hl)

end Runs

/-! ## A mapping with three locators -/

/-- The local mapping with two addresses, on `eth0` and `eth1`, and a locator on `eth2` that has
none. -/
def labThree : Mapping :=
  { mappingNewInit (.ippref (.v4 0x0a000000#32) 8) with
    locatorsLists := [[⟨4, .noAddr, .UP, 1, 100, 255, 0⟩],
      [labLocalLocator, ⟨3, .ip (.v4 0xc0000209#32), .UP, 1, 100, 255, 0⟩]]
    locatorCount := 2 }

def labThreeConf : FbConf :=
  { labDevConf with
    mles := Heap.empty.alloc ⟨labThree, (balancingVectorsCalculate [] labThree).toOption⟩
    ifaceLocatorsTable := [⟨"eth0", [0], [0], [], none, none, false⟩,
      ⟨"eth1", [0], [3], [], none, none, false⟩, ⟨"eth2", [0], [4], [], none, none, false⟩] }

theorem labThreeConf_formed : FormedConfigured labThreeConf := by
  unfold FormedConfigured
  decide

/-- The new address of `eth0` comes after that of `eth1`, and that of `eth2` before it. -/
theorem local_lists_well_formed_three : ∃ s, XtrReach labFbWorld FormedConfigured FormKept s ∧
    ∃ ml, s.mles.cell 0 = some ml ∧ ml.mapping.locatorsLists.map (·.map (·.ptr)) = [[4, 3, 0]] ∧
      WellFormed ml.mapping := by
  have hrun : ∃ s, XtrReach labFbWorld FormedConfigured FormKept s ∧
      (s.mles.cell 0).map (fun ml => ml.mapping.locatorsLists.map (·.map (·.ptr))) =
        some [[4, 3, 0]] :=
    XtrReach.of_events labThreeConf labEnv
      [.ifEvent "eth0" (some (.ip (.v4 0xc0000201#32))) (some (.ip (.v4 0xc0000214#32))) .UP labEnv,
        .ifEvent "eth2" none (some (.ip (.v4 0xc0000205#32))) .UP labEnv,
        .ifEvent "eth1" none none .DOWN labEnv]
      labThreeConf_formed (by decide +kernel)
  obtain ⟨s, hreach, hlocal⟩ := hrun
  obtain ⟨ml, hml, hptrs⟩ := Option.map_eq_some_iff.mp hlocal
  exact ⟨s, hreach, ml, hml, hptrs, local_lists_well_formed labFbWorld s hreach 0 ml hml⟩

/-- When `eth0` gets the address of `eth1`, the mapping has it twice. When `eth2` gets it, the list
of its locator is left empty, and read as soon as the mapping is sorted. -/
theorem local_lists_broken :
    (∃ s, XtrReach labFbWorld FormedConfigured (fun _ _ => True) s ∧
      ∃ ml, s.mles.cell 0 = some ml ∧ ¬ (addresses ml.mapping.locators).Nodup) ∧
    ∃ s, XtrReach labFbWorld FormedConfigured (fun _ _ => True) s ∧
      ((xtrStep labFbWorld (.ifEvent "eth2" none (some (.ip (.v4 0xc0000209#32))) .UP labEnv)).run
        s).map (fun _ => ()) = .error .nullDeref := by
  have htwice : ∃ s, XtrReach labFbWorld FormedConfigured (fun _ _ => True) s ∧
      (s.mles.cell 0).any (fun ml => ¬ (addresses ml.mapping.locators).Nodup) = true :=
    XtrReach.of_events labThreeConf labEnv
      [.ifEvent "eth0" (some (.ip (.v4 0xc0000201#32))) (some (.ip (.v4 0xc0000209#32))) .UP labEnv]
      labThreeConf_formed (by decide +kernel)
  obtain ⟨s, hreach, hs⟩ := htwice
  obtain ⟨ml, hml, hdup⟩ := (Option.any_eq_true _ _).mp hs
  exact ⟨⟨s, hreach, ml, hml, of_decide_eq_true hdup⟩,
    XtrReach.of_events labThreeConf labEnv [] labThreeConf_formed (by decide +kernel)⟩

end Lispmob
