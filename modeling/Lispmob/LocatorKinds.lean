import Mathlib.Data.List.Perm.Basic
import Lispmob.LocatorCounts

/-!
# Well-formed locator lists

The locators of a mapping are kept by kind of address: those without one, IPv4, IPv6, and one kind
for each LCAF type. The lists are well formed when there is one for each kind that occurs, none of
them is empty, the IP lists are sorted, and no address occurs twice.

`mapping_add_locator` keeps them so for a new locator without address or with an IP address
(`mappingAddLocator_wellFormed`): such a locator is inserted, or there is one with its address and
one of the two stays.
-/

namespace Lispmob

open List

variable {l l' : List Locator} {a b : LispAddr} {x : Locator} {L : List (List Locator)}

/-! ## Kinds of addresses -/

/-- The addresses go into the same list of a mapping. -/
def sameKind (a b : LispAddr) : Prop :=
  sameFamily a b ∧ lispAddrLcafType a = lispAddrLcafType b

instance (a b : LispAddr) : Decidable (sameKind a b) :=
  inferInstanceAs (Decidable (_ ∧ _))

theorem sameKind.refl (a : LispAddr) : sameKind a a :=
  ⟨⟨rfl, rfl⟩, rfl⟩

theorem sameKind.symm (h : sameKind a b) : sameKind b a :=
  ⟨h.1.symm, h.2.symm⟩

theorem sameKind.trans {a b c : LispAddr} (h : sameKind a b) (h' : sameKind b c) : sameKind a c :=
  ⟨h.1.trans h'.1, h.2.trans h'.2⟩

/-! ## Well-formed lists -/

/-- The addresses of some locators, of those that have one. -/
def addresses (l : List Locator) : List LispAddr :=
  (l.filter Locator.hasAddr).map (·.addr)

/-- One of the lists of a mapping is well formed. -/
structure WellFormedList (l : List Locator) : Prop where
  nonempty : l ≠ []
  tidy : TidyList l
  oneKind : ∀ x ∈ l, ∀ y ∈ l, sameKind x.addr y.addr
  distinct : (addresses l).Nodup
  nodup : (l.map (·.ptr)).Nodup

/-- The lists are of different kinds, and of different locators. -/
def Apart (l l' : List Locator) : Prop :=
  ∀ x ∈ l, ∀ y ∈ l', ¬ sameKind x.addr y.addr ∧ x.ptr ≠ y.ptr

theorem Apart.symm (h : Apart l l') : Apart l' l :=
  fun x hx y hy => ⟨fun hk => (h y hy x hx).1 hk.symm, (h y hy x hx).2.symm⟩

/-- The lists of a mapping are well formed. -/
structure WellFormedLists (L : List (List Locator)) : Prop where
  lists : ∀ l ∈ L, WellFormedList l
  apart : L.Pairwise Apart

theorem WellFormedLists.perm {L L' : List (List Locator)} (h : WellFormedLists L)
    (hp : L'.Perm L) : WellFormedLists L' :=
  ⟨fun l hl => h.lists l (hp.mem_iff.mp hl), (hp.pairwise_iff fun hab => hab.symm).mpr h.apart⟩

theorem wellFormedLists_cons :
    WellFormedLists (l :: L) ↔ WellFormedList l ∧ (∀ l' ∈ L, Apart l l') ∧ WellFormedLists L := by
  constructor
  · intro h
    have hp := pairwise_cons.mp h.apart
    exact ⟨h.lists l (by simp), hp.1, fun l' hl' => h.lists l' (by simp [hl']), hp.2⟩
  · rintro ⟨hl, hapart, hL⟩
    refine ⟨fun l' hl' => ?_, pairwise_cons.mpr ⟨hapart, hL.apart⟩⟩
    obtain rfl | hl' := mem_cons.mp hl'
    · exact hl
    · exact hL.lists l' hl'

theorem WellFormedLists.distinct (h : WellFormedLists L) : (addresses L.flatten).Nodup := by
  rw [addresses, filter_flatten, map_flatten, map_map, nodup_flatten, forall_mem_map]
  refine ⟨fun l hl => (h.lists l hl).distinct, pairwise_map.mpr (h.apart.imp fun hab a ha hb => ?_)⟩
  obtain ⟨x, hx, rfl⟩ := mem_map.mp ha
  obtain ⟨y, hy, heq⟩ := mem_map.mp hb
  exact (hab x (mem_of_mem_filter hx) y (mem_of_mem_filter hy)).1 (heq ▸ .refl _)

theorem WellFormedLists.nodup (h : WellFormedLists L) : (L.flatten.map (·.ptr)).Nodup := by
  rw [map_flatten, nodup_flatten, forall_mem_map]
  refine ⟨fun l hl => (h.lists l hl).nodup, pairwise_map.mpr (h.apart.imp fun hab a ha hb => ?_)⟩
  obtain ⟨x, hx, rfl⟩ := mem_map.mp ha
  obtain ⟨y, hy, heq⟩ := mem_map.mp hb
  exact (hab x hx y hy).2 heq.symm

/-- The search for the list of a kind stops at the first list of it. -/
theorem loctLstIndex_cons (ha : lispAddrLafi a ≠ .IPPREF) (x : Locator) (l : List Locator)
    (L : List (List Locator)) :
    loctLstIndex (lispAddrLafi a) (lispAddrIpAfi a) (lispAddrLcafType a) ((x :: l) :: L) =
      if sameKind a x.addr then .ok (some 0)
      else (loctLstIndex (lispAddrLafi a) (lispAddrIpAfi a) (lispAddrLcafType a) L).map
        (·.map (· + 1)) := by
  conv_lhs => rw [loctLstIndex.eq_def]
  cases a with
  | ippref => exact absurd rfl ha
  | ip a =>
    cases hx : x.addr with
    | ip b =>
      by_cases hafi : ipAddrAfi a = ipAddrAfi b
      · simp [sameKind, sameFamily, hx, lispAddrLafi, lispAddrIpAfi, lispAddrLcafType, hafi]
      · simp [sameKind, sameFamily, hx, lispAddrLafi, lispAddrIpAfi, lispAddrLcafType, hafi,
          Ne.symm hafi]
    | _ => simp [sameKind, sameFamily, hx, lispAddrLafi, lispAddrIpAfi, lispAddrLcafType]
  | _ =>
    cases hx : x.addr <;> simp [sameKind, sameFamily, hx, lispAddrLafi, lispAddrIpAfi,
      lispAddrLcafType]

/-- The list for a kind of address, if there is one. -/
theorem loctLstIndex_cases (ha : lispAddrLafi a ≠ .IPPREF) :
    ∀ {L : List (List Locator)}, (∀ l ∈ L, l ≠ []) →
      (loctLstIndex (lispAddrLafi a) (lispAddrIpAfi a) (lispAddrLcafType a) L = .ok none ∧
        ∀ l ∈ L, ∀ y ∈ l.head?, ¬ sameKind a y.addr) ∨
      ∃ i y l, loctLstIndex (lispAddrLafi a) (lispAddrIpAfi a) (lispAddrLcafType a) L =
        .ok (some i) ∧ L[i]? = some (y :: l) ∧ sameKind a y.addr
  | [], _ => .inl ⟨rfl, by simp⟩
  | [] :: _, h => absurd rfl (h [] (by simp))
  | (x :: l) :: L, h => by
    rw [loctLstIndex_cons ha]
    split_ifs with hk
    · exact .inr ⟨0, x, l, rfl, rfl, hk⟩
    · rcases loctLstIndex_cases ha (L := L) fun l' hl' => h l' (by simp [hl']) with
        ⟨hnone, hall⟩ | ⟨i, y, l', hsome, hget, hy⟩
      · refine .inl ⟨by rw [hnone]; rfl, fun l' hl' => ?_⟩
        obtain rfl | hl' := mem_cons.mp hl'
        · simpa using hk
        · exact hall l' hl'
      · exact .inr ⟨i + 1, y, l', by rw [hsome]; rfl, by simpa using hget, hy⟩

/-! ## Adding a locator -/

/-- What becomes of a locator that is added to a mapping: it is inserted, or there is one with its
address and one of the two stays. -/
inductive LocatorAdded (m : Mapping) (x : Locator) : Ret → Mapping → Prop where
  | inserted {m' : Mapping} (hnew : x.addr ∉ addresses m.locators)
      (hlocs : m'.locators.Perm (x :: m.locators)) : LocatorAdded m x .GOOD m'
  | replaced {m' : Mapping} {y : Locator} (haddr : y.addr = x.addr) (hhas : x.hasAddr = true)
      {rest : List Locator} (hold : m.locators.Perm (y :: rest))
      (hlocs : m'.locators.Perm (x :: rest)) (hprio : x.priority < y.priority) :
      LocatorAdded m x .GOOD m'
  | kept {y : Locator} (hy : y ∈ m.locators) (haddr : y.addr = x.addr) (hhas : x.hasAddr = true)
      (hprio : y.priority ≤ x.priority) : LocatorAdded m x .ERR_EXIST m

theorem mem_addresses : a ∈ addresses l ↔ ∃ x ∈ l, x.hasAddr = true ∧ x.addr = a := by
  simp only [addresses, mem_map, mem_filter, and_assoc]

theorem addresses_perm (h : l.Perm l') : (addresses l).Perm (addresses l') :=
  (h.filter _).map _

/-- A list, or a part of it, with one more locator of its kind and another address. -/
theorem WellFormedList.insert {l k l' : List Locator} (h : WellFormedList l) (hk : k.Sublist l)
    (hx : x.addr.plain = true) (hkind : ∀ y ∈ l, sameKind x.addr y.addr)
    (hnew : x.addr ∉ addresses k) (hptr : x.ptr ∉ k.map (·.ptr))
    (hadd : glistAdd locatorCmpAddr x k = some l') : WellFormedList l' := by
  have hperm := glistAdd_perm hadd
  have hkind' : ∀ y ∈ l', sameKind x.addr y.addr := by
    intro y hy
    obtain rfl | hy := mem_cons.mp (hperm.mem_iff.mp hy)
    · exact .refl _
    · exact hkind y (hk.subset hy)
  refine ⟨fun hnil => ?_, ?_, fun y hy z hz => (hkind' y hy).symm.trans (hkind' z hz), ?_, ?_⟩
  · rw [hnil] at hperm
    cases hperm.nil_eq
  · cases haddr : x.addr with
    | noAddr =>
      refine .inl fun y hy => ?_
      rw [← (hkind' y hy).1.1, haddr]
      rfl
    | ip a =>
      have hip : ∀ y ∈ l', lispAddrLafi y.addr = .IP := by
        intro y hy
        rw [← (hkind' y hy).1.1, haddr]
        rfl
      have hx : lispAddrLafi x.addr = .IP := by rw [haddr]; rfl
      have hsorted : k.Pairwise Before := by
        cases k with
        | nil => exact .nil
        | cons y k =>
          exact (h.tidy.sublist hk).sorted ((hkind y (hk.subset (by simp))).1.1.symm.trans hx)
      refine .inr (.inr ⟨hip, glistAdd_sorted hx hsorted (fun y hy heq => hnew ?_) hadd⟩)
      refine mem_addresses.mpr ⟨y, hy, ?_, heq⟩
      rw [Locator.hasAddr, heq, hx]
      rfl
    | _ => simp [haddr, LispAddr.plain] at hx
  · refine (addresses_perm hperm).nodup_iff.mpr ?_
    have hdistinct : (addresses k).Nodup := h.distinct.sublist ((hk.filter _).map _)
    rw [addresses, filter_cons]
    split_ifs
    · exact nodup_cons.mpr ⟨hnew, hdistinct⟩
    · exact hdistinct
  · exact (hperm.map _).nodup_iff.mpr (nodup_cons.mpr ⟨hptr, h.nodup.sublist (hk.map _)⟩)

theorem WellFormedList.singleton (hx : x.addr.plain = true) : WellFormedList [x] := by
  refine ⟨by simp, ?_, by simp [sameKind.refl], ?_, by simp⟩
  · cases haddr : x.addr with
    | noAddr => exact .inl (by simp [haddr, lispAddrLafi])
    | ip => exact .inr (.inr ⟨by simp [haddr, lispAddrLafi], pairwise_singleton _ _⟩)
    | _ => simp [haddr, LispAddr.plain] at hx
  · rw [addresses, filter_singleton]
    cases x.hasAddr <;> simp

theorem glistAdd_newList (h : WellFormedLists L)
    (hx : x.addr.plain = true) (hptr : x.ptr ∉ L.flatten.map (·.ptr))
    (hkind : ∀ l ∈ L, ∀ y ∈ l.head?, ¬ sameKind x.addr y.addr) :
    (∀ y ∈ L.flatten, ¬ sameKind x.addr y.addr) ∧
      ∃ L', glistAdd locatorListCmpAfi [x] L = some L' ∧ WellFormedLists L' := by
  have hall : ∀ l ∈ L, ∀ y ∈ l, ¬ sameKind x.addr y.addr := by
    intro l hl y hy hk
    cases l with
    | nil => cases hy
    | cons z l =>
      exact hkind _ hl z (by simp) (hk.trans ((h.lists _ hl).oneKind y hy z (by simp)))
  have hcmp : ∀ l ∈ L, 0 ≤ locatorListCmpAfi [x] l := by
    intro l hl
    cases l with
    | nil => exact absurd rfl (h.lists _ hl).nonempty
    | cons y l => exact lispAddrCmpAfi_nonneg (plain_lafi hx)
  obtain ⟨L', hadd⟩ := glistAdd_of_comparable hcmp
  refine ⟨fun y hy => ?_, L', hadd, .perm (wellFormedLists_cons.mpr
    ⟨.singleton hx, fun l hl y hy z hz => ?_, h⟩) (glistAdd_perm hadd)⟩
  · obtain ⟨l, hl, hy⟩ := mem_flatten.mp hy
    exact hall l hl y hy
  · obtain rfl := mem_singleton.mp hy
    refine ⟨hall l hl z hz, fun heq => hptr ?_⟩
    exact mem_map.mpr ⟨z, mem_flatten.mpr ⟨l, hl, hz⟩, heq.symm⟩

/-- One of the lists is replaced by another one of its kind. -/
theorem WellFormedLists.replace {A B : List (List Locator)} (h : WellFormedLists (A ++ l :: B))
    (hl' : WellFormedList l') (hmem : ∀ y ∈ l', y = x ∨ y ∈ l)
    (hkind : ∀ y ∈ l, sameKind x.addr y.addr) (hptr : x.ptr ∉ (A ++ l :: B).flatten.map (·.ptr)) :
    WellFormedLists (A ++ l' :: B) := by
  obtain ⟨hl, hapart, hrest⟩ := wellFormedLists_cons.mp (h.perm perm_middle.symm)
  refine .perm (wellFormedLists_cons.mpr ⟨hl', fun k hk y hy z hz => ?_, hrest⟩) perm_middle
  rcases hmem y hy with rfl | hy
  · obtain ⟨w, hw⟩ := exists_mem_of_ne_nil l hl.nonempty
    refine ⟨fun hyz => (hapart k hk w hw z hz).1 ((hkind w hw).symm.trans hyz), fun heq => hptr ?_⟩
    refine mem_map.mpr ⟨z, mem_flatten.mpr ⟨k, ?_, hz⟩, heq.symm⟩
    simp only [mem_append, mem_cons] at hk ⊢
    tauto
  · exact hapart k hk y hy z hz

/-- An IP address, or a missing one, compares as equal only with itself. -/
theorem plain_cmp_eq_zero (ha : a.plain = true) (hk : sameKind a b) :
    lispAddrCmp a b = 0 ↔ a = b ∧ lispAddrLafi a ≠ .NO_ADDR := by
  have hb := hk.1.plain ha
  cases a with
  | noAddr =>
    cases b with
    | noAddr => simp [lispAddrCmp, lispAddrLafi]
    | ip => cases hk.1.1
    | _ => cases hb
  | ip a =>
    cases b with
    | noAddr => cases hk.1.1
    | ip b => simp [lispAddrCmp, ipAddrCmp_eq_zero_iff, lispAddrLafi]
    | _ => cases hb
  | _ => cases ha

/-- A list of the kind of a locator has its address if one of the locators compares as equal. -/
theorem glistContain_iff (hx : x.addr.plain = true) (hkind : ∀ y ∈ l, sameKind x.addr y.addr) :
    glistContain locatorCmpAddr x l = true ↔ x.addr ∈ addresses l := by
  rw [glistContain, any_eq_true, mem_addresses]
  refine exists_congr fun y => and_congr_right fun hy => ?_
  rw [decide_eq_true_eq, locatorCmpAddr, plain_cmp_eq_zero hx (hkind y hy), Locator.hasAddr]
  constructor
  · rintro ⟨heq, hno⟩
    exact ⟨by simpa [heq] using hno, heq.symm⟩
  · rintro ⟨hno, heq⟩
    exact ⟨heq.symm, by simpa [heq] using hno⟩

theorem locatorListGetLocatorWithAddr_some (ha : a.plain = true)
    (hkind : ∀ y ∈ l, sameKind a y.addr) (hmem : a ∈ addresses l) :
    ∃ y ∈ l, locatorListGetLocatorWithAddr l a = some y ∧ y.addr = a ∧ y.hasAddr = true := by
  have hcmp : ∀ y ∈ l, lispAddrCmp y.addr a = 0 ↔ y.addr = a ∧ lispAddrLafi y.addr ≠ .NO_ADDR :=
    fun y hy => plain_cmp_eq_zero ((hkind y hy).1.plain ha) (hkind y hy).symm
  cases hfind : locatorListGetLocatorWithAddr l a with
  | none =>
    obtain ⟨y, hy, hhas, heq⟩ := mem_addresses.mp hmem
    have hne := find?_eq_none.mp hfind y hy
    rw [decide_eq_true_eq, hcmp y hy] at hne
    exact absurd ⟨heq, by simpa [Locator.hasAddr] using hhas⟩ hne
  | some y =>
    have hy := mem_of_find?_eq_some hfind
    obtain ⟨heq, hno⟩ := (hcmp y hy).mp (by simpa using find?_some hfind)
    exact ⟨y, hy, rfl, heq, by simpa [Locator.hasAddr] using hno⟩

/-- A locator with a new identity is added to the list of its kind. -/
theorem addToList_wellFormed (h : WellFormedList l) (hx : x.addr.plain = true)
    (hkind : ∀ y ∈ l, sameKind x.addr y.addr) (hptr : x.ptr ∉ l.map (·.ptr)) {k : List Locator}
    (hk : k.Sublist l) (hnew : x.addr ∉ addresses k) :
    ∃ l', glistAdd locatorCmpAddr x k = some l' ∧ WellFormedList l' ∧ l'.Perm (x :: k) := by
  obtain ⟨l', hadd⟩ := glistAdd_of_comparable (l := k) fun y hy =>
    have hky := hkind y (hk.subset hy)
    show 0 ≤ locatorCmpAddr x y from lispAddrCmp_nonneg hx (hky.1.plain hx) hky.1
  exact ⟨l', hadd, h.insert hk hx hkind hnew (fun hmem => hptr ((hk.map _).subset hmem)) hadd,
    glistAdd_perm hadd⟩

theorem mappingAddLocator_wellFormed {m : Mapping} (h : WellFormedLists m.locatorsLists)
    (hx : x.addr.plain = true) (hptr : x.ptr ∉ m.ptrs) :
    ∃ ret m', mappingAddLocator m x = .ok (ret, m') ∧ WellFormedLists m'.locatorsLists ∧
      LocatorAdded m x ret m' := by
  rcases loctLstIndex_cases (plain_lafi hx) fun l hl => (h.lists l hl).nonempty with
    ⟨hnone, hall⟩ | ⟨i, y, l, hsome, hget, hy⟩
  · obtain ⟨hother, L', hadd, hlist⟩ := glistAdd_newList h hx hptr hall
    have hnew : x.addr ∉ addresses m.locators := fun hmem => by
      obtain ⟨y, hy, -, heq⟩ := mem_addresses.mp hmem
      exact hother y hy (heq ▸ .refl _)
    rw [mappingAddLocator, mappingGetLoctLstWithAddrType, hnone]
    rw [hadd]
    refine ⟨_, _, rfl, by rwa [mappingCountLocator_lists], .inserted hnew ?_⟩
    simpa [Mapping.locators] using (glistAdd_perm hadd).flatten
  · obtain ⟨A, B, hL, hgetD, hset, -⟩ := lists_at hget
    have hl : WellFormedList (y :: l) := h.lists _ (mem_of_getElem? hget)
    have hkind : ∀ z ∈ y :: l, sameKind x.addr z.addr := fun z hz =>
      hy.trans (hl.oneKind y (by simp) z hz)
    rw [Mapping.ptrs, Mapping.locators, hL] at hptr
    have hptr' : x.ptr ∉ (y :: l).map (·.ptr) := fun hmem => hptr (by
      simp only [flatten_append, flatten_cons, map_append, mem_append]
      exact .inr (.inl hmem))
    rw [hL] at h
    -- the locators of the mapping with another list in the place of this one
    have hlocs : ∀ {m' : Mapping} {k : List Locator}, m'.locatorsLists = A ++ k :: B →
        m'.locators.Perm (k ++ (A.flatten ++ B.flatten)) := by
      intro m' k hk
      rw [Mapping.locators, hk, flatten_append, flatten_cons]
      exact perm_append_comm_assoc _ _ _
    have hwf : ∀ {l' k : List Locator}, WellFormedList l' → l'.Perm (x :: k) → k.Sublist (y :: l) →
        WellFormedLists (A ++ l' :: B) := fun hl' hperm hk =>
      h.replace hl' (fun z hz => (mem_cons.mp (hperm.mem_iff.mp hz)).imp_right fun hz =>
        hk.subset hz) hkind hptr
    rw [mappingAddLocator, mappingGetLoctLstWithAddrType, hsome]
    simp only [bind, Except.bind, hgetD]
    by_cases hmem : x.addr ∈ addresses (y :: l)
    · obtain ⟨aux, haux, hfind, haddr, hhas⟩ := locatorListGetLocatorWithAddr_some hx hkind hmem
      have hperm := perm_eraseP_ptr hl.nodup haux
      have hsub : ((y :: l).eraseP (·.ptr = aux.ptr)).Sublist (y :: l) := eraseP_sublist
      have hhas' : x.hasAddr = true := by rwa [Locator.hasAddr, ← haddr]
      rw [if_pos ((glistContain_iff hx hkind).mpr hmem), hfind]
      dsimp only
      split_ifs with hprio
      · have hnew : x.addr ∉ addresses ((y :: l).eraseP (·.ptr = aux.ptr)) := by
          have hdistinct := (addresses_perm hperm).nodup_iff.mp hl.distinct
          rw [addresses, filter_cons_of_pos hhas, map_cons, haddr] at hdistinct
          exact (nodup_cons.mp hdistinct).1
        obtain ⟨l', hadd, hl', hperm'⟩ := addToList_wellFormed hl hx hkind hptr' hsub hnew
        rw [hadd]
        refine ⟨_, _, rfl, by rw [hset]; exact hwf hl' hperm' hsub, .replaced haddr hhas'
          ((hlocs hL).trans (hperm.append_right _)) ?_ hprio⟩
        exact (hlocs (hset l')).trans (hperm'.append_right _)
      · refine ⟨_, _, rfl, hL ▸ h, .kept ((hlocs hL).mem_iff.mpr ?_) haddr hhas'
          (UInt8.not_lt.mp hprio)⟩
        exact mem_append_left _ haux
    · obtain ⟨l', hadd, hl', hperm'⟩ :=
        addToList_wellFormed hl hx hkind hptr' (List.Sublist.refl _) hmem
      rw [if_neg (fun hc => hmem ((glistContain_iff hx hkind).mp hc)), hadd]
      refine ⟨_, _, rfl, ?_, .inserted ?_ ?_⟩
      · rw [mappingCountLocator_lists, hset]
        exact hwf hl' hperm' (List.Sublist.refl _)
      · intro hmem'
        obtain ⟨z, hz, hhas, heq⟩ := mem_addresses.mp hmem'
        rcases mem_append.mp ((hlocs hL).mem_iff.mp hz) with hz | hz
        · exact hmem (mem_addresses.mpr ⟨z, hz, hhas, heq⟩)
        · rw [← flatten_append] at hz
          obtain ⟨k, hk, hz⟩ := mem_flatten.mp hz
          obtain ⟨-, hapart, -⟩ := wellFormedLists_cons.mp (h.perm perm_middle.symm)
          exact (hapart k hk y (by simp) z hz).1 (hy.symm.trans (heq ▸ .refl _))
      · rw [mappingCountLocator_locators]
        exact (hlocs (hset l')).trans ((hperm'.append_right _).trans ((hlocs hL).symm.cons x))

/-! ## Adding many locators -/

theorem perm_inserted {l k m : List Locator} (h : m.Perm (x :: k)) : (l ++ m).Perm (x :: l ++ k) :=
  (h.append_left l).trans perm_middle

/-- Adding locators one by one gives well-formed lists. Those without address are all there, and
if the addresses of the others differ, so are they. -/
theorem addLocators_wellFormed : ∀ {l : List Locator} {m : Mapping},
    WellFormedLists m.locatorsLists → (∀ x ∈ l ++ m.locators, x.addr.plain = true) →
      ((l ++ m.locators).map (·.ptr)).Nodup →
        ∃ m', addLocators m l = .ok (.GOOD, m', []) ∧ WellFormedLists m'.locatorsLists ∧
          (∀ x ∈ l ++ m.locators, x.hasAddr = false → x ∈ m'.locators) ∧
          ((addresses (l ++ m.locators)).Nodup → m'.locators.Perm (l ++ m.locators))
  | [], m, h, _, _ => ⟨m, rfl, h, fun _ hx _ => hx, fun _ => List.Perm.refl _⟩
  | x :: l, m, h, hplain, hnodup => by
    have hptr : x.ptr ∉ m.ptrs := fun hmem => by
      rw [cons_append, map_cons, map_append] at hnodup
      exact (nodup_cons.mp hnodup).1 (mem_append_right _ hmem)
    obtain ⟨ret, m1, hadd, h1, hadded⟩ :=
      mappingAddLocator_wellFormed h (hplain x (by simp)) hptr
    -- the rest of the locators, after one that is not there twice
    have hrest : (∀ y ∈ l ++ m1.locators, y ∈ x :: l ++ m.locators) →
        ((l ++ m1.locators).map (·.ptr)).Nodup →
          ∃ m', addLocators m (x :: l) = .ok (.GOOD, m', []) ∧ WellFormedLists m'.locatorsLists ∧
            (∀ y ∈ l ++ m1.locators, y.hasAddr = false → y ∈ m'.locators) ∧
            ((addresses (l ++ m1.locators)).Nodup → m'.locators.Perm (l ++ m1.locators)) := by
      intro hsub hnodup1
      obtain ⟨m', hrun, hm'⟩ := addLocators_wellFormed h1 (fun y hy => hplain y (hsub y hy)) hnodup1
      refine ⟨m', ?_, hm'⟩
      rw [addLocators, hadd]
      cases hadded <;> exact hrun
    -- an address that is there twice
    have htwice : ∀ {y : Locator}, y ∈ m.locators → y.addr = x.addr → x.hasAddr = true →
        ¬ (addresses (x :: l ++ m.locators)).Nodup := by
      intro y hy haddr hhas hdistinct
      rw [cons_append, addresses, filter_cons_of_pos hhas, map_cons] at hdistinct
      refine (nodup_cons.mp hdistinct).1 (mem_addresses.mpr ⟨y, by simp [hy], ?_, haddr⟩)
      rwa [Locator.hasAddr, haddr]
    cases hadded with
    | inserted hnew hlocs =>
      have hperm := perm_inserted (l := l) hlocs
      obtain ⟨m', hrun, hwf, hkept, hall⟩ := hrest (fun y hy => hperm.mem_iff.mp hy)
        ((hperm.map _).nodup_iff.mpr hnodup)
      refine ⟨m', hrun, hwf, fun y hy => hkept y (hperm.mem_iff.mpr hy), fun hdistinct => ?_⟩
      exact (hall ((addresses_perm hperm).nodup_iff.mpr hdistinct)).trans hperm
    | @replaced _ y haddr hhas rest hold hlocs _ =>
      have hperm := perm_inserted (l := l) hlocs
      have hold' : (x :: l ++ m.locators).Perm (y :: (x :: l ++ rest)) :=
        perm_inserted (l := x :: l) hold
      obtain ⟨m', hrun, hwf, hkept, -⟩ := hrest
        (fun z hz => hold'.mem_iff.mpr (mem_cons_of_mem _ (hperm.mem_iff.mp hz)))
        ((hperm.map _).nodup_iff.mpr (nodup_cons.mp ((hold'.map _).nodup_iff.mp hnodup)).2)
      refine ⟨m', hrun, hwf, fun z hz hno => ?_, fun hdistinct => ?_⟩
      · obtain rfl | hz := mem_cons.mp (hold'.mem_iff.mp hz)
        · rw [Locator.hasAddr, haddr] at hno
          exact absurd hno (by rw [← Locator.hasAddr, hhas]; decide)
        · exact hkept z (hperm.mem_iff.mpr hz) hno
      · exact absurd hdistinct (htwice (hold.mem_iff.mpr (by simp)) haddr hhas)
    | kept hy haddr hhas _ =>
      obtain ⟨m', hrun, hwf, hkept, -⟩ := hrest (fun z hz => mem_cons_of_mem _ hz)
        (nodup_cons.mp hnodup).2
      refine ⟨m', hrun, hwf, fun z hz hno => ?_, fun hdistinct => ?_⟩
      · obtain rfl | hz := mem_cons.mp hz
        · rw [hhas] at hno
          cases hno
        · exact hkept z hz hno
      · exact absurd hdistinct (htwice hy haddr hhas)

end Lispmob
