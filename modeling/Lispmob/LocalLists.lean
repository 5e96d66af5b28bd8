import Lispmob.LocatorLists
import Lispmob.Vectors
import Lispmob.XtrLocal

/-!
# The locator lists of the local mappings

The lists of a local mapping are kept tidy: one is of locators without an address, or of explicit
paths and the like, or of IP addresses in increasing order, and no locator is in the mapping twice.
Inserting and removing locators keeps them so. In a tidy mapping `mapping_sort_locators` changes
nothing, since the locator it takes out goes back to where it was.
-/

namespace Lispmob

open Prog List

variable {a b : Locator} {l : List Locator} {m m' : Mapping} {A B : List (List Locator)}
  {loct : Locator} {i : Nat} {l' : List Locator} {addr : LispAddr} {x y : Locator} {α : Type}

/-! ## Sorted insertion -/

/-- An element that comes after `pre` and before `post` is inserted between them. -/
theorem glistAdd_between {cmpFct : α → α → Int} {x : α} {post : List α} :
    ∀ {pre : List α}, (∀ y ∈ pre, cmpFct x y = 1) → (∀ y ∈ post, cmpFct x y = 2) →
      glistAdd cmpFct x (pre ++ post) = some (pre ++ x :: post)
  | [], _, hpost => by
    cases post with
    | nil => rfl
    | cons y post => simp [glistAdd, hpost y (by simp)]
  | y :: pre, hpre, hpost => by
    have ih := glistAdd_between (fun z hz => hpre z (mem_cons_of_mem y hz)) hpost
    simp [glistAdd, hpre y (by simp), ih]

/-- The address of the first locator is an IP address below that of the second. -/
def Before (a b : Locator) : Prop :=
  lispAddrLafi a.addr = .IP ∧ locatorCmpAddr a b = 2

instance (a b : Locator) : Decidable (Before a b) :=
  inferInstanceAs (Decidable (_ ∧ _))

/-- The comparison of IP addresses, read as an order. -/
theorem ipAddrCmp_lt_iff {a b : IpAddr} : ipAddrCmp a b = 2 ↔ ipAddrCmp b a = 1 := by
  cases a <;> cases b <;> simp only [ipAddrCmp, cmpNat] <;> grind

theorem ipAddrCmp_trans {a b c : IpAddr} (h1 : ipAddrCmp a b = 2) (h₂ : ipAddrCmp b c = 2) :
    ipAddrCmp a c = 2 := by
  cases a <;> cases b <;> cases c <;> simp only [ipAddrCmp, cmpNat] at * <;> grind

theorem before_iff : Before a b ↔ ∃ x y, a.addr = .ip x ∧ b.addr = .ip y ∧ ipAddrCmp x y = 2 := by
  constructor
  · rintro ⟨ha, hcmp⟩
    obtain ⟨x, hx⟩ := lispAddrLafi_eq_ip_iff.mp ha
    rw [locatorCmpAddr, hx] at hcmp
    cases hb : b.addr with
    | ip y => exact ⟨x, y, hx, rfl, by simpa [hb, lispAddrCmp] using hcmp⟩
    | _ => simp [hb, lispAddrCmp] at hcmp
  · rintro ⟨x, y, hx, hy, hcmp⟩
    exact ⟨by simp [hx, lispAddrLafi], by simpa [locatorCmpAddr, hx, hy, lispAddrCmp] using hcmp⟩

theorem Before.trans {a b c : Locator} (h1 : Before a b) (h₂ : Before b c) : Before a c := by
  obtain ⟨x, y, hx, hy, hxy⟩ := before_iff.mp h1
  obtain ⟨y', z, hy', hz, hyz⟩ := before_iff.mp h₂
  cases hy.symm.trans hy'
  exact before_iff.mpr ⟨x, z, hx, hz, ipAddrCmp_trans hxy hyz⟩

theorem Before.cmp_one (h : Before a b) : locatorCmpAddr b a = 1 := by
  obtain ⟨x, y, hx, hy, hxy⟩ := before_iff.mp h
  simpa [locatorCmpAddr, hx, hy, lispAddrCmp] using ipAddrCmp_lt_iff.mp hxy

theorem Before.addr_ne (h : Before a b) : a.addr ≠ b.addr := by
  obtain ⟨x, y, hx, hy, hxy⟩ := before_iff.mp h
  rw [hx, hy]
  intro heq
  cases heq
  rw [(ipAddrCmp_eq_zero_iff x x).mpr rfl] at hxy
  cases hxy

/-- A locator with an IP address that compares with another one is before it, after it or has its
address. -/
theorem before_cases (ha : lispAddrLafi a.addr = .IP) (h : ¬ locatorCmpAddr a b < 0) :
    Before a b ∨ Before b a ∨ a.addr = b.addr := by
  obtain ⟨x, hx⟩ := lispAddrLafi_eq_ip_iff.mp ha
  cases hb : b.addr with
  | ip y =>
    have hcmp : ¬ ipAddrCmp x y < 0 := by simpa [locatorCmpAddr, hx, hb, lispAddrCmp] using h
    have hvals : ipAddrCmp x y = 2 ∨ ipAddrCmp y x = 2 ∨ x = y := by
      rw [← ipAddrCmp_eq_zero_iff]
      cases x <;> cases y <;> simp only [ipAddrCmp, cmpNat] at * <;> grind
    rcases hvals with h' | h' | rfl
    · exact .inl (before_iff.mpr ⟨x, y, hx, hb, h'⟩)
    · exact .inr (.inl (before_iff.mpr ⟨y, x, hb, hx, h'⟩))
    · exact .inr (.inr hx)
  | _ => simp [locatorCmpAddr, hx, hb, lispAddrCmp] at h

/-- An insertion keeps a list in order: the element is before those it is inserted in front of, and
the others are before it. -/
theorem glistAdd_pairwise {cmpFct : α → α → Int} {r : α → α → Prop} {x : α} :
    ∀ {l l' : List α}, (∀ y ∈ l, cmpFct x y = 2 → r x y ∧ ∀ z ∈ l, r y z → r x z) →
      (∀ y ∈ l, cmpFct x y ≠ 2 → ¬ cmpFct x y < 0 → r y x) →
      glistAdd cmpFct x l = some l' → l.Pairwise r → l'.Pairwise r
  | [], l', _, _, h, _ => by
    cases h
    exact pairwise_singleton _ _
  | y :: l, l', hlt, hge, h, hl => by
    obtain ⟨hyl, hl⟩ := pairwise_cons.mp hl
    rw [glistAdd] at h
    split_ifs at h with h2 hneg
    · cases h
      obtain ⟨hxy, htrans⟩ := hlt y (by simp) h2
      refine pairwise_cons.mpr ⟨fun z hz => ?_, pairwise_cons.mpr ⟨hyl, hl⟩⟩
      rcases mem_cons.mp hz with rfl | hz
      · exact hxy
      · exact htrans z (by simp [hz]) (hyl z hz)
    · obtain ⟨k, hk, rfl⟩ := Option.map_eq_some_iff.mp h
      refine pairwise_cons.mpr ⟨fun z hz => ?_, glistAdd_pairwise (fun z hz h2 =>
        (hlt z (by simp [hz]) h2).imp_right fun ht w hw => ht w (by simp [hw]))
        (fun z hz => hge z (by simp [hz])) hk hl⟩
      rcases mem_cons.mp ((glistAdd_perm hk).mem_iff.mp hz) with rfl | hz
      · exact hge y (by simp) h2 hneg
      · exact hyl z hz

/-- Inserting a locator whose address is not in the list keeps the order. -/
theorem glistAdd_sorted (hx : lispAddrLafi x.addr = .IP)
    (hl : l.Pairwise Before) (hne : ∀ y ∈ l, y.addr ≠ x.addr)
    (h : glistAdd locatorCmpAddr x l = some l') : l'.Pairwise Before :=
  glistAdd_pairwise (fun y hy h2 => ⟨⟨hx, h2⟩, fun _ _ => .trans ⟨hx, h2⟩⟩)
    (fun y hy h2 hneg => by
      rcases before_cases hx hneg with h' | h' | h'
      · exact absurd h'.2 h2
      · exact h'
      · exact absurd h'.symm (hne y hy)) h hl

/-! ## Tidy mappings -/

/-- A list of locators of one kind, in increasing order if they have IP addresses. -/
def TidyList (l : List Locator) : Prop :=
  (∀ x ∈ l, lispAddrLafi x.addr = .NO_ADDR) ∨ (∀ x ∈ l, lispAddrLafi x.addr = .LCAF) ∨
    ((∀ x ∈ l, lispAddrLafi x.addr = .IP) ∧ l.Pairwise Before)

instance (l : List Locator) : Decidable (TidyList l) :=
  inferInstanceAs (Decidable (_ ∨ _ ∨ _))

/-- The identities of the locators of a mapping. -/
def Mapping.ptrs (m : Mapping) : List Nat :=
  m.locators.map (·.ptr)

/-- The lists of a mapping are tidy, and no locator is in it twice. -/
@[mk_iff] structure Tidy (m : Mapping) : Prop where
  lists : ∀ l ∈ m.locatorsLists, TidyList l
  nodup : m.ptrs.Nodup

instance (m : Mapping) : Decidable (Tidy m) :=
  decidable_of_iff _ (tidy_iff m).symm

theorem TidyList.sublist {l l' : List Locator} (h : TidyList l) (hs : l'.Sublist l) :
    TidyList l' := by
  rcases h with h | h | ⟨h, hp⟩
  · exact .inl fun x hx => h x (hs.subset hx)
  · exact .inr (.inl fun x hx => h x (hs.subset hx))
  · exact .inr (.inr ⟨fun x hx => h x (hs.subset hx), hp.sublist hs⟩)

/-- A tidy list that starts with a locator of a kind holds only locators of it. -/
theorem TidyList.kind (h : TidyList (x :: l)) :
    ∀ y ∈ x :: l, lispAddrLafi y.addr = lispAddrLafi x.addr := by
  intro y hy
  rcases h with h | h | ⟨h, -⟩ <;> rw [h y hy, h x (by simp)]

theorem TidyList.sorted (h : TidyList (x :: l)) (hx : lispAddrLafi x.addr = .IP) :
    (x :: l).Pairwise Before := by
  rcases h with h | h | ⟨-, h⟩
  · rw [h x (by simp)] at hx
    cases hx
  · rw [h x (by simp)] at hx
    cases hx
  · exact h

theorem TidyList.singleton (x : Locator) (h : lispAddrLafi x.addr = .IP) : TidyList [x] :=
  .inr (.inr ⟨by simpa using h, pairwise_singleton _ _⟩)

/-! ## Sorting -/

/-- Taking a locator out of a sorted list and inserting it again gives the list back. -/
theorem reinsert_eq (hsort : l.Pairwise Before) (hnodup : (l.map (·.ptr)).Nodup)
    (hfind : locatorListGetLocatorWithAddr l addr = some x) :
    glistAdd locatorCmpAddr x (l.eraseP (·.ptr = x.ptr)) = some l := by
  obtain ⟨-, pre, post, rfl, -⟩ := find?_eq_some_iff_append.mp hfind
  have hpre : ∀ y ∈ pre, ¬ y.ptr = x.ptr := by
    intro y hy heq
    rw [map_append, nodup_append] at hnodup
    exact hnodup.2.2 _ (mem_map_of_mem hy) _ (by simp) heq
  have herase : (pre ++ x :: post).eraseP (fun y => decide (y.ptr = x.ptr)) = pre ++ post := by
    rw [eraseP_append_right _ (by simpa using hpre)]
    simp
  obtain ⟨-, hpost, hbetween⟩ := pairwise_append.mp hsort
  rw [herase]
  refine glistAdd_between (fun y hy => (hbetween y hy x (by simp)).cmp_one) fun y hy => ?_
  exact ((pairwise_cons.mp hpost).1 y hy).2

/-- The identities in one of the lists of a mapping differ. -/
theorem Tidy.list_nodup (h : Tidy m) (hl : l ∈ m.locatorsLists) : (l.map (·.ptr)).Nodup :=
  h.nodup.sublist ((sublist_flatten_of_mem hl).map _)

/-- In a tidy mapping the locators are sorted already. -/
theorem mappingSortLocators_tidy {a : IpAddr} (h : Tidy m)
    (hsort : mappingSortLocators m (.ip a) = .ok m') : m' = m := by
  rw [mappingSortLocators, except_bind_ok] at hsort
  obtain ⟨o, ho, hsort⟩ := hsort
  cases o with
  | none => exact (except_pure_ok.mp hsort)
  | some i =>
    obtain ⟨y, l, hget, hy, -⟩ := loctLstIndex_head ho
    obtain ⟨A, B, hL, hgetD, hset, -⟩ := lists_at hget
    have hmem : y :: l ∈ m.locatorsLists := mem_of_getElem? hget
    dsimp only at hsort
    rw [hgetD] at hsort
    cases hfind : locatorListGetLocatorWithAddr (y :: l) (.ip a) with
    | none =>
      rw [hfind] at hsort
      exact (except_pure_ok.mp hsort)
    | some x =>
      rw [hfind] at hsort
      have hre := reinsert_eq ((h.lists _ hmem).sorted hy) (h.list_nodup hmem) hfind
      rw [except_pure_ok.mp hsort, hre, Option.getD_some, hset, ← hL]

/-! ## Removing and inserting -/

/-- Taking a locator out of a list with different identities. -/
theorem perm_eraseP_ptr (hnodup : (l.map (·.ptr)).Nodup) (hy : y ∈ l) :
    l.Perm (y :: l.eraseP (·.ptr = y.ptr)) := by
  obtain ⟨z, l1, l2, hbefore, hz, rfl, herase⟩ :=
    exists_of_eraseP (p := fun z => decide (z.ptr = y.ptr)) hy (by simp)
  obtain rfl : z = y :=
    inj_on_of_nodup_map hnodup (by simp) hy (by simpa using hz)
  rw [herase]
  exact perm_middle

/-- One of the lists of a mapping becomes another one. An empty one may be dropped. -/
def Mapping.Becomes (m m' : Mapping) (l l' : List Locator) : Prop :=
  ∃ A B, m.locatorsLists = A ++ l :: B ∧
    (m'.locatorsLists = A ++ l' :: B ∨ l' = [] ∧ m'.locatorsLists = A ++ B)

namespace Mapping.Becomes

theorem of_set {m0 : Mapping} {l0 : List Locator} (h : m0.locatorsLists[i]? = some l0)
    (hm : m.locatorsLists = m0.locatorsLists.set i l)
    (hm' : m'.locatorsLists = m0.locatorsLists.set i l') : m.Becomes m' l l' := by
  obtain ⟨A, B, -, -, hset, -⟩ := lists_at h
  exact ⟨A, B, hm.trans (hset l), .inl (hm'.trans (hset l'))⟩

theorem set (h : m.locatorsLists[i]? = some l)
    (hm' : m'.locatorsLists = m.locatorsLists.set i l') : m.Becomes m' l l' := by
  obtain ⟨A, B, hL, -, hset, -⟩ := lists_at h
  exact ⟨A, B, hL, .inl (hm'.trans (hset l'))⟩

theorem mem (h : m.Becomes m' l l') : l ∈ m.locatorsLists := by
  obtain ⟨A, B, hL, -⟩ := h
  simp [hL]

theorem locators (h : m.Becomes m' l l') :
    ∃ A B, m.locators = A ++ (l ++ B) ∧ m'.locators = A ++ (l' ++ B) := by
  obtain ⟨A, B, hL, hL' | ⟨rfl, hL'⟩⟩ := h <;>
    exact ⟨A.flatten, B.flatten, by simp [Mapping.locators, hL], by simp [Mapping.locators, hL']⟩

theorem lists (h : m.Becomes m' l l') {k : List Locator} (hk : k ∈ m'.locatorsLists) :
    k = l' ∨ k ∈ m.locatorsLists := by
  obtain ⟨A, B, hL, hL' | ⟨rfl, hL'⟩⟩ := h
  all_goals
    rw [hL'] at hk
    simp only [hL, mem_append, mem_cons] at hk ⊢
    tauto

theorem sublist (h : m.Becomes m' l l') (hl : l'.Sublist l) : m'.locators.Sublist m.locators := by
  obtain ⟨A, B, hold, hnew⟩ := h.locators
  rw [hold, hnew]
  exact (List.Sublist.refl A).append (hl.append_right B)

/-- A locator is taken out, if the identities differ. -/
theorem perm_erase (h : m.Becomes m' l (l.eraseP (·.ptr = x.ptr)))
    (hnodup : (l.map (·.ptr)).Nodup) (hx : x ∈ l) : m.locators.Perm (x :: m'.locators) := by
  obtain ⟨A, B, hold, hnew⟩ := h.locators
  rw [hold, hnew]
  exact (((perm_eraseP_ptr hnodup hx).append_right B).append_left A).trans perm_middle

end Mapping.Becomes

/-- A mapping with one locator taken out of one of its lists. -/
theorem removed_tidy {p : Nat} (h : Tidy m) (hb : m.Becomes m' l (l.eraseP (·.ptr = p))) :
    Tidy m' := by
  refine ⟨fun k hk => ?_, h.nodup.sublist ((hb.sublist eraseP_sublist).map _)⟩
  obtain rfl | hk := hb.lists hk
  · exact (h.lists l hb.mem).sublist eraseP_sublist
  · exact h.lists k hk

/-- The locator that is taken out is no longer there. -/
theorem removed_not_mem (h : Tidy m) (hx : x ∈ l)
    (hb : m.Becomes m' l (l.eraseP (·.ptr = x.ptr))) : x.ptr ∉ m'.ptrs :=
  (nodup_cons.mp (((hb.perm_erase (h.list_nodup hb.mem) hx).map _).nodup_iff.mp h.nodup)).1

theorem mappingHasLocator_list (hhas : mappingHasLocator m loct = .ok true) :
    ∃ i l x, mappingGetLoctLstWithAddrType m loct.addr = .ok (some i) ∧
      m.locatorsLists[i]? = some l ∧ x ∈ l ∧ x.ptr = loct.ptr := by
  rw [mappingHasLocator, except_bind_ok] at hhas
  obtain ⟨o, ho, hhas⟩ := hhas
  cases o with
  | none => cases hhas
  | some i =>
    obtain ⟨y, l, hget, -⟩ := loctLstIndex_head ho
    have hany := except_pure_ok.mp hhas
    rw [getD_eq_getElem?_getD, hget, Option.getD_some] at hany
    obtain ⟨x, hx, hxp⟩ := any_eq_true.mp hany.symm
    exact ⟨i, y :: l, x, ho, hget, hx, of_decide_eq_true hxp⟩

/-- `mapping_remove_locator` takes a locator out of the list of its kind, and leaves no list empty.
-/
theorem mappingRemoveLocator_at (hi : mappingGetLoctLstWithAddrType m loct.addr = .ok (some i))
    (hget : m.locatorsLists[i]? = some l) : ∃ m', mappingRemoveLocator m loct = .ok m' ∧
      m.Becomes m' l (l.eraseP (·.ptr = loct.ptr)) ∧
      ([] ∈ m'.locatorsLists → [] ∈ m.locatorsLists) ∧ m'.locatorCount = m.locatorCount := by
  obtain ⟨A, B, hL, hgetD, hset, herase⟩ := lists_at hget
  rw [mappingRemoveLocator, hi]
  simp only [bind, Except.bind, hgetD]
  split_ifs with hempty
  · exact ⟨_, rfl, ⟨A, B, hL, .inr ⟨isEmpty_iff.mp hempty, herase⟩⟩,
      fun hnil => (eraseIdx_sublist _ _).subset hnil, rfl⟩
  · exact ⟨_, rfl, ⟨A, B, hL, .inl (hset _)⟩, fun hnil => (mem_or_eq_of_mem_set hnil).resolve_right
      fun h0 => hempty (by rw [← h0]; rfl), rfl⟩

theorem mappingRemoveLocator_becomes
    (hhas : mappingHasLocator m loct = .ok true) (hrem : mappingRemoveLocator m loct = .ok m') :
    ∃ l x, x ∈ l ∧ x.ptr = loct.ptr ∧ m.Becomes m' l (l.eraseP (·.ptr = x.ptr)) ∧
      ([] ∈ m'.locatorsLists → [] ∈ m.locatorsLists) ∧ m'.locatorCount = m.locatorCount ∧
      (SameFamilies m.locatorsLists → ∀ y ∈ l, sameFamily loct.addr y.addr) := by
  obtain ⟨i, l, x, hi, hget, hx, hptr⟩ := mappingHasLocator_list hhas
  obtain ⟨_, hrem', hb, hne, hcount⟩ := mappingRemoveLocator_at hi hget
  cases hrem.symm.trans hrem'
  refine ⟨l, x, hx, hptr, hptr ▸ hb, hne, hcount, fun hs => ?_⟩
  obtain ⟨_, _, _, -, hget', -, -, hall⟩ := loctLstIndex_some hs hi
  rwa [← hget', getD_eq_getElem?_getD, hget] at hall

/-- `mapping_remove_locator` on a locator of the mapping. -/
theorem mappingRemoveLocator_tidy (h : Tidy m)
    (hhas : mappingHasLocator m loct = .ok true) (hrem : mappingRemoveLocator m loct = .ok m') :
    Tidy m' ∧ m'.locators.Sublist m.locators ∧ loct.ptr ∉ m'.ptrs := by
  obtain ⟨l, x, hx, hptr, hb, -⟩ := mappingRemoveLocator_becomes hhas hrem
  exact ⟨removed_tidy h hb, hb.sublist eraseP_sublist, hptr ▸ removed_not_mem h hx hb⟩

/-- Locators of a sorted list that differ have different addresses. -/
theorem addr_ne_of_sorted (h : l.Pairwise Before) (hx : x ∈ l) (hy : y ∈ l)
    (hne : x ≠ y) : x.addr ≠ y.addr := by
  have hsym : l.Pairwise fun a b => a.addr ≠ b.addr := h.imp fun hab => hab.addr_ne
  have : Std.Symm fun a b : Locator => a.addr ≠ b.addr := ⟨fun _ _ hab => hab.symm⟩
  exact hsym.forall hx hy hne

/-- A mapping in one of whose lists a new locator was inserted. -/
theorem inserted_tidy (h : Tidy m) (hb : m.Becomes m' l l')
    (hperm : l'.Perm (x :: l)) (hl' : TidyList l') (hx : x.ptr ∉ m.ptrs) :
    Tidy m' ∧ ∀ y ∈ m'.locators, y = x ∨ y ∈ m.locators := by
  have hloc : m'.locators.Perm (x :: m.locators) := by
    obtain ⟨A, B, hold, hnew⟩ := hb.locators
    rw [hold, hnew]
    exact ((hperm.append_right B).append_left A).trans perm_middle
  refine ⟨⟨fun k hk => ?_, ?_⟩, fun y hy => mem_cons.mp (hloc.mem_iff.mp hy)⟩
  · obtain rfl | hk := hb.lists hk
    · exact hl'
    · exact h.lists k hk
  · rw [Mapping.ptrs, (hloc.map _).nodup_iff]
    exact nodup_cons.mpr ⟨hx, h.nodup⟩

/-- The list with the addresses of the family, and an insertion into a part of it that does not have
the address. -/
theorem Tidy.insertion (h : Tidy m) (hip : lispAddrLafi x.addr = .IP)
    (ho : mappingGetLoctLstWithAddrType m x.addr = .ok (some i)) :
    ∃ l, m.locatorsLists[i]? = some l ∧ m.locatorsLists.getD i [] = l ∧ l.Pairwise Before ∧
      (∀ z ∈ l, lispAddrLafi z.addr = .IP) ∧
      ∀ k k', k.Sublist l → (∀ z ∈ k, z.addr ≠ x.addr) →
        glistAdd locatorCmpAddr x k = some k' → TidyList k' := by
  obtain ⟨y, l, hget, hy, -⟩ := loctLstIndex_head ho
  have hl := h.lists _ (mem_of_getElem? hget)
  have hy := hy.trans hip
  have hkind : ∀ z ∈ y :: l, lispAddrLafi z.addr = .IP := fun z hz => (hl.kind z hz).trans hy
  refine ⟨y :: l, hget, by simp [getD_eq_getElem?_getD, hget], hl.sorted hy, hkind,
    fun k k' hk hne hadd => ?_⟩
  refine .inr (.inr ⟨fun z hz => ?_, glistAdd_sorted hip ((hl.sorted hy).sublist hk) hne hadd⟩)
  rcases mem_cons.mp ((glistAdd_perm hadd).mem_iff.mp hz) with rfl | hz
  · exact hip
  · exact hkind z (hk.subset hz)

/-- IP addresses compare as equal exactly when they are. -/
theorem locatorCmpAddr_eq_zero (hx : lispAddrLafi x.addr = .IP)
    (hy : lispAddrLafi y.addr = .IP) : locatorCmpAddr x y = 0 ↔ x.addr = y.addr := by
  obtain ⟨a, ha⟩ := lispAddrLafi_eq_ip_iff.mp hx
  obtain ⟨b, hb⟩ := lispAddrLafi_eq_ip_iff.mp hy
  rw [locatorCmpAddr, ha, hb, lispAddrCmp, ipAddrCmp_eq_zero_iff, LispAddr.ip.injEq]

/-- `mapping_add_locator` of a new locator with an IP address. -/
theorem mappingAddLocator_tidy {ret : Ret} (h : Tidy m) (hip : lispAddrLafi x.addr = .IP)
    (hx : x.ptr ∉ m.ptrs) (hadd : mappingAddLocator m x = .ok (ret, m')) :
    Tidy m' ∧ ∀ y ∈ m'.locators, y = x ∨ y ∈ m.locators := by
  cases mappingAddLocator_cases hadd with
  | @newList lists _ added =>
    have hperm := glistAdd_perm added
    have hloc : lists.flatten.Perm (x :: m.locators) := by
      simpa [Mapping.locators] using hperm.flatten
    refine ⟨⟨fun l hl => ?_, ?_⟩, fun y hy => ?_⟩
    · rw [mappingCountLocator_lists] at hl
      rcases mem_cons.mp (hperm.mem_iff.mp hl) with rfl | hl
      · exact .singleton x hip
      · exact h.lists l hl
    · rw [Mapping.ptrs, Mapping.locators, mappingCountLocator_lists, (hloc.map _).nodup_iff]
      exact nodup_cons.mpr ⟨hx, h.nodup⟩
    · rw [Mapping.locators, mappingCountLocator_lists] at hy
      exact mem_cons.mp (hloc.mem_iff.mp hy)
  | @inserted i l' kind new added =>
    obtain ⟨l, hat, hget, hsort, hkind, hins⟩ := h.insertion hip kind
    rw [hget] at new added
    have hne : ∀ z ∈ l, z.addr ≠ x.addr := by
      intro z hz heq
      refine Bool.eq_false_iff.mp new (any_eq_true.mpr ⟨z, hz, ?_⟩)
      exact decide_eq_true ((locatorCmpAddr_eq_zero hip (hkind z hz)).mpr heq.symm)
    exact inserted_tidy h (.set hat (mappingCountLocator_lists _ _)) (glistAdd_perm added)
      (hins _ _ (List.Sublist.refl _) hne added) hx
  | @replaced i aux l' kind old _ added =>
    obtain ⟨l, hat, hget, hsort, hkind, hins⟩ := h.insertion hip kind
    rw [hget] at old added
    have haux : aux ∈ l := mem_of_find?_eq_some old
    have hauxAddr : aux.addr = x.addr :=
      (locatorCmpAddr_eq_zero (hkind aux haux) hip).mp (by
        simpa [locatorCmpAddr] using find?_some old)
    -- the locator with the address is taken out first
    have hb : m.Becomes { m with locatorsLists := m.locatorsLists.set i _ } l
      (l.eraseP (·.ptr = aux.ptr)) := .set hat rfl
    have hb' : Mapping.Becomes { m with locatorsLists := m.locatorsLists.set i _ }
      { m with locatorsLists := m.locatorsLists.set i l' } (l.eraseP (·.ptr = aux.ptr)) l' :=
      .of_set hat rfl rfl
    have hsub := hb.sublist eraseP_sublist
    have hne : ∀ z ∈ l.eraseP (·.ptr = aux.ptr), z.addr ≠ x.addr := by
      intro z hz
      rw [← hauxAddr]
      refine addr_ne_of_sorted hsort (mem_of_mem_eraseP hz) haux ?_
      rintro rfl
      exact removed_not_mem h haux hb (mem_map_of_mem (mem_flatten.mpr ⟨_, hb'.mem, hz⟩))
    obtain ⟨htidy', hmem'⟩ := inserted_tidy (removed_tidy h hb) hb' (glistAdd_perm added)
      (hins _ _ eraseP_sublist hne added) fun hx' => hx ((hsub.map _).subset hx')
    exact ⟨htidy', fun z hz => (hmem' z hz).imp id fun hz => hsub.subset hz⟩
  | @dropped i aux kind old =>
    obtain ⟨l, hat, hget, -⟩ := h.insertion hip kind
    rw [hget]
    have hb : m.Becomes { m with locatorsLists := m.locatorsLists.set i _ } l
      (l.eraseP (·.ptr = aux.ptr)) := .set hat rfl
    exact ⟨removed_tidy h hb, fun z hz => .inr ((hb.sublist eraseP_sublist).subset hz)⟩
  | kept | refused => exact ⟨h, fun y hy => .inr hy⟩

/-- `mapping_activate_locator` takes the locator out and adds it with its new address, if there is a
list of locators without one. -/
theorem mappingActivateLocator_cases
    (h : mappingActivateLocator m loct addr = .ok m') : m' = m ∨ ∃ m₁ ret,
      mappingRemoveLocator m loct = .ok m₁ ∧
        mappingAddLocator m₁ { loct with addr := addr } = .ok (ret, m') := by
  rw [mappingActivateLocator, except_bind_ok] at h
  obtain ⟨o, -, h⟩ := h
  cases o with
  | none => exact .inl (except_pure_ok.mp h)
  | some i =>
    simp only [except_bind_ok, except_pure_ok] at h
    obtain ⟨m₁, hrem, ⟨ret, m2⟩, hadd, rfl⟩ := h
    exact .inr ⟨m₁, ret, hrem, hadd⟩

/-- `mapping_activate_locator` on a locator of the mapping. -/
theorem mappingActivateLocator_tidy {a : IpAddr} (h : Tidy m)
    (hhas : mappingHasLocator m loct = .ok true)
    (hact : mappingActivateLocator m loct (.ip a) = .ok m') :
    Tidy m' ∧ ∀ p ∈ m'.ptrs, p = loct.ptr ∨ p ∈ m.ptrs := by
  obtain rfl | ⟨m1, ret, hrem, hadd⟩ := mappingActivateLocator_cases hact
  · exact ⟨h, fun p hp => .inr hp⟩
  · obtain ⟨htidy, hsub, hgone⟩ := mappingRemoveLocator_tidy h hhas hrem
    obtain ⟨htidy', hmem⟩ :=
      mappingAddLocator_tidy htidy (x := { loct with addr := .ip a }) rfl hgone hadd
    refine ⟨htidy', fun p hp => ?_⟩
    obtain ⟨y, hy, rfl⟩ := mem_map.mp hp
    rcases hmem y hy with rfl | hy
    · exact .inl rfl
    · exact .inr (mem_map_of_mem (hsub.subset hy))

/-- Taking a locator out of the list of those without an address leaves the vectors as they are. -/
theorem removeLocatorAt_tidy {afi : Option Af} {ty i : Nat} (loc : Nat) (h : Tidy m)
    (hi : loctLstIndex .NO_ADDR afi ty m.locatorsLists = .ok (some i)) :
    Tidy (removeLocatorAt m i loc) ∧ (∀ p ∈ (removeLocatorAt m i loc).ptrs, p ∈ m.ptrs) ∧
      addressedLocators (removeLocatorAt m i loc) = addressedLocators m := by
  obtain ⟨y, l, hget, hy, -⟩ := loctLstIndex_head hi
  have hb : m.Becomes (removeLocatorAt m i loc) (y :: l) ((y :: l).eraseP (·.ptr = loc)) :=
    .set hget (by simp [removeLocatorAt, getD_eq_getElem?_getD, hget])
  have hsub : ((y :: l).eraseP (·.ptr = loc)).Sublist (y :: l) := eraseP_sublist
  refine ⟨removed_tidy h hb, fun p hp => ((hb.sublist hsub).map _).subset hp, ?_⟩
  have hnone : ∀ k : List Locator, k.Sublist (y :: l) →
      (k.head?.all fun z => lispAddrLafi z.addr = .NO_ADDR) = true := by
    intro k hk
    cases k with
    | nil => rfl
    | cons z k => simpa using ((h.lists _ hb.mem).kind z (hk.subset (by simp))).trans hy
  obtain ⟨A, B, hL, hL' | ⟨-, hL'⟩⟩ := hb <;>
    simp [addressedLocators, hL, hL', hy, hnone _ hsub]

/-! ## Changing a locator in place -/

/-- A mapping one of whose locators is changed in place. -/
def Mapping.mapLocator (m : Mapping) (loc : Nat) (f : Locator → Locator) : Mapping :=
  { m with
    locatorsLists := m.locatorsLists.map fun l =>
      l.map fun loct => if loct.ptr = loc then f loct else loct }

section MapLocator

variable {loc : Nat} {f : Locator → Locator}

theorem Mapping.mapLocator_locators : (m.mapLocator loc f).locators =
    m.locators.map fun loct => if loct.ptr = loc then f loct else loct := by
  simp only [Mapping.locators, Mapping.mapLocator, map_flatten]

theorem Mapping.mapLocator_ptrs (hf : ∀ l, (f l).ptr = l.ptr) :
    (m.mapLocator loc f).ptrs = m.ptrs := by
  rw [Mapping.ptrs, Mapping.mapLocator_locators, map_map, Mapping.ptrs]
  refine map_congr_left fun l _ => ?_
  simp only [Function.comp_apply]
  split_ifs
  · exact hf l
  · rfl

theorem Tidy.mapLocator_of_addr (h : Tidy m) (hptr : ∀ l, (f l).ptr = l.ptr)
    (haddr : ∀ l, (f l).addr = l.addr) : Tidy (m.mapLocator loc f) := by
  have hg : ∀ x : Locator, (if x.ptr = loc then f x else x).addr = x.addr := by
    intro x
    split_ifs
    · exact haddr x
    · rfl
  refine ⟨fun l' hl' => ?_, by rw [Mapping.mapLocator_ptrs hptr]; exact h.nodup⟩
  obtain ⟨l, hl, rfl⟩ := mem_map.mp hl'
  have hall : ∀ {k : LmAfi}, (∀ x ∈ l, lispAddrLafi x.addr = k) →
      ∀ x ∈ l.map (fun loct => if loct.ptr = loc then f loct else loct),
        lispAddrLafi x.addr = k := by
    intro k hk x hx
    obtain ⟨y, hy, rfl⟩ := mem_map.mp hx
    rw [hg, hk y hy]
  rcases h.lists l hl with hk | hk | ⟨hk, hs⟩
  · exact .inl (hall hk)
  · exact .inr (.inl (hall hk))
  · refine .inr (.inr ⟨hall hk, pairwise_map.mpr (hs.imp fun {x y} hxy => ?_)⟩)
    simpa only [Before, locatorCmpAddr, hg] using hxy

/-- The locator has an address of the family of `a`, and with the address `a` it is where it
belongs in its list. -/
def KeepsPlace (m : Mapping) (loc : Nat) (a : IpAddr) : Prop :=
  (∀ x ∈ m.locators, x.ptr = loc → lispAddrLafi x.addr = .IP ∧
    lispAddrIpAfi x.addr = some (ipAddrAfi a)) ∧
  Tidy (m.mapLocator loc fun l => { l with addr := .ip a })

instance (m : Mapping) (loc : Nat) (a : IpAddr) : Decidable (KeepsPlace m loc a) :=
  inferInstanceAs (Decidable (_ ∧ _))

/-- Such a change of an address leaves the vectors as they are. -/
theorem KeepsPlace.vectors_eq {a : IpAddr} {rlocs : List LispAddr} {v : BalancingLocatorsVecs}
    (h : KeepsPlace m loc a) (hv : balancingVectorsCalculate rlocs m = .ok v) :
    balancingVectorsCalculate rlocs
      (m.mapLocator loc fun l => { l with addr := .ip a }) = .ok v := by
  -- neither the kind of a locator nor the family it is reached over changes
  have hx : ∀ l ∈ m.locatorsLists, ∀ x ∈ l, x.ptr = loc → ∃ b, x.addr = .ip b ∧
      ipAddrAfi b = ipAddrAfi a := by
    intro l hl x hx hxp
    obtain ⟨hip, hafi⟩ := h.1 x (mem_flatten.mpr ⟨l, hl, hx⟩) hxp
    obtain ⟨b, hb⟩ := lispAddrLafi_eq_ip_iff.mp hip
    rw [hb] at hafi
    exact ⟨b, hb, Option.some.inj hafi⟩
  refine balancingVectorsCalculate_congr (Eq.symm ?_) hv
  simp only [addressedLocators, Mapping.mapLocator, flatMap_map, map_flatMap]
  refine flatMap_congr fun l hl => ?_
  have hhead : ((l.map fun x => if x.ptr = loc then { x with addr := .ip a } else x).head?.all
      fun x => lispAddrLafi x.addr = .NO_ADDR) =
        l.head?.all fun x => lispAddrLafi x.addr = .NO_ADDR := by
    cases l with
    | nil => rfl
    | cons y l =>
      by_cases hy : y.ptr = loc
      · obtain ⟨b, hb, -⟩ := hx _ hl y (by simp) hy
        simp [hy, hb, lispAddrLafi]
      · simp [hy]
  rw [hhead]
  split_ifs with hno
  · rfl
  · rw [map_map]
    refine map_congr_left fun x hxl => ?_
    simp only [Function.comp_apply]
    split_ifs with hxp
    · obtain ⟨b, hb, hfam⟩ := hx l hl x hxl hxp
      simp [hb, Locator.share, fwdFamily, fbLispAddrGetFwdIpAddr, Except.map, lispAddrIpAfi, hfam]
    · rfl

end MapLocator

end Lispmob
