import Lispmob.LocalLists

/-!
# Counting the locators of a mapping

`locator_count` is kept by hand: `mapping_add_locator` counts an insertion,
`mapping_update_locators` adds up the sizes of the lists it copies, and the other functions leave
the count alone. `Counted` says that it is the number of the locators that have an address, that
each list is of one family, so that its first locator speaks for all of them, and that there are
fewer than `2 ^ 16` locators, so that the counter of the source does not wrap.

Each operation on a mapping keeps `Counted`, with two exceptions. `mapping_remove_locator` leaves a
locator with an address counted; the router only takes out locators without one. And replacing a
locator by one that cannot be inserted loses it; that happens for paths and the like only.
-/

namespace Lispmob

open Prog List

variable {x : Locator} {m m' : Mapping} {f : Locator → Locator} {l : List Locator} {a b : LispAddr}
  {loct : Locator} {loc : Nat} {i : Nat}

/-- The locator has an address. -/
def Locator.hasAddr (l : Locator) : Bool :=
  lispAddrLafi l.addr ≠ .NO_ADDR

/-- The number of locators of the mapping that have an address. -/
def Mapping.addressed (m : Mapping) : Nat :=
  m.locators.countP Locator.hasAddr

/-- The count is the number of locators that have an address. -/
@[mk_iff] structure Counted (m : Mapping) : Prop where
  count : m.locatorCount = m.addressed
  few : m.locators.length < 2 ^ 16
  families : SameFamilies m.locatorsLists

instance (m : Mapping) : Decidable (Counted m) :=
  decidable_of_iff _ (counted_iff m).symm

/-! ## Lists of one family -/

theorem sameFamily.hasAddr {x y : Locator} (h : sameFamily x.addr y.addr) :
    x.hasAddr = y.hasAddr := by
  rw [Locator.hasAddr, Locator.hasAddr, h.1]

theorem sameFamily.symm (h : sameFamily a b) : sameFamily b a :=
  ⟨h.1.symm, h.2.symm⟩

theorem sameFamily.trans {a b c : LispAddr} (h : sameFamily a b) (h' : sameFamily b c) :
    sameFamily a c :=
  ⟨h.1.trans h'.1, h.2.trans h'.2⟩

/-- In a list of the family of `x` all or none have an address. -/
theorem countP_hasAddr (h : ∀ y ∈ l, sameFamily x.addr y.addr) :
    l.countP Locator.hasAddr = if x.hasAddr then l.length else 0 := by
  split_ifs with hx
  · exact countP_eq_length.mpr fun y hy => (h y hy).hasAddr ▸ hx
  · exact countP_eq_zero.mpr fun y hy => (h y hy).hasAddr ▸ hx

/-- An address of the family of a plain one is plain. -/
theorem sameFamily.plain (h : sameFamily a b) (ha : a.plain = true) : b.plain = true := by
  obtain ⟨hlafi, -⟩ := h
  cases a with
  | noAddr => cases b <;> first | rfl | cases hlafi
  | ip => cases b <;> first | rfl | cases hlafi
  | _ => cases ha

/-- A plain locator is always inserted into a list of its family. -/
theorem glistAdd_plain (hx : x.addr.plain = true)
    (h : ∀ y ∈ l, sameFamily x.addr y.addr) : ∃ l', glistAdd locatorCmpAddr x l = some l' :=
  glistAdd_of_comparable fun y hy => lispAddrCmp_nonneg hx ((h y hy).plain hx) (h y hy)

/-! ## Changing one list -/

section Change

variable {l' : List Locator}

/-- One list of a mapping is replaced by another one of the same family. -/
theorem Counted.replace (h : Counted m) {x : Locator} (hb : m.Becomes m' l l')
    (hfam : ∀ y ∈ l, sameFamily x.addr y.addr) (hfam' : ∀ y ∈ l', sameFamily x.addr y.addr)
    (hfew : m'.locators.length < 2 ^ 16)
    (hcount : m'.locatorCount + (if x.hasAddr then l.length else 0) =
      m.locatorCount + if x.hasAddr then l'.length else 0) : Counted m' := by
  refine ⟨?_, hfew, fun k hk => ?_⟩
  · obtain ⟨A, B, hold, hnew⟩ := hb.locators
    have hm := h.count
    rw [Mapping.addressed, hold, countP_append, countP_append, countP_hasAddr hfam] at hm
    rw [Mapping.addressed, hnew, countP_append, countP_append, countP_hasAddr hfam']
    omega
  · obtain rfl | hk := hb.lists hk
    · exact fun y hy z hz => (hfam' y hy).symm.trans (hfam' z hz)
    · exact h.families k hk

/-- The mappings that differ in what is not counted. -/
theorem Counted.congr (h : Counted m) (hlists : m'.locatorsLists = m.locatorsLists)
    (hcount : m'.locatorCount = m.locatorCount) : Counted m' := by
  have hlocs : m'.locators = m.locators := by rw [Mapping.locators, hlists, Mapping.locators]
  refine ⟨?_, hlocs ▸ h.few, hlists ▸ h.families⟩
  rw [hcount, h.count, Mapping.addressed, Mapping.addressed, hlocs]

theorem Counted.empty (hlists : m.locatorsLists = []) (hcount : m.locatorCount = 0) :
    Counted m := by
  have hlocs : m.locators = [] := by rw [Mapping.locators, hlists, flatten_nil]
  refine ⟨?_, by simp [hlocs], by simp [SameFamilies, hlists]⟩
  rw [hcount, Mapping.addressed, hlocs, countP_nil]

/-- The list found for an address, in whose place another one is put. -/
theorem Counted.found (h : Counted m) {a : LispAddr}
    (hi : mappingGetLoctLstWithAddrType m a = .ok (some i)) :
    ∃ l, m.locatorsLists.getD i [] = l ∧ (∀ y ∈ l, sameFamily a y.addr) ∧
      ∀ {m' : Mapping} {l'}, m'.locatorsLists = m.locatorsLists.set i l' → m.Becomes m' l l' := by
  obtain ⟨A, l, B, hL, hget, hset, -, hfam⟩ := loctLstIndex_some h.families hi
  exact ⟨l, hget, hfam, fun h' => ⟨A, B, hL, .inl (h'.trans (hset _))⟩⟩

end Change

/-! ## Adding a locator -/

theorem mappingCountLocator_count (m : Mapping) (x : Locator) :
    (mappingCountLocator m x.addr).locatorCount =
      m.locatorCount + if x.hasAddr then 1 else 0 := by
  unfold mappingCountLocator Locator.hasAddr
  split_ifs with h h' <;> simp_all

theorem Counted.insert_list {lists : List (List Locator)} (h : Counted m)
    (hfew : m.locators.length + 1 < 2 ^ 16)
    (hadd : glistAdd locatorListCmpAfi [x] m.locatorsLists = some lists) :
    Counted (mappingCountLocator { m with locatorsLists := lists } x.addr) := by
  have hperm := glistAdd_perm hadd
  have hlocs : lists.flatten.Perm (x :: m.locators) := by
    simpa [Mapping.locators] using hperm.flatten
  refine ⟨?_, ?_, fun l hl => ?_⟩
  · rw [mappingCountLocator_count, Mapping.addressed, mappingCountLocator_locators,
      Mapping.locators, hlocs.countP_eq, countP_cons]
    exact congrArg (· + _) h.count
  · rw [mappingCountLocator_locators, Mapping.locators, hlocs.length_eq]
    exact hfew
  · rw [mappingCountLocator_lists] at hl
    obtain rfl | hl := mem_cons.mp (hperm.mem_iff.mp hl)
    · simp [sameFamily]
    · exact h.families l hl

/-- `mapping_add_locator`. A plain locator can always be inserted; another one may take the place of
a locator and then not be inserted, which is the return code `BAD`. -/
theorem mappingAddLocator_counted {ret : Ret} (h : Counted m)
    (hfew : m.locators.length + 1 < 2 ^ 16) (hret : ret ≠ .BAD ∨ x.addr.plain = true)
    (hadd : mappingAddLocator m x = .ok (ret, m')) : Counted m' := by
  have hfew' : m'.locators.length < 2 ^ 16 := by
    have hle := (mappingAddLocator_subperm hadd).length_le
    rw [length_cons] at hle
    omega
  -- the locators of the list, and the new one
  have hfam' : ∀ {l k k' : List Locator}, (∀ y ∈ l, sameFamily x.addr y.addr) → k.Sublist l →
      glistAdd locatorCmpAddr x k = some k' → ∀ y ∈ k', sameFamily x.addr y.addr := by
    intro l k k' hfam hk hadd y hy
    obtain rfl | hy := mem_cons.mp ((glistAdd_perm hadd).mem_iff.mp hy)
    · exact ⟨rfl, rfl⟩
    · exact hfam y (hk.subset hy)
  cases mappingAddLocator_cases hadd with
  | newList _ added => exact h.insert_list hfew added
  | @inserted i k kind _ added =>
    obtain ⟨l, hget, hfam, hset⟩ := h.found kind
    rw [hget] at added
    refine h.replace (hset (mappingCountLocator_lists _ _)) hfam
      (hfam' hfam (List.Sublist.refl _) added) hfew' ?_
    rw [mappingCountLocator_count, (glistAdd_perm added).length_eq, length_cons]
    dsimp only
    split_ifs <;> omega
  | @replaced i aux k kind old prio added =>
    obtain ⟨l, hget, hfam, hset⟩ := h.found kind
    rw [hget] at added old
    have hlen : k.length = l.length := by
      have hmem : aux ∈ l := mem_of_find?_eq_some old
      have hpos := length_pos_of_mem hmem
      rw [(glistAdd_perm added).length_eq, length_cons, length_eraseP_of_mem hmem (by simp)]
      omega
    exact h.replace (hset rfl) hfam (hfam' hfam eraseP_sublist added) hfew' (by rw [hlen])
  | @dropped i aux kind old refused =>
    obtain hret | hplain := hret
    · exact absurd rfl hret
    · obtain ⟨l, hget, hfam, -⟩ := h.found kind
      rw [hget] at refused
      obtain ⟨k, hk⟩ := glistAdd_plain hplain fun y hy => hfam y (mem_of_mem_eraseP hy)
      cases refused.symm.trans hk
  | kept | refused => exact h

/-- The loop of `lisp_msg_parse_mapping_record`, if it gets to its end. -/
theorem addLocators_counted {l left : List Locator} (h : Counted m)
    (hfew : m.locators.length + l.length < 2 ^ 16)
    (hadd : addLocators m l = .ok (.GOOD, m', left)) : Counted m' := by
  refine (addLocators_induct (I := fun rest m1 =>
    Counted m1 ∧ m1.locators.length + rest.length < 2 ^ 16) ?_ ⟨h, hfew⟩ hadd).1
  rintro x rest m1 r m2 ⟨h1, hfew1⟩ hx hret
  have hle := (mappingAddLocator_subperm hx).length_le
  rw [length_cons] at hfew1 hle
  exact ⟨mappingAddLocator_counted h1 (by omega) (.inl (hret rfl)) hx, by omega⟩

/-! ## Parsing a record -/

/-- The locators are not IP prefixes. -/
def NoPrefixes (l : List Locator) : Prop :=
  ∀ x ∈ l, lispAddrLafi x.addr ≠ .IPPREF

instance (l : List Locator) : Decidable (NoPrefixes l) :=
  inferInstanceAs (Decidable (∀ x ∈ l, _))

/-- A record as it can be read from a message: the number of locators is a byte, and no address of a
message is an IP prefix (`readMappingRecord_readable`). -/
def RawRecord.Readable : RawRecord → Prop
  | .malformed => True
  | .wellFormed rec =>
    rec.locators.length < 2 ^ 8 ∧ ∀ r ∈ rec.locators, lispAddrLafi r.addr ≠ .IPPREF

instance : DecidablePred RawRecord.Readable
  | .malformed => inferInstanceAs (Decidable True)
  | .wellFormed _ => inferInstanceAs (Decidable (_ ∧ ∀ r ∈ _, _))

theorem parseLocators_length : ∀ (l : List LocatorRecord) (next : Nat) (acc : List Locator),
    (parseLocators next acc l).length = l.length + acc.length
  | [], _, _ => by simp [parseLocators]
  | r :: l, next, acc => by
    rw [parseLocators, parseLocators_length, length_cons, length_cons]
    omega

theorem parseLocators_addrs : ∀ {l : List LocatorRecord} {next : Nat} {acc : List Locator},
    NoPrefixes acc → (∀ r ∈ l, lispAddrLafi r.addr ≠ .IPPREF) →
      NoPrefixes (parseLocators next acc l)
  | [], _, _, hacc, _ => hacc
  | r :: l, next, acc, hacc, hl => by
    rw [parseLocators]
    refine parseLocators_addrs (fun x hx => ?_) fun r' hr' => hl r' (mem_cons_of_mem _ hr')
    obtain rfl | hx := mem_cons.mp hx
    · exact hl r (by simp)
    · exact hacc x hx

theorem lispMsgParseMappingRecord_counted {next : Nat} {probed : Probed} {raw : RawRecord}
    {p : ParsedRecord} (hraw : raw.Readable) (hret : p.ret = .GOOD)
    (h : lispMsgParseMappingRecord next probed raw = .ok p) :
    Counted p.m ∧ NoPrefixes p.m.locators := by
  cases raw with
  | malformed =>
    cases h
    cases hret
  | wellFormed rec =>
    rw [lispMsgParseMappingRecord, except_bind_ok] at h
    obtain ⟨⟨ret, m', left⟩, hadd, h⟩ := h
    cases except_pure_ok.mp h
    obtain rfl : ret = .GOOD := hret
    have hlen := parseLocators_length rec.locators next []
    rw [length_nil, Nat.add_zero] at hlen
    constructor
    · refine addLocators_counted (.empty rfl rfl) ?_ hadd
      have h0 : (mappingNew.locators).length = 0 := rfl
      have hbyte := hraw.1
      change mappingNew.locators.length + _ < _
      omega
    · have hsub := addLocators_subperm hadd
      intro x hx
      have hx' := hsub.subset hx
      obtain hx' | hx' := mem_append.mp hx'
      · exact parseLocators_addrs (by simp [NoPrefixes]) hraw.2 x hx'
      · cases hx'

/-! ## Copies -/

theorem clones_length : ∀ {L : List (List Locator)} {next : Nat},
    (clones next L).flatten.length ≤ L.flatten.length
  | [], _ => Nat.le_refl 0
  | l :: L, next => by
    rw [clones, flatten_cons, flatten_cons, length_append, length_append]
    exact Nat.add_le_add (locatorListClone_addrs next l).2 clones_length

/-- Lists of one family each are counted by their first locators. -/
theorem sum_counts : ∀ {L : List (List Locator)}, SameFamilies L →
    (L.map counts).sum = L.flatten.countP Locator.hasAddr
  | [], _ => rfl
  | l :: L, h => by
    rw [map_cons, sum_cons, flatten_cons, countP_append, sum_counts fun k hk => h k (by simp [hk])]
    cases l with
    | nil => rfl
    | cons x l =>
      rw [countP_hasAddr (h (x :: l) (by simp) x (by simp))]
      by_cases hx : lispAddrLafi x.addr = .NO_ADDR <;> simp [counts, Locator.hasAddr, hx]

/-- `mapping_update_locators` from the lists of a counted mapping. -/
theorem mappingUpdateLocators_counted {m m0 m' : Mapping} {next next' : Nat} (h₀ : Counted m0)
    (hpre : NoPrefixes m0.locators)
    (h : mappingUpdateLocators next m m0.locatorsLists = .ok (next', m')) :
    Counted m' ∧ NoPrefixes m'.locators := by
  obtain ⟨hperm, hcount⟩ := mappingUpdateLocators_perm h hpre
  have hfam : SameFamilies (clones next m0.locatorsLists) := by
    intro k hk y hy z hz
    obtain ⟨l, hl, hfrom⟩ := mem_clones hk
    obtain ⟨y', hy', hye⟩ := hfrom y hy
    obtain ⟨z', hz', hze⟩ := hfrom z hz
    exact hye ▸ hze ▸ h₀.families l hl y' hy' z' hz'
  refine ⟨⟨?_, ?_, fun k hk => hfam k (hperm.mem_iff.mp hk)⟩, fun y hy => ?_⟩
  · rw [hcount, sum_counts hfam, Mapping.addressed, Mapping.locators, hperm.flatten.countP_eq]
  · rw [Mapping.locators, hperm.flatten.length_eq]
    exact Nat.lt_of_le_of_lt clones_length h₀.few
  · obtain ⟨k, hk, hy⟩ := mem_flatten.mp (hperm.flatten.mem_iff.mp hy)
    obtain ⟨l, hl, hfrom⟩ := mem_clones hk
    obtain ⟨x, hx, heq⟩ := hfrom y hy
    exact heq ▸ hpre x (mem_flatten.mpr ⟨l, hl, hx⟩)

/-! ## Changes in place -/

/-- A locator is changed in place and stays in its family. -/
theorem Counted.mapLocator (h : Counted m)
    (hf : ∀ x ∈ m.locators, x.ptr = loc → sameFamily (f x).addr x.addr) :
    Counted (m.mapLocator loc f) := by
  have hg : ∀ x ∈ m.locators, sameFamily (if x.ptr = loc then f x else x).addr x.addr := by
    intro x hx
    split_ifs with hp
    · exact hf x hx hp
    · exact ⟨rfl, rfl⟩
  refine ⟨?_, ?_, fun l' hl' => ?_⟩
  · rw [Mapping.addressed, Mapping.mapLocator_locators, countP_map]
    refine h.count.trans (countP_congr fun x hx => ?_)
    rw [Function.comp_apply, (hg x hx).hasAddr]
  · rw [Mapping.mapLocator_locators, length_map]
    exact h.few
  · obtain ⟨l, hl, rfl⟩ := mem_map.mp hl'
    have hmem : ∀ x ∈ l, x ∈ m.locators := fun x hx => mem_flatten.mpr ⟨l, hl, hx⟩
    rintro x' hx' y' hy'
    obtain ⟨x, hx, rfl⟩ := mem_map.mp hx'
    obtain ⟨y, hy, rfl⟩ := mem_map.mp hy'
    exact (hg x (hmem x hx)).trans ((h.families l hl x hx y hy).trans (hg y (hmem y hy)).symm)

theorem NoPrefixes.mapLocator (h : NoPrefixes m.locators)
    (hf : ∀ x, (f x).addr = x.addr) : NoPrefixes (m.mapLocator loc f).locators := by
  intro x' hx'
  rw [Mapping.mapLocator_locators] at hx'
  obtain ⟨x, hx, rfl⟩ := mem_map.mp hx'
  split_ifs
  · rw [hf x]
    exact h x hx
  · exact h x hx

/-! ## Removing and sorting -/

/-- `mapping_remove_locator` on a locator of the mapping that has no address. -/
theorem mappingRemoveLocator_counted (h : Counted m) (hno : loct.hasAddr = false)
    (hhas : mappingHasLocator m loct = .ok true) (hrem : mappingRemoveLocator m loct = .ok m') :
    Counted m' ∧ m'.locators.length + 1 = m.locators.length ∧
      ∀ x ∈ m'.locators, x ∈ m.locators := by
  obtain ⟨l, x, hx, -, hb, -, hcount, hfam⟩ := mappingRemoveLocator_becomes hhas hrem
  have hfam := hfam h.families
  have hlen : m'.locators.length + 1 = m.locators.length := by
    obtain ⟨A, B, hold, hnew⟩ := hb.locators
    have hpos := length_pos_of_mem hx
    have hshort := length_eraseP_of_mem (p := fun y => decide (y.ptr = x.ptr)) hx (by simp)
    simp only [hnew, hold, length_append, hshort]
    omega
  have hfew := h.few
  refine ⟨h.replace hb hfam (fun y hy => hfam y (mem_of_mem_eraseP hy)) (by omega) ?_, hlen,
    fun y hy => (hb.sublist eraseP_sublist).subset hy⟩
  simp [hno, hcount]

/-- `mapping_activate_locator` on a locator of the mapping that has no address. -/
theorem mappingActivateLocator_counted {a : IpAddr} (h : Counted m)
    (hno : loct.hasAddr = false) (hhas : mappingHasLocator m loct = .ok true)
    (hact : mappingActivateLocator m loct (.ip a) = .ok m') :
    Counted m' ∧ ∀ x ∈ m'.locators, x.ptr = loct.ptr ∨ x ∈ m.locators := by
  obtain rfl | ⟨m1, ret, hrem, hadd⟩ := mappingActivateLocator_cases hact
  · exact ⟨h, fun x hx => .inr hx⟩
  · obtain ⟨h1, hlen, hsub⟩ := mappingRemoveLocator_counted h hno hhas hrem
    have hfew := h.few
    refine ⟨mappingAddLocator_counted h1 (by omega) (.inr rfl) hadd, fun x hx => ?_⟩
    obtain rfl | hx := mem_cons.mp ((mappingAddLocator_subperm hadd).subset hx)
    · exact .inl rfl
    · exact .inr (hsub x hx)

/-- Taking a locator out of the list of those without an address. -/
theorem removeLocatorAt_counted (h : Counted m) (loc : Nat)
    (hi : loctLstIndex .NO_ADDR none 0 m.locatorsLists = .ok (some i)) :
    Counted (removeLocatorAt m i loc) ∧ (removeLocatorAt m i loc).locators.Sublist m.locators := by
  obtain ⟨l, hget, hfam, hset⟩ := h.found (a := .noAddr) hi
  have hb : m.Becomes (removeLocatorAt m i loc) l (l.eraseP (·.ptr = loc)) :=
    hset (by rw [removeLocatorAt, hget])
  have hsub := hb.sublist eraseP_sublist
  exact ⟨h.replace (x := ⟨0, .noAddr, .DOWN, 0, 0, 0, 0⟩) hb hfam
    (fun y hy => hfam y (mem_of_mem_eraseP hy)) (Nat.lt_of_le_of_lt hsub.length_le h.few) rfl, hsub⟩

/-- `mapping_sort_locators`: what is taken out goes back into the list. -/
theorem mappingSortLocators_counted {a : IpAddr} (h : Counted m)
    (hsort : mappingSortLocators m (.ip a) = .ok m') : Counted m' := by
  rw [mappingSortLocators, except_bind_ok] at hsort
  obtain ⟨o, ho, hsort⟩ := hsort
  cases o with
  | none =>
    cases hsort
    exact h
  | some i =>
    obtain ⟨l, hget, hfam, hset⟩ := h.found ho
    dsimp only at hsort
    rw [hget] at hsort
    cases hfind : locatorListGetLocatorWithAddr l (.ip a) with
    | none =>
      rw [hfind] at hsort
      cases hsort
      exact h
    | some x =>
      rw [hfind] at hsort
      have hmem : x ∈ l := mem_of_find?_eq_some hfind
      have hx : ∀ y ∈ l, sameFamily x.addr y.addr := fun y hy =>
        (hfam x hmem).symm.trans (hfam y hy)
      obtain ⟨k, hk⟩ := glistAdd_plain ((hfam x hmem).plain rfl) fun y hy =>
        hx y (mem_of_mem_eraseP (p := fun y => decide (y.ptr = x.ptr)) hy)
      dsimp only at hsort
      rw [hk, Option.getD_some] at hsort
      have hperm := glistAdd_perm hk
      have hlen : k.length = l.length := by
        have hpos := length_pos_of_mem hmem
        rw [hperm.length_eq, length_cons, length_eraseP_of_mem hmem (by simp)]
        omega
      cases except_pure_ok.mp hsort
      have hb : m.Becomes { m with locatorsLists := m.locatorsLists.set i k } l k := hset rfl
      refine h.replace hb hx (fun y hy => ?_) ?_ (by rw [hlen])
      · obtain rfl | hy := mem_cons.mp (hperm.mem_iff.mp hy)
        · exact ⟨rfl, rfl⟩
        · exact hx y (mem_of_mem_eraseP hy)
      · obtain ⟨A, B, hold, hnew⟩ := hb.locators
        have hfew := h.few
        rw [hold, length_append, length_append] at hfew
        rw [hnew, length_append, length_append]
        omega

end Lispmob
