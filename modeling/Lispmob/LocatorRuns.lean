import Lispmob.AddressOrder
import Lispmob.InterfaceLinks

/-!
# Sequences of operations on the locators of a mapping

Adding locators with IP addresses to an empty mapping leaves one locator for each address, with the
least priority among those added for it, in whatever order they are added (`least_priorities`).

Adding, removing and activating locators and copying them from another mapping keeps the lists of a
mapping arranged: well formed, with the kinds in increasing order (`built_arranged`).
-/

namespace Lispmob

open List

variable {l : List Locator} {x : Locator} {m : Mapping} {L : List (List Locator)}
  {added : List Locator} {a b : LispAddr}

/-! ## Adding locators -/

/-- `mapping_add_locator` for one locator after the other. -/
def mappingAddLocators (m : Mapping) : List Locator → Except Fault Mapping
  | [] => .ok m
  | x :: l => do
    let (_, m') ← mappingAddLocator m x
    mappingAddLocators m' l

/-- The locators of the mapping are among those added, one for each of their addresses, and none has
a greater priority than another one added with its address. -/
structure Least (added : List Locator) (m : Mapping) : Prop where
  mem : ∀ y ∈ m.locators, y ∈ added
  all : ∀ x ∈ added, ∃ y ∈ m.locators, y.addr = x.addr
  least : ∀ y ∈ m.locators, ∀ x ∈ added, x.addr = y.addr → y.priority ≤ x.priority

theorem addresses_of_hasAddr (h : ∀ y ∈ l, y.hasAddr = true) : addresses l = l.map (·.addr) := by
  rw [addresses, filter_eq_self.mpr h]

theorem Least.add {m m' : Mapping} {ret : Ret} (h : Least added m)
    (hip : ∀ y ∈ m.locators, y.hasAddr = true) (hdistinct : (addresses m.locators).Nodup)
    (hadd : LocatorAdded m x ret m') : Least (x :: added) m' := by
  obtain ⟨hmem, hall, hleast⟩ := h
  have haddrs := addresses_of_hasAddr hip
  cases hadd with
  | inserted hnew hlocs =>
    constructor <;> grind [UInt8.le_refl]
  | @replaced _ y haddr _ rest hold hlocs hprio =>
    constructor <;> grind [UInt8.le_refl, UInt8.le_trans, UInt8.le_of_lt]
  | kept hy haddr _ hprio => constructor <;> grind [UInt8.le_trans]

/-- The pairs of an address and the least priority among the locators with it. -/
def leastPriorities (l : List Locator) : Set (LispAddr × UInt8) :=
  { p | (∃ x ∈ l, (x.addr, x.priority) = p) ∧ ∀ x ∈ l, x.addr = p.1 → p.2 ≤ x.priority }

theorem Least.pairs (h : Least added m) :
    { p | ∃ y ∈ m.locators, (y.addr, y.priority) = p } = leastPriorities added := by
  ext ⟨a, p⟩
  constructor
  · rintro ⟨y, hy, heq⟩
    cases heq
    exact ⟨⟨y, h.mem y hy, rfl⟩, h.least y hy⟩
  · rintro ⟨⟨x, hx, heq⟩, hleast⟩
    cases heq
    obtain ⟨y, hy, haddr⟩ := h.all x hx
    exact ⟨y, hy, Prod.ext haddr
      (UInt8.le_antisymm (h.least y hy x hx haddr.symm) (hleast y (h.mem y hy) haddr))⟩

/-- The loop, from a mapping that has the least priorities of the locators added before. -/
theorem mappingAddLocators_least : ∀ {l added : List Locator} {m : Mapping},
    WellFormedLists m.locatorsLists → Least added m →
      (∀ x ∈ l ++ added, lispAddrLafi x.addr = .IP) → ((l ++ added).map (·.ptr)).Nodup →
        ∃ m', mappingAddLocators m l = .ok m' ∧ (m'.locators.map (·.addr)).Nodup ∧
          Least (l.reverse ++ added) m'
  | [], added, m, hwf, h, hip, hnodup => by
    have hhas : ∀ y ∈ m.locators, y.hasAddr = true := fun y hy => by
      simp [Locator.hasAddr, hip y (h.mem y hy)]
    exact ⟨m, rfl, addresses_of_hasAddr hhas ▸ hwf.distinct, h⟩
  | x :: l, added, m, hwf, h, hip, hnodup => by
    have hhas : ∀ y ∈ m.locators, y.hasAddr = true := fun y hy => by
      simp [Locator.hasAddr, hip y (by simp [h.mem y hy])]
    have hptr : x.ptr ∉ m.ptrs := fun hmem => by
      obtain ⟨y, hy, heq⟩ := mem_map.mp hmem
      refine (nodup_cons.mp hnodup).1 (mem_map.mpr ⟨y, ?_, heq⟩)
      exact mem_append_right _ (h.mem y hy)
    obtain ⟨a, ha⟩ := lispAddrLafi_eq_ip_iff.mp (hip x (by simp))
    obtain ⟨ret, m1, hadd, hwf1, hadded⟩ := mappingAddLocator_wellFormed hwf (by rw [ha]; rfl) hptr
    have hperm : (l ++ x :: added).Perm (x :: l ++ added) := perm_middle
    obtain ⟨m', hrun, hdistinct, hleast⟩ := mappingAddLocators_least (l := l) hwf1
      (h.add hhas hwf.distinct hadded) (fun y hy => hip y (hperm.mem_iff.mp hy))
      ((hperm.map _).nodup_iff.mpr hnodup)
    refine ⟨m', ?_, hdistinct, by simpa using hleast⟩
    rw [mappingAddLocators, hadd]
    exact hrun

/-- Locators with IP addresses added one after the other to an empty mapping leave one locator for
each address, with the least priority among them, in whatever order they are added. -/
theorem least_priorities (m : Mapping) (l : List Locator) (hm : m.locatorsLists = [])
    (hip : ∀ x ∈ l, lispAddrLafi x.addr = .IP) (hobjects : (l.map (·.ptr)).Nodup) :
    ∃ m', mappingAddLocators m l = .ok m' ∧ (m'.locators.map (·.addr)).Nodup ∧
      { p | ∃ y ∈ m'.locators, (y.addr, y.priority) = p } = leastPriorities l ∧
      ∀ l', l'.Perm l → ∃ m'', mappingAddLocators m l' = .ok m'' ∧
        { p | ∃ y ∈ m''.locators, (y.addr, y.priority) = p } =
          { p | ∃ y ∈ m'.locators, (y.addr, y.priority) = p } := by
  have hrun : ∀ l', l'.Perm l → ∃ m', mappingAddLocators m l' = .ok m' ∧
      (m'.locators.map (·.addr)).Nodup ∧
      { p | ∃ y ∈ m'.locators, (y.addr, y.priority) = p } = leastPriorities l := by
    intro l' hperm
    obtain ⟨m', hrun, hdistinct, hleast⟩ := @mappingAddLocators_least l' [] m
      ⟨by simp [hm], by simp [hm]⟩ ⟨by simp [Mapping.locators, hm], by simp, by simp⟩
      (fun x hx => hip x (hperm.mem_iff.mp (by simpa using hx)))
      (by simpa using (hperm.map _).nodup_iff.mpr hobjects)
    have hmem : ∀ x, x ∈ l'.reverse ++ [] ↔ x ∈ l := fun x => by simp [hperm.mem_iff]
    refine ⟨m', hrun, hdistinct, hleast.pairs.trans ?_⟩
    simp only [leastPriorities, hmem]
  obtain ⟨m', hm', hdistinct, hpairs⟩ := hrun l (List.Perm.refl l)
  refine ⟨m', hm', hdistinct, hpairs, fun l' hperm => ?_⟩
  obtain ⟨m'', hm'', -, hpairs'⟩ := hrun l' hperm
  exact ⟨m'', hm'', hpairs'.trans hpairs.symm⟩

theorem least_priorities_two :
    ∃ m', mappingAddLocators mappingNew [⟨0, .ip (.v4 1), .UP, 2, 100, 255, 0⟩,
      ⟨1, .ip (.v4 1), .UP, 1, 100, 255, 0⟩] = .ok m' ∧ (m'.locators.map (·.addr)).Nodup := by
  obtain ⟨m', hrun, hdistinct, -⟩ := least_priorities mappingNew
    [⟨0, .ip (.v4 1), .UP, 2, 100, 255, 0⟩, ⟨1, .ip (.v4 1), .UP, 1, 100, 255, 0⟩] rfl (by decide)
    (by decide)
  exact ⟨m', hrun, hdistinct⟩

/-! ## The order of the lists -/

/-- The place of the kind of an address in the order of the lists. -/
def kindRank : LispAddr → Nat
  | .noAddr => 0
  | .ip (.v4 _) => 1
  | .ip (.v6 _) => 2
  | _ => 3

theorem plain_cases {a : LispAddr} (h : a.plain = true) :
    a = .noAddr ∨ (∃ x, a = .ip (.v4 x)) ∨ ∃ x, a = .ip (.v6 x) := by
  cases a with
  | noAddr => exact .inl rfl
  | ip a => cases a <;> simp
  | _ => cases h

theorem sameKind_iff_rank (ha : a.plain = true) (hb : b.plain = true) :
    sameKind a b ↔ kindRank a = kindRank b := by
  obtain rfl | ⟨x, rfl⟩ | ⟨x, rfl⟩ := plain_cases ha <;>
    obtain rfl | ⟨y, rfl⟩ | ⟨y, rfl⟩ := plain_cases hb <;>
    simp [sameKind, sameFamily, kindRank, lispAddrLafi, lispAddrIpAfi, lispAddrLcafType, ipAddrAfi]

theorem lispAddrCmpAfi_iff_rank (ha : a.plain = true) (hb : b.plain = true) :
    lispAddrCmpAfi a b = 2 ↔ kindRank a < kindRank b := by
  obtain rfl | ⟨x, rfl⟩ | ⟨x, rfl⟩ := plain_cases ha <;>
    obtain rfl | ⟨y, rfl⟩ | ⟨y, rfl⟩ := plain_cases hb <;>
    simp [lispAddrCmpAfi, kindRank, lispAddrLafi, LmAfi.toNat, cmpNat, ipAddrAfi, Af.toNat]

/-- The place of a list, by its first locator. -/
def headRank (l : List Locator) : Nat :=
  (l.head?.map fun x => kindRank x.addr).getD 0

/-- The lists are well formed, of locators without address or with an IP address, and the kinds are
in increasing order. -/
structure Arranged (L : List (List Locator)) : Prop where
  formed : WellFormedLists L
  plain : ∀ x ∈ L.flatten, x.addr.plain = true
  ordered : (L.map headRank).Pairwise (· ≤ ·)

theorem arranged_nil : Arranged [] :=
  ⟨⟨by simp, .nil⟩, by simp, .nil⟩

theorem WellFormedList.headRank_eq (h : WellFormedList l) (hplain : ∀ y ∈ l, y.addr.plain = true)
    (hx : x ∈ l) : headRank l = kindRank x.addr := by
  cases l with
  | nil => cases hx
  | cons y l =>
    exact (sameKind_iff_rank (hplain y (by simp)) (hplain x hx)).mp (h.oneKind y (by simp) x hx)

theorem Arranged.rank (h : Arranged L) (hl : l ∈ L) (hx : x ∈ l) : headRank l = kindRank x.addr :=
  (h.formed.lists l hl).headRank_eq (fun y hy => h.plain y (mem_flatten_of_mem hl hy)) hx

theorem Arranged.newList (h : Arranged L) (hl : WellFormedList l)
    (hplain : ∀ x ∈ l, x.addr.plain = true) (hapart : ∀ k ∈ L, Apart l k) :
    ∃ L', glistAdd locatorListCmpAfi l L = some L' ∧ Arranged L' := by
  have hcons := wellFormedLists_cons.mpr ⟨hl, hapart, h.formed⟩
  have hplain' : ∀ k ∈ l :: L, ∀ x ∈ k, x.addr.plain = true := by
    intro k hk x hx
    rcases mem_cons.mp hk with rfl | hk
    · exact hplain x hx
    · exact h.plain x (mem_flatten_of_mem hk hx)
  have hrank : ∀ k ∈ l :: L, ∀ k' ∈ l :: L, 0 ≤ locatorListCmpAfi k k' ∧
      (locatorListCmpAfi k k' = 2 ↔ headRank k < headRank k') := by
    intro k hk k' hk'
    obtain ⟨x, k, rfl⟩ := exists_cons_of_ne_nil (hcons.lists k hk).nonempty
    obtain ⟨y, k', rfl⟩ := exists_cons_of_ne_nil (hcons.lists k' hk').nonempty
    have hx := hplain' _ hk x (by simp)
    exact ⟨lispAddrCmpAfi_nonneg (plain_lafi hx),
      lispAddrCmpAfi_iff_rank hx (hplain' _ hk' y (by simp))⟩
  obtain ⟨L', hadd⟩ :=
    glistAdd_of_comparable (l := L) fun k hk => (hrank l (by simp) k (by simp [hk])).1
  have hperm := glistAdd_perm hadd
  refine ⟨L', hadd, hcons.perm hperm, fun x hx => ?_, ?_⟩
  · obtain ⟨k, hk, hxk⟩ := mem_flatten.mp hx
    exact hplain' k (hperm.mem_iff.mp hk) x hxk
  · have hord : L'.Pairwise (fun a b => locatorListCmpAfi b a ≠ 2) := by
      refine glistAdd_pairwise (fun k hk h1 => ?_) (fun _ _ h2 _ => h2) hadd ?_
      · have h1 := (hrank l (by simp) k (by simp [hk])).2.mp h1
        refine ⟨fun h2 => ?_, fun k' hk' hne h2 => hne ?_⟩
        · have h2 := (hrank k (by simp [hk]) l (by simp)).2.mp h2
          omega
        · have h2 := (hrank k' (by simp [hk']) l (by simp)).2.mp h2
          exact (hrank k' (by simp [hk']) k (by simp [hk])).2.mpr (h2.trans h1)
      · refine (pairwise_map.mp h.ordered).imp_of_mem fun hk hk' hle heq => ?_
        exact absurd ((hrank _ (by simp [hk']) _ (by simp [hk])).2.mp heq) (not_lt.mpr hle)
    refine pairwise_map.mpr (hord.imp_of_mem fun hk hk' hne => ?_)
    exact not_lt.mp fun hlt => hne
      ((hrank _ (hperm.mem_iff.mp hk') _ (hperm.mem_iff.mp hk)).2.mpr hlt)

/-- One of the lists becomes another one of its kind. -/
theorem Arranged.set {A B : List (List Locator)} {l l' : List Locator} (h : Arranged (A ++ l :: B))
    (hL' : WellFormedLists (A ++ l' :: B)) (hplain : ∀ x ∈ l', x.addr.plain = true)
    (hrank : headRank l' = headRank l) : Arranged (A ++ l' :: B) := by
  refine ⟨hL', fun x hx => ?_, by simpa only [map_append, map_cons, hrank] using h.ordered⟩
  have hrest := h.plain x
  simp only [flatten_append, flatten_cons, mem_append] at hx hrest
  rcases hx with hx | hx | hx
  · exact hrest (.inl hx)
  · exact hplain x hx
  · exact hrest (.inr (.inr hx))

theorem Arranged.nonempty (h : Arranged L) : ∀ l ∈ L, l ≠ [] :=
  fun l hl => (h.formed.lists l hl).nonempty

theorem Arranged.add (h : Arranged m.locatorsLists) (hx : x.addr.plain = true)
    (hptr : x.ptr ∉ m.ptrs) :
    ∃ ret m', mappingAddLocator m x = .ok (ret, m') ∧ Arranged m'.locatorsLists := by
  obtain ⟨ret, m', hadd, hwf, hadded⟩ := mappingAddLocator_wellFormed h.formed hx hptr
  refine ⟨ret, m', hadd, ?_⟩
  have hcases := loctLstIndex_cases (plain_lafi hx) h.nonempty
  have hset : ∀ {i : Nat} {k l : List Locator},
    mappingGetLoctLstWithAddrType m x.addr = .ok (some i) →
      k.Sublist (m.locatorsLists.getD i []) → glistAdd locatorCmpAddr x k = some l →
      WellFormedLists (m.locatorsLists.set i l) → Arranged (m.locatorsLists.set i l) := by
    intro i k l hi hk hl hwf
    obtain ⟨hnone, -⟩ | ⟨j, y, rest, hsome, hget, hy⟩ := hcases
    · cases hi.symm.trans hnone
    cases hi.symm.trans hsome
    obtain ⟨A, B, hL, hgetD, hseti, -⟩ := lists_at hget
    have hold := h.rank (mem_of_getElem? hget) (x := y) (by simp)
    have hplain : ∀ z ∈ l, z.addr.plain = true := by
      intro z hz
      rcases mem_cons.mp ((glistAdd_perm hl).mem_iff.mp hz) with rfl | hz
      · exact hx
      · exact h.plain z (mem_flatten_of_mem (mem_of_getElem? hget) (hgetD ▸ hk.subset hz))
    rw [hseti] at hwf ⊢
    rw [hL] at h
    have hrank := (hwf.lists l (by simp)).headRank_eq hplain
      ((glistAdd_perm hl).mem_iff.mpr (mem_cons_self))
    refine h.set hwf hplain (hrank.trans (Eq.trans ?_ hold.symm))
    exact (sameKind_iff_rank hx (h.plain y (by simp))).mp hy
  cases mappingAddLocator_cases hadd with
  | newList kind added =>
    rw [mappingCountLocator_lists]
    obtain ⟨-, hall⟩ | ⟨j, y, rest, hsome, -⟩ := hcases
    · obtain ⟨hkind, -⟩ := glistAdd_newList h.formed hx hptr hall
      obtain ⟨L', hL', harr⟩ :=
        h.newList (.singleton hx) (by simpa using hx) fun k hk y hy z hz => by
        obtain rfl := mem_singleton.mp hy
        have hz := mem_flatten_of_mem hk hz
        exact ⟨hkind z hz, fun heq => hptr (mem_map.mpr ⟨z, hz, heq.symm⟩)⟩
      cases added.symm.trans hL'
      exact harr
    · cases kind.symm.trans hsome
  | inserted kind _ added =>
    rw [mappingCountLocator_lists] at hwf ⊢
    exact hset kind (List.Sublist.refl _) added hwf
  | replaced kind _ _ added => exact hset kind eraseP_sublist added hwf
  | dropped | refused => cases hadded
  | kept => exact h

theorem Arranged.becomes {m' : Mapping} {k : List Locator} (h : Arranged m.locatorsLists)
    (hk : k.Sublist l) (hb : m.Becomes m' l k)
    (hne : [] ∈ m'.locatorsLists → [] ∈ m.locatorsLists) : Arranged m'.locatorsLists := by
  have hwf := h.formed.becomes hk hb hne
  have hplain : ∀ x ∈ m'.locators, x.addr.plain = true := fun x hx =>
    h.plain x ((hb.sublist hk).subset hx)
  have hl := fun x => h.rank (x := x) hb.mem
  refine ⟨hwf, hplain, ?_⟩
  obtain ⟨A, B, hL, hL' | ⟨-, hL'⟩⟩ := hb
  · have hkm : k ∈ m'.locatorsLists := by simp [hL']
    obtain ⟨z, hz⟩ := exists_mem_of_ne_nil k (hwf.lists k hkm).nonempty
    have hrank := (hwf.lists k hkm).headRank_eq
      (fun y hy => hplain y (mem_flatten_of_mem hkm hy)) hz
    have hord := h.ordered
    rwa [hL, map_append, map_cons, hl z (hk.subset hz), ← hrank, ← map_cons, ← map_append,
      ← hL'] at hord
  · have hord := h.ordered
    rw [hL] at hord
    rw [hL']
    exact hord.sublist (((sublist_cons_self _ _).append_left A).map _)

theorem Arranged.remove (h : Arranged m.locatorsLists) (hx : x.addr.plain = true) :
    ∃ m', mappingRemoveLocator m x = .ok m' ∧ Arranged m'.locatorsLists ∧
      (x ∈ m.locators ∨ x.ptr ∉ m.ptrs → x.ptr ∉ m'.ptrs) := by
  obtain ⟨hnone, hall⟩ | ⟨i, y, l, hsome, hget, hy⟩ := loctLstIndex_cases (plain_lafi hx) h.nonempty
  · refine ⟨m, ?_, h, fun hmem => hmem.elim (fun hxm => ?_) id⟩
    · rw [mappingRemoveLocator, mappingGetLoctLstWithAddrType, hnone]
      rfl
    · obtain ⟨l, hl, hxl⟩ := mem_flatten.mp hxm
      obtain ⟨z, l, rfl⟩ := exists_cons_of_ne_nil (h.nonempty l hl)
      exact absurd ((h.formed.lists _ hl).oneKind x hxl z (by simp)) (hall _ hl z rfl)
  · obtain ⟨m', hrem, hb, hne, -⟩ := mappingRemoveLocator_at hsome hget
    refine ⟨m', hrem, h.becomes eraseP_sublist hb hne, fun hmem => hmem.elim (fun hxm => ?_) ?_⟩
    · exact removed_not_mem h.formed.isTidy
        (mem_list_of_kind h.formed hget (by simp) hxm hy.symm) hb
    · exact fun hnot hin => hnot (((hb.sublist eraseP_sublist).map _).subset hin)

/-! ## Copies -/

/-- The loop of `locator_list_clone` adds copies of the locators left to a well-formed list. -/
theorem locatorListCloneLoop_wellFormed : ∀ {l acc : List Locator} {next : Nat},
    acc = [] ∧ l ≠ [] ∨ WellFormedList acc → (∀ x ∈ l ++ acc, x.addr.plain = true) →
    (∀ x ∈ l ++ acc, ∀ y ∈ l ++ acc, sameKind x.addr y.addr) → (addresses (l ++ acc)).Nodup →
    (∀ y ∈ acc, y.ptr < next) →
      WellFormedList (locatorListCloneLoop next acc l).2
  | [], acc, next, hacc, _, _, _, _ => hacc.resolve_left fun h => h.2 rfl
  | x :: l, acc, next, hacc, hplain, hkind, hdistinct, hptr => by
    have hnew : x.addr ∉ addresses acc := by
      intro hmem
      obtain ⟨y, hy, hhas, heq⟩ := mem_addresses.mp hmem
      rw [cons_append, addresses, filter_cons_of_pos (by rwa [Locator.hasAddr, ← heq])] at hdistinct
      exact (nodup_cons.mp hdistinct).1 (mem_addresses.mpr ⟨y, by simp [hy], hhas, heq⟩)
    obtain ⟨acc', hadd, hacc', hperm⟩ : ∃ acc', glistAdd locatorCmpAddr { x with ptr := next } acc =
        some acc' ∧ WellFormedList acc' ∧ acc'.Perm ({ x with ptr := next } :: acc) := by
      rcases hacc with ⟨rfl, -⟩ | hacc
      · exact ⟨_, rfl, .singleton (hplain x (by simp)), .refl _⟩
      · refine addToList_wellFormed (x := { x with ptr := next }) hacc (hplain x (by simp))
          (fun y hy => hkind x (by simp) y (by simp [hy])) (fun hmem => ?_)
            (List.Sublist.refl _) hnew
        obtain ⟨y, hy, heq⟩ := mem_map.mp hmem
        exact absurd (hptr y hy) (by simp [heq])
    have hmem : ∀ y ∈ l ++ acc', ∃ z ∈ x :: l ++ acc, y.addr = z.addr := by
      intro y hy
      have hy := (hperm.append_left l).mem_iff.mp hy
      simp only [mem_append, mem_cons] at hy
      rcases hy with hy | rfl | hy
      · exact ⟨y, by simp [hy], rfl⟩
      · exact ⟨x, by simp, rfl⟩
      · exact ⟨y, by simp [hy], rfl⟩
    have haddrs : (addresses (l ++ acc')).Perm (addresses (x :: l ++ acc)) := by
      have hcopy : addresses ({ x with ptr := next } :: (l ++ acc)) = addresses
        (x :: (l ++ acc)) := by
        by_cases hno : lispAddrLafi x.addr = .NO_ADDR <;>
          simp [addresses, Locator.hasAddr, hno]
      exact hcopy ▸ addresses_perm (perm_inserted hperm)
    rw [locatorListCloneLoop, hadd, Option.getD_some]
    refine locatorListCloneLoop_wellFormed (.inr hacc') (fun y hy => by
        obtain ⟨z, hz, heq⟩ := hmem y hy
        exact heq ▸ hplain z hz)
      (fun y hy y' hy' => by
        obtain ⟨z, hz, heq⟩ := hmem y hy
        obtain ⟨z', hz', heq'⟩ := hmem y' hy'
        exact heq ▸ heq' ▸ hkind z hz z' hz')
      (haddrs.nodup_iff.mpr hdistinct)
      (fun y hy => by
        rcases mem_cons.mp (hperm.mem_iff.mp hy) with rfl | hy
        · exact Nat.lt_succ_self _
        · exact Nat.lt_succ_of_lt (hptr y hy))

/-- The loop of `mapping_update_locators` adds copies of the lists left. -/
theorem mappingUpdateLocatorsLoop_arranged : ∀ {L lists : List (List Locator)} {next ctr : Nat},
    Arranged L → Arranged lists → (∀ x ∈ L.flatten, ∀ y ∈ lists.flatten, ¬ sameKind x.addr y.addr) →
    (∀ y ∈ lists.flatten, y.ptr < next) →
      ∃ next' lists' ctr', mappingUpdateLocatorsLoop next lists ctr L = .ok (next', lists', ctr') ∧
        Arranged lists'
  | [], lists, next, ctr, _, h, _, _ => ⟨next, lists, ctr, rfl, h⟩
  | l :: L, lists, next, ctr, hL, h, hkind, hptr => by
    obtain ⟨hl, hapart, hrest⟩ := wellFormedLists_cons.mp hL.formed
    have hplain : ∀ x ∈ l, x.addr.plain = true := fun x hx => hL.plain x (by simp [hx])
    have hk := @locatorListCloneLoop_wellFormed l [] next
      (.inl ⟨rfl, hl.nonempty⟩) (by simpa using hplain) (by simpa using hl.oneKind)
      (by simpa using hl.distinct) (by simp)
    have hfrom := (locatorListClone_addrs next l).1
    obtain ⟨hnext, hfresh⟩ := locatorListClone_fresh next l
    rw [← locatorListClone] at hk
    rw [mappingUpdateLocatorsLoop]
    generalize locatorListClone next l = c at hk hfrom hnext hfresh
    obtain ⟨next1, k⟩ := c
    obtain rfl : next1 = next + l.length := hnext
    obtain ⟨x, k, rfl⟩ := exists_cons_of_ne_nil hk.nonempty
    obtain ⟨lists1, hadd, h1⟩ := h.newList hk (fun y hy => by
        obtain ⟨z, hz, heq⟩ := hfrom y hy
        exact heq ▸ hplain z hz)
      (fun k' hk' y hy z hz => by
        obtain ⟨w, hw, heq⟩ := hfrom y hy
        have hz := mem_flatten_of_mem hk' hz
        refine ⟨heq ▸ hkind w (by simp [hw]) z hz, fun hyz => ?_⟩
        have := (hfresh.bounds y hy).1
        have := hptr z hz
        omega)
    dsimp only
    rw [hadd, Option.getD_some]
    have hperm : lists1.flatten.Perm ((x :: k) ++ lists.flatten) := by
      simpa using (glistAdd_perm hadd).flatten
    refine mappingUpdateLocatorsLoop_arranged ⟨hrest, fun y hy => hL.plain y (by simp [hy]),
      (pairwise_cons.mp hL.ordered).2⟩ h1 (fun y hy z hz => ?_) (fun y hy => ?_)
    · rcases mem_append.mp (hperm.mem_iff.mp hz) with hz | hz
      · obtain ⟨w, hw, heq⟩ := hfrom z hz
        obtain ⟨l', hl', hy⟩ := mem_flatten.mp hy
        exact fun hyz => (hapart l' hl' w hw y hy).1 (heq ▸ hyz.symm)
      · exact hkind y (by simp [hy]) z hz
    · rcases mem_append.mp (hperm.mem_iff.mp hy) with hy | hy
      · exact (hfresh.bounds y hy).2
      · exact Nat.lt_add_right _ (hptr y hy)

/-! ## Runs -/

/-- A call on the locators of a mapping. -/
inductive LocatorOp where
  | add (loct : Locator)
  | remove (loct : Locator)
  | activate (loct : Locator) (newAddr : LispAddr)
  | update (next : Nat) (other : Mapping)

def locatorOp (m : Mapping) : LocatorOp → Except Fault Mapping
  | .add loct => (mappingAddLocator m loct).map (·.2)
  | .remove loct => mappingRemoveLocator m loct
  | .activate loct newAddr => mappingActivateLocator m loct newAddr
  | .update next other => (mappingUpdateLocators next m other.locatorsLists).map (·.2)

/-- The locators have no address or an IP address. One that is added is a new object, and one that
is activated is in the mapping or a new object. -/
def LocatorOp.Allowed (m : Mapping) : LocatorOp → Prop
  | .add loct => loct.addr.plain = true ∧ loct.ptr ∉ m.ptrs
  | .remove loct => loct.addr.plain = true
  | .activate loct newAddr => loct.addr.plain = true ∧ newAddr.plain = true ∧
      (loct ∈ m.locators ∨ loct.ptr ∉ m.ptrs)
  | .update _ _ => True

/-- The mapping is the result of some calls on an empty one, the copied mappings as well. -/
inductive LocatorsBuilt : Mapping → Prop where
  | empty {m : Mapping} (h : m.locatorsLists = []) : LocatorsBuilt m
  | step {m m' : Mapping} (op : LocatorOp) (hm : LocatorsBuilt m) (hop : op.Allowed m)
      (hother : ∀ next other, op = .update next other → LocatorsBuilt other)
      (h : locatorOp m op = .ok m') : LocatorsBuilt m'

/-- Every call returns and keeps the lists arranged. -/
theorem Arranged.step {op : LocatorOp} (h : Arranged m.locatorsLists) (hop : op.Allowed m)
    (hother : ∀ next other, op = .update next other → Arranged other.locatorsLists) :
    ∃ m', locatorOp m op = .ok m' ∧ Arranged m'.locatorsLists := by
  cases op with
  | add x =>
    obtain ⟨ret, m', hadd, h'⟩ := h.add hop.1 hop.2
    exact ⟨m', by rw [locatorOp, hadd]; rfl, h'⟩
  | remove x =>
    obtain ⟨m', hrem, h', -⟩ := h.remove hop
    exact ⟨m', hrem, h'⟩
  | activate x a =>
    obtain ⟨hx, ha, hobj⟩ := hop
    obtain ⟨m1, hrem, h1, hgone⟩ := h.remove hx
    obtain ⟨ret, m2, hadd, h2⟩ := h1.add (x := { x with addr := a }) ha (hgone hobj)
    rw [locatorOp, mappingActivateLocator]
    rcases loctLstIndex_cases (a := .noAddr) (plain_lafi rfl) h.nonempty with
      ⟨hnone, -⟩ | ⟨i, y, l, hsome, -⟩
    · exact ⟨m, by rw [show loctLstIndex .NO_ADDR none 0 _ = _ from hnone]; rfl, h⟩
    · refine ⟨m2, ?_, h2⟩
      rw [show loctLstIndex .NO_ADDR none 0 _ = _ from hsome]
      simp only [bind, Except.bind, hrem, hadd]
      rfl
  | update next other =>
    obtain ⟨next', lists', ctr', hrun, h'⟩ := @mappingUpdateLocatorsLoop_arranged _ [] next 0
      (hother next other rfl) arranged_nil (by simp) (by simp)
    refine ⟨{ m with locatorsLists := lists', locatorCount := ctr' }, ?_, h'⟩
    rw [locatorOp, mappingUpdateLocators, hrun]
    rfl

theorem LocatorsBuilt.arranged (h : LocatorsBuilt m) : Arranged m.locatorsLists := by
  induction h with
  | empty h => exact h ▸ arranged_nil
  | step op _ hop _ h ih ihother =>
    obtain ⟨m', hrun, h'⟩ := ih.step hop ihother
    cases h.symm.trans hrun
    exact h'

/-- Lists of different kinds are in increasing order. -/
theorem Arranged.increasing (h : Arranged L) :
    L.Pairwise fun l l' => ∀ x ∈ l, ∀ y ∈ l', lispAddrCmpAfi x.addr y.addr = 2 := by
  refine ((pairwise_map.mp h.ordered).and h.formed.apart).imp_of_mem ?_
  rintro l l' hl hl' ⟨hle, hapart⟩ x hx y hy
  have hpx := h.plain x (mem_flatten_of_mem hl hx)
  have hpy := h.plain y (mem_flatten_of_mem hl' hy)
  rw [lispAddrCmpAfi_iff_rank hpx hpy, ← h.rank hl hx, ← h.rank hl' hy]
  refine Nat.lt_of_le_of_ne hle fun heq => (hapart x hx y hy).1 ?_
  rw [sameKind_iff_rank hpx hpy, ← h.rank hl hx, ← h.rank hl' hy, heq]

/-- Whatever calls built the mapping: its lists are well formed, those of an earlier list are of a
smaller kind, an IP address is found exactly if it is there, and the next call returns. -/
theorem built_arranged (m : Mapping) (h : LocatorsBuilt m) :
    WellFormed m ∧
      (m.locatorsLists.Pairwise fun l l' => ∀ x ∈ l, ∀ y ∈ l', lispAddrCmpAfi x.addr y.addr = 2) ∧
      (∀ a, ∃ o, mappingGetLoctWithAddr m (.ip a) = .ok o ∧
        (∀ x, o = some x → x ∈ m.locators ∧ x.addr = .ip a) ∧
        (o = none → ∀ x ∈ m.locators, x.addr ≠ .ip a)) ∧
      ∀ op : LocatorOp, op.Allowed m →
        (∀ next other, op = .update next other → LocatorsBuilt other) →
        ∃ m', locatorOp m op = .ok m' := by
  have harr := h.arranged
  refine ⟨wellFormed_iff_lists.mpr harr.formed, harr.increasing, fun a => ?_,
    fun op hop hother => ?_⟩
  · obtain ⟨o, ho⟩ : ∃ o, mappingGetLoctWithAddr m (.ip a) = .ok o := by
      rw [mappingGetLoctWithAddr, mappingGetLoctLstWithAddrType]
      rcases loctLstIndex_cases (a := .ip a) (plain_lafi rfl) harr.nonempty with
        ⟨hnone, -⟩ | ⟨i, y, l, hsome, -⟩
      · exact ⟨none, by rw [hnone]; rfl⟩
      · exact ⟨_, by rw [hsome]; rfl⟩
    refine ⟨o, ho, ?_, ?_⟩
    · rintro x rfl
      exact mappingGetLoctWithAddr_some harr.formed ho
    · rintro rfl x hx heq
      refine mappingGetLoctWithAddr_none harr.formed ho (mem_addresses.mpr ⟨x, hx, ?_, heq⟩)
      simp [Locator.hasAddr, heq, lispAddrLafi]
  · obtain ⟨m', hrun, -⟩ := harr.step hop fun next other heq => (hother next other heq).arranged
    exact ⟨m', hrun⟩

/-- A locator is added, activated, and another one added. -/
theorem built_arranged_two :
    WellFormed { mappingNew with
      locatorCount := 2, locatorsLists := [[⟨0, .ip (.v4 1), .UP, 1, 100, 255, 0⟩],
        [⟨1, .ip (.v6 2), .UP, 1, 100, 255, 0⟩]] } :=
  (built_arranged _ (.step (.add ⟨1, .ip (.v6 2), .UP, 1, 100, 255, 0⟩)
    (.step (.activate ⟨0, .noAddr, .UP, 1, 100, 255, 0⟩ (.ip (.v4 1)))
      (.step (.add ⟨0, .noAddr, .UP, 1, 100, 255, 0⟩) (.empty (m := mappingNew) rfl)
        ⟨rfl, by decide⟩ (fun _ _ h => nomatch h) rfl)
      ⟨rfl, rfl, .inl (by decide)⟩ (fun _ _ h => nomatch h) rfl)
    ⟨rfl, by decide⟩ (fun _ _ h => nomatch h) rfl)).1

end Lispmob
