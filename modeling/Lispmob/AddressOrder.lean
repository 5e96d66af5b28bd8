import Lispmob.LocatorKinds

/-!
# What the comparison of addresses decides

`lisp_addr_cmp` is used as an equality test and as the order of the sorted lists of locators. It is
neither on all addresses. It never compares the length of a prefix, the hops of a path after the
first, or the nodes of a replication list past the end of the shorter one, and it has no result `0`
for two unset addresses or two Geo addresses. `same_address_iff` says on which addresses it is an
equality test.

It orders IP addresses of one family. `list_order_iff` says that the locators of no LCAF type are
ordered by it: some are not comparable, and two paths that differ in the flags of their first hops
are each bigger than the other.
-/

namespace Lispmob

open List

/-! ## Equality -/

mutual

/-- `lisp_addr_clone`: `lisp_addr_copy` of every part. -/
def lispAddrClone : LispAddr → LispAddr
  | .afiList addrs => .afiList (afiListTypeCopy addrs)
  | .iid i mlen a => .iid i mlen (lispAddrClone a)
  | .geo la lo al a => .geo la lo al (lispAddrClone a)
  | .mc sp gp i s g => .mc sp gp i (lispAddrClone s) (lispAddrClone g)
  | .elp nodes => .elp (elpTypeCopy nodes)
  | .rle nodes => .rle (rleTypeCopy nodes)
  | a => a
termination_by structural a => a

/-- `afi_list_type_copy`. -/
def afiListTypeCopy : List LispAddr → List LispAddr
  | [] => []
  | a :: rest => lispAddrClone a :: afiListTypeCopy rest
termination_by structural l => l

/-- `elp_type_copy`. -/
def elpTypeCopy : List ElpNode → List ElpNode
  | [] => []
  | .mk L P S a :: rest => .mk L P S (lispAddrClone a) :: elpTypeCopy rest
termination_by structural l => l

/-- `rle_type_copy`. -/
def rleTypeCopy : List RleNode → List RleNode
  | [] => []
  | .mk level a :: rest => .mk level (lispAddrClone a) :: rleTypeCopy rest
termination_by structural l => l

end

mutual

theorem lispAddrClone_eq : ∀ a, lispAddrClone a = a
  | .noAddr | .ip _ | .ippref _ _ => rfl
  | .afiList l => by rw [lispAddrClone, afiListTypeCopy_eq l]
  | .iid _ _ a | .geo _ _ _ a => by rw [lispAddrClone, lispAddrClone_eq a]
  | .mc _ _ _ s g => by rw [lispAddrClone, lispAddrClone_eq s, lispAddrClone_eq g]
  | .elp l => by rw [lispAddrClone, elpTypeCopy_eq l]
  | .rle l => by rw [lispAddrClone, rleTypeCopy_eq l]

theorem afiListTypeCopy_eq : ∀ l, afiListTypeCopy l = l
  | [] => rfl
  | a :: l => by rw [afiListTypeCopy, lispAddrClone_eq a, afiListTypeCopy_eq l]

theorem elpTypeCopy_eq : ∀ l, elpTypeCopy l = l
  | [] => rfl
  | .mk _ _ _ a :: l => by rw [elpTypeCopy, lispAddrClone_eq a, elpTypeCopy_eq l]

theorem rleTypeCopy_eq : ∀ l, rleTypeCopy l = l
  | [] => rfl
  | .mk _ a :: l => by rw [rleTypeCopy, lispAddrClone_eq a, rleTypeCopy_eq l]

end

mutual

/-- The address is made of IP addresses, by address lists, instance identifiers and multicast pairs.
-/
def LispAddr.exact : LispAddr → Bool
  | .ip _ => true
  | .afiList l => LispAddr.exactList l
  | .iid _ _ a => a.exact
  | .mc _ _ _ s g => s.exact && g.exact
  | _ => false
termination_by structural a => a

def LispAddr.exactList : List LispAddr → Bool
  | [] => true
  | a :: l => a.exact && LispAddr.exactList l
termination_by structural l => l

end

mutual

/-- The comparison tells such an address from all others. -/
theorem lispAddrCmp_of_exact : ∀ {a : LispAddr}, a.exact = true → ∀ b, lispAddrCmp a b = 0 ↔ a = b
  | .ip a, _, b => by
    cases b <;> simp [lispAddrCmp, ipAddrCmp_eq_zero_iff]
  | .afiList l, h, b => by
    cases b with
    | afiList m =>
      simp only [lispAddrCmp, LispAddr.afiList.injEq]
      split_ifs with hgt hlt
      · exact ⟨fun h2 => absurd h2 (by decide), fun heq => absurd hgt (heq ▸ lt_irrefl _)⟩
      · exact ⟨fun h1 => absurd h1 (by decide), fun heq => absurd hlt (heq ▸ lt_irrefl _)⟩
      · exact afiListTypeCmp_of_exact h m (by omega)
    | _ => simp [lispAddrCmp]
  | .iid i n a, h, b => by
    cases b with
    | iid j k b =>
      have ih := lispAddrCmp_of_exact (show a.exact = true from h) b
      simp only [lispAddrCmp, LispAddr.iid.injEq]
      split_ifs <;> simp_all
    | _ => simp [lispAddrCmp]
  | .mc sp gp i s g, h, b => by
    cases b with
    | mc sp' gp' i' s' g' =>
      obtain ⟨hs, hg⟩ := Bool.and_eq_true_iff.mp h
      have ihs := lispAddrCmp_of_exact hs s'
      have ihg := lispAddrCmp_of_exact hg g'
      simp only [lispAddrCmp, LispAddr.mc.injEq]
      split_ifs <;> grind
    | _ => simp [lispAddrCmp]

theorem afiListTypeCmp_of_exact : ∀ {l : List LispAddr}, LispAddr.exactList l = true →
    ∀ m, l.length = m.length → (afiListTypeCmp l m = 0 ↔ l = m)
  | [], _, [], _ => by simp [afiListTypeCmp]
  | a :: l, h, b :: m, hlen => by
    obtain ⟨ha, hl⟩ := Bool.and_eq_true_iff.mp h
    have iha := lispAddrCmp_of_exact ha b
    have ihl := afiListTypeCmp_of_exact hl m (by simpa using hlen)
    simp only [afiListTypeCmp, List.cons.injEq]
    split_ifs <;> simp_all

end

/-- The nodes past the end of the shorter list make no difference. -/
theorem rleTypeCmp_append (m : List RleNode) : ∀ l, rleTypeCmp l l = 0 → rleTypeCmp l (l ++ m) = 0
  | [], _ => by cases m <;> rfl
  | .mk v a :: l, h => by
    simp only [rleTypeCmp, cons_append, ne_eq, not_true, if_false] at h ⊢
    split_ifs at h ⊢ with ha
    · exact rleTypeCmp_append m l h
    · exact absurd h ha

mutual

theorem exact_of_lispAddrCmp : ∀ {a : LispAddr}, (∀ b, lispAddrCmp a b = 0 ↔ a = b) → a.exact = true
  | .noAddr, h => by simpa [lispAddrCmp] using h .noAddr
  | .ip _, _ => rfl
  | .ippref a p, h => by
    have heq := (h (.ippref a (p + 1))).mp ((ipAddrCmp_eq_zero_iff a a).mpr rfl)
    simp at heq
  | .geo la lo al a, h => by simpa [lispAddrCmp] using h (.geo la lo al a)
  | .afiList l, h => exactList_of_cmp fun m hlen => by
    have hm := h (.afiList m)
    rwa [lispAddrCmp, if_neg (by omega), if_neg (by omega), LispAddr.afiList.injEq] at hm
  | .iid i n a, h => show a.exact = true from exact_of_lispAddrCmp fun b => by
    simpa [lispAddrCmp] using h (.iid i n b)
  | .mc sp gp i s g, h => by
    have hself := (h (.mc sp gp i s g)).mpr rfl
    simp only [lispAddrCmp, ne_eq, not_true, or_self, if_false] at hself
    split_ifs at hself with hs
    · refine Bool.and_eq_true_iff.mpr
        ⟨exact_of_lispAddrCmp fun b => ?_, exact_of_lispAddrCmp fun b => ?_⟩
      · simpa [lispAddrCmp, hself] using h (.mc sp gp i b g)
      · simpa [lispAddrCmp, hs] using h (.mc sp gp i s b)
    · exact absurd hself hs
  -- a hop or a node more makes no difference
  | .elp l, h => by
    have hself := (h (.elp l)).mpr rfl
    have hmore := (h (.elp (l ++ [.mk false false false .noAddr]))).mp (by
      cases l with
      | nil => rfl
      | cons n l =>
        obtain ⟨L, P, S, a⟩ := n
        exact hself)
    simp at hmore
  | .rle l, h => by
    have hmore :=
      (h (.rle (l ++ [.mk 0 .noAddr]))).mp (rleTypeCmp_append _ l ((h (.rle l)).mpr rfl))
    simp at hmore

theorem exactList_of_cmp : ∀ {l : List LispAddr},
    (∀ m, l.length = m.length → (afiListTypeCmp l m = 0 ↔ l = m)) → LispAddr.exactList l = true
  | [], _ => rfl
  | a :: l, h => by
    have hself := (h (a :: l) rfl).mpr rfl
    simp only [afiListTypeCmp] at hself
    split_ifs at hself with ha
    · exact absurd hself ha
    · refine Bool.and_eq_true_iff.mpr
        ⟨exact_of_lispAddrCmp fun b => ?_, exactList_of_cmp fun m hm => ?_⟩
      · have hb := h (b :: l) rfl
        simp only [afiListTypeCmp, hself, List.cons.injEq, and_true] at hb
        split_ifs at hb <;> simp_all
      · simpa [afiListTypeCmp, not_not.mp ha] using h (a :: m) (by simpa using hm)

end

/-- The comparison with an address is an equality test, and finds its clone, exactly for the
addresses made of IP addresses by address lists, instance identifiers and multicast pairs. -/
theorem same_address_iff (a : LispAddr) :
    ((∀ b, lispAddrCmp a b = 0 ↔ a = b) ∧ lispAddrCmp a (lispAddrClone a) = 0) ↔
      a.exact = true := by
  constructor
  · exact fun h => exact_of_lispAddrCmp h.1
  · intro ha
    have hcmp := lispAddrCmp_of_exact ha
    exact ⟨hcmp, (hcmp _).mpr (lispAddrClone_eq a).symm⟩

/-- Prefixes of different lengths, paths with different second hops and a replication list with one
node more compare as equal; an unset address and a Geo address differ from their clones. -/
theorem same_address_fails : lispAddrCmp (.ippref (.v4 10) 8) (.ippref (.v4 10) 24) = 0 ∧
    lispAddrCmp (.elp [.mk true true false (.ip (.v4 1)), .mk true true false (.ip (.v4 2))])
      (.elp [.mk true true false (.ip (.v4 1)), .mk true true false (.ip (.v4 3))]) = 0 ∧
    lispAddrCmp (.rle [.mk 1 (.ip (.v4 1))]) (.rle [.mk 1 (.ip (.v4 1)), .mk 2 (.ip (.v4 2))]) = 0 ∧
    lispAddrCmp .noAddr (lispAddrClone .noAddr) ≠ 0 ∧
    lispAddrCmp (.geo ⟨0, 0, 0, 0⟩ ⟨0, 0, 0, 0⟩ 0 .noAddr)
      (lispAddrClone (.geo ⟨0, 0, 0, 0⟩ ⟨0, 0, 0, 0⟩ 0 .noAddr)) ≠ 0 := by
  decide

/-! ## Order -/

/-- The comparison is a total order of the addresses of a kind, up to equal ones. -/
structure OrdersKind (k : LispAddr) : Prop where
  nonneg : ∀ a b, sameKind k a → sameKind k b → 0 ≤ lispAddrCmp a b
  swap : ∀ a b, sameKind k a → sameKind k b → (lispAddrCmp a b = 1 ↔ lispAddrCmp b a = 2)
  trans : ∀ a b c, sameKind k a → sameKind k b → sameKind k c →
    lispAddrCmp a b ≠ 1 → lispAddrCmp b c ≠ 1 → lispAddrCmp a c ≠ 1

/-- No locator is before an earlier one. -/
def SortedLocators (l : List Locator) : Prop :=
  l.Pairwise fun a b => locatorCmpAddr b a ≠ 2

/-- Locators of the kind can always be inserted, and stay sorted. -/
def SortsKind (k : LispAddr) : Prop :=
  ∀ (x : Locator) (l : List Locator), (∀ y ∈ x :: l, sameKind k y.addr) → SortedLocators l →
    ∃ l', glistAdd locatorCmpAddr x l = some l' ∧ SortedLocators l'

/-- A total order is what the sorted lists need. -/
theorem OrdersKind.sortsKind {k : LispAddr} (h : OrdersKind k) : SortsKind k := by
  intro x l hkind hl
  have hx : sameKind k x.addr := hkind x (by simp)
  have hy : ∀ y ∈ l, sameKind k y.addr := fun y hy => hkind y (by simp [hy])
  have hcmp : ∀ y ∈ l, 0 ≤ locatorCmpAddr x y := fun y hyl => h.nonneg _ _ hx (hy y hyl)
  obtain ⟨l', hl'⟩ := glistAdd_of_comparable hcmp
  refine ⟨l', hl', glistAdd_pairwise (fun y hyl hxy => ⟨fun hyx => ?_, fun z hzl hzy hzx => ?_⟩)
    (fun _ _ h2 _ => h2) hl' hl⟩
  · have hone := (h.swap x.addr y.addr hx (hy y hyl)).mpr hyx
    rw [locatorCmpAddr, hone] at hxy
    cases hxy
  · -- `y` is not after `z`, nor `z` after `x`, so `y` is not after `x`
    have hyz : lispAddrCmp y.addr z.addr ≠ 1 := fun h1 =>
      hzy ((h.swap _ _ (hy y hyl) (hy z hzl)).mp h1)
    have hzx' : lispAddrCmp z.addr x.addr ≠ 1 := by
      rw [show lispAddrCmp z.addr x.addr = 2 from hzx]
      decide
    exact h.trans _ _ _ (hy y hyl) (hy z hzl) hx hyz hzx' ((h.swap _ _ (hy y hyl) hx).mpr hxy)

theorem ipAddrCmp_ordered {a b c : IpAddr} (hab : ipAddrAfi a = ipAddrAfi b)
    (hbc : ipAddrAfi b = ipAddrAfi c) (h₁ : ipAddrCmp a b ≠ 1) (h₂ : ipAddrCmp b c ≠ 1) :
    ipAddrCmp a c ≠ 1 := by
  cases a <;> cases b <;> cases c <;> simp only [ipAddrCmp, cmpNat, ipAddrAfi] at * <;> grind

theorem ordersKind_ip (i : IpAddr) : OrdersKind (.ip i) := by
  have hip : ∀ {a}, sameKind (.ip i) a → ∃ x, a = .ip x ∧ ipAddrAfi i = ipAddrAfi x := by
    intro a h
    obtain ⟨x, rfl⟩ := lispAddrLafi_eq_ip_iff.mp h.1.1.symm
    exact ⟨x, rfl, Option.some.inj h.1.2⟩
  refine ⟨fun a b ha hb => ?_, fun a b ha hb => ?_, fun a b c ha hb hc => ?_⟩
  · obtain ⟨⟨x, rfl, -⟩, ⟨y, rfl, -⟩⟩ := And.intro (hip ha) (hip hb)
    exact lispAddrCmp_nonneg rfl rfl (ha.symm.trans hb).1
  · obtain ⟨⟨x, rfl, -⟩, ⟨y, rfl, -⟩⟩ := And.intro (hip ha) (hip hb)
    exact ipAddrCmp_lt_iff.symm
  · obtain ⟨⟨x, rfl, hx⟩, ⟨y, rfl, hy⟩, ⟨z, rfl, hz⟩⟩ :=
      And.intro (hip ha) (And.intro (hip hb) (hip hc))
    exact ipAddrCmp_ordered (hx.symm.trans hy) (hy.symm.trans hz)

/-- In every kind of LCAF there are two addresses that are not comparable. -/
theorem lcaf_incomparable {k : LispAddr} (hk : lispAddrLafi k = .LCAF) :
    ∃ a b, sameKind k a ∧ sameKind k b ∧ lispAddrCmp a b < 0 := by
  cases k with
  | noAddr | ip | ippref => cases hk
  | afiList l => exact ⟨.afiList [.ip (.v4 0)], .afiList [.ip (.v6 0)], ⟨⟨rfl, rfl⟩, rfl⟩,
      ⟨⟨rfl, rfl⟩, rfl⟩, by decide⟩
  | iid i n a => exact ⟨.iid 0 0 (.ip (.v4 0)), .iid 0 0 (.ip (.v6 0)), ⟨⟨rfl, rfl⟩, rfl⟩,
      ⟨⟨rfl, rfl⟩, rfl⟩, by decide⟩
  | geo la lo al a => exact ⟨.geo la lo al a, .geo la lo al a, sameKind.refl _, sameKind.refl _,
      by simp [lispAddrCmp]⟩
  | mc sp gp i s g => exact ⟨.mc 0 0 0 s g, .mc 0 0 1 s g, ⟨⟨rfl, rfl⟩, rfl⟩, ⟨⟨rfl, rfl⟩, rfl⟩,
      by simp [lispAddrCmp]⟩
  | elp l => exact ⟨.elp [.mk false false false (.ippref (.v4 0) 0)],
      .elp [.mk false false false (.ippref (.v6 0) 0)], ⟨⟨rfl, rfl⟩, rfl⟩,
        ⟨⟨rfl, rfl⟩, rfl⟩, by decide⟩
  | rle l => exact ⟨.rle [.mk 0 (.ip (.v4 0))], .rle [.mk 0 (.ip (.v6 0))], ⟨⟨rfl, rfl⟩, rfl⟩,
      ⟨⟨rfl, rfl⟩, rfl⟩, by decide⟩

/-- The comparison is the one the sorted list of a kind of locators requires exactly when they have
IP addresses. -/
theorem list_order_iff (k : LispAddr) (hk : lispAddrLafi k = .IP ∨ lispAddrLafi k = .LCAF) :
    (OrdersKind k ∧ SortsKind k) ↔ lispAddrLafi k = .IP := by
  constructor
  · rintro ⟨h, -⟩
    by_contra hip
    obtain ⟨a, b, ha, hb, hneg⟩ := lcaf_incomparable (hk.resolve_left hip)
    exact absurd (h.nonneg a b ha hb) (by omega)
  · intro hip
    obtain ⟨i, rfl⟩ := lispAddrLafi_eq_ip_iff.mp hip
    exact ⟨ordersKind_ip i, (ordersKind_ip i).sortsKind⟩

theorem list_order_v4 : OrdersKind (.ip (.v4 1)) ∧ SortsKind (.ip (.v4 1)) :=
  (list_order_iff (.ip (.v4 1)) (.inl rfl)).mpr rfl

/-- Two replication lists are not comparable, so the second locator is not inserted; two paths with
different flags are each after the other. -/
theorem list_order_fails :
    lispAddrCmp (.rle [.mk 1 (.ip (.v4 1))]) (.rle [.mk 1 (.ip (.v6 1))]) = -1 ∧
    glistAdd locatorCmpAddr ⟨1, .rle [.mk 1 (.ip (.v4 1))], .UP, 1, 100, 255, 0⟩
      [⟨0, .rle [.mk 1 (.ip (.v6 1))], .UP, 1, 100, 255, 0⟩] = none ∧
    lispAddrCmp (.elp [.mk true false false (.ip (.v4 1))])
      (.elp [.mk false false false (.ip (.v4 1))]) = 1 ∧
    lispAddrCmp (.elp [.mk false false false (.ip (.v4 1))])
      (.elp [.mk true false false (.ip (.v4 1))]) = 1 := by
  decide

end Lispmob
