import Lispmob.Messages

/-!
# Locator lists of plain addresses

Only IP addresses (and the empty address) are compared by what they are: paths are compared by their
first hops, and other addresses may not compare at all, so that a copy of a list can lose locators.
For locators with plain addresses the lists of a mapping are grouped by family (`Grouped`), a copy
holds the same locators (`mappingUpdateLocators_contents`), and two mappings that compare as equal
have the same ones (`locatorsListsCmp_contents`).
-/

namespace Lispmob

open Prog List

variable {a b : LispAddr} {L : List (List Locator)} {m m' : Mapping} {l : List Locator} {i : Nat}
  {next next' : Nat} {x : Locator}

/-- No address, or an IP address. -/
def LispAddr.plain : LispAddr → Bool
  | .noAddr => true
  | .ip _ => true
  | _ => false

/-- Two addresses of one family. -/
def sameFamily (a b : LispAddr) : Prop :=
  lispAddrLafi a = lispAddrLafi b ∧ lispAddrIpAfi a = lispAddrIpAfi b

instance (a b : LispAddr) : Decidable (sameFamily a b) :=
  inferInstanceAs (Decidable (_ ∧ _))

/-- What a locator says: its address, priorities and weights. -/
def Locator.content (l : Locator) : LispAddr × UInt8 × UInt8 × UInt8 × UInt8 :=
  (l.addr, l.priority, l.weight, l.mpriority, l.mweight)

/-! ## Comparison of plain addresses -/

theorem cmpNat_nonneg (a b : Nat) : 0 ≤ cmpNat a b := by
  unfold cmpNat
  split_ifs <;> decide

theorem lispAddrCmp_nonneg (ha : a.plain = true) (hb : b.plain = true) (h : sameFamily a b) :
    0 ≤ lispAddrCmp a b := by
  obtain ⟨hlafi, hafi⟩ := h
  cases a with
  | noAddr =>
    cases b with
    | noAddr => simp [lispAddrCmp]
    | ip => cases hlafi
    | _ => cases hb
  | ip x =>
    cases b with
    | noAddr => cases hlafi
    | ip y =>
      cases x with
      | v4 x =>
        cases y with
        | v4 y => exact cmpNat_nonneg _ _
        | v6 y => cases hafi
      | v6 x =>
        cases y with
        | v4 y => cases hafi
        | v6 y => exact cmpNat_nonneg _ _
    | _ => cases hb
  | _ => cases ha

theorem plain_lafi (ha : a.plain = true) : lispAddrLafi a ≠ .IPPREF := by
  cases a with
  | noAddr | ip => simp [lispAddrLafi]
  | _ => cases ha

/-- The kind of an address that is not an IP prefix compares with every other. -/
theorem lispAddrCmpAfi_nonneg (ha : lispAddrLafi a ≠ .IPPREF) : 0 ≤ lispAddrCmpAfi a b := by
  unfold lispAddrCmpAfi
  dsimp only
  split_ifs
  · decide
  · decide
  · split
    · decide
    · exact cmpNat_nonneg _ _
    · exact absurd rfl ha
    · exact cmpNat_nonneg _ _

/-- An address that compares as equal with a plain one is equal to it. -/
theorem eq_of_lispAddrCmp (hb : b.plain = true) (h : lispAddrCmp a b = 0) : a = b := by
  cases b with
  | noAddr => cases a <;> cases h
  | ip y =>
    cases a with
    | ip x => rw [(ipAddrCmp_eq_zero_iff x y).mp h]
    | _ => cases h
  | _ => cases hb

/-- A list that compares as equal with a list of plain locators says the same. -/
theorem locatorListCmp_contents : ∀ {l₁ l₂ : List Locator}, (∀ x ∈ l₂, x.addr.plain = true) →
    locatorListCmp l₁ l₂ = true → l₁.map Locator.content = l₂.map Locator.content
  | [], [], _, _ => rfl
  | [], _ :: _, _, h => by cases h
  | _ :: _, [], _, h => by cases h
  | x :: l₁, y :: l₂, hp, h => by
    rw [locatorListCmp, Bool.and_eq_true] at h
    have hrest := locatorListCmp_contents (fun z hz => hp z (mem_cons_of_mem _ hz)) h.2
    have hxy : x.content = y.content := by
      have hcmp := h.1
      simp only [locatorCmp, Bool.and_eq_true, decide_eq_true_eq] at hcmp
      obtain ⟨⟨⟨⟨haddr, hprio⟩, hweight⟩, hmprio⟩, hmweight⟩ := hcmp
      rw [Locator.content, Locator.content, eq_of_lispAddrCmp (hp y (by simp)) haddr,
        hprio, hweight,
        hmprio, hmweight]
    rw [map_cons, map_cons, hxy, hrest]

theorem locatorsListsCmp_contents : ∀ {L1 L2 : List (List Locator)},
    (∀ l ∈ L2, ∀ x ∈ l, x.addr.plain = true) → locatorsListsCmp L1 L2 = true →
      L1.flatten.map Locator.content = L2.flatten.map Locator.content
  | [], [], _, _ => rfl
  | [], _ :: _, _, h => by cases h
  | _ :: _, [], _, h => by cases h
  | l1 :: L1, l2 :: L2, hp, h => by
    rw [locatorsListsCmp, Bool.and_eq_true] at h
    rw [flatten_cons, flatten_cons, map_append, map_append,
      locatorListCmp_contents (hp l2 (by simp)) h.1,
      locatorsListsCmp_contents (fun l hl => hp l (mem_cons_of_mem _ hl)) h.2]

/-! ## Grouped lists -/

/-- The locators of a list are plain and of one family, and there is at least one. -/
structure OneFamily (l : List Locator) : Prop where
  nonempty : l ≠ []
  plain : ∀ x ∈ l, x.addr.plain = true
  same : ∀ x ∈ l, ∀ y ∈ l, sameFamily x.addr y.addr

/-- Each list of a mapping holds plain locators of one family. -/
def Grouped (lists : List (List Locator)) : Prop :=
  ∀ l ∈ lists, OneFamily l

theorem OneFamily.singleton (h : x.addr.plain = true) : OneFamily [x] :=
  ⟨by simp, by simpa using h, by simp [sameFamily]⟩

/-- Some of the locators, and one more of the family. -/
theorem OneFamily.insert {l l' : List Locator} (h : OneFamily l)
    (hx : x.addr.plain = true) (hsame : ∀ y ∈ l, sameFamily x.addr y.addr)
    (hp : ∀ y ∈ l', y = x ∨ y ∈ l) (hne : l' ≠ []) : OneFamily l' := by
  refine ⟨hne, fun y hy => ?_, fun y hy z hz => ?_⟩
  · obtain rfl | hy := hp y hy
    · exact hx
    · exact h.plain y hy
  · obtain rfl | hy := hp y hy
    · obtain rfl | hz := hp z hz
      · exact ⟨rfl, rfl⟩
      · exact hsame z hz
    · obtain rfl | hz := hp z hz
      · exact ⟨(hsame y hy).1.symm, (hsame y hy).2.symm⟩
      · exact h.same y hy z hz

/-- The locators of each list are of one family. -/
def SameFamilies (lists : List (List Locator)) : Prop :=
  ∀ l ∈ lists, ∀ x ∈ l, ∀ y ∈ l, sameFamily x.addr y.addr

instance (lists : List (List Locator)) : Decidable (SameFamilies lists) :=
  inferInstanceAs (Decidable (∀ l ∈ lists, _))

theorem Grouped.sameFamilies {lists : List (List Locator)} (h : Grouped lists) :
    SameFamilies lists :=
  fun l hl => (h l hl).same

/-- An address of a kind that is not an IP address or prefix has no address family. -/
theorem lispAddrIpAfi_eq_none (h : lispAddrLafi a = .NO_ADDR ∨ lispAddrLafi a = .LCAF) :
    lispAddrIpAfi a = none := by
  cases a with
  | ip | ippref => simp [lispAddrLafi] at h
  | _ => rfl

/-- The list found for a kind of address starts with a locator of that kind. -/
theorem loctLstIndex_head {lafi : LmAfi} {afi : Option Af} {ty : Nat} :
    ∀ {L : List (List Locator)} {i : Nat}, loctLstIndex lafi afi ty L = .ok (some i) →
      ∃ x l, L[i]? = some (x :: l) ∧ lispAddrLafi x.addr = lafi ∧ lafi ≠ .IPPREF ∧
        (lafi = .IP → lispAddrIpAfi x.addr = afi)
  | [], _, h => by cases h
  | [] :: _, _, h => by cases h
  | (x :: l) :: L, i, h => by
    have hcases : (i = 0 ∧ lispAddrLafi x.addr = lafi ∧ lafi ≠ .IPPREF ∧
        (lafi = .IP → lispAddrIpAfi x.addr = afi)) ∨
          (loctLstIndex lafi afi ty L).map (·.map (· + 1)) = .ok (some i) := by
      rw [loctLstIndex.eq_def] at h
      cases lafi <;> dsimp only at h <;> split_ifs at h <;> simp_all
    rcases hcases with ⟨rfl, hx⟩ | hnext
    · exact ⟨x, l, rfl, hx⟩
    · obtain ⟨o, ho, hoi⟩ := except_map_ok.mp hnext
      obtain ⟨j, rfl, rfl⟩ := Option.map_eq_some_iff.mp hoi
      simpa using loctLstIndex_head ho

theorem lists_at (h : L[i]? = some l) :
    ∃ A B, L = A ++ l :: B ∧ L.getD i [] = l ∧ (∀ l', L.set i l' = A ++ l' :: B) ∧
      L.eraseIdx i = A ++ B := by
  obtain ⟨hi, rfl⟩ := List.getElem?_eq_some_iff.mp h
  refine ⟨L.take i, L.drop (i + 1), ?_, ?_, fun l' => ?_, ?_⟩
  · rw [getElem_cons_drop hi, take_append_drop]
  · simp [getD_eq_getElem?_getD, h]
  · rw [set_eq_take_append_cons_drop, if_pos hi]
  · exact eraseIdx_eq_take_drop_succ L i

/-- The list found for an address holds locators of its family. -/
theorem loctLstIndex_some (hg : SameFamilies L)
    (h : loctLstIndex (lispAddrLafi a) (lispAddrIpAfi a) (lispAddrLcafType a) L = .ok (some i)) :
    ∃ A l B, L = A ++ l :: B ∧ L.getD i [] = l ∧ (∀ l', L.set i l' = A ++ l' :: B) ∧
      L.eraseIdx i = A ++ B ∧ ∀ y ∈ l, sameFamily a y.addr := by
  obtain ⟨x, l, hget, hlafi, hpref, hafi⟩ := loctLstIndex_head h
  obtain ⟨A, B, hL, hgetD, hset, herase⟩ := lists_at hget
  have hax : sameFamily a x.addr := by
    refine ⟨hlafi.symm, ?_⟩
    cases hk : lispAddrLafi a with
    | IP => exact (hafi hk).symm
    | IPPREF => exact absurd hk hpref
    | NO_ADDR => rw [lispAddrIpAfi_eq_none (.inl hk), lispAddrIpAfi_eq_none (.inl (hlafi.trans hk))]
    | LCAF => rw [lispAddrIpAfi_eq_none (.inr hk), lispAddrIpAfi_eq_none (.inr (hlafi.trans hk))]
  refine ⟨A, x :: l, B, hL, hgetD, hset, herase, fun y hy => ?_⟩
  have hxy := hg _ (mem_of_getElem? hget) x (by simp) y hy
  exact ⟨hax.1.trans hxy.1, hax.2.trans hxy.2⟩

theorem Grouped.set (hg : Grouped L) (hl : OneFamily l) : Grouped (L.set i l) := by
  intro l' hl'
  obtain hl' | rfl := mem_or_eq_of_mem_set hl'
  · exact hg l' hl'
  · exact hl

theorem mappingAddLocator_grouped {loct : Locator} {ret : Ret}
    (h : mappingAddLocator m loct = .ok (ret, m')) (hret : ret ≠ .BAD)
    (hp : loct.addr.plain = true) (hg : Grouped m.locatorsLists) : Grouped m'.locatorsLists := by
  -- whatever is inserted into the list, or into a part of it, is of its family
  have hnew : ∀ {i : Nat} {l1 l : List Locator},
      mappingGetLoctLstWithAddrType m loct.addr = .ok (some i) →
      l1.Sublist (m.locatorsLists.getD i []) → glistAdd locatorCmpAddr loct l1 = some l →
        Grouped (m.locatorsLists.set i l) := by
    intro i l1 l ho hsub hadd
    obtain ⟨A, k, B, hL, hget, -, -, hfam⟩ := loctLstIndex_some hg.sameFamilies ho
    rw [hget] at hsub
    have hone : OneFamily k := hg k (by simp [hL])
    have hperm := glistAdd_perm hadd
    refine hg.set (hone.insert hp hfam (fun y hy => ?_) ?_)
    · obtain rfl | hy := mem_cons.mp (hperm.mem_iff.mp hy)
      · exact .inl rfl
      · exact .inr (hsub.subset hy)
    · rintro rfl
      cases hperm.nil_eq
  cases mappingAddLocator_cases h with
  | newList _ added =>
    rw [mappingCountLocator_lists]
    intro l hl
    obtain rfl | hl := mem_cons.mp ((glistAdd_perm added).mem_iff.mp hl)
    · exact .singleton hp
    · exact hg l hl
  | inserted kind _ added =>
    rw [mappingCountLocator_lists]
    exact hnew kind (List.Sublist.refl _) added
  | replaced kind _ _ added => exact hnew kind eraseP_sublist added
  | kept => exact hg
  | dropped | refused => exact absurd rfl hret

/-- A mapping built from plain locators has grouped lists. -/
theorem addLocators_grouped {l left : List Locator}
    (h : addLocators m l = .ok (.GOOD, m', left)) (hp : ∀ x ∈ l, x.addr.plain = true)
    (hg : Grouped m.locatorsLists) : Grouped m'.locatorsLists := by
  refine (addLocators_induct (I := fun rest m1 =>
    (∀ x ∈ rest, x.addr.plain = true) ∧ Grouped m1.locatorsLists) ?_ ⟨hp, hg⟩ h).2
  rintro x rest m1 r m2 ⟨hp1, hg1⟩ hadd hret
  exact ⟨fun y hy => hp1 y (mem_cons_of_mem _ hy),
    mappingAddLocator_grouped hadd (hret rfl) (hp1 x mem_cons_self) hg1⟩

/-- The addresses of a record's locators are plain. -/
def RawRecord.plain : RawRecord → Prop
  | .malformed => True
  | .wellFormed rec => ∀ r ∈ rec.locators, r.addr.plain = true

instance : DecidablePred RawRecord.plain
  | .malformed => inferInstanceAs (Decidable True)
  | .wellFormed _ => inferInstanceAs (Decidable (∀ r ∈ _, _))

theorem parseLocators_plain : ∀ {l : List LocatorRecord} {next : Nat} {acc : List Locator},
    (∀ r ∈ l, r.addr.plain = true) → (∀ x ∈ acc, x.addr.plain = true) →
      ∀ x ∈ parseLocators next acc l, x.addr.plain = true
  | [], _, _, _, hacc => hacc
  | r :: l, next, acc, hl, hacc => by
    rw [parseLocators]
    refine parseLocators_plain (fun r' hr' => hl r' (mem_cons_of_mem _ hr')) fun x hx => ?_
    obtain rfl | hx := mem_cons.mp hx
    · exact hl r (by simp)
    · exact hacc x hx

theorem lispMsgParseMappingRecord_grouped {probed : Probed} {raw : RawRecord}
    {p : ParsedRecord} (h : lispMsgParseMappingRecord next probed raw = .ok p)
    (hret : p.ret = .GOOD) (hp : raw.plain) : Grouped p.m.locatorsLists := by
  cases raw with
  | malformed =>
    cases h
    cases hret
  | wellFormed rec =>
    rw [lispMsgParseMappingRecord, except_bind_ok] at h
    obtain ⟨⟨ret, m', left⟩, hadd, h⟩ := h
    cases except_pure_ok.mp h
    obtain rfl : ret = .GOOD := hret
    exact addLocators_grouped hadd (parseLocators_plain hp (by simp)) (by simp [Grouped,
      mappingNew])

/-! ## Renaming locators -/

section Renaming

/-- The locator with another identity. -/
def Locator.rename (f : Nat → Nat) (loct : Locator) : Locator :=
  { loct with ptr := f loct.ptr }

/-- The mapping with other identities of its locators. -/
def Mapping.rename (f : Nat → Nat) (m : Mapping) : Mapping :=
  { m with locatorsLists := m.locatorsLists.map (List.map (Locator.rename f)) }

theorem glistAdd_map {α : Type} {cmpFct : α → α → Int} {g : α → α}
    (hg : ∀ a b, cmpFct (g a) (g b) = cmpFct a b) (data : α) : ∀ l : List α,
      glistAdd cmpFct (g data) (l.map g) = (glistAdd cmpFct data l).map (map g)
  | [] => rfl
  | tmp :: rest => by
    simp only [map_cons, glistAdd, hg, glistAdd_map hg data rest]
    split_ifs
    · rfl
    · rfl
    · cases glistAdd cmpFct data rest <;> rfl

theorem locatorListCmpAfi_rename (f : Nat → Nat) (a b : List Locator) :
    locatorListCmpAfi (a.map (Locator.rename f)) (b.map (Locator.rename f)) =
      locatorListCmpAfi a b := by
  cases a <;> cases b <;> rfl

theorem loctLstIndex_rename (f : Nat → Nat) (lafi : LmAfi) (afi : Option Af) (ty : Nat) :
    ∀ lists : List (List Locator),
      loctLstIndex lafi afi ty (lists.map (map (Locator.rename f))) =
        loctLstIndex lafi afi ty lists
  | [] => rfl
  | [] :: _ => rfl
  | (loct :: _) :: rest => by
    have hrest := loctLstIndex_rename f lafi afi ty rest
    rw [map_cons, map_cons, loctLstIndex.eq_def, loctLstIndex.eq_def lafi afi ty (_ :: _)]
    simp only [hrest]
    rfl

theorem mappingGetLoctLstWithAddrType_rename (f : Nat → Nat) (m : Mapping) (addr : LispAddr) :
    mappingGetLoctLstWithAddrType (m.rename f) addr = mappingGetLoctLstWithAddrType m addr :=
  loctLstIndex_rename f _ _ _ _

theorem getD_rename (f : Nat → Nat) (lists : List (List Locator)) (i : Nat) :
    (lists.map (map (Locator.rename f))).getD i [] =
      (lists.getD i []).map (Locator.rename f) := by
  simp only [getD_eq_getElem?_getD, getElem?_map]
  cases lists[i]? <;> rfl

theorem mappingCountLocator_rename (f : Nat → Nat) (m : Mapping) (addr : LispAddr) :
    mappingCountLocator (m.rename f) addr = (mappingCountLocator m addr).rename f := by
  unfold mappingCountLocator
  split_ifs <;> rfl

variable {f : Nat → Nat}

/-- Adding a locator does not depend on identities, as long as they tell locators apart. -/
theorem mappingAddLocator_rename (hf : f.Injective) (m : Mapping) (loct : Locator) :
    mappingAddLocator (m.rename f) (loct.rename f) =
      (mappingAddLocator m loct).map fun r => (r.1, r.2.rename f) := by
  have hlists : (m.rename f).locatorsLists = m.locatorsLists.map (map (Locator.rename f)) := rfl
  have hcmp : ∀ a b : Locator,
      locatorCmpAddr (a.rename f) (b.rename f) = locatorCmpAddr a b := fun _ _ => rfl
  have hset : ∀ i (l : List Locator), { m.rename f with
      locatorsLists := (m.rename f).locatorsLists.set i (l.map (Locator.rename f)) } =
        Mapping.rename f { m with locatorsLists := m.locatorsLists.set i l } := by
    simp [Mapping.rename, map_set]
  unfold mappingAddLocator
  rw [show (loct.rename f).addr = loct.addr from rfl, mappingGetLoctLstWithAddrType_rename]
  cases mappingGetLoctLstWithAddrType m loct.addr with
  | error e => rfl
  | ok o =>
    cases o with
    | none =>
      have hadd := glistAdd_map (locatorListCmpAfi_rename f) [loct] m.locatorsLists
      simp only [bind, Except.bind, hlists]
      rw [show [loct.rename f] = [loct].map (Locator.rename f) from rfl, hadd]
      cases glistAdd locatorListCmpAfi [loct] m.locatorsLists with
      | none => rfl
      | some lists =>
        exact congrArg (fun x => Except.ok (Ret.GOOD, x)) 
          (mappingCountLocator_rename f { m with locatorsLists := lists } loct.addr)
    | some i =>
      have hcontain : glistContain locatorCmpAddr (loct.rename f)
          ((m.locatorsLists.getD i []).map (Locator.rename f)) =
            glistContain locatorCmpAddr loct (m.locatorsLists.getD i []) := by
        simp only [glistContain, any_map]
        rfl
      have hget : locatorListGetLocatorWithAddr
          ((m.locatorsLists.getD i []).map (Locator.rename f)) loct.addr =
            (locatorListGetLocatorWithAddr (m.locatorsLists.getD i []) loct.addr).map
              (Locator.rename f) := by
        rw [locatorListGetLocatorWithAddr, find?_map]
        rfl
      have herase : ∀ aux : Locator, ((m.locatorsLists.getD i []).map (Locator.rename f)).eraseP
          (·.ptr = (aux.rename f).ptr) =
            ((m.locatorsLists.getD i []).eraseP (·.ptr = aux.ptr)).map (Locator.rename f) := by
        intro aux
        rw [eraseP_map]
        congr 2
        ext x
        simp [Locator.rename, hf.eq_iff]
      simp only [bind, Except.bind, hlists, getD_rename, hcontain, hget, glistAdd_map hcmp]
      split_ifs
      · cases locatorListGetLocatorWithAddr (m.locatorsLists.getD i []) loct.addr with
        | none => rfl
        | some aux =>
          simp only [Option.map_some, herase, glistAdd_map hcmp]
          by_cases hlt : loct.priority < aux.priority
          · have hlt' : (loct.rename f).priority < (aux.rename f).priority := hlt
            rw [if_pos hlt, if_pos hlt']
            cases glistAdd locatorCmpAddr loct
              ((m.locatorsLists.getD i []).eraseP (·.ptr = aux.ptr)) with
            | none => exact congrArg (fun x => Except.ok (Ret.BAD, x)) (hset i _)
            | some l => exact congrArg (fun x => Except.ok (Ret.GOOD, x)) (hset i _)
          · have hlt' : ¬ (loct.rename f).priority < (aux.rename f).priority := hlt
            rw [if_neg hlt, if_neg hlt']
            rfl
      · cases glistAdd locatorCmpAddr loct (m.locatorsLists.getD i []) with
        | none => rfl
        | some l =>
          refine congrArg (fun x => Except.ok (Ret.GOOD, x)) ?_
          rw [← mappingCountLocator_rename, ← hset]
          rfl

theorem addLocators_rename (hf : f.Injective) : ∀ (l : List Locator) (m : Mapping),
    addLocators (m.rename f) (l.map (Locator.rename f)) =
      (addLocators m l).map fun r => (r.1, r.2.1.rename f, r.2.2.map (Locator.rename f))
  | [], _ => rfl
  | loct :: rest, m => by
    rw [map_cons, addLocators, addLocators, mappingAddLocator_rename hf]
    cases mappingAddLocator m loct with
    | error e => rfl
    | ok r =>
      obtain ⟨ret, m'⟩ := r
      cases ret with
      | GOOD => exact addLocators_rename hf rest m'
      | ERR_EXIST => exact addLocators_rename hf rest m'
      | BAD => rfl
      | ERR_NO_EXIST => rfl

theorem parseLocators_rename (k : Nat) : ∀ (l : List LocatorRecord) (next : Nat)
    (acc : List Locator), parseLocators (next + k) (acc.map (Locator.rename (· + k))) l =
      (parseLocators next acc l).map (Locator.rename (· + k))
  | [], _, _ => rfl
  | r :: rest, next, acc => by
    rw [parseLocators, parseLocators, ← parseLocators_rename k rest (next + 1), map_cons,
      Nat.add_right_comm]
    rfl

/-- Whether a record parses, and the EID it has, do not depend on the identities of its locators. -/
theorem lispMsgParseMappingRecord_rename (next : Nat) (probed : Probed) (raw : RawRecord) :
    (lispMsgParseMappingRecord next probed raw).map (fun p => (p.ret, p.m.eidPrefix)) =
      (lispMsgParseMappingRecord 0 .null raw).map fun p => (p.ret, p.m.eidPrefix) := by
  cases raw with
  | malformed => rfl
  | wellFormed r =>
    have hl := parseLocators_rename next r.locators 0 []
    rw [Nat.zero_add, map_nil] at hl
    have hadd : ∀ m : Mapping, m.rename (· + next) = m →
        addLocators m (parseLocators next [] r.locators) =
          (addLocators m (parseLocators 0 [] r.locators)).map fun x =>
            (x.1, x.2.1.rename (· + next), x.2.2.map (Locator.rename (· + next))) := by
      intro m hm
      rw [hl, ← addLocators_rename (fun _ _ h => Nat.add_right_cancel h), hm]
    rw [lispMsgParseMappingRecord, lispMsgParseMappingRecord]
    rw [hadd _ rfl]
    cases addLocators _ (parseLocators 0 [] r.locators) <;> rfl

end Renaming

/-! ## Copies -/

theorem mem_copies {y : Locator} : ∀ {l : List Locator} {next : Nat}, y ∈ copies next l →
    ∃ x ∈ l, y.addr = x.addr
  | x :: l, next, hy => by
    rcases mem_cons.mp hy with rfl | hy
    · exact ⟨x, by simp, rfl⟩
    · obtain ⟨z, hz, heq⟩ := mem_copies hy
      exact ⟨z, by simp [hz], heq⟩

theorem copies_contents : ∀ {l : List Locator} {next : Nat},
    (copies next l).map Locator.content = l.map Locator.content
  | [], _ => rfl
  | _ :: _, _ => congrArg (_ :: ·) copies_contents

/-- A copy of a list has some of its addresses, and is not longer. -/
theorem locatorListClone_addrs (next : Nat) (l : List Locator) :
    (∀ y ∈ (locatorListClone next l).2, ∃ x ∈ l, y.addr = x.addr) ∧
      (locatorListClone next l).2.length ≤ l.length := by
  obtain ⟨-, k, hk, hperm, -⟩ := @locatorListCloneLoop_perm l [] next
  rw [append_nil] at hperm
  refine ⟨fun y hy => mem_copies (hk.subset (hperm.mem_iff.mp hy)), ?_⟩
  rw [locatorListClone, hperm.length_eq]
  exact Nat.le_trans hk.length_le (Nat.le_of_eq length_copies)

theorem locatorListClone_contents (h : OneFamily l) :
    ((locatorListClone next l).2.map Locator.content).Perm (l.map Locator.content) := by
  obtain ⟨-, k, -, hperm, hall⟩ := @locatorListCloneLoop_perm l [] next
  rw [append_nil, hall fun x hx y hy => ?_] at hperm
  · exact (hperm.map _).trans (.of_eq copies_contents)
  · rw [append_nil] at hy
    exact lispAddrCmp_nonneg (h.plain x hx) (h.plain y hy) (h.same x hx y hy)

theorem mem_clones {k : List Locator} : ∀ {L : List (List Locator)} {next : Nat},
    k ∈ clones next L →
    ∃ l ∈ L, ∀ y ∈ k, ∃ x ∈ l, y.addr = x.addr
  | l :: L, next, hk => by
    rcases mem_cons.mp hk with rfl | hk
    · exact ⟨l, by simp, (locatorListClone_addrs next l).1⟩
    · obtain ⟨l', hl', hall⟩ := mem_clones hk
      exact ⟨l', by simp [hl'], hall⟩

theorem clones_contents : ∀ {L : List (List Locator)} {next : Nat}, Grouped L →
    ((clones next L).flatten.map Locator.content).Perm (L.flatten.map Locator.content)
  | [], _, _ => .refl _
  | l :: L, next, h => by
    rw [clones, flatten_cons, flatten_cons, map_append, map_append]
    exact (locatorListClone_contents (h l (by simp))).append
      (clones_contents fun l' hl' => h l' (by simp [hl']))

/-- The lists that are copied are all there, if none is of IP prefixes. -/
theorem mappingUpdateLocators_perm (h : mappingUpdateLocators next m L = .ok (next', m'))
    (hpref : ∀ x ∈ L.flatten, lispAddrLafi x.addr ≠ .IPPREF) :
    m'.locatorsLists.Perm (clones next L) ∧
      m'.locatorCount = ((clones next L).map counts).sum := by
  obtain ⟨lists, ctr, hloop, rfl⟩ := mappingUpdateLocators_ok h
  obtain ⟨-, hne, hctr, K, -, hperm, hall⟩ := mappingUpdateLocatorsLoop_perm hloop
  rw [append_nil] at hperm hall
  rw [hall fun k hk l hl => ?_] at hperm
  · exact ⟨hperm, by simpa using hctr⟩
  · obtain ⟨y, k, rfl⟩ := exists_cons_of_ne_nil (hne k hk)
    obtain ⟨z, l, rfl⟩ := exists_cons_of_ne_nil (hne l hl)
    obtain ⟨l', hl', hfrom⟩ := mem_clones hk
    obtain ⟨x, hx, heq⟩ := hfrom y (by simp)
    exact lispAddrCmpAfi_nonneg (heq ▸ hpref x (mem_flatten.mpr ⟨l', hl', hx⟩))

/-- Updating the locators of a mapping by grouped lists gives it their locators. -/
theorem mappingUpdateLocators_contents
    (h : mappingUpdateLocators next m L = .ok (next', m')) (hg : Grouped L) :
    (m'.locators.map Locator.content).Perm (L.flatten.map Locator.content) := by
  have hpref : ∀ x ∈ L.flatten, lispAddrLafi x.addr ≠ .IPPREF := fun x hx => by
    obtain ⟨l, hl, hx⟩ := mem_flatten.mp hx
    exact plain_lafi ((hg l hl).plain x hx)
  exact ((mappingUpdateLocators_perm h hpref).1.flatten.map _).trans (clones_contents hg)

end Lispmob
