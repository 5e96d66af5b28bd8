import Lispmob.FlowBalancing

/-!
# What the balancing vectors are

`bestLocators` are the usable locators of the best priority, and `spread` the vector over them. The
loops of `balancing_vectors_calculate` compute these: `balancingVectorsCalculate_cases` says that
they give the vectors `vectorsOf` of the locators of the two families, unless one of the arrays of
33 positions is too small (`FitsArrays`).

So the vectors depend on the identity, state, priority and weight of the locators that have an
address, and on the family of the address each is reached at (`balancingVectorsCalculate_congr`).
The list of the router's RLOCs matters for explicit paths only, and a vector points to locators of
the mapping it was computed from.
-/

namespace Lispmob

open Prog List

variable {l l' l4 l6 : List Locator} {m : Mapping} {rlocs : List LispAddr}
    {r : List Locator × List Locator}
  {v : BalancingLocatorsVecs} {x : Locator}

/-! ## The families -/

/-- Whether the address a locator is reached at is IPv4; `none` when there is none. -/
def fwdFamily (rlocs : List LispAddr) (addr : LispAddr) : Except Fault (Option Bool) :=
  (fbLispAddrGetFwdIpAddr rlocs addr).map (·.map fun ip => lispAddrIpAfi ip = some .INET)

/-- The locators that are reached at an address of a family, the last one first. -/
def ofFamily (rlocs : List LispAddr) (v4 : Bool) (l : List Locator) : List Locator :=
  (l.filter fun x => (fwdFamily rlocs x.addr).toOption = some (some v4)).reverse

/-- The loop over the locators ends when the address each is reached at can be computed, and sorts
them by family. -/
theorem classifyLocators_ok : ∀ {l : List Locator} {acc : List Locator × List Locator},
    classifyLocators rlocs acc l = .ok r ↔ (∀ x ∈ l, ∃ o, fwdFamily rlocs x.addr = .ok o) ∧
      r = (ofFamily rlocs true l ++ acc.1, ofFamily rlocs false l ++ acc.2)
  | [], acc => by simp [classifyLocators, ofFamily, eq_comm]
  | x :: l, acc => by
    have ih := @classifyLocators_ok l
    rw [classifyLocators]
    cases hx : fbLispAddrGetFwdIpAddr rlocs x.addr with
    | error e => simp [fwdFamily, hx, bind, Except.bind, Except.map]
    | ok o =>
      have hfam : fwdFamily rlocs x.addr = .ok (o.map fun ip => lispAddrIpAfi ip = some .INET) := by
        simp [fwdFamily, hx, Except.map]
      simp only [bind, Except.bind, forall_mem_cons, hfam, Except.ok.injEq, exists_eq', true_and]
      cases o with
      | none => simp [ih, ofFamily, hfam, Except.toOption]
      | some ip =>
        by_cases hip : lispAddrIpAfi ip = some .INET <;>
          simp [hip, ih, ofFamily, hfam, Except.toOption]

theorem fbLocatorsClassifyIn46_ok : fbLocatorsClassifyIn46 m rlocs = .ok r ↔
    (∀ x ∈ addressedLocators m, ∃ o, fwdFamily rlocs x.addr = .ok o) ∧
      r = (ofFamily rlocs true (addressedLocators m),
        ofFamily rlocs false (addressedLocators m)) := by
  rw [fbLocatorsClassifyIn46, classifyLocators_ok, append_nil, append_nil]

theorem mem_ofFamily {v4 : Bool} :
    x ∈ ofFamily rlocs v4 l ↔ x ∈ l ∧ fwdFamily rlocs x.addr = .ok (some v4) := by
  simp [ofFamily, except_toOption_eq_some_iff]

/-! ## The locators of the best priority -/

/-- The locator is up and its priority is not the one of locators that are not to be used. -/
def Locator.usable (x : Locator) : Bool :=
  x.state ≠ .DOWN ∧ x.priority.toNat ≠ UNUSED_RLOC_PRIORITY

/-- The smallest priority of a usable locator, `UNUSED_RLOC_PRIORITY` if there is none. -/
def bestPriority : List Locator → Nat
  | [] => UNUSED_RLOC_PRIORITY
  | x :: rest => if x.usable then min x.priority.toNat (bestPriority rest) else bestPriority rest

/-- The usable locators of the best priority. -/
def bestLocators (l : List Locator) : List Locator :=
  l.filter fun x => x.usable ∧ x.priority.toNat = bestPriority l

theorem bestPriority_le : ∀ l : List Locator, bestPriority l ≤ UNUSED_RLOC_PRIORITY
  | [] => Nat.le_refl _
  | x :: rest => by
    have ih := bestPriority_le rest
    rw [bestPriority]
    split_ifs <;> omega

theorem bestPriority_le_of_mem : ∀ {l : List Locator}, x ∈ l → x.usable →
    bestPriority l ≤ x.priority.toNat
  | y :: rest, hx, hu => by
    rw [bestPriority]
    rcases mem_cons.mp hx with rfl | hx
    · rw [if_pos hu]
      exact Nat.min_le_left _ _
    · have ih := bestPriority_le_of_mem hx hu
      split_ifs <;> omega

theorem bestPriority_append : ∀ a b : List Locator,
    bestPriority (a ++ b) = min (bestPriority a) (bestPriority b)
  | [], b => by rw [nil_append, bestPriority, Nat.min_eq_right (bestPriority_le b)]
  | x :: a, b => by
    rw [cons_append, bestPriority, bestPriority, bestPriority_append a b]
    split_ifs
    · rw [Nat.min_assoc]
    · rfl

theorem filter_of_lt {p : Nat} (h : p < bestPriority l) :
    (l.filter fun x => x.usable ∧ x.priority.toNat = p) = [] := by
  refine filter_eq_nil_iff.mpr fun x hx hp => ?_
  obtain ⟨hu, rfl⟩ := of_decide_eq_true hp
  exact absurd (bestPriority_le_of_mem hx hu) (by omega)

/-- The best locators of two lists are those of the list with the better priority, or of both. -/
theorem bestLocators_append (a b : List Locator) : bestLocators (a ++ b) =
    if bestPriority a < bestPriority b then bestLocators a
    else if bestPriority b < bestPriority a then bestLocators b
    else bestLocators a ++ bestLocators b := by
  simp only [bestLocators, filter_append, bestPriority_append]
  split_ifs with hab hba
  · rw [Nat.min_eq_left hab.le, filter_of_lt hab, append_nil]
  · rw [Nat.min_eq_right hba.le, filter_of_lt hba, nil_append]
  · rw [show bestPriority b = bestPriority a by omega, Nat.min_self]

/-- A best priority other than the unused one is that of a usable locator. -/
theorem exists_of_bestPriority : ∀ {l : List Locator}, bestPriority l ≠ UNUSED_RLOC_PRIORITY →
    ∃ x ∈ l, x.usable ∧ x.priority.toNat = bestPriority l
  | [], h => absurd rfl h
  | x :: rest, h => by
    rw [bestPriority] at h ⊢
    split_ifs at h ⊢ with hu
    · by_cases hle : x.priority.toNat ≤ bestPriority rest
      · exact ⟨x, mem_cons_self, hu, by omega⟩
      · obtain ⟨y, hy, huy, hp⟩ := exists_of_bestPriority (l := rest) (by omega)
        exact ⟨y, mem_cons_of_mem _ hy, huy, by omega⟩
    · obtain ⟨y, hy, hbest⟩ := exists_of_bestPriority h
      exact ⟨y, mem_cons_of_mem _ hy, hbest⟩

theorem bestLocators_eq_nil_iff : bestLocators l = [] ↔ bestPriority l = UNUSED_RLOC_PRIORITY := by
  refine ⟨fun h => not_ne_iff.mp fun hne => ?_, fun h => filter_eq_nil_iff.mpr fun x _ hx => ?_⟩
  · obtain ⟨x, hx, hbest⟩ := exists_of_bestPriority hne
    exact filter_eq_nil_iff.mp h x hx (decide_eq_true hbest)
  · obtain ⟨hu, hp⟩ := of_decide_eq_true hx
    exact (of_decide_eq_true hu).2 (hp.trans h)

/-- The array of `select_best_priority_locators` is large enough for the best locators at every
moment of its loop. -/
def FitsArray (l : List Locator) : Prop :=
  ∀ n, (bestLocators (l.take n)).length ≤ MAX_BALANCED_LOCATORS

theorem FitsArray.self (h : FitsArray l) : (bestLocators l).length ≤ MAX_BALANCED_LOCATORS := by
  simpa using h l.length

theorem best_snoc (k : List Locator) (x : Locator) :
    (bestPriority (k ++ [x]), bestLocators (k ++ [x])) =
      if x.state = .DOWN ∨ x.priority.toNat = UNUSED_RLOC_PRIORITY then
        (bestPriority k, bestLocators k)
      else if x.priority.toNat = bestPriority k then (bestPriority k, bestLocators k ++ [x])
      else if x.priority.toNat < bestPriority k then (x.priority.toNat, [x])
      else (bestPriority k, bestLocators k) := by
  have hle := bestPriority_le k
  have hx : x.priority.toNat ≤ UNUSED_RLOC_PRIORITY := Nat.le_of_lt_succ x.priority.toNat_lt
  rw [bestLocators_append, bestPriority_append]
  by_cases hu : x.usable = true
  · obtain ⟨hstate, hprio⟩ := of_decide_eq_true hu
    have hp : bestPriority [x] = x.priority.toNat := by simp [bestPriority, hu, hx]
    have hb : bestLocators [x] = [x] := by simp [bestLocators, hp, hu]
    rw [hp, hb, if_neg (not_or.mpr ⟨hstate, hprio⟩)]
    split_ifs <;> simp <;> omega
  · have hp : bestPriority [x] = UNUSED_RLOC_PRIORITY := by simp [bestPriority, hu]
    have hb : bestLocators [x] = [] := by simp [bestLocators, hu]
    have hskip : x.state = .DOWN ∨ x.priority.toNat = UNUSED_RLOC_PRIORITY := by
      simpa [Locator.usable, imp_iff_not_or, not_not] using hu
    rw [hp, hb, if_pos hskip, Nat.min_eq_left hle]
    split_ifs
    · rfl
    · omega
    · rw [append_nil]

/-- An iteration of `select_best_priority_locators`, after the locators `k`. -/
theorem selectBestPriorityLocators_cons {k : List Locator} (x : Locator)
    (hk : (bestLocators k).length ≤ MAX_BALANCED_LOCATORS) :
    selectBestPriorityLocators (bestPriority k) (bestLocators k) (x :: l) =
      if (bestLocators (k ++ [x])).length ≤ MAX_BALANCED_LOCATORS then
        selectBestPriorityLocators (bestPriority (k ++ [x])) (bestLocators (k ++ [x])) l
      else .error .outOfRange := by
  have hsnoc := best_snoc k x
  rw [selectBestPriorityLocators]
  split_ifs at hsnoc with hskip heq hlt <;> obtain ⟨hp, hb⟩ := Prod.mk.inj hsnoc <;> rw [hp, hb]
  · rw [if_pos hskip, if_pos hk]
  · rw [if_neg hskip, if_pos heq, length_append, length_singleton]
    rfl
  · rw [if_neg hskip, if_neg heq, if_pos hlt, if_pos (by simp [MAX_BALANCED_LOCATORS])]
  · rw [if_neg hskip, if_neg heq, if_neg hlt, if_pos hk]

/-- The loop of `select_best_priority_locators`, after the locators `k`. -/
theorem selectBestPriorityLocators_cases : ∀ {l k : List Locator},
    (bestLocators k).length ≤ MAX_BALANCED_LOCATORS →
    (∀ n, (bestLocators (k ++ l.take n)).length ≤ MAX_BALANCED_LOCATORS) ∧
      selectBestPriorityLocators (bestPriority k) (bestLocators k) l =
        .ok (bestPriority (k ++ l), bestLocators (k ++ l)) ∨
    (¬ ∀ n, (bestLocators (k ++ l.take n)).length ≤ MAX_BALANCED_LOCATORS) ∧
      selectBestPriorityLocators (bestPriority k) (bestLocators k) l = .error .outOfRange
  | [], k, hk => .inl ⟨by simpa using hk, by simp [selectBestPriorityLocators]⟩
  | x :: l, k, hk => by
    rw [selectBestPriorityLocators_cons x hk]
    split_ifs with hx
    · refine (selectBestPriorityLocators_cases (l := l) hx).imp (fun ⟨hall, hr⟩ => ?_)
        fun ⟨hall, hr⟩ => ⟨fun h => hall fun n => ?_, hr⟩
      · refine ⟨fun n => ?_, by simpa using hr⟩
        cases n with
        | zero => simpa using hk
        | succ n => simpa using hall n
      · simpa using h (n + 1)
    · exact .inr ⟨fun h => hx (by simpa using h 1), rfl⟩

/-! ## The vectors of two families -/

/-- The vector over the best locators, none if there is no usable one. -/
def vectorOf (l : List Locator) : Option (List Nat) :=
  if bestLocators l = [] then none else some (spread (bestLocators l))

/-- The vectors for the locators of the two families. The combined one is over the best locators of
both, when both have one. -/
def vectorsOf (l4 l6 : List Locator) : BalancingLocatorsVecs :=
  ⟨vectorOf l4, vectorOf l6,
    if (vectorOf l4).isSome ∧ (vectorOf l6).isSome then vectorOf (l4 ++ l6) else none⟩

/-- The arrays of the families and the one for both are large enough. -/
@[mk_iff]
structure FitsArrays (l4 l6 : List Locator) : Prop where
  v4 : FitsArray l4
  v6 : FitsArray l6
  both : (bestLocators (l4 ++ l6)).length ≤ MAX_BALANCED_LOCATORS

theorem familyVector_cases (l : List Locator) :
    FitsArray l ∧ (∃ w h, familyVector l = .ok ⟨bestPriority l, bestLocators l, w, h, vectorOf l⟩ ∧
      (bestLocators l ≠ [] → w = weightSum (bestLocators l) ∧ h = weightGcd (bestLocators l))) ∨
    ¬ FitsArray l ∧ familyVector l = .error .outOfRange := by
  refine (selectBestPriorityLocators_cases (l := l) (k := []) (Nat.zero_le _)).imp
    (fun ⟨hfits, hsel⟩ => ⟨hfits, ?_⟩) fun ⟨hfits, hsel⟩ => ⟨hfits, ?_⟩
  · have hsel : selectBestPriorityLocators UNUSED_RLOC_PRIORITY [] l =
      .ok (bestPriority l, bestLocators l) := hsel
    simp only [familyVector, hsel, getHcfLocatorsWeight_eq, setBalancingVector_eq,
      bind, Except.bind,
      pure, Except.pure, ← bestLocators_eq_nil_iff, vectorOf]
    split_ifs with hnil
    · exact ⟨0, 0, rfl, fun h => absurd hnil h⟩
    · exact ⟨_, _, rfl, fun _ => ⟨rfl, rfl⟩⟩
  · have hsel : selectBestPriorityLocators UNUSED_RLOC_PRIORITY [] l = .error .outOfRange := hsel
    simp [familyVector, hsel, bind, Except.bind]

theorem isSome_vectorOf_iff : (vectorOf l).isSome ↔ bestLocators l ≠ [] := by
  unfold vectorOf
  split_ifs with hnil <;> simp [hnil]

/-- The vector over both families, from what was computed for each. -/
theorem combinedVector_cases {w4 g4 w6 g6 : Nat} (h4 : FitsArray l4) (h6 : FitsArray l6)
    (hw4 : bestLocators l4 ≠ [] → w4 = weightSum (bestLocators l4) ∧
      g4 = weightGcd (bestLocators l4))
    (hw6 : bestLocators l6 ≠ [] → w6 = weightSum (bestLocators l6) ∧
      g6 = weightGcd (bestLocators l6)) :
    let r := combinedVector ⟨bestPriority l4, bestLocators l4, w4, g4, vectorOf l4⟩
      ⟨bestPriority l6, bestLocators l6, w6, g6, vectorOf l6⟩
    (bestLocators (l4 ++ l6)).length ≤ MAX_BALANCED_LOCATORS ∧
      r = .ok (vectorsOf l4 l6).balancingLocatorsVec ∨
    ¬ (bestLocators (l4 ++ l6)).length ≤ MAX_BALANCED_LOCATORS ∧ r = .error .outOfRange := by
  have happ := bestLocators_append l4 l6
  by_cases hne : bestLocators l4 ≠ [] ∧ bestLocators l6 ≠ []
  · obtain ⟨hne4, hne6⟩ := hne
    obtain ⟨rfl, rfl⟩ := hw4 hne4
    obtain ⟨rfl, rfl⟩ := hw6 hne6
    rcases lt_trichotomy (bestPriority l4) (bestPriority l6) with hlt | heq | hgt
    · rw [if_pos hlt] at happ
      exact .inl ⟨happ ▸ h4.self, by simp [combinedVector, vectorsOf, vectorOf, happ,
        hne4, hne6, hlt]⟩
    · -- the array of both families is filled
      rw [if_neg heq.not_lt, if_neg heq.not_gt] at happ
      have hset := setBalancingVector_eq (bestLocators l4 ++ bestLocators l6)
      rw [weightSum_append, weightGcd_append, ← highestCommonFactor_eq] at hset
      by_cases hlen : (bestLocators l4).length + (bestLocators l6).length ≤ MAX_BALANCED_LOCATORS
      · exact .inl ⟨by rwa [happ, length_append], by
          simp [combinedVector, vectorsOf, vectorOf, happ, hne4, hne6, heq, hlen, hset, Except.map]⟩
      · exact .inr ⟨by rwa [happ, length_append], by
          simp [combinedVector, vectorOf, hne4, hne6, heq, hlen]⟩
    · rw [if_neg hgt.not_gt, if_pos hgt] at happ
      exact .inl ⟨happ ▸ h6.self, by
        simp [combinedVector, vectorsOf, vectorOf, happ, hne4, hne6, hgt, hgt.not_gt]⟩
  · refine .inl ⟨?_, ?_⟩
    · have h4 := h4.self
      have h6 := h6.self
      rw [happ]
      split_ifs
      · exact h4
      · exact h6
      · rw [not_and_or, not_not, not_not] at hne
        rcases hne with hnil | hnil <;> simpa [hnil]
    · rw [not_and_or, not_not, not_not] at hne
      rcases hne with hnil | hnil <;> simp [combinedVector, vectorsOf, vectorOf, hnil]

/-- `balancing_vectors_calculate` gives the vectors of the families it sorts the locators into,
unless one of its arrays is too small. -/
theorem balancingVectorsCalculate_cases (hclass : fbLocatorsClassifyIn46 m rlocs = .ok (l4, l6)) :
    FitsArrays l4 l6 ∧ balancingVectorsCalculate rlocs m = .ok (vectorsOf l4 l6) ∨
      ¬ FitsArrays l4 l6 ∧ balancingVectorsCalculate rlocs m = .error .outOfRange := by
  simp only [balancingVectorsCalculate, hclass, bind, Except.bind]
  obtain ⟨h4, w4, g4, hv4, hw4⟩ | ⟨h4, hv4⟩ := familyVector_cases l4
  swap
  · exact .inr ⟨fun h => h4 h.v4, by rw [hv4]⟩
  obtain ⟨h6, w6, g6, hv6, hw6⟩ | ⟨h6, hv6⟩ := familyVector_cases l6
  swap
  · exact .inr ⟨fun h => h6 h.v6, by rw [hv4, hv6]⟩
  simp only [hv4, hv6]
  refine (combinedVector_cases h4 h6 hw4 hw6).imp (fun ⟨hboth, hr⟩ => ⟨⟨h4, h6, hboth⟩, ?_⟩)
    fun ⟨hboth, hr⟩ => ⟨fun h => hboth h.both, ?_⟩
  · rw [hr]
    rfl
  · rw [hr]

/-- The families a mapping with vectors is sorted into. -/
theorem balancingVectorsCalculate_ok (h : balancingVectorsCalculate rlocs m = .ok v) :
    (∀ x ∈ addressedLocators m, ∃ o, fwdFamily rlocs x.addr = .ok o) ∧
      ∃ l4 l6, l4 = ofFamily rlocs true (addressedLocators m) ∧
        l6 = ofFamily rlocs false (addressedLocators m) ∧ FitsArrays l4 l6 ∧
          v = vectorsOf l4 l6 := by
  obtain ⟨⟨l4, l6⟩, hclass, -⟩ := except_bind_ok.mp h
  obtain ⟨hok, heq⟩ := fbLocatorsClassifyIn46_ok.mp hclass
  obtain ⟨h4, h6⟩ := Prod.mk.inj heq
  rcases balancingVectorsCalculate_cases hclass with ⟨hfits, hv⟩ | ⟨-, hv⟩
  · exact ⟨hok, l4, l6, h4, h6, hfits, Except.ok.inj (h.symm.trans hv)⟩
  · exact absurd (h.symm.trans hv) nofun

/-! ## What the vectors depend on -/

/-- What the vectors take from a locator. -/
def Locator.share (l : Locator) : Nat × LinkState × UInt8 × UInt8 :=
  (l.ptr, l.state, l.priority, l.weight)

/-- A locator with nothing but a share. -/
def Locator.ofShare (s : Nat × LinkState × UInt8 × UInt8) : Locator :=
  ⟨s.1, .noAddr, s.2.1, s.2.2.1, s.2.2.2, 0, 0⟩

/-- The locators without their addresses. -/
def bare (l : List Locator) : List Locator :=
  l.map fun x => .ofShare x.share

theorem bestPriority_bare : ∀ l : List Locator, bestPriority (bare l) = bestPriority l
  | [] => rfl
  | x :: rest => by
    rw [bestPriority, ← bestPriority_bare rest]
    rfl

theorem bestLocators_bare (l : List Locator) : bestLocators (bare l) = bare (bestLocators l) := by
  rw [bestLocators, bestPriority_bare, bare, filter_map]
  rfl

theorem spread_bare (l : List Locator) : spread (bare l) = spread l := by
  simp only [spread, weightSum, weightGcd, bare, map_map, flatMap_map]
  rfl

theorem vectorOf_bare (l : List Locator) : vectorOf (bare l) = vectorOf l := by
  simp only [vectorOf, bestLocators_bare, spread_bare]
  simp only [bare, map_eq_nil_iff]

theorem vectorsOf_bare (l4 l6 : List Locator) :
    vectorsOf (bare l4) (bare l6) = vectorsOf l4 l6 := by
  have happ : bare l4 ++ bare l6 = bare (l4 ++ l6) := (map_append ..).symm
  simp only [vectorsOf, happ, vectorOf_bare]

theorem fitsArrays_bare : FitsArrays (bare l4) (bare l6) ↔ FitsArrays l4 l6 := by
  have happ : bare l4 ++ bare l6 = bare (l4 ++ l6) := (map_append ..).symm
  have hone : ∀ l, FitsArray (bare l) ↔ FitsArray l := by
    intro l
    refine forall_congr' fun n => ?_
    rw [show (bare l).take n = bare (l.take n) from (map_take ..).symm, bestLocators_bare, bare,
      length_map]
  rw [fitsArrays_iff, fitsArrays_iff, hone, hone, happ, bestLocators_bare, bare, length_map]

/-- Two mappings whose locators with an address agree in what is read have the same vectors. -/
theorem balancingVectorsCalculate_congr {rlocs' : List LispAddr} {m' : Mapping}
    (h : (addressedLocators m).map (fun x => (x.share, fwdFamily rlocs x.addr)) =
      (addressedLocators m').map (fun x => (x.share, fwdFamily rlocs' x.addr)))
    (hv : balancingVectorsCalculate rlocs m = .ok v) :
    balancingVectorsCalculate rlocs' m' = .ok v := by
  obtain ⟨hok, l4, l6, rfl, rfl, hfits, rfl⟩ := balancingVectorsCalculate_ok hv
  have hfam : ∀ (rlocs : List LispAddr) (v4 : Bool) (l : List Locator),
      bare (ofFamily rlocs v4 l) = (((l.map fun x => (x.share, fwdFamily rlocs x.addr)).filter
        fun s => s.2.toOption = some (some v4)).map fun s => Locator.ofShare s.1).reverse := by
    intro rlocs v4 l
    simp only [bare, ofFamily, filter_map, map_map, map_reverse]
    rfl
  have hok' : ∀ x ∈ addressedLocators m', ∃ o, fwdFamily rlocs' x.addr = .ok o := by
    intro x hx
    obtain ⟨y, hy, heq⟩ := mem_map.mp (h ▸ mem_map_of_mem hx)
    exact (Prod.mk.inj heq).2 ▸ hok y hy
  rw [← fitsArrays_bare, hfam, hfam, h, ← hfam, ← hfam, fitsArrays_bare] at hfits
  rw [← vectorsOf_bare, hfam, hfam, h, ← hfam, ← hfam, vectorsOf_bare]
  rcases balancingVectorsCalculate_cases (fbLocatorsClassifyIn46_ok.mpr ⟨hok', rfl⟩) with
    ⟨-, hv'⟩ | ⟨hnot, -⟩
  · exact hv'
  · exact absurd hfits hnot

/-! ## The list of RLOCs -/

/-- None of the locators is an explicit path. -/
def ElpFree (m : Mapping) : Prop :=
  ∀ l ∈ m.locators, lispAddrLcafType l.addr ≠ 10

instance (m : Mapping) : Decidable (ElpFree m) :=
  inferInstanceAs (Decidable (∀ l ∈ m.locators, _))

theorem mem_addressedLocators {l : Locator} (h : l ∈ addressedLocators m) : l ∈ m.locators := by
  obtain ⟨loctList, hlist, hl⟩ := mem_flatMap.mp h
  refine mem_flatten.mpr ⟨loctList, hlist, ?_⟩
  split_ifs at hl
  · cases hl
  · exact hl

/-- Only a path is compared with the RLOCs of the router. -/
theorem fbLispAddrGetFwdIpAddr_of_not_elp {addr : LispAddr} (h : lispAddrLcafType addr ≠ 10)
    (rlocs rlocs' : List LispAddr) :
    fbLispAddrGetFwdIpAddr rlocs addr = fbLispAddrGetFwdIpAddr rlocs' addr := by
  cases addr with
  | elp nodes => exact absurd rfl h
  | _ => simp only [fbLispAddrGetFwdIpAddr]

/-- The vectors of a mapping without paths do not depend on the RLOCs. -/
theorem ElpFree.vectors_eq (h : ElpFree m) (rlocs' : List LispAddr)
    (hv : balancingVectorsCalculate rlocs m = .ok v) :
    balancingVectorsCalculate rlocs' m = .ok v := by
  refine balancingVectorsCalculate_congr (map_congr_left fun l hl => ?_) hv
  rw [fwdFamily, fwdFamily,
    fbLispAddrGetFwdIpAddr_of_not_elp (h l (mem_addressedLocators hl)) rlocs rlocs']

/-! ## What the vectors point to -/

theorem mem_vectorOf {vec : List Nat} (h : vectorOf l = some vec) :
    ∀ p ∈ vec, ∃ x ∈ bestLocators l, x.ptr = p := by
  unfold vectorOf at h
  split_ifs at h
  cases h
  intro p hp
  obtain ⟨x, hx, hp⟩ := mem_flatMap.mp hp
  exact ⟨x, hx, (eq_of_mem_replicate hp).symm⟩

/-- The locators the vectors point to. -/
def BalancingLocatorsVecs.ptrs (v : BalancingLocatorsVecs) : List Nat :=
  v.v4BalancingLocatorsVec.getD [] ++ v.v6BalancingLocatorsVec.getD [] ++
    v.balancingLocatorsVec.getD []

/-- The vectors point to locators of the mapping they were computed from. -/
theorem balancingVectorsCalculate_mem (h : balancingVectorsCalculate rlocs m = .ok v) :
    ∀ p ∈ v.ptrs, ∃ l ∈ m.locators, l.ptr = p := by
  obtain ⟨-, l4, l6, rfl, rfl, -, rfl⟩ := balancingVectorsCalculate_ok h
  have hvec : ∀ {l}, (∀ x ∈ l, x ∈ addressedLocators m) → ∀ p ∈ (vectorOf l).getD [],
      ∃ l ∈ m.locators, l.ptr = p := by
    intro l hl p hp
    cases hv : vectorOf l with
    | none => simp [hv] at hp
    | some vec =>
      obtain ⟨x, hx, rfl⟩ := mem_vectorOf hv p (by simpa [hv] using hp)
      exact ⟨x, mem_addressedLocators (hl x (mem_filter.mp hx).1), rfl⟩
  have hmem : ∀ {v4 x}, x ∈ ofFamily rlocs v4 (addressedLocators m) → x ∈ addressedLocators m :=
    fun hx => (mem_ofFamily.mp hx).1
  intro p hp
  simp only [BalancingLocatorsVecs.ptrs, vectorsOf, mem_append] at hp
  rcases hp with (hp | hp) | hp
  · exact hvec (fun _ => hmem) p hp
  · exact hvec (fun _ => hmem) p hp
  · split_ifs at hp
    · exact hvec (fun x hx => (mem_append.mp hx).elim hmem hmem) p hp
    · cases hp

end Lispmob
