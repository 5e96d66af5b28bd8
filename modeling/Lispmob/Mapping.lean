import Mathlib.Data.List.Flatten
import Mathlib.Data.List.Perm.Subperm
import Mathlib.Algebra.Ring.Nat
import Lispmob.Address
import Lispmob.Program

/-!
# Locators and mappings

`glistAdd` is the sorted insertion of the generic list. A mapping keeps its locators in a list of
lists, one list per address family, all of them `glist_t` with comparison functions.

A locator is a C object with an identity: a probing timer holds a pointer to it. `Locator.ptr` is
that identity, and the functions that allocate locators take the next free one.
-/

namespace Lispmob

open List

/-! ## Generic lists -/

/-- `glist_add` on a list with a comparison function: `none` is the return code `BAD`, for an
element the function cannot compare with one already there. -/
def glistAdd {α : Type} (cmpFct : α → α → Int) (data : α) : List α → Option (List α)
  | [] => some [data]
  | tmp :: rest =>
    let cmp := cmpFct data tmp
    if cmp = 2 then some (data :: tmp :: rest)
    else if cmp < 0 then none
    else (glistAdd cmpFct data rest).map (tmp :: ·)

/-- `glist_contain` on a list with a comparison function. -/
def glistContain {α : Type} (cmpFct : α → α → Int) (data : α) (l : List α) : Bool :=
  l.any fun entry => cmpFct data entry = 0

/-- A successful insertion adds one element and keeps the others. -/
theorem glistAdd_perm {α : Type} {cmpFct : α → α → Int} {data : α} :
    ∀ {l l' : List α}, glistAdd cmpFct data l = some l' → l'.Perm (data :: l)
  | [], l', h => by
    simp only [glistAdd, Option.some.injEq] at h
    simp [← h]
  | tmp :: rest, l', h => by
    simp only [glistAdd] at h
    split_ifs at h with h2 hneg
    · simp only [Option.some.injEq] at h
      simp [← h]
    · obtain ⟨m, hm, rfl⟩ := Option.map_eq_some_iff.mp h
      exact ((glistAdd_perm hm).cons tmp).trans (List.Perm.swap data tmp rest)

/-- An insertion succeeds when the element compares with all of the list. -/
theorem glistAdd_of_comparable {α : Type} {cmpFct : α → α → Int} {x : α} :
    ∀ {l : List α}, (∀ y ∈ l, 0 ≤ cmpFct x y) → ∃ l', glistAdd cmpFct x l = some l'
  | [], _ => ⟨[x], rfl⟩
  | y :: l, h => by
    obtain ⟨l', hl'⟩ := glistAdd_of_comparable (l := l) fun z hz => h z (mem_cons_of_mem _ hz)
    have hy : ¬ cmpFct x y < 0 := by
      have := h y (by simp)
      omega
    unfold glistAdd
    dsimp only
    split_ifs
    · exact ⟨_, rfl⟩
    · exact ⟨y :: l', by rw [hl', Option.map_some]⟩

/-! ## Locators -/

/-- The state of a locator or of an interface. -/
inductive LinkState where
  | DOWN
  | UP
deriving DecidableEq, Repr

/-- A `locator_t`, with its identity as a C object. -/
structure Locator where
  /-- The object: timers and interface tables point to it. -/
  ptr : Nat
  addr : LispAddr
  state : LinkState
  priority : UInt8
  weight : UInt8
  mpriority : UInt8
  mweight : UInt8
deriving DecidableEq

instance : LawfulBEq (List Locator) := inferInstance

/-- `locator_cmp_addr`. -/
def locatorCmpAddr (loct1 loct2 : Locator) : Int :=
  lispAddrCmp loct1.addr loct2.addr

/-- `locator_cmp` returns `0`: same address, priorities and weights. The state is not compared. -/
def locatorCmp (l1 l2 : Locator) : Bool :=
  lispAddrCmp l1.addr l2.addr = 0 && l1.priority = l2.priority && l1.weight = l2.weight &&
    l1.mpriority = l2.mpriority && l1.mweight = l2.mweight

/-- `locator_list_cmp_afi`: order two locator lists by the family of their first locators. -/
def locatorListCmpAfi (listA listB : List Locator) : Int :=
  match listA, listB with
  | a :: _, b :: _ => lispAddrCmpAfi a.addr b.addr
  | _, _ => -2

/-- `locator_list_get_locator_with_addr`. -/
def locatorListGetLocatorWithAddr (loctList : List Locator) (addr : LispAddr) : Option Locator :=
  loctList.find? fun locator => lispAddrCmp locator.addr addr = 0

/-- The loop of `locator_list_clone`: each locator is copied to a new object and inserted again; a
copy that cannot be inserted is lost. `next` is the next free identity. -/
def locatorListCloneLoop (next : Nat) (acc : List Locator) : List Locator → Nat × List Locator
  | [] => (next, acc)
  | loct :: rest =>
    let loct2 := { loct with ptr := next }
    locatorListCloneLoop (next + 1) ((glistAdd locatorCmpAddr loct2 acc).getD acc) rest

/-- `locator_list_clone` on a list that is not empty. -/
def locatorListClone (next : Nat) (loctList : List Locator) : Nat × List Locator :=
  locatorListCloneLoop next [] loctList

/-! ## Mappings -/

/-- A `mapping_t`. -/
structure Mapping where
  eidPrefix : LispAddr
  locatorCount : Nat
  locatorsLists : List (List Locator)
  ttl : UInt32
  action : UInt8
  authoritative : UInt8
deriving DecidableEq

/-- `mapping_new`: a zeroed structure. -/
def mappingNew : Mapping :=
  { eidPrefix := .noAddr, locatorCount := 0, locatorsLists := [], ttl := 0, action := 0,
    authoritative := 0 }

/-- `mapping_new_init`: an IP address becomes the prefix of full length. -/
def mappingNewInit (eid : LispAddr) : Mapping :=
  { mappingNew with
    eidPrefix := if lispAddrLafi eid = .IP then lispAddrIpToIppref eid else eid }

/-- All the locators of a mapping, in the order of the nested lists. -/
def Mapping.locators (m : Mapping) : List Locator :=
  m.locatorsLists.flatten

/-- The comparison of two locator lists in `mapping_cmp`. -/
def locatorListCmp : List Locator → List Locator → Bool
  | [], [] => true
  | l1 :: rest1, l2 :: rest2 => locatorCmp l1 l2 && locatorListCmp rest1 rest2
  | _, _ => false

/-- The comparison of the lists of locator lists in `mapping_cmp`. -/
def locatorsListsCmp : List (List Locator) → List (List Locator) → Bool
  | [], [] => true
  | l1 :: rest1, l2 :: rest2 => locatorListCmp l1 l2 && locatorsListsCmp rest1 rest2
  | _, _ => false

/-- `mapping_cmp` returns `0`. TTL, action and authoritative bit are not compared, and neither is
the length of the EID prefix. -/
def mappingCmp (m1 m2 : Mapping) : Bool :=
  lispAddrCmp m1.eidPrefix m2.eidPrefix = 0 && m1.locatorCount = m2.locatorCount &&
    locatorsListsCmp m1.locatorsLists m2.locatorsLists

/-- The position of the list `mapping_get_loct_lst_with_afi` returns. The first locator of every
list on the way is dereferenced, so an empty inner list is a null pointer. -/
def loctLstIndex (lafi : LmAfi) (afi : Option Af) (lcafType : Nat) :
    List (List Locator) → Except Fault (Option Nat)
  | [] => .ok none
  | [] :: _ => .error .nullDeref
  | (loct :: _) :: rest =>
    if lispAddrLafi loct.addr = lafi then
      match lafi with
      | .NO_ADDR => .ok (some 0)
      | .IP =>
        if lispAddrIpAfi loct.addr = afi then .ok (some 0)
        else (loctLstIndex lafi afi lcafType rest).map (·.map (· + 1))
      | .IPPREF => .ok none
      | .LCAF =>
        if lispAddrLcafType loct.addr = lcafType then .ok (some 0)
        else (loctLstIndex lafi afi lcafType rest).map (·.map (· + 1))
    else (loctLstIndex lafi afi lcafType rest).map (·.map (· + 1))

/-- `mapping_get_loct_lst_with_addr_type`, as a position in the list of lists. -/
def mappingGetLoctLstWithAddrType (m : Mapping) (addr : LispAddr) : Except Fault (Option Nat) :=
  loctLstIndex (lispAddrLafi addr) (lispAddrIpAfi addr) (lispAddrLcafType addr) m.locatorsLists

/-- `mapping_get_loct_with_addr`. -/
def mappingGetLoctWithAddr (m : Mapping) (address : LispAddr) : Except Fault (Option Locator) := do
  match ← mappingGetLoctLstWithAddrType m address with
  | none => return none
  | some i => return locatorListGetLocatorWithAddr (m.locatorsLists.getD i []) address

/-- The end of `mapping_add_locator` after a successful insertion. -/
def mappingCountLocator (m : Mapping) (addr : LispAddr) : Mapping :=
  if lispAddrLafi addr = .NO_ADDR then m else { m with locatorCount := m.locatorCount + 1 }

/-- `mapping_add_locator`. Of two locators with one address the one with the smaller priority
stays; `ERR_EXIST` tells the caller to release the new one. -/
def mappingAddLocator (m : Mapping) (loct : Locator) : Except Fault (Ret × Mapping) := do
  match ← mappingGetLoctLstWithAddrType m loct.addr with
  | none =>
    match glistAdd locatorListCmpAfi [loct] m.locatorsLists with
    | none => return (.BAD, m)
    | some lists => return (.GOOD, mappingCountLocator { m with locatorsLists := lists } loct.addr)
  | some i =>
    let loctList := m.locatorsLists.getD i []
    if glistContain locatorCmpAddr loct loctList then
      match locatorListGetLocatorWithAddr loctList loct.addr with
      | none => throw .nullDeref
      | some aux =>
        if loct.priority < aux.priority then
          let shorter := loctList.eraseP (·.ptr = aux.ptr)
          match glistAdd locatorCmpAddr loct shorter with
          | none => return (.BAD, { m with locatorsLists := m.locatorsLists.set i shorter })
          | some l => return (.GOOD, { m with locatorsLists := m.locatorsLists.set i l })
        else return (.ERR_EXIST, m)
    else
      match glistAdd locatorCmpAddr loct loctList with
      | none => return (.BAD, m)
      | some l =>
        let m := { m with locatorsLists := m.locatorsLists.set i l }
        return (.GOOD, mappingCountLocator m loct.addr)

/-- The loop of `mapping_update_locators`. The clone of an empty list is the null pointer, whose
first element is then read. -/
def mappingUpdateLocatorsLoop (next : Nat) (lists : List (List Locator)) (loctCtr : Nat) :
    List (List Locator) → Except Fault (Nat × List (List Locator) × Nat)
  | [] => .ok (next, lists, loctCtr)
  | loctList :: rest =>
    match locatorListClone next loctList with
    | (_, []) => .error .nullDeref
    | (next', locator :: more) =>
      let newLoctList := locator :: more
      let lists' := (glistAdd locatorListCmpAfi newLoctList lists).getD lists
      let ctr := if lispAddrLafi locator.addr = .NO_ADDR then loctCtr
        else loctCtr + newLoctList.length
      mappingUpdateLocatorsLoop next' lists' ctr rest

/-- `mapping_update_locators`: the lists are replaced by clones. TTL and action stay. -/
def mappingUpdateLocators (next : Nat) (m : Mapping) (loctsLists : List (List Locator)) :
    Except Fault (Nat × Mapping) := do
  let (next', lists, ctr) ← mappingUpdateLocatorsLoop next [] 0 loctsLists
  return (next', { m with locatorsLists := lists, locatorCount := ctr })

/-- `mapping_has_elp_with_l_bit`. -/
def mappingHasElpWithLBit (m : Mapping) : Except Fault Bool := do
  match ← loctLstIndex .LCAF none 10 m.locatorsLists with
  | none => return false
  | some i =>
    return (m.locatorsLists.getD i []).any fun loct =>
      match loct.addr with
      | .elp nodes => nodes.any fun | .mk L _ _ _ => L
      | _ => false

variable {L : List (List Locator)} {next next' : Nat} {m m' : Mapping}

/-- Updating the locators replaces the lists and the count only. -/
theorem mappingUpdateLocators_ok
    (h : mappingUpdateLocators next m L = .ok (next', m')) : ∃ lists ctr,
      mappingUpdateLocatorsLoop next [] 0 L = .ok (next', lists, ctr) ∧
        m' = { m with locatorsLists := lists, locatorCount := ctr } := by
  rw [mappingUpdateLocators, Prog.except_bind_ok] at h
  obtain ⟨⟨n, lists, ctr⟩, hloop, h⟩ := h
  cases Prog.except_pure_ok.mp h
  exact ⟨lists, ctr, hloop, rfl⟩

theorem mappingUpdateLocators_keeps (h : mappingUpdateLocators next m L = .ok (next', m')) :
    m'.eidPrefix = m.eidPrefix ∧ m'.ttl = m.ttl ∧ m'.action = m.action := by
  obtain ⟨lists, ctr, -, rfl⟩ := mappingUpdateLocators_ok h
  exact ⟨rfl, rfl, rfl⟩

/-! ## Copies -/

/-- Copies of the locators, with the identities from `next` on. -/
def copies (next : Nat) : List Locator → List Locator
  | [] => []
  | loct :: rest => { loct with ptr := next } :: copies (next + 1) rest

theorem length_copies : ∀ {l : List Locator} {next : Nat}, (copies next l).length = l.length
  | [], _ => rfl
  | _ :: _, _ => congrArg (· + 1) length_copies

/-- `locator_list_clone` copies some of the locators, and all of them if they compare. -/
theorem locatorListCloneLoop_perm : ∀ {l acc : List Locator} {next : Nat},
    (locatorListCloneLoop next acc l).1 = next + l.length ∧ ∃ k, k.Sublist (copies next l) ∧
      (locatorListCloneLoop next acc l).2.Perm (k ++ acc) ∧
      ((∀ x ∈ l, ∀ y ∈ l ++ acc, 0 ≤ lispAddrCmp x.addr y.addr) → k = copies next l)
  | [], acc, _ => ⟨rfl, [], .slnil, .refl _, fun _ => rfl⟩
  | loct :: rest, acc, next => by
    rw [locatorListCloneLoop, copies]
    cases hadd : glistAdd locatorCmpAddr { loct with ptr := next } acc with
    | none =>
      obtain ⟨hnext, k, hk, hperm, -⟩ := @locatorListCloneLoop_perm rest acc (next + 1)
      refine ⟨by rw [Option.getD_none, hnext, length_cons]; omega, k, hk.cons _, hperm, ?_⟩
      exact fun h => absurd hadd (Option.ne_none_iff_exists'.mpr
        (glistAdd_of_comparable fun y hy => h loct (by simp) y (by simp [hy])))
    | some acc' =>
      obtain ⟨hnext, k, hk, hperm, hall⟩ := @locatorListCloneLoop_perm rest acc' (next + 1)
      have hacc := glistAdd_perm hadd
      refine ⟨by rw [Option.getD_some, hnext, length_cons]; omega, _ :: k, hk.cons_cons _,
        hperm.trans ((hacc.append_left k).trans perm_middle), fun h => ?_⟩
      rw [hall fun x hx y hy => ?_]
      rcases mem_append.mp hy with hy | hy
      · exact h x (by simp [hx]) y (by simp [hy])
      · rcases mem_cons.mp (hacc.mem_iff.mp hy) with rfl | hy
        · exact h x (by simp [hx]) loct (by simp)
        · exact h x (by simp [hx]) y (by simp [hy])

/-- Copies of the lists, one after the other. -/
def clones (next : Nat) : List (List Locator) → List (List Locator)
  | [] => []
  | l :: L => (locatorListClone next l).2 :: clones (next + l.length) L

/-- What a list adds to the count. -/
def counts (l : List Locator) : Nat :=
  if (l.head?.any fun x => lispAddrLafi x.addr = .NO_ADDR) = true then 0 else l.length

/-- `mapping_update_locators` copies some of the lists, and all of them if they compare. -/
theorem mappingUpdateLocatorsLoop_perm :
    ∀ {L lists lists' : List (List Locator)} {next next' ctr ctr' : Nat},
      mappingUpdateLocatorsLoop next lists ctr L = .ok (next', lists', ctr') →
        next' = next + L.flatten.length ∧ (∀ k ∈ clones next L, k ≠ []) ∧
        ctr' = ctr + ((clones next L).map counts).sum ∧
        ∃ K, K.Sublist (clones next L) ∧ lists'.Perm (K ++ lists) ∧
          ((∀ k ∈ clones next L, ∀ l ∈ clones next L ++ lists, 0 ≤ locatorListCmpAfi k l) →
            K = clones next L)
  | [], lists, _, next, _, ctr, _, h => by
    cases h
    exact ⟨rfl, by simp [clones], rfl, [], .slnil, .refl _, fun _ => rfl⟩
  | l :: L, lists, lists', next, next', ctr, ctr', h => by
    have hnext : (locatorListClone next l).1 = next + l.length := locatorListCloneLoop_perm.1
    rw [mappingUpdateLocatorsLoop] at h
    rw [clones]
    generalize locatorListClone next l = c at h hnext ⊢
    obtain ⟨next1, k⟩ := c
    obtain rfl : next1 = next + l.length := hnext
    cases k with
    | nil => cases h
    | cons x k =>
      obtain ⟨hn, hne, hctr, K, hK, hperm, hall⟩ := mappingUpdateLocatorsLoop_perm h
      refine ⟨?_, forall_mem_cons.mpr ⟨by simp, hne⟩, ?_, ?_⟩
      · rw [hn, flatten_cons, length_append, Nat.add_assoc]
      · rw [hctr, map_cons, sum_cons, ← Nat.add_assoc]
        congr 1
        by_cases hx : lispAddrLafi x.addr = .NO_ADDR <;> simp [counts, hx]
      · cases hadd : glistAdd locatorListCmpAfi (x :: k) lists with
        | none =>
          rw [hadd] at hperm
          exact ⟨K, hK.cons _, hperm, fun hcmp => absurd hadd (Option.ne_none_iff_exists'.mpr
            (glistAdd_of_comparable fun l hl => hcmp (x :: k) (by simp) l (by simp [hl])))⟩
        | some lists1 =>
          rw [hadd] at hperm hall
          have hlists := glistAdd_perm hadd
          refine ⟨_ :: K, hK.cons_cons _, hperm.trans ((hlists.append_left K).trans perm_middle),
            fun hcmp => ?_⟩
          rw [hall fun k' hk' l hl => hcmp k' (by simp [hk']) l ?_]
          have hl := ((hlists.append_left _).trans perm_middle).mem_iff.mp hl
          simpa [or_assoc] using hl

/-! ## Identities of locators -/

/-- The locators are objects of their own with identities between `lo` and `hi`. -/
structure FreshLocators (lo hi : Nat) (l : List Locator) : Prop where
  nodup : (l.map (·.ptr)).Nodup
  bounds : ∀ x ∈ l, lo ≤ x.ptr ∧ x.ptr < hi

namespace FreshLocators

variable {lo hi hi' : Nat} {l l' : List Locator}

theorem nil : FreshLocators lo hi [] :=
  ⟨by simp, by simp⟩

theorem perm (h : FreshLocators lo hi l) (hp : l'.Perm l) : FreshLocators lo hi l' :=
  ⟨(hp.map _).nodup_iff.mpr h.nodup, fun x hx => h.bounds x (hp.mem_iff.mp hx)⟩

theorem mono (h : FreshLocators lo hi l) (hle : hi ≤ hi') : FreshLocators lo hi' l :=
  ⟨h.nodup, fun x hx => ⟨(h.bounds x hx).1, Nat.lt_of_lt_of_le (h.bounds x hx).2 hle⟩⟩

theorem append (h : FreshLocators lo hi l) (h' : FreshLocators hi hi' l') (hlo : lo ≤ hi)
    (hhi : hi ≤ hi') : FreshLocators lo hi' (l' ++ l) := by
  refine ⟨?_, ?_⟩
  · rw [map_append, nodup_append]
    refine ⟨h'.nodup, h.nodup, ?_⟩
    intro a ha b hb
    obtain ⟨x, hx, rfl⟩ := mem_map.mp ha
    obtain ⟨y, hy, rfl⟩ := mem_map.mp hb
    have h1 := (h'.bounds x hx).1
    have h2 := (h.bounds y hy).2
    omega
  · intro x hx
    rcases mem_append.mp hx with hx | hx
    · have hb := h'.bounds x hx
      omega
    · have hb := h.bounds x hx
      omega

theorem subperm (h : FreshLocators lo hi l) (hs : l'.Subperm l) : FreshLocators lo hi l' := by
  obtain ⟨l1, hp, hsub⟩ := hs
  have h1 : FreshLocators lo hi l1 :=
    ⟨h.nodup.sublist (hsub.map _), fun x hx => h.bounds x (hsub.subset hx)⟩
  exact h1.perm hp.symm

end FreshLocators

theorem FreshLocators.copies : ∀ {l : List Locator} {next : Nat},
    FreshLocators next (next + l.length) (copies next l)
  | [], _ => .nil
  | x :: l, next => by
    have hx : FreshLocators next (next + 1) [{ x with ptr := next }] := ⟨by simp, by simp⟩
    have h := (hx.append (copies (l := l)) (Nat.le_succ _) (Nat.le_add_right _ _)).perm
      perm_append_comm
    rwa [Nat.add_assoc, Nat.add_comm 1] at h

theorem locatorListClone_fresh (next : Nat) (l : List Locator) :
    (locatorListClone next l).1 = next + l.length ∧
      FreshLocators next (next + l.length) (locatorListClone next l).2 := by
  obtain ⟨hnext, k, hk, hperm, -⟩ := @locatorListCloneLoop_perm l [] next
  rw [append_nil] at hperm
  exact ⟨hnext, .subperm .copies (hperm.subperm.trans hk.subperm)⟩

theorem FreshLocators.clones : ∀ {L : List (List Locator)} {next : Nat},
    FreshLocators next (next + L.flatten.length) (clones next L).flatten
  | [], _ => .nil
  | l :: L, next => by
    have h := ((locatorListClone_fresh next l).2.append (clones (L := L)) (Nat.le_add_right _ _)
      (Nat.le_add_right _ _)).perm perm_append_comm
    rwa [Nat.add_assoc, ← length_append] at h

theorem mappingUpdateLocators_fresh (h : mappingUpdateLocators next m L = .ok (next', m')) :
    next ≤ next' ∧ FreshLocators next next' m'.locators := by
  obtain ⟨lists, ctr, hloop, rfl⟩ := mappingUpdateLocators_ok h
  obtain ⟨rfl, -, -, K, hK, hperm, -⟩ := mappingUpdateLocatorsLoop_perm hloop
  rw [append_nil] at hperm
  exact ⟨Nat.le_add_right _ _,
    FreshLocators.clones.subperm (hperm.flatten.subperm.trans hK.flatten.subperm)⟩

end Lispmob
