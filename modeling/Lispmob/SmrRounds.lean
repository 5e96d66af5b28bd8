import Lispmob.InterfaceLinks

/-!
# The rounds of Solicit-Map-Requests

A change of an interface is announced some seconds later, when the SMR timer expires:
`send_all_smr_and_reg` collects the local entries with a locator on a changed interface, solicits
Map-Requests for them and registers them again. What has changed since the last round is kept in the
records of the interfaces, as a flag that every status event turns over and, for each family, the
address before the first change.

`Announcer` is a router with the interfaces of its system and what they were at the last round. In
every run whose steps all meet `SmrKept`, each round handles once each exactly the entries with a
locator on an interface that is new or differs (`smr_round_exact`). The flag of a new interface is
set, as if its status had changed, and the first status event before a round clears it
(`smr_round_missed`).
-/

namespace Lispmob

open Prog List

variable {i : IfaceLocators} {old cur : Option IpAddr} {ret : Ret} {status : LinkState}
  {w : Announcer} {p : Nat}

/-! ## Finding the owner of a locator -/

section Owners

variable {R F : Type} {W : World R F} {s s' : Xtr R} {mle : Nat} {ml : MapLocalEntry R}
  {m : Mapping} {x : Locator}

/-- A stored local entry with the locator `p`. -/
def Owns (s : Xtr R) (mle p : Nat) : Prop :=
  mle ∈ mdbForeachEntry s.localMdb ∧ ∃ ml, s.mles.cell mle = some ml ∧ p ∈ ml.mapping.ptrs

instance (s : Xtr R) (mle p : Nat) : Decidable (Owns s mle p) :=
  decidable_of_iff (mle ∈ mdbForeachEntry s.localMdb ∧
      (s.mles.cell mle).any (fun ml => decide (p ∈ ml.mapping.ptrs)) = true) <| by
    rw [Option.any_eq_true]
    simp [Owns]

/-- The stored local entries have well-formed mappings, without common locators. -/
structure OwnersDistinct (s : Xtr R) : Prop where
  formed : s.mles.All fun _ ml => WellFormedLists ml.mapping.locatorsLists
  owners : OneOwner s
  stored : ∀ mle ∈ mdbForeachEntry s.localMdb, ∃ ml, s.mles.cell mle = some ml

/-- A locator of a mapping is in the list of its kind. -/
theorem mappingHasLocator_of_mem (h : WellFormedLists m.locatorsLists)
    (hx : x ∈ m.locators) : mappingHasLocator m x = .ok true := by
  have hpref : lispAddrLafi x.addr ≠ .IPPREF := (wellFormed_iff_lists.mpr h).locators x hx
  rw [mappingHasLocator, mappingGetLoctLstWithAddrType]
  rcases loctLstIndex_cases hpref fun l hl => (h.lists l hl).nonempty with
    ⟨-, hnone⟩ | ⟨i, y, l, hsome, hget, hy⟩
  · obtain ⟨l, hl, hxl⟩ := mem_flatten.mp hx
    cases l with
    | nil => cases hxl
    | cons y l => exact absurd ((h.lists _ hl).oneKind x hxl y (by simp)) (hnone _ hl y rfl)
  · obtain ⟨A, B, -, hgetD, -⟩ := lists_at hget
    have hxl : x ∈ y :: l := mem_list_of_kind h hget (by simp) hx hy.symm
    rw [hsome]
    simp only [bind, Except.bind, hgetD, pure, Except.pure, Except.ok.injEq]
    exact any_eq_true.mpr ⟨x, hxl, by simp⟩

theorem loctLstIndex_ok (lafi : LmAfi) (afi : Option Af) (ty : Nat) :
    ∀ {L : List (List Locator)}, (∀ l ∈ L, l ≠ []) → ∃ o, loctLstIndex lafi afi ty L = .ok o
  | [], _ => ⟨none, rfl⟩
  | [] :: _, h => absurd rfl (h [] (by simp))
  | (x :: l) :: L, h => by
    obtain ⟨o, ho⟩ := loctLstIndex_ok lafi afi ty fun k hk =>
      h k (mem_cons_of_mem _ hk)
    rw [loctLstIndex.eq_def]
    simp only [ho]
    cases lafi <;> dsimp only <;> split_ifs <;> exact ⟨_, rfl⟩

theorem mappingHasLocator_of_not_mem (h : WellFormedLists m.locatorsLists) (hx : x.ptr ∉ m.ptrs) :
    mappingHasLocator m x = .ok false := by
  obtain ⟨o, ho⟩ := loctLstIndex_ok (lispAddrLafi x.addr) (lispAddrIpAfi x.addr)
    (lispAddrLcafType x.addr) fun l hl => (h.lists l hl).nonempty
  cases hhas : mappingHasLocator m x with
  | error e =>
    rw [mappingHasLocator, mappingGetLoctLstWithAddrType, ho] at hhas
    cases o <;> cases hhas
  | ok b =>
    cases b with
    | false => rfl
    | true => exact absurd (mappingHasLocator_mem hhas) hx

/-- The pointer to a locator of a local mapping leads to it. -/
theorem derefLocalLocator_of_owns (hs : OneOwner s)
    (hml : s.mles.cell mle = some ml) (hp : p ∈ ml.mapping.ptrs) :
    ∃ loct ∈ ml.mapping.locators, loct.ptr = p ∧ (derefLocalLocator p).run s = .ok (loct, s) := by
  obtain ⟨x, hx, hxp⟩ := mem_map.mp hp
  have hfind : (ml.mapping.locators.find? (·.ptr = p)).isSome :=
    find?_isSome.mpr ⟨x, hx, by simpa using hxp⟩
  obtain ⟨y, hy⟩ := Option.isSome_iff_exists.mp hfind
  have hmem : y ∈ (mlesWithLocator s p).filterMap fun l =>
      (s.mles.cell l).bind fun e => e.mapping.locators.find? (·.ptr = p) :=
    mem_filterMap.mpr ⟨mle, mem_mlesWithLocator.mpr ⟨ml, hml, hp⟩, by simp [hml, hy]⟩
  cases hhead : ((mlesWithLocator s p).filterMap fun l =>
      (s.mles.cell l).bind fun e => e.mapping.locators.find? (·.ptr = p)).head? with
  | none =>
    rw [head?_eq_none_iff.mp hhead] at hmem
    cases hmem
  | some loct =>
    have hrun : (derefLocalLocator p).run s = .ok (loct, s) := by
      rw [derefLocalLocator, get_bind_ok, ofOption_ok]
      exact ⟨by rw [hhead, Option.some_or], rfl⟩
    obtain ⟨-, hptr, ⟨l, ml', hml', hloct⟩ | hnone⟩ := derefLocalLocator_eq hrun
    rotate_left
    · rw [hnone] at hmem
      cases hmem
    obtain rfl : l = mle := hs l mle ml' ml p hml' hml (hptr ▸ mem_map_of_mem hloct) hp
    cases hml.symm.trans hml'
    exact ⟨loct, hloct, hptr, hrun⟩

/-- The search through the stored entries stops at the owner. -/
theorem mleContaining_of_owns {loct : Locator} (hs : OwnersDistinct s)
    (hml : s.mles.cell mle = some ml) (hloct : loct ∈ ml.mapping.locators) :
    ∀ {l : List Nat}, (∀ e ∈ l, ∃ ml, s.mles.cell e = some ml) → mle ∈ l →
      mleContaining s loct l = .ok (some mle)
  | [], _, hmem => by cases hmem
  | e :: l, halive, hmem => by
    obtain ⟨ml', hml'⟩ := halive e (by simp)
    rw [mleContaining, hml']
    by_cases heq : e = mle
    · subst heq
      cases hml.symm.trans hml'
      simp only [mappingHasLocator_of_mem (hs.formed _ _ hml) hloct]
      rfl
    · have hnot : loct.ptr ∉ ml'.mapping.ptrs := fun hp =>
        heq (hs.owners e mle ml' ml _ hml' hml hp (mem_map_of_mem hloct))
      simp only [mappingHasLocator_of_not_mem (hs.formed _ _ hml') hnot]
      exact mleContaining_of_owns hs hml hloct (fun e' he' => halive e' (by simp [he']))
        ((mem_cons.mp hmem).resolve_left (Ne.symm heq))

theorem getMapLocEntContainingLoctPtr_of_owns (hs : OwnersDistinct s) (h : Owns s mle p) :
    (getMapLocEntContainingLoctPtr p).run s = .ok (some mle, s) := by
  obtain ⟨hmem, ml, hml, hp⟩ := h
  obtain ⟨loct, hloct, -, hder⟩ := derefLocalLocator_of_owns hs.owners hml hp
  rw [getMapLocEntContainingLoctPtr, bind_run hder, get_bind_ok, lift_ok]
  exact ⟨mleContaining_of_owns hs hml hloct hs.stored hmem, rfl⟩

theorem OwnersDistinct.unique {mle' : Nat} (hs : OwnersDistinct s) (h : Owns s mle p)
    (h' : Owns s mle' p) : mle = mle' := by
  obtain ⟨-, ml, hml, hp⟩ := h
  obtain ⟨-, ml', hml', hp'⟩ := h'
  exact hs.owners mle mle' ml ml' p hml hml' hp hp'

/-! ## The loops of a round -/

/-- The owners of some locators are added to the list, each once. -/
theorem addMlesToSmr_spec (hs : OwnersDistinct s) : ∀ (locs : List Nat) {acc : List Nat},
    (∀ p ∈ locs, ∃ mle, Owns s mle p) → acc.Nodup →
      ∃ acc', (addMlesToSmr acc locs).run s = .ok (acc', s) ∧ acc'.Nodup ∧
        ∀ mle, mle ∈ acc' ↔ mle ∈ acc ∨ ∃ p ∈ locs, Owns s mle p
  | [], acc, _, hacc => ⟨acc, rfl, hacc, by simp⟩
  | p :: locs, acc, howned, hacc => by
    obtain ⟨e, he⟩ := howned p (by simp)
    have hnodup : (if e ∈ acc then acc else e :: acc).Nodup := by
      split_ifs with hmem
      · exact hacc
      · exact nodup_cons.mpr ⟨hmem, hacc⟩
    obtain ⟨acc', hrun, hacc', hmem'⟩ := addMlesToSmr_spec hs locs
      (fun q hq => howned q (mem_cons_of_mem _ hq)) hnodup
    refine ⟨acc', ?_, hacc', fun mle => ?_⟩
    · rw [addMlesToSmr, bind_run (getMapLocEntContainingLoctPtr_of_owns hs he)]
      exact hrun
    · have hfirst : mle ∈ (if e ∈ acc then acc else e :: acc) ↔ mle ∈ acc ∨ Owns s mle p := by
        have hiff : Owns s mle p ↔ mle = e := ⟨fun h => hs.unique h he, fun h => h ▸ he⟩
        rw [hiff]
        split_ifs with hin
        · exact ⟨.inl, fun h => h.elim id fun heq => heq ▸ hin⟩
        · rw [mem_cons, or_comm]
      rw [hmem', hfirst, or_assoc]
      simp

/-- The locators of an interface that is marked as changed. -/
def IfaceLocators.changed (i : IfaceLocators) : List Nat :=
  (if i.statusChanged ∨ i.ipv4PrevAddr.isSome then i.ipv4Locators else []) ++
    if i.statusChanged ∨ i.ipv6PrevAddr.isSome then i.ipv6Locators else []

/-- The lists of one interface more are its own or those of interfaces before it. -/
theorem mem_affectedLocators (acc : List Nat × List Nat) (i : IfaceLocators) :
    (∀ p ∈ i.changed, p ∈ (affectedLocators acc i).1 ++ (affectedLocators acc i).2) ∧
      ∀ p ∈ (affectedLocators acc i).1 ++ (affectedLocators acc i).2,
        p ∈ i.changed ∨ p ∈ acc.1 ++ acc.2 := by
  simp only [IfaceLocators.changed, affectedLocators, mem_append]
  constructor
  · split_ifs <;> simp_all
  · split_ifs <;> simp_all <;> tauto

/-- Forget the changes of an interface. -/
def IfaceLocators.announce (i : IfaceLocators) : IfaceLocators :=
  { i with statusChanged := false, ipv4PrevAddr := none, ipv6PrevAddr := none }

/-- Forget the changes of the interfaces with these names. -/
def announceAll (names : List String) (table : List IfaceLocators) : List IfaceLocators :=
  table.map fun i => if i.ifaceName ∈ names then i.announce else i

theorem announceAll_cons (name : String) (names : List String) (table : List IfaceLocators) :
    announceAll names (announceAll [name] table) = announceAll (name :: names) table := by
  simp only [announceAll, map_map]
  refine map_congr_left fun i _ => ?_
  by_cases hi : i.ifaceName = name
  · simp [hi, IfaceLocators.announce]
  · simp [hi]

theorem mem_of_mem_changed {i : IfaceLocators} (h : p ∈ i.changed) :
    p ∈ i.ipv4Locators ++ i.ipv6Locators := by
  simp only [IfaceLocators.changed, mem_append] at h ⊢
  refine h.imp (fun h => ?_) fun h => ?_
  all_goals
    split_ifs at h
    · exact h
    · cases h

theorem OwnersDistinct.of_table (hs : OwnersDistinct s) (table : List IfaceLocators) :
    OwnersDistinct { s with ifaceLocatorsTable := table } :=
  ⟨hs.formed, hs.owners, hs.stored⟩

/-- The loop over the interfaces collects the owners of the changed locators and forgets the
changes. The lists of an interface before the current one are searched again, for owners that are in
the list already. -/
theorem mlesToSmr_spec : ∀ (l : List IfaceLocators) (affected : List Nat × List Nat)
    {acc : List Nat}
    {s : Xtr R}, OwnersDistinct s →
      (∀ i ∈ l, ∀ p ∈ i.ipv4Locators ++ i.ipv6Locators, ∃ mle, Owns s mle p) →
      (∀ p ∈ affected.1 ++ affected.2, ∃ mle ∈ acc, Owns s mle p) → acc.Nodup →
        ∃ acc', (mlesToSmr affected acc l).run s = .ok (acc',
            { s with
              ifaceLocatorsTable := announceAll (l.map (·.ifaceName)) s.ifaceLocatorsTable }) ∧
          acc'.Nodup ∧ ∀ mle, mle ∈ acc' ↔ mle ∈ acc ∨ ∃ i ∈ l, ∃ p ∈ i.changed, Owns s mle p
  | [], _, acc, s, _, _, _, hacc => ⟨acc, by simp [mlesToSmr, announceAll], hacc, by simp⟩
  | i :: l, affected, acc, s, hs, howned, hcarry, hacc => by
    obtain ⟨hchanged, haffected⟩ := mem_affectedLocators affected i
    have hs1 := hs.of_table (announceAll [i.ifaceName] s.ifaceLocatorsTable)
    have hown : ∀ p ∈ (affectedLocators affected i).1 ++ (affectedLocators affected i).2,
        ∃ mle, Owns s mle p := by
      intro p hp
      obtain hp | hp := haffected p hp
      · exact howned i (by simp) p (mem_of_mem_changed hp)
      · obtain ⟨mle, -, h⟩ := hcarry p hp
        exact ⟨mle, h⟩
    obtain ⟨acc1, hrun1, hacc1, hmem1⟩ := addMlesToSmr_spec hs1 _ hown hacc
    obtain ⟨acc', hrun, hacc', hmem⟩ := mlesToSmr_spec l
      (affectedLocators affected i) hs1 (fun j hj => howned j (mem_cons_of_mem _ hj))
      (fun p hp => by
        obtain ⟨mle, h⟩ := hown p hp
        exact ⟨mle, (hmem1 mle).mpr (.inr ⟨p, hp, h⟩), h⟩) hacc1
    have hmod : (modifyIface i.ifaceName IfaceLocators.announce).run s =
        .ok (⟨⟩,
          { s with ifaceLocatorsTable := announceAll [i.ifaceName] s.ifaceLocatorsTable }) := by
      simp [modifyIface, announceAll]
    refine ⟨acc', ?_, hacc', fun mle => ?_⟩
    · rw [mlesToSmr, map_cons, ← announceAll_cons]
      exact (bind_run hmod _).trans ((bind_run hrun1 _).trans hrun)
    · have hfirst : (mle ∈ acc ∨ ∃ p ∈ (affectedLocators affected i).1 ++
          (affectedLocators affected i).2, Owns s mle p) ↔
            mle ∈ acc ∨ ∃ p ∈ i.changed, Owns s mle p := by
        constructor
        · rintro (h | ⟨p, hp, h⟩)
          · exact .inl h
          · obtain hp | hp := haffected p hp
            · exact .inr ⟨p, hp, h⟩
            · obtain ⟨e, he, hep⟩ := hcarry p hp
              exact .inl (hs.unique h hep ▸ he)
        · exact Or.imp_right (.imp fun p h => ⟨hchanged p h.1, h.2⟩)
      rw [hmem, hmem1]
      refine (or_congr_left hfirst).trans ?_
      rw [or_assoc]
      simp only [mem_cons, exists_eq_or_imp]
      exact Iff.rfl

end Owners

/-! ## What changes the marks -/

section Marks

variable {R F : Type} {W : World R F} {env : CtrlEnv} {s s' : Xtr R} {mle loc : Nat} {a : IpAddr}
  {u : Unit} {ifl : IfaceLocators} {s2 : Xtr R}

/-- What the record of an interface says of its changes. -/
def IfaceLocators.marks (i : IfaceLocators) : String × Bool × Option LispAddr × Option LispAddr :=
  (i.ifaceName, i.statusChanged, i.ipv4PrevAddr, i.ipv6PrevAddr)

/-- The marks of the interfaces. -/
def Xtr.marks (s : Xtr R) : List (String × Bool × Option LispAddr × Option LispAddr) :=
  s.ifaceLocatorsTable.map IfaceLocators.marks

/-- The marks are the same. -/
def SameMarks (s s' : Xtr R) : Prop :=
  s'.marks = s.marks

theorem SameMarks.refl (s : Xtr R) : SameMarks s s :=
  rfl

theorem SameMarks.trans (s₁ s2 s3 : Xtr R) (h : SameMarks s₁ s2) (h' : SameMarks s2 s3) :
    SameMarks s₁ s3 :=
  Eq.trans h' h

theorem SameMarks.of_table (h : s'.ifaceLocatorsTable = s.ifaceLocatorsTable) : SameMarks s s' := by
  rw [SameMarks, Xtr.marks, h, Xtr.marks]

/-- `SameMarks` is kept by the code about the local mappings. -/
theorem sameMarks_rule (s0 : Xtr R) : WriteRule W (fun _ => False) (SameMarks s0) where
  policy _ _ _ := .of_forall fun _ _ => trivial
  touch _ h _ := h
  write _ h := h
  lose h := h
  unattach loc h := .of_modify (by
    split
    · exact h
    · refine Eq.trans ?_ h
      simp only [Xtr.marks, map_map]
      refine map_congr_left fun i _ => ?_
      simp only [Function.comp_apply]
      split_ifs <;> rfl)

theorem sortEntries_marks {entries : List Nat} : Stays SameMarks s (sortEntries a entries) :=
  fun _ _ h => sortEntries_keeps (I := fun _ => SameMarks s) (fun hx _ _ => hx) (.refl s) h

theorem ifEventEnd_marks : Stays SameMarks s (ifEventEnd W env) :=
  Keeps.stays ((sameMarks_rule s).ifEventEnd_keeps (fun h => .of_forall fun _ hx =>
    ⟨trivial, h.trans _ _ _ (.of_table (by rw [programSmr_eq hx]))⟩) (.refl s))

/-- The records with one of the names after a change of their marks, in between two parts that
change none. -/
theorem modifyIface_marks {s₁ s2 : Xtr R} {name : String} {f : IfaceLocators → IfaceLocators}
    (hf : ∀ i j : IfaceLocators, i.marks = j.marks → (f i).marks = (f j).marks)
    (h₁ : SameMarks s s₁) (h : (modifyIface name f).run s₁ = .ok (u, s2)) (h₂ : SameMarks s2 s') :
    ∀ i' ∈ s'.ifaceLocatorsTable, ∃ i ∈ s.ifaceLocatorsTable,
      i'.marks = (if i.ifaceName = name then f i else i).marks := by
  have hmem : ∀ {x x' : Xtr R}, SameMarks x x' → ∀ i' ∈ x'.ifaceLocatorsTable,
      ∃ i ∈ x.ifaceLocatorsTable, i.marks = i'.marks := by
    intro x x' hx i' hi'
    have hm : i'.marks ∈ x'.marks := mem_map_of_mem hi'
    rw [hx] at hm
    exact mem_map.mp hm
  obtain ⟨-, rfl⟩ := h
  intro i' hi'
  obtain ⟨i2, hi2, heq2⟩ := hmem h₂ i' hi'
  obtain ⟨i1, hi1, rfl⟩ := mem_map.mp hi2
  obtain ⟨i, hi, heq⟩ := hmem h₁ i1 hi1
  have hname : i.ifaceName = i1.ifaceName := congrArg Prod.fst heq
  refine ⟨i, hi, heq2.symm.trans ?_⟩
  rw [hname]
  split_ifs
  · exact hf i1 i heq.symm
  · exact heq.symm

theorem ifEventAddress_marks {afi : Af} {oldAddr : Option LispAddr}
    (h : (ifEventAddress W env ifl afi oldAddr (.ip a)).run s = .ok (u, s2))
    (hend : (ifEventEnd W env).run s2 = .ok (ret, s')) :
    ∀ i' ∈ s'.ifaceLocatorsTable, ∃ i ∈ s.ifaceLocatorsTable, i'.marks =
      (if i.ifaceName = ifl.ifaceName then i.setPrevAddr afi oldAddr (.ip a) else i).marks := by
  obtain ⟨s1, s2, h1, h2, h3⟩ := ifEventAddress_parts h
  refine modifyIface_marks (fun i j hij => ?_)
    (Keeps.stays (.forM (fun loc _ _ hx => (sameMarks_rule s).ifEventLocator_keeps hx _ loc)
      (.refl s)) _ _ h1) h2
    ((sortEntries_marks _ _ h3).trans _ _ _ (ifEventEnd_marks _ _ hend))
  simp only [IfaceLocators.marks, Prod.mk.injEq] at hij
  obtain ⟨hname, hstatus, h4, h6⟩ := hij
  cases afi <;> simp [IfaceLocators.setPrevAddr, IfaceLocators.marks, hname, hstatus, h4, h6]

/-- A new status turns the flag of the interface over. -/
theorem ifEventStatus_marks (h : (ifEventStatus W env ifl status).run s = .ok (u, s2))
    (hend : (ifEventEnd W env).run s2 = .ok (ret, s')) :
    ∀ i' ∈ s'.ifaceLocatorsTable, ∃ i ∈ s.ifaceLocatorsTable, i'.marks =
      (if i.ifaceName = ifl.ifaceName then { i with statusChanged := !i.statusChanged }
        else i).marks := by
  simp only [ifEventStatus, bind_ok] at h
  obtain ⟨_, s1, h1, _, s2, h2, h3⟩ := h
  have hlocs : SameMarks s s1 :=
    Keeps.stays (.forM (fun loc _ _ hx =>
      (sameMarks_rule (W := W) s).updateLocalLocator_keeps hx loc _) (.refl s)) _ _ h1
  have hmles : SameMarks s2 _ :=
    Keeps.stays (.forM (fun mle _ _ hx => (sameMarks_rule s2).updatedMapLocInf_keeps hx mle)
      (.refl s2)) _ _ h3
  refine modifyIface_marks (f := fun i => { i with statusChanged := !i.statusChanged })
    (fun i j hij => ?_) hlocs h2 (hmles.trans _ _ _ (ifEventEnd_marks _ _ hend))
  simp only [IfaceLocators.marks, Prod.mk.injEq] at hij ⊢
  exact ⟨hij.1, by rw [hij.2.1], hij.2.2⟩

end Marks

/-! ## Rounds and events -/

/-- An interface of the system. -/
structure IfaceState where
  ipv4 : Option (BitVec 32)
  ipv6 : Option (BitVec 128)
  status : LinkState
deriving DecidableEq

namespace IfaceState

/-- The address of a family. -/
def addr (i : IfaceState) : Af → Option IpAddr
  | .INET => i.ipv4.map .v4
  | .INET6 => i.ipv6.map .v6

/-- The interface with a new address. -/
def setAddr (i : IfaceState) : IpAddr → IfaceState
  | .v4 a => { i with ipv4 := some a }
  | .v6 a => { i with ipv6 := some a }

/-- The interface with the other status. -/
def turn (i : IfaceState) : IfaceState :=
  { i with status := match i.status with
      | .DOWN => .UP
      | .UP => .DOWN }

end IfaceState

/-- A router, the interfaces of its system, and what they were at the last round. -/
structure Announcer where
  xtr : FbXtr
  ifaces : String → IfaceState
  announced : String → Option IfaceState

/-- An event of an interface, or the SMR timer. -/
inductive SmrEvent where
  | address (ifaceName : String) (addr : IpAddr) (env : CtrlEnv)
  | status (ifaceName : String) (env : CtrlEnv)
  | round

section Rounds

variable (W : FbWorld)

/-- One step. An address event starts from the address the interface has, and a status event changes
its status. -/
def smrStep : SmrEvent → Prog Fault Announcer Unit
  | .address ifaceName addr env => do
    let w ← get
    let i := w.ifaces ifaceName
    let (_, s) ← Prog.lift ((xtrIfEvent W env ifaceName ((i.addr (ipAddrAfi addr)).map .ip)
      (some (.ip addr)) i.status).run w.xtr)
    set { w with xtr := s, ifaces := Function.update w.ifaces ifaceName (i.setAddr addr) }
  | .status ifaceName env => do
    let w ← get
    let i := (w.ifaces ifaceName).turn
    let (_, s) ← Prog.lift ((xtrIfEvent W env ifaceName none none i.status).run w.xtr)
    set { w with xtr := s, ifaces := Function.update w.ifaces ifaceName i }
  | .round => do
    let w ← get
    let (_, s) ← Prog.lift ((sendAllSmrAndReg W).run w.xtr)
    set { w with xtr := s, announced := fun name => some (w.ifaces name) }

end Rounds

/-- The interface is new, or its status or its address of the family is not what it was at the last
round. -/
def Differs (w : Announcer) (ifaceName : String) (afi : Af) : Prop :=
  match w.announced ifaceName with
  | none => True
  | some i => i.status ≠ (w.ifaces ifaceName).status ∨
      i.addr afi ≠ (w.ifaces ifaceName).addr afi

instance (w : Announcer) (ifaceName : String) (afi : Af) : Decidable (Differs w ifaceName afi) := by
  unfold Differs
  split <;> infer_instance

/-- The local entry is stored and has a locator on an interface that differs. -/
def HasChanged (w : Announcer) (mle : Nat) : Prop :=
  ∃ p ifaceName afi, Owns w.xtr mle p ∧ (p, ifaceName, afi) ∈ w.xtr.attachments ∧
    Differs w ifaceName afi

/-- The router as it is configured: its mappings are well formed, every locator on an interface
belongs to one of them, and the interfaces are new, as `iface_locators_new` leaves them. -/
@[mk_iff] structure SmrStart (w : Announcer) : Prop where
  formed : ∀ l ml, w.xtr.mles.cell l = some ml → WellFormed ml.mapping
  owners : OneOwner w.xtr
  stored : ∀ mle ∈ mdbForeachEntry w.xtr.localMdb, ∃ ml, w.xtr.mles.cell mle = some ml
  attached : (w.xtr.attachments.map (·.1)).Nodup
  owned : ∀ x ∈ w.xtr.attachments, ∃ mle, Owns w.xtr mle x.1
  marked : ∀ i ∈ w.xtr.ifaceLocatorsTable, i.statusChanged = true
  unannounced : ∀ i ∈ w.xtr.ifaceLocatorsTable, w.announced i.ifaceName = none

instance (w : Announcer) : Decidable (SmrStart w) :=
  decidable_of_iff ((w.xtr.mles.All fun _ ml => WellFormed ml.mapping) ∧ OneOwner w.xtr ∧
      (∀ mle ∈ mdbForeachEntry w.xtr.localMdb, (w.xtr.mles.cell mle).isSome) ∧
      (w.xtr.attachments.map (·.1)).Nodup ∧
      (∀ x ∈ w.xtr.attachments, ∃ mle ∈ mdbForeachEntry w.xtr.localMdb, Owns w.xtr mle x.1) ∧
      ∀ i ∈ w.xtr.ifaceLocatorsTable, i.statusChanged = true ∧ w.announced i.ifaceName = none) <| by
    have howned : ∀ {p}, (∃ mle ∈ mdbForeachEntry w.xtr.localMdb, Owns w.xtr mle p) ↔
        ∃ mle, Owns w.xtr mle p := by simp [Owns]
    simp only [smrStart_iff, Option.isSome_iff_exists, forall_and, howned]
    rfl

/-- The condition on a step: an address event keeps the lists of the mappings well formed, and a
status event is about an interface that was announced before. -/
def SmrKept (w : Announcer) : SmrEvent → Prop
  | .address ifaceName addr _ => IfEventSettles w.xtr ifaceName (some (.ip addr))
  | .status ifaceName _ => w.announced ifaceName ≠ none
  | .round => True

instance (w : Announcer) (ev : SmrEvent) : Decidable (SmrKept w ev) := by
  unfold SmrKept
  split <;> infer_instance

/-! ## The marks and the changes -/

/-- The address before the first change since a round. -/
def changedFrom (old cur : Option IpAddr) : Option LispAddr :=
  if old = cur then none else some ((old.map .ip).getD .noAddr)

theorem changedFrom_isSome_iff : (changedFrom old cur).isSome ↔ old ≠ cur := by
  rw [changedFrom]
  split_ifs with h <;> simp [h]

theorem lispAddrCmp_ip_eq_zero_iff {a b : IpAddr} : lispAddrCmp (.ip a) (.ip b) = 0 ↔ a = b :=
  ipAddrCmp_eq_zero_iff a b

/-- The transition check keeps the address of the last round, until the interface is back at it. -/
theorem prevAddrAfter_changedFrom {a : IpAddr} (hne : cur ≠ some a) :
    prevAddrAfter (changedFrom old cur) (cur.map .ip) (.ip a) = changedFrom old (some a) := by
  by_cases hold : old = cur
  · rw [hold, changedFrom, if_pos rfl, changedFrom, if_neg hne]
    rfl
  · rw [changedFrom, if_neg hold, changedFrom, prevAddrAfter]
    cases old with
    | none => simp [lispAddrCmp]
    | some b =>
      simp only [Option.map_some, Option.getD_some, lispAddrCmp_ip_eq_zero_iff, Option.some.injEq]

/-- The address of a family before the changes since the last round. -/
def IfaceLocators.prevAddr (i : IfaceLocators) : Af → Option LispAddr
  | .INET => i.ipv4PrevAddr
  | .INET6 => i.ipv6PrevAddr

theorem prevAddr_setPrevAddr {afi afi' : Af} {old : Option LispAddr} {new : LispAddr} :
    (i.setPrevAddr afi old new).prevAddr afi' =
      if afi' = afi then prevAddrAfter (i.prevAddr afi') old new else i.prevAddr afi' := by
  cases afi <;> cases afi' <;> rfl

theorem mem_changed : p ∈ i.changed ↔
    ∃ afi, p ∈ i.ofFamily afi ∧ (i.statusChanged ∨ (i.prevAddr afi).isSome) := by
  simp only [IfaceLocators.changed, mem_append]
  constructor
  · rintro (h | h)
    · split_ifs at h with hmark
      · exact ⟨.INET, h, hmark⟩
      · cases h
    · split_ifs at h with hmark
      · exact ⟨.INET6, h, hmark⟩
      · cases h
  · rintro ⟨afi, hp, hmark⟩
    cases afi with
    | INET =>
      rw [if_pos (show i.statusChanged ∨ i.ipv4PrevAddr.isSome from hmark)]
      exact .inl hp
    | INET6 =>
      rw [if_pos (show i.statusChanged ∨ i.ipv6PrevAddr.isSome from hmark)]
      exact .inr hp

/-- The record of an interface says how it differs from what it was at the last round. A new one
passes for one whose status has changed. -/
def Marked (w : Announcer) (i : IfaceLocators) : Prop :=
  match w.announced i.ifaceName with
  | none => i.statusChanged = true
  | some v => (i.statusChanged = true ↔ v.status ≠ (w.ifaces i.ifaceName).status) ∧
      ∀ afi, i.prevAddr afi = changedFrom (v.addr afi) ((w.ifaces i.ifaceName).addr afi)

/-- The locators the next round takes from a record are those of the families that differ. -/
theorem Marked.mem_changed_iff (h : Marked w i) :
    p ∈ i.changed ↔ ∃ afi, p ∈ i.ofFamily afi ∧ Differs w i.ifaceName afi := by
  rw [mem_changed]
  refine exists_congr fun afi => and_congr_right fun _ => ?_
  rw [Marked] at h
  rw [Differs]
  cases hv : w.announced i.ifaceName with
  | none =>
    rw [hv] at h
    simp [show i.statusChanged = true from h]
  | some v =>
    rw [hv] at h
    rw [h.1, h.2 afi, changedFrom_isSome_iff]

theorem Marked.of_marks {i i' : IfaceLocators} (h : Marked w i)
    (hmarks : i'.marks = i.marks) : Marked w i' := by
  simp only [IfaceLocators.marks, Prod.mk.injEq] at hmarks
  obtain ⟨hname, hstatus, h4, h6⟩ := hmarks
  have hprev : ∀ afi, i'.prevAddr afi = i.prevAddr afi := by
    intro afi
    cases afi with
    | INET => exact h4
    | INET6 => exact h6
  rw [Marked] at h ⊢
  simpa only [hname, hstatus, hprev] using h

theorem ifaceState_setAddr (i : IfaceState) (a : IpAddr) (afi : Af) :
    (i.setAddr a).addr afi = if afi = ipAddrAfi a then some a else i.addr afi := by
  cases a <;> cases afi <;> rfl

/-- What holds in every state of a run. -/
structure Tracked (w : Announcer) : Prop where
  formed : Formed w.xtr
  links : LinksDistinct w.xtr
  stored : ∀ mle ∈ mdbForeachEntry w.xtr.localMdb, ∃ ml, w.xtr.mles.cell mle = some ml
  owned : ∀ x ∈ w.xtr.attachments, ∃ mle, Owns w.xtr mle x.1
  marks : ∀ i ∈ w.xtr.ifaceLocatorsTable, Marked w i

section Tracked

variable {W : FbWorld} {w' : Announcer} {env : CtrlEnv}
  {ifaceName : String} {s' : FbXtr} {a : IpAddr} {u : Unit}
  {gone : List Nat} {R : Type}

theorem SmrStart.tracked (h : SmrStart w) : Tracked w := by
  refine ⟨fun l ml hl =>
    wellFormed_iff_lists.mp (h.formed l ml hl), ⟨h.attached, h.owners⟩, h.stored,
    h.owned, fun i hi => ?_⟩
  rw [Marked, h.unannounced i hi]
  exact h.marked i hi

/-- An event leaves the attached locators with their owners. -/
theorem Detached.owned {s s' : Xtr R} (h : Detached gone s s')
    (hs : ∀ x ∈ s.attachments, ∃ mle, Owns s mle x.1) :
    ∀ x ∈ s'.attachments, ∃ mle, Owns s' mle x.1 := by
  intro x hx
  rw [h.attachments, mem_filter] at hx
  obtain ⟨mle, hmem, ml, hml, hp⟩ := hs x hx.1
  obtain ⟨ml', hml', hptrs⟩ := h.kept mle ml hml
  exact ⟨mle, h.localMdb ▸ hmem, ml', hml', (hptrs _).mpr ⟨hp, by simpa using hx.2⟩⟩

theorem Detached.stored {s s' : Xtr R} (h : Detached gone s s')
    (hs : ∀ mle ∈ mdbForeachEntry s.localMdb, ∃ ml, s.mles.cell mle = some ml) :
    ∀ mle ∈ mdbForeachEntry s'.localMdb, ∃ ml, s'.mles.cell mle = some ml := by
  intro mle hmem
  rw [h.localMdb] at hmem
  obtain ⟨ml, hml⟩ := hs mle hmem
  obtain ⟨ml', hml', -⟩ := h.kept mle ml hml
  exact ⟨ml', hml'⟩

/-- An event of an interface keeps everything but the marks, whatever becomes of them. -/
theorem Tracked.ifEvent {oldAddr newAddr : Option LispAddr}
    {ifaces : String → IfaceState} (h : Tracked w) (hs : IfEventSettles w.xtr ifaceName newAddr)
    (hrun : (xtrIfEvent W env ifaceName oldAddr newAddr status).run w.xtr = .ok (ret, s'))
    (hmarks : ∀ i ∈ s'.ifaceLocatorsTable, Marked { w with xtr := s', ifaces := ifaces } i) :
    Tracked { w with xtr := s', ifaces := ifaces } := by
  obtain ⟨gone, hd⟩ := xtrIfEvent_detached (fun _ _ => h.formed) h.links hs hrun
  exact ⟨xtrIfEvent_formed h.formed hs hrun, hd.distinct h.links, hd.stored h.stored,
    hd.owned h.owned, hmarks⟩

theorem Marked.of_other {v : IfaceState} (h : Marked w i) (hne : i.ifaceName ≠ ifaceName) :
    Marked { w with xtr := s', ifaces := Function.update w.ifaces ifaceName v } i := by
  rw [Marked] at h ⊢
  simpa only [Function.update_of_ne hne] using h

theorem setAddr_self {i : IfaceState} (h : i.addr (ipAddrAfi a) = some a) : i.setAddr a = i := by
  cases a with
  | v4 a =>
    have h4 : i.ipv4 = some a := by simpa [IfaceState.addr, ipAddrAfi] using h
    simp only [IfaceState.setAddr, ← h4]
  | v6 a =>
    have h6 : i.ipv6 = some a := by simpa [IfaceState.addr, ipAddrAfi] using h
    simp only [IfaceState.setAddr, ← h6]

/-- The comparison of the address before an event with the one after it. -/
theorem event_unchanged_iff {cur : Option IpAddr} :
    (cur.map LispAddr.ip).map (lispAddrCmp · (.ip a)) = some 0 ↔ cur = some a := by
  cases cur with
  | none => simp
  | some b => simp [lispAddrCmp_ip_eq_zero_iff]

theorem Marked.setPrevAddr (h : Marked w i)
    (hne : (w.ifaces i.ifaceName).addr (ipAddrAfi a) ≠ some a) :
    Marked { w with
        xtr := s'
        ifaces := Function.update w.ifaces i.ifaceName ((w.ifaces i.ifaceName).setAddr a) }
      (i.setPrevAddr (ipAddrAfi a) (((w.ifaces i.ifaceName).addr (ipAddrAfi a)).map .ip)
        (.ip a)) := by
  have hname : ∀ old new, (i.setPrevAddr (ipAddrAfi a) old new).ifaceName = i.ifaceName := by
    intro old new
    cases ipAddrAfi a <;> rfl
  have hstatus : ∀ old new,
      (i.setPrevAddr (ipAddrAfi a) old new).statusChanged = i.statusChanged := by
    intro old new
    cases ipAddrAfi a <;> rfl
  have hup : ((w.ifaces i.ifaceName).setAddr a).status = (w.ifaces i.ifaceName).status := by
    cases a <;> rfl
  rw [Marked] at h ⊢
  simp only [hname, hstatus, Function.update_self, hup]
  cases hv : w.announced i.ifaceName with
  | none =>
    rw [hv] at h
    exact h
  | some v =>
    rw [hv] at h
    refine ⟨h.1, fun afi => ?_⟩
    rw [prevAddr_setPrevAddr, ifaceState_setAddr, h.2 afi]
    split_ifs with hafi
    · rw [hafi]
      exact prevAddrAfter_changedFrom hne
    · rfl

/-- A new status is marked, unless the interface is new. -/
theorem Marked.turn (h : Marked w i) (hann : w.announced i.ifaceName ≠ none) :
    Marked { w with
        xtr := s'
        ifaces := Function.update w.ifaces i.ifaceName (w.ifaces i.ifaceName).turn }
      { i with statusChanged := !i.statusChanged } := by
  rw [Marked] at h ⊢
  simp only [Function.update_self]
  cases hv : w.announced i.ifaceName with
  | none => exact absurd hv hann
  | some v =>
    rw [hv] at h
    refine ⟨?_, h.2⟩
    cases hs : i.statusChanged <;> cases hvs :
      v.status <;> cases hcs : (w.ifaces i.ifaceName).status <;>
      simp_all [IfaceState.turn]

theorem smrStep_address (h : Tracked w) (hok : SmrKept w (.address ifaceName a env))
    (hrun : (smrStep W (.address ifaceName a env)).run w = .ok (u, w')) : Tracked w' := by
  rw [smrStep, get_bind_ok] at hrun
  simp only [bind_ok, lift_ok, set_ok] at hrun
  obtain ⟨⟨ret, s'⟩, w, ⟨hev, rfl⟩, -, rfl⟩ := hrun
  refine h.ifEvent hok hev ?_
  have hcases := xtrIfEvent_cases hev
  cases hcases with
  | unknown hfind =>
    refine fun i hi => (h.marks i hi).of_other ?_
    simpa using find?_eq_none.mp hfind i hi
  | unchanged hnew hsame =>
    cases hnew
    rw [setAddr_self (event_unchanged_iff.mp hsame), Function.update_eq_self]
    exact h.marks
  | noIp hnew hip => cases hip
  | status hfind hnew => cases hnew
  | @address ifl b s1 _ hfind hnew hdiff hadr hend =>
    cases hnew
    have hifl : ifl.ifaceName = ifaceName := by simpa using find?_some hfind
    intro i' hi'
    obtain ⟨i, hi, hmarks⟩ := ifEventAddress_marks hadr hend i' hi'
    refine Marked.of_marks ?_ hmarks
    split_ifs with hname
    · obtain rfl := hname.trans hifl
      exact (h.marks i hi).setPrevAddr fun heq => hdiff (event_unchanged_iff.mpr heq)
    · exact (h.marks i hi).of_other fun heq => hname (heq.trans hifl.symm)

theorem smrStep_status (h : Tracked w) (hok : SmrKept w (.status ifaceName env))
    (hrun : (smrStep W (.status ifaceName env)).run w = .ok (u, w')) : Tracked w' := by
  rw [smrStep, get_bind_ok] at hrun
  simp only [bind_ok, lift_ok, set_ok] at hrun
  obtain ⟨⟨ret, s'⟩, w, ⟨hev, rfl⟩, -, rfl⟩ := hrun
  refine h.ifEvent (fun _ _ _ ha => by cases ha) hev ?_
  have hcases := xtrIfEvent_cases hev
  cases hcases with
  | unknown hfind =>
    refine fun i hi => (h.marks i hi).of_other ?_
    simpa using find?_eq_none.mp hfind i hi
  | unchanged hnew | noIp hnew | address _ hnew => cases hnew
  | @status ifl s1 _ hfind hnew hst hend =>
    have hifl : ifl.ifaceName = ifaceName := by simpa using find?_some hfind
    intro i' hi'
    obtain ⟨i, hi, hmarks⟩ := ifEventStatus_marks hst hend i' hi'
    refine Marked.of_marks ?_ hmarks
    split_ifs with hname
    · obtain rfl := hname.trans hifl
      exact (h.marks i hi).turn hok
    · exact (h.marks i hi).of_other fun heq => hname (heq.trans hifl.symm)

theorem Tracked.ownersDistinct (h : Tracked w) : OwnersDistinct w.xtr :=
  ⟨h.formed, h.links.owners, h.stored⟩

theorem Tracked.round (h : Tracked w) : ∃ mles, (getMapLocalEntryToSmr).run w.xtr =
      .ok (mles, { w.xtr with
        ifaceLocatorsTable :=
          announceAll (w.xtr.ifaceLocatorsTable.map (·.ifaceName)) w.xtr.ifaceLocatorsTable }) ∧
    mles.Nodup ∧ ∀ mle, mle ∈ mles ↔ HasChanged w mle := by
  have howned : ∀ i ∈ w.xtr.ifaceLocatorsTable, ∀ p ∈ i.ipv4Locators ++ i.ipv6Locators,
      ∃ mle, Owns w.xtr mle p := by
    intro i hi p hp
    have hmem : p ∈ w.xtr.attachments.map (·.1) := by
      rw [attachments_map_fst]
      exact mem_flatMap.mpr ⟨i, hi, hp⟩
    obtain ⟨x, hx, rfl⟩ := mem_map.mp hmem
    exact h.owned x hx
  obtain ⟨mles, hrun, hnodup, hmem⟩ := mlesToSmr_spec _ ([], []) h.ownersDistinct howned
    (fun p hp => by cases hp) nodup_nil
  refine ⟨mles, hrun, hnodup, fun mle => ?_⟩
  rw [hmem]
  constructor
  · rintro (hnil | ⟨i, hi, p, hp, hown⟩)
    · cases hnil
    · obtain ⟨afi, hp, hdiff⟩ := (h.marks i hi).mem_changed_iff.mp hp
      exact ⟨p, i.ifaceName, afi, hown, mem_flatMap.mpr ⟨i, hi,
        IfaceLocators.mem_attachments.mpr ⟨rfl, hp⟩⟩, hdiff⟩
  · rintro ⟨p, name, afi, hown, hatt, hdiff⟩
    obtain ⟨i, hi, hatt⟩ := mem_flatMap.mp hatt
    obtain ⟨rfl, hp⟩ := IfaceLocators.mem_attachments.mp hatt
    exact .inr ⟨i, hi, p, (h.marks i hi).mem_changed_iff.mpr ⟨afi, hp, hdiff⟩, hown⟩

theorem smrStep_round (h : Tracked w) (hrun : (smrStep W .round).run w = .ok (u, w')) :
    Tracked w' := by
  rw [smrStep, get_bind_ok] at hrun
  simp only [bind_ok, lift_ok, set_ok] at hrun
  obtain ⟨⟨ret, s'⟩, w, ⟨hev, rfl⟩, -, rfl⟩ := hrun
  obtain ⟨mles, hget, -⟩ := h.round
  rw [sendAllSmrAndReg, bind_run hget] at hev
  rw [(Stays.forM TimersOnly.refl TimersOnly.trans
    (fun _ _ => programMapRegisterForMapping_timersOnly) mles _ _ _ hev).rest]
  -- every record has a name of the table
  have htable : announceAll (w.xtr.ifaceLocatorsTable.map (·.ifaceName)) w.xtr.ifaceLocatorsTable =
      w.xtr.ifaceLocatorsTable.map IfaceLocators.announce :=
    map_congr_left fun i hi => if_pos (mem_map_of_mem hi)
  have hatt : (w.xtr.ifaceLocatorsTable.map IfaceLocators.announce).flatMap
      IfaceLocators.attachments = w.xtr.attachments := by
    rw [flatMap_map]
    rfl
  rw [htable]
  refine ⟨h.formed, ⟨?_, h.links.owners⟩, h.stored, ?_, ?_⟩
  · simpa only [Xtr.attachments, hatt] using h.links.attachments
  · intro x hx
    have hx' : x ∈ w.xtr.attachments := hatt ▸ hx
    exact h.owned x hx'
  · intro i' hi'
    obtain ⟨i, hi, rfl⟩ := mem_map.mp hi'
    refine ⟨by simp [IfaceLocators.announce], fun afi => ?_⟩
    rw [changedFrom, if_pos rfl]
    cases afi <;> rfl

theorem smrStep_tracked {ev : SmrEvent} (h : Tracked w) (hok : SmrKept w ev)
    (hrun : (smrStep W ev).run w = .ok (u, w')) : Tracked w' := by
  cases ev with
  | address => exact smrStep_address h hok hrun
  | status => exact smrStep_status h hok hrun
  | round => exact smrStep_round h hrun

/-- In every run of interface events and rounds whose steps all meet `SmrKept`, a round handles the
local entries with a locator on an interface that is new or differs from what it was at the last
round, each of them once. -/
theorem smr_round_exact (W : FbWorld) (w : Announcer)
    (h : Reach (smrStep W) SmrStart SmrKept w) :
    ∃ mles s', (getMapLocalEntryToSmr).run w.xtr = .ok (mles, s') ∧
      (sendAllSmrAndReg W).run w.xtr = (mles.forM (programMapRegisterForMapping W)).run s' ∧
      mles.Nodup ∧ ∀ mle, mle ∈ mles ↔ HasChanged w mle := by
  have ht : Tracked w := by
    refine Reach.invariant (I := Tracked) ?_ ?_ h
    · exact fun w hw => hw.tracked
    · exact fun w ev u w' hw hok hrun => smrStep_tracked hw hok hrun
  obtain ⟨mles, hrun, hnodup, hmem⟩ := ht.round
  exact ⟨mles, _, hrun, bind_run hrun _, hnodup, hmem⟩

end Tracked

/-! ## Two interfaces -/

/-- Two local prefixes, one on `eth0` and one on `eth1`, before the first round. -/
def labAnnouncer : Announcer where
  xtr :=
    { xtrCtrlConstruct labDevConf with
      localMdb :=
        match mdbAddEntry labConf.localMdb (.ippref (.v4 0x0b000000#32) 8) 1 with
        | .ok (_, db) => db
        | .error _ => mdbNew
      mles := (Heap.empty.alloc ⟨labLocalMapping,
        (balancingVectorsCalculate [] labLocalMapping).toOption⟩).alloc
          ⟨{ labLocalMapping with
              eidPrefix := .ippref (.v4 0x0b000000#32) 8
              locatorsLists := [[⟨2, .ip (.v4 0xc0000209#32), .UP, 1, 100, 255, 0⟩]] },
            (balancingVectorsCalculate [] labLocalMapping).toOption⟩
      ifaceLocatorsTable := [⟨"eth0", [0], [0], [], none, none, true⟩,
        ⟨"eth1", [1], [2], [], none, none, true⟩] }
  ifaces name := ⟨some (if name = "eth0" then 0xc0000201#32 else 0xc0000209#32), none, .UP⟩
  announced _ := none

theorem labAnnouncer_start : SmrStart labAnnouncer := by
  decide

/-- What can be computed of the end of a run from a start. -/
theorem smr_of_events {ok : Announcer → SmrEvent → Prop} [∀ w ev, Decidable (ok w ev)]
    {Q : Announcer → Prop} [DecidablePred Q] {w0 : Announcer} (evs : List SmrEvent)
    (h0 : SmrStart w0)
    (h : (runWhile (smrStep labFbWorld) ok evs w0).any (fun w => decide (Q w)) = true) :
    ∃ w, Reach (smrStep labFbWorld) SmrStart ok w ∧ Q w := by
  obtain ⟨w, hw, hQ⟩ := (Option.any_eq_true _ _).mp h
  exact ⟨w, Reach.runWhile evs (.start h0) hw, of_decide_eq_true hQ⟩

/-- The entries the next round handles. -/
def nextRound (w : Announcer) : Option (List Nat) :=
  ((getMapLocalEntryToSmr).run w.xtr).toOption.map (·.1)

/-- Both prefixes are announced, `eth0` gets two other addresses, and `eth1` goes down and up. The
next round is for the prefix on `eth0`. -/
theorem smr_round_exact_eth0 : ∃ w, Reach (smrStep labFbWorld) SmrStart SmrKept w ∧
    HasChanged w 0 ∧ ¬ HasChanged w 1 := by
  have hrun : ∃ w, Reach (smrStep labFbWorld) SmrStart SmrKept w ∧ nextRound w = some [0] :=
    smr_of_events [.round, .address "eth0" (.v4 0xc0000202#32) labEnv,
      .address "eth0" (.v4 0xc0000203#32) labEnv, .status "eth1" labEnv, .status "eth1" labEnv]
      labAnnouncer_start (by decide +kernel)
  obtain ⟨w, hreach, hmles⟩ := hrun
  obtain ⟨mles, s', hget, -, -, hmem⟩ := smr_round_exact labFbWorld w hreach
  rw [nextRound, hget] at hmles
  obtain rfl : mles = [0] := Option.some.inj hmles
  exact ⟨w, hreach, (hmem 0).mp (by decide), fun h => absurd ((hmem 1).mpr h) (by decide)⟩

/-- The local prefix is reached by explicit paths over `eth1` and `eth0`. -/
def labPath : Announcer :=
  { labAnnouncer with
    xtr :=
      { xtrCtrlConstruct labDevConf with
        mles := Heap.empty.alloc
          ⟨{ labLocalMapping with
              locatorsLists :=
                [[⟨2, .elp [.mk false false false (.ip (.v4 0xc0000201#32))], .UP, 1, 100, 255, 0⟩,
                  ⟨0, .elp [.mk false false false (.ip (.v4 0xc0000209#32))], .UP, 1, 100, 255, 0⟩]]
                    },
            (balancingVectorsCalculate [] labLocalMapping).toOption⟩
        ifaceLocatorsTable := [⟨"eth0", [0], [0], [], none, none, true⟩,
          ⟨"eth1", [0], [2], [], none, none, true⟩] }
    ifaces name := ⟨some (if name = "eth0" then 0xc0000209#32 else 0xc0000201#32), none, .UP⟩ }

theorem labPath_start : SmrStart labPath := by
  decide

/-- A new interface whose status changes before the first round is left out of it. A locator whose
explicit path was overwritten with the new address of its interface is not found in the list of its
kind, and its entry is left out as well. -/
theorem smr_round_missed :
    (∃ w, Reach (smrStep labFbWorld) SmrStart (fun _ _ => True) w ∧ HasChanged w 0 ∧
      nextRound w = some [1]) ∧
    ∃ w, Reach (smrStep labFbWorld) SmrStart (fun _ _ => True) w ∧ HasChanged w 0 ∧
      nextRound w = some [] := by
  have hnew : ∃ w, Reach (smrStep labFbWorld) SmrStart (fun _ _ => True) w ∧
      ((Owns w.xtr 0 0 ∧ (0, "eth0", .INET) ∈ w.xtr.attachments ∧ Differs w "eth0" .INET) ∧
        nextRound w = some [1]) :=
    smr_of_events [.status "eth0" labEnv] labAnnouncer_start (by decide +kernel)
  have hpath : ∃ w, Reach (smrStep labFbWorld) SmrStart (fun _ _ => True) w ∧
      ((Owns w.xtr 0 0 ∧ (0, "eth0", .INET) ∈ w.xtr.attachments ∧ Differs w "eth0" .INET) ∧
        nextRound w = some []) :=
    smr_of_events [.round, .address "eth0" (.v4 0xc0000205#32) labEnv] labPath_start
      (by decide +kernel)
  obtain ⟨w, hreach, hchanged, hnext⟩ := hnew
  obtain ⟨w', hreach', hchanged', hnext'⟩ := hpath
  exact ⟨⟨w, hreach, ⟨0, "eth0", .INET, hchanged⟩, hnext⟩,
    w', hreach', ⟨0, "eth0", .INET, hchanged'⟩, hnext'⟩

end Lispmob
