import Lispmob.LocalLists
import Lispmob.XtrEffects

/-!
# What an interface event does

`xtr_if_event` from the outside in. `XtrIfEvent` lists the ways the handler can return,
`ifEventAddress_eq` splits the branch for a new address into its three parts, and
`ActivatedOrDropped` lists what happens to a locator that had no address. What is proved about
interface events goes through these cases.
-/

namespace Lispmob

open Prog List

section IfEventCases

variable {R F : Type} {W : World R F} {env : CtrlEnv} {s s' : Xtr R} {loc : Nat} {a : IpAddr}
  {loct : Locator} {mle : Nat} {u : Unit} {oldAddr : Option LispAddr} {ifl : IfaceLocators}
  {m : Mapping} {afi : Af}

/-! ## Finding the entry of a locator -/

theorem mem_mlesWithLocator {l : Nat} : l ∈ mlesWithLocator s loc ↔
    ∃ ml, s.mles.cell l = some ml ∧ loc ∈ ml.mapping.ptrs := by
  simp only [mlesWithLocator, mem_filter, mem_range]
  constructor
  · rintro ⟨-, h⟩
    cases hml : s.mles.cell l with
    | none => simp [hml] at h
    | some ml =>
      simp only [hml] at h
      obtain ⟨x, hx, hxp⟩ := any_eq_true.mp h
      exact ⟨ml, rfl, mem_map.mpr ⟨x, hx, by simpa using hxp⟩⟩
  · rintro ⟨ml, hml, hp⟩
    obtain ⟨x, hx, hxp⟩ := mem_map.mp hp
    refine ⟨Heap.lt_next hml, ?_⟩
    simp only [hml]
    exact any_eq_true.mpr ⟨x, hx, by simpa using hxp⟩

/-- The locator is one of a mapping, or no mapping has it. -/
theorem derefLocalLocator_eq (h : (derefLocalLocator loc).run s = .ok (loct, s')) :
    s' = s ∧ loct.ptr = loc ∧ ((∃ l ml, s.mles.cell l = some ml ∧ loct ∈ ml.mapping.locators) ∨
      mlesWithLocator s loc = []) := by
  obtain rfl := derefLocalLocator_same _ _ h
  rw [derefLocalLocator, get_bind_ok, ofOption_ok, Option.or_eq_some_iff] at h
  obtain ⟨hhead | ⟨hnone, hlost⟩, -⟩ := h
  · obtain ⟨l, -, hl⟩ := mem_filterMap.mp (mem_of_mem_head? hhead)
    obtain ⟨ml, hml, hfind⟩ := Option.bind_eq_some_iff.mp hl
    exact ⟨rfl, by simpa using find?_some hfind, .inl ⟨l, ml, hml, mem_of_find?_eq_some hfind⟩⟩
  · refine ⟨rfl, by simpa using find?_some hlost, .inr (eq_nil_iff_forall_not_mem.mpr ?_)⟩
    intro l hl
    obtain ⟨ml, hml, hp⟩ := mem_mlesWithLocator.mp hl
    obtain ⟨x, hx, hxp⟩ := mem_map.mp hp
    have hnot := filterMap_eq_nil_iff.mp (head?_eq_none_iff.mp hnone) l hl
    rw [hml, Option.bind_some, find?_eq_none] at hnot
    exact hnot x hx (decide_eq_true hxp)

theorem mappingHasLocator_mem (h : mappingHasLocator m loct = .ok true) : loct.ptr ∈ m.ptrs := by
  obtain ⟨i, l, x, -, hget, hx, hptr⟩ := mappingHasLocator_list h
  exact hptr ▸ mem_map_of_mem (mem_flatten.mpr ⟨l, mem_of_getElem? hget, hx⟩)

/-- The entry `get_map_loc_ent_containing_loct_ptr` finds. -/
theorem mleContaining_some :
    ∀ {mles : List Nat}, mleContaining s loct mles = .ok (some mle) → mle ∈ mles ∧
      ∃ ml, s.mles.cell mle = some ml ∧ mappingHasLocator ml.mapping loct = .ok true
  | [], h => by cases h
  | l :: rest, h => by
    rw [mleContaining] at h
    cases hml : s.mles.cell l with
    | none => simp [hml] at h
    | some ml =>
      simp only [hml, except_bind_ok] at h
      obtain ⟨found, hfound, h⟩ := h
      cases found with
      | true =>
        cases except_pure_ok.mp h
        exact ⟨by simp, ml, hml, hfound⟩
      | false =>
        obtain ⟨hmem, hml'⟩ := mleContaining_some h
        exact ⟨mem_cons_of_mem _ hmem, hml'⟩

/-- The cells after a write to the mapping of an entry. -/
theorem modify_mapping_cell {h : Heap (MapLocalEntry R)} {ml : MapLocalEntry R}
    (hml : h.cell mle = some ml) (m : Mapping) (l : Nat) :
    (h.modify mle fun e => { e with mapping := m }).cell l =
      if l = mle then some { ml with mapping := m } else h.cell l := by
  rw [Heap.modify_cell]
  split_ifs
  · rw [hml, Option.map_some]
  · rfl

/-! ## A new address of one locator -/

/-- Write the mapping of a local entry. -/
def Xtr.setMapping (s : Xtr R) (mle : Nat) (m : Mapping) : Xtr R :=
  { s with mles := s.mles.modify mle fun e => { e with mapping := m } }

theorem setMleMapping_ok : (setMleMapping mle m).run s = .ok (u, s') ↔ s' = s.setMapping mle m := by
  simp [setMleMapping, Xtr.setMapping]

/-- What the address `a` does to a locator that had none: no entry has the locator, or the mapping
of its entry has the address already and the locator is dropped, or it gets the address. -/
inductive ActivatedOrDropped (W : World R F) (env : CtrlEnv) (loct : Locator) (a : IpAddr)
    (s : Xtr R) : Xtr R → Prop where
  | unowned : ActivatedOrDropped W env loct a s s
  | detached {mle : Nat} {ml : MapLocalEntry R} {x : Locator} {s' : Xtr R}
      (hml : s.mles.cell mle = some ml) (hhas : mappingHasLocator ml.mapping loct = .ok true)
      (hdup : mappingGetLoctWithAddr ml.mapping (.ip a) = .ok (some x))
      (hi : loctLstIndex .NO_ADDR none 0 ml.mapping.locatorsLists = .ok none)
      (hun : (ifaceLocatorsUnattachLocator loct.ptr).run s = .ok ((), s')) :
      ActivatedOrDropped W env loct a s s'
  | dropped {mle i : Nat} {ml : MapLocalEntry R} {x : Locator} {s' : Xtr R}
      (hml : s.mles.cell mle = some ml) (hhas : mappingHasLocator ml.mapping loct = .ok true)
      (hdup : mappingGetLoctWithAddr ml.mapping (.ip a) = .ok (some x))
      (hi : loctLstIndex .NO_ADDR none 0 ml.mapping.locatorsLists = .ok (some i))
      (hun : (ifaceLocatorsUnattachLocator loct.ptr).run s = .ok ((), s')) :
      ActivatedOrDropped W env loct a s (s'.setMapping mle (removeLocatorAt ml.mapping i loct.ptr))
  | activated {mle : Nat} {ml : MapLocalEntry R} {m : Mapping} {s' : Xtr R}
      (hml : s.mles.cell mle = some ml) (hhas : mappingHasLocator ml.mapping loct = .ok true)
      (hnew : mappingGetLoctWithAddr ml.mapping (.ip a) = .ok none)
      (hact : mappingActivateLocator ml.mapping loct (.ip a) = .ok m)
      (hupd : (updatedMapLocInf W env mle).run (s.setMapping mle m) = .ok ((), s')) :
      ActivatedOrDropped W env loct a s s'

theorem activateOrDrop_cases (hder : (derefLocalLocator loc).run s = .ok (loct, s))
    (h : (activateOrDrop W env loc loct (.ip a)).run s = .ok (u, s')) :
    ActivatedOrDropped W env loct a s s' := by
  obtain ⟨-, rfl, -⟩ := derefLocalLocator_eq hder
  rw [activateOrDrop, bind_ok] at h
  obtain ⟨o, s1, hget, h⟩ := h
  rw [getMapLocEntContainingLoctPtr, bind_ok] at hget
  obtain ⟨loct', s2, hder', hget⟩ := hget
  obtain ⟨hfind, rfl⟩ := lift_ok.mp hget
  cases hder.symm.trans hder'
  cases o with
  | none =>
    obtain ⟨-, rfl⟩ := pure_ok.mp h
    exact .unowned
  | some mle =>
    obtain ⟨-, ml, hml, hhas⟩ := mleContaining_some hfind
    simp only [bind_ok, derefMle_ok, lift_ok] at h
    obtain ⟨_, s, ⟨hml', rfl⟩, o, s, ⟨hdup, rfl⟩, h⟩ := h
    cases hml.symm.trans hml'
    cases o with
    | some x =>
      simp only [bind_ok, lift_ok] at h
      obtain ⟨o, s, ⟨hi, rfl⟩, h⟩ := h
      cases o with
      | none => exact .detached hml hhas hdup hi h
      | some i =>
        obtain ⟨_, s2, hun, hset⟩ := bind_ok.mp h
        obtain rfl := setMleMapping_ok.mp hset
        exact .dropped hml hhas hdup hi hun
    | none =>
      simp only [bind_ok, lift_ok, setMleMapping_ok] at h
      obtain ⟨m, s, ⟨hact, rfl⟩, _, _, rfl, hupd⟩ := h
      exact .activated hml hhas hdup hact hupd

/-- What the address `a` does to a locator: it is written over the one the locator has. One that no
mapping has stays without. -/
theorem ifEventLocator_cases (h : (ifEventLocator W env (.ip a) loc).run s = .ok (u, s')) :
    (∃ loct l ml, s.mles.cell l = some ml ∧ loct ∈ ml.mapping.locators ∧ loct.ptr = loc ∧
      (lispAddrLafi loct.addr = .NO_ADDR ∧ ActivatedOrDropped W env loct a s s' ∨
        lispAddrLafi loct.addr ≠ .NO_ADDR ∧
          (updateLocalLocator loc fun l => { l with addr := .ip a }).run s = .ok ((), s'))) ∨
      ∃ lost, s' = { s with lost := lost } := by
  rw [ifEventLocator, bind_ok] at h
  obtain ⟨loct, s, hder, h⟩ := h
  obtain ⟨rfl, rfl, ⟨l, ml, hml, hx⟩ | hnone⟩ := derefLocalLocator_eq hder
  · refine .inl ⟨loct, l, ml, hml, hx, rfl, ?_⟩
    by_cases hno : lispAddrLafi loct.addr = .NO_ADDR
    · rw [if_pos hno] at h
      exact .inl ⟨hno, activateOrDrop_cases hder h⟩
    · rw [if_neg hno] at h
      exact .inr ⟨hno, h⟩
  · have howned : ∀ {mle ml}, s.mles.cell mle = some ml →
        mappingHasLocator ml.mapping loct ≠ .ok true := fun hml hhas =>
      eq_nil_iff_forall_not_mem.mp hnone _
        (mem_mlesWithLocator.mpr ⟨_, hml, mappingHasLocator_mem hhas⟩)
    refine .inr ?_
    split_ifs at h
    · cases activateOrDrop_cases hder h with
      | unowned => exact ⟨_, rfl⟩
      | detached hml hhas => exact absurd hhas (howned hml)
      | dropped hml hhas => exact absurd hhas (howned hml)
      | activated hml hhas => exact absurd hhas (howned hml)
    · rw [updateLocalLocator, bind_run hder, bind_ok] at h
      obtain ⟨_, s1, hlost, h⟩ := h
      obtain ⟨-, rfl⟩ := modify_ok.mp hlost
      have hnone' : ∀ lost, mlesWithLocator { s with lost := lost } loct.ptr = [] := fun _ => hnone
      rw [get_bind_ok, hnone'] at h
      obtain ⟨-, rfl⟩ := pure_ok.mp h
      exact ⟨_, rfl⟩

/-! ## Events -/

/-- `program_smr` touches nothing but its timer. -/
theorem programSmr_eq {time : BitVec 32} (h : (programSmr time).run s = .ok (u, s')) :
    s' = { s with ts := s'.ts, smrTimer := s'.smrTimer } := by
  rw [programSmr, get_bind_ok] at h
  split at h
  · obtain ⟨ts, -, rfl⟩ := onTimers_ok.mp h
    rfl
  · simp only [bind_ok, set_ok, onTimers_ok] at h
    obtain ⟨_, _, ⟨-, rfl⟩, ts, -, rfl⟩ := h
    rfl

/-- The locators of an interface for a family. -/
def IfaceLocators.ofFamily (i : IfaceLocators) : Af → List Nat
  | .INET => i.ipv4Locators
  | .INET6 => i.ipv6Locators

/-- The transition check for the address of a family. -/
def IfaceLocators.setPrevAddr (afi : Af) (oldAddr : Option LispAddr) (newAddr : LispAddr)
    (i : IfaceLocators) : IfaceLocators :=
  match afi with
  | .INET => { i with ipv4PrevAddr := prevAddrAfter i.ipv4PrevAddr oldAddr newAddr }
  | .INET6 => { i with ipv6PrevAddr := prevAddrAfter i.ipv6PrevAddr oldAddr newAddr }

/-- The loop that sorts the mappings of the interface. -/
def sortEntries (a : IpAddr) (entries : List Nat) : XtrM R Unit :=
  entries.forM fun mle => do
    let e ← derefMle mle
    let m ← Prog.lift (mappingSortLocators e.mapping (.ip a))
    modify fun s => { s with lost := s.lost ++ e.mapping.locators.filter (· ∉ m.locators) }
    setMleMapping mle m

theorem sortEntries_keeps {I : List Nat → Xtr R → Prop}
    (hstep : ∀ {mle entries ml m lost} {s : Xtr R}, I (mle :: entries) s →
      s.mles.cell mle = some ml → mappingSortLocators ml.mapping (.ip a) = .ok m →
        I entries ({ s with lost := lost }.setMapping mle m)) :
    ∀ {entries : List Nat} {u : Unit} {s s' : Xtr R}, I entries s →
      (sortEntries a entries).run s = .ok (u, s') → I [] s' := by
  refine forM_induct fun h hrun => ?_
  simp only [bind_ok, derefMle_ok, lift_ok, modify_ok, setMleMapping_ok] at hrun
  obtain ⟨ml, s, ⟨hml, rfl⟩, m, s, ⟨hsort, rfl⟩, _, _, ⟨-, rfl⟩, rfl⟩ := hrun
  exact hstep h hml hsort

/-- The locators of the family, the record of the interface, and the mappings. -/
theorem ifEventAddress_eq (ifl : IfaceLocators) (afi : Af) (oldAddr : Option LispAddr)
    (a : IpAddr) : ifEventAddress W env ifl afi oldAddr (.ip a) = (do
      (ifl.ofFamily afi).forM (ifEventLocator W env (.ip a))
      modifyIface ifl.ifaceName (IfaceLocators.setPrevAddr afi oldAddr (.ip a))
      sortEntries a ifl.mapLocEntries) := by
  cases afi <;> rfl

theorem ifEventAddress_parts
    (h : (ifEventAddress W env ifl afi oldAddr (.ip a)).run s = .ok (u, s')) :
    ∃ s₁ s₂, ((ifl.ofFamily afi).forM (ifEventLocator W env (.ip a))).run s = .ok (⟨⟩, s₁) ∧
      (modifyIface ifl.ifaceName (IfaceLocators.setPrevAddr afi oldAddr (.ip a))).run s₁ =
        .ok (⟨⟩, s₂) ∧ (sortEntries a ifl.mapLocEntries).run s₂ = .ok (⟨⟩, s') := by
  simp only [ifEventAddress_eq, bind_ok] at h
  obtain ⟨_, s₁, h1, _, s₂, h2, h3⟩ := h
  exact ⟨s₁, s₂, h1, h2, h3⟩

/-- What holds along a new address: `I` with the locators that are left, `J` with the mappings that
are left to sort. -/
theorem ifEventAddress_induct
    {I J : List Nat → Xtr R → Prop} (hloc : ∀ {loc locs u} {s s' : Xtr R}, I (loc :: locs) s →
      (ifEventLocator W env (.ip a) loc).run s = .ok (u, s') → I locs s')
    (hiface : ∀ {u} {s s' : Xtr R}, I [] s → (modifyIface ifl.ifaceName
      (IfaceLocators.setPrevAddr afi oldAddr (.ip a))).run s = .ok (u, s') → J ifl.mapLocEntries s')
    (hsort : ∀ {mle entries ml m lost} {s : Xtr R}, J (mle :: entries) s →
      s.mles.cell mle = some ml → mappingSortLocators ml.mapping (.ip a) = .ok m →
        J entries ({ s with lost := lost }.setMapping mle m))
    (h : I (ifl.ofFamily afi) s)
    (hrun : (ifEventAddress W env ifl afi oldAddr (.ip a)).run s = .ok (u, s')) : J [] s' := by
  obtain ⟨s₁, s₂, h1, h2, h3⟩ := ifEventAddress_parts hrun
  exact sortEntries_keeps hsort (hiface (forM_induct hloc h h1) h2) h3

/-- The IP address an event brings. -/
def eventIp : Option LispAddr → Option IpAddr
  | some (.ip a) => some a
  | _ => none

/-- The ways `xtr_if_event` returns. -/
inductive XtrIfEvent (W : World R F) (env : CtrlEnv) (ifaceName : String)
    (oldAddr newAddr : Option LispAddr) (status : LinkState) (s : Xtr R) (ret : Ret) :
    Xtr R → Prop where
  | unknown (hfind : s.ifaceLocatorsTable.find? (·.ifaceName = ifaceName) = none) :
      XtrIfEvent W env ifaceName oldAddr newAddr status s ret s
  | unchanged {addr : LispAddr} (hnew : newAddr = some addr)
      (hsame : oldAddr.map (lispAddrCmp · addr) = some 0) :
      XtrIfEvent W env ifaceName oldAddr newAddr status s ret s
  | noIp {addr : LispAddr} (hnew : newAddr = some addr) (hip : eventIp newAddr = none) :
      XtrIfEvent W env ifaceName oldAddr newAddr status s ret s
  | status {ifl : IfaceLocators} {s₁ s' : Xtr R}
      (hfind : s.ifaceLocatorsTable.find? (·.ifaceName = ifaceName) = some ifl)
      (hnew : newAddr = none) (hrun : (ifEventStatus W env ifl status).run s = .ok ((), s₁))
      (hend : (ifEventEnd W env).run s₁ = .ok (ret, s')) :
      XtrIfEvent W env ifaceName oldAddr newAddr status s ret s'
  | address {ifl : IfaceLocators} {a : IpAddr} {s₁ s' : Xtr R}
      (hfind : s.ifaceLocatorsTable.find? (·.ifaceName = ifaceName) = some ifl)
      (hnew : newAddr = some (.ip a)) (hdiff : oldAddr.map (lispAddrCmp · (.ip a)) ≠ some 0)
      (hrun : (ifEventAddress W env ifl (ipAddrAfi a) oldAddr (.ip a)).run s = .ok ((), s₁))
      (hend : (ifEventEnd W env).run s₁ = .ok (ret, s')) :
      XtrIfEvent W env ifaceName oldAddr newAddr status s ret s'

theorem xtrIfEvent_cases {ifaceName : String} {oldAddr newAddr : Option LispAddr}
    {status : LinkState} {ret : Ret}
    (h : (xtrIfEvent W env ifaceName oldAddr newAddr status).run s = .ok (ret, s')) :
    XtrIfEvent W env ifaceName oldAddr newAddr status s ret s' := by
  rw [xtrIfEvent, get_bind_ok] at h
  cases hfind : s.ifaceLocatorsTable.find? (·.ifaceName = ifaceName) with
  | none =>
    rw [hfind] at h
    obtain ⟨-, rfl⟩ := pure_ok.mp h
    exact .unknown hfind
  | some ifl =>
    rw [hfind] at h
    cases newAddr with
    | none =>
      obtain ⟨_, s1, h1, h2⟩ := bind_ok.mp h
      exact .status hfind rfl h1 h2
    | some addr =>
      dsimp only at h
      split_ifs at h with hsame
      · obtain ⟨-, rfl⟩ := pure_ok.mp h
        exact .unchanged rfl hsame
      · cases addr with
        | ip a =>
          obtain ⟨_, s1, h1, h2⟩ := bind_ok.mp h
          exact .address hfind rfl hsame h1 h2
        | _ =>
          obtain ⟨-, rfl⟩ := pure_ok.mp h
          exact .noIp rfl rfl

end IfEventCases

end Lispmob
