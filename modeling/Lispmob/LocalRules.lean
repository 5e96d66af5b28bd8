import Lispmob.Faults

/-!
# Invariants that the code about the local mappings keeps

Interface events and SMR rounds change the local entries and the records of the interfaces through a
few operations. `LocalRule` and `WriteRule` are what these operations owe an invariant `I`: they
keep it and do not stop with a `bad` fault. The code that is made of them then does the same.
-/

set_option linter.unusedSectionVars false

namespace Lispmob

open List

open Prog (SafeFrom Keeps)

/-- The local entries and locators that depend on an interface. -/
def IfaceLocators.links (i : IfaceLocators) : List Nat × List Nat :=
  (i.mapLocEntries, i.ipv4Locators ++ i.ipv6Locators)

/-- The links between the interfaces and the local entries. -/
def Xtr.links {R : Type} (s : Xtr R) : List (List Nat × List Nat) :=
  s.ifaceLocatorsTable.map IfaceLocators.links

/-- The forwarding data of the local entries does not matter to the invariant. -/
structure LocalRule {R F : Type} (W : World R F) (bad : Fault → Prop) (I : Xtr R → Prop) :
    Prop where
  policy : ∀ rlocs info m, Avoids bad (W.fwdPolicy.updatedMapLocInf rlocs info m)
  touch : ∀ {s f} mle, I s → (∀ ml, (f ml).mapping = ml.mapping) →
    I { s with mles := s.mles.modify mle f }

/-- Neither do their mappings, and locators may be taken off the interfaces. -/
structure WriteRule {R F : Type} (W : World R F) (bad : Fault → Prop) (I : Xtr R → Prop) : Prop
    extends LocalRule W bad I where
  write : ∀ {s m} mle, I s →
    I { s with mles := s.mles.modify mle fun ml => { ml with mapping := m } }
  lose : ∀ {s l}, I s → I { s with lost := l }
  unattach : ∀ {s} loc, I s → Keeps bad I (fun _ => True) s (ifaceLocatorsUnattachLocator loc)

/-- Of the interfaces only the links matter to the invariant. -/
def LinksRule {R : Type} (I : Xtr R → Prop) : Prop :=
  ∀ {s table}, I s → table.map IfaceLocators.links = s.links →
    I { s with ifaceLocatorsTable := table }

section Rules

variable {R F : Type} {W : World R F} {env : CtrlEnv} {bad : Fault → Prop} [SparesPointers bad]
  {I : Xtr R → Prop} {s : Xtr R} {α : Type} {mle : Nat}

/-- The program keeps `I` and does not stop with a `bad` fault. -/
abbrev KeepsAny (bad : Fault → Prop) (I : Xtr R → Prop) (s : Xtr R) (x : XtrM R α) : Prop :=
  Keeps bad I (fun _ => True) s x

/-! ## Access -/

theorem derefMle_keeps (h : I s) (l : Nat) : KeepsAny bad I s (derefMle l) :=
  SafeFrom.get_bind (Keeps.of_option SparesPointers.useAfterFree h fun _ _ => trivial)

theorem derefLocalLocator_keeps (h : I s) (loc : Nat) : KeepsAny bad I s (derefLocalLocator loc) :=
  SafeFrom.get_bind (Keeps.of_option SparesPointers.useAfterFree h fun _ _ => trivial)

/-- The local entry that is found is one of the list. -/
theorem mleContaining_mem {loct : Locator} : ∀ {l : List Nat},
    mleContaining s loct l = .ok (some mle) → mle ∈ l
  | [], h => by cases h
  | mle' :: rest, h => by
    rw [mleContaining] at h
    split at h
    · cases h
    · obtain ⟨found, -, h⟩ := Prog.except_bind_ok.mp h
      split_ifs at h
      · cases Prog.except_pure_ok.mp h
        exact mem_cons_self
      · exact mem_cons_of_mem _ (mleContaining_mem h)

/-- A change of the records of the interfaces that keeps their links. -/
theorem modifyIface_keeps (hi : LinksRule I) (h : I s) (name : String)
    {f : IfaceLocators → IfaceLocators} (hf : ∀ i, (f i).links = i.links) :
      KeepsAny bad I s (modifyIface name f) := by
  refine .of_modify (hi h ?_)
  rw [map_map]
  refine map_congr_left fun i _ => ?_
  rw [Function.comp_apply]
  split_ifs
  · exact hf i
  · rfl

/-! ## Local entries -/

section Entries

variable {Q : Nat → Prop} (hQ : ∀ {s mle}, I s → mle ∈ mdbForeachEntry s.localMdb → Q mle)

include hQ

theorem getMapLocEntContainingLoctPtr_keeps (h : I s) (loc : Nat) :
    Keeps bad I (fun o => ∀ mle, o = some mle → Q mle) s (getMapLocEntContainingLoctPtr loc) := by
  refine .seq (derefLocalLocator_keeps h loc) fun loct s1 h1 => .get_bind ?_
  refine Keeps.of_lift ((mleContaining_safe s1 loct _).of_ok ?_) h1
  rintro _ ho mle rfl
  exact hQ h1 (mleContaining_mem ho)

theorem addMlesToSmr_keeps : ∀ (l acc : List Nat) {s : Xtr R}, I s → (∀ mle ∈ acc, Q mle) →
    Keeps bad I (fun l => ∀ mle ∈ l, Q mle) s (addMlesToSmr acc l)
  | [], _, _, h, hacc => .of_pure hacc h
  | loc :: rest, acc, _, h, hacc => by
    refine .bind (getMapLocEntContainingLoctPtr_keeps hQ h loc) fun o s1 ho h1 => ?_
    cases o with
    | some mle =>
      refine addMlesToSmr_keeps rest _ h1 fun x hx => ?_
      split_ifs at hx
      · exact hacc x hx
      · rcases mem_cons.mp hx with rfl | hx
        · exact ho _ rfl
        · exact hacc x hx
    | none => exact addMlesToSmr_keeps rest _ h1 hacc

theorem mlesToSmr_keeps (hi : LinksRule I) :
    ∀ (l : List IfaceLocators) (affected : List Nat × List Nat) (acc : List Nat) {s : Xtr R}, I s →
      (∀ mle ∈ acc, Q mle) → Keeps bad I (fun l => ∀ mle ∈ l, Q mle) s (mlesToSmr affected acc l)
  | [], _, _, _, h, hacc => .of_pure hacc h
  | _ :: rest, _, acc, _, h, hacc =>
    .seq (modifyIface_keeps hi h _ fun _ => rfl) fun _ _ h1 =>
      .bind (addMlesToSmr_keeps hQ _ acc h1 hacc) fun acc' _ hacc' h2 =>
        mlesToSmr_keeps hi rest _ acc' h2 hacc'

end Entries

theorem LocalRule.updatedMapLocInf_keeps (hl : LocalRule W bad I) (h : I s) (mle : Nat) :
    KeepsAny bad I s (updatedMapLocInf W env mle) :=
  .seq (derefMle_keeps h mle) fun e _ h1 =>
    .seq (.of_lift (hl.policy env.rlocs e.fwdInfo e.mapping) h1) fun _ _ h2 =>
      .of_modify (hl.touch mle h2 fun _ => rfl)

/-! ## Interface events -/

theorem ifEventEnd_keeps (hupd : ∀ mle {s}, I s → KeepsAny bad I s (updatedMapLocInf W env mle))
    (hsmr : ∀ {s}, I s → KeepsAny bad I s (programSmr LISPD_SMR_TIMEOUT)) (h : I s) :
    KeepsAny bad I s (ifEventEnd W env) := by
  refine .get_bind ?_
  split
  · exact Keeps.seq (hupd _ h) fun _ _ h1 => Keeps.ret (hsmr h1)
  · exact Keeps.ret (hsmr h)

theorem LocalRule.ifEventEnd_keeps (hl : LocalRule W bad I)
    (hsmr : ∀ {s}, I s → KeepsAny bad I s (programSmr LISPD_SMR_TIMEOUT)) (h : I s) :
    KeepsAny bad I s (ifEventEnd W env) :=
  Lispmob.ifEventEnd_keeps (fun mle _ h => hl.updatedMapLocInf_keeps h mle) hsmr h

namespace WriteRule

/-- Neither the local entries nor the interfaces matter. -/
theorem of_frame (policy : ∀ rlocs info m, Avoids bad (W.fwdPolicy.updatedMapLocInf rlocs info m))
    (write : ∀ {s} mle f, I s → I { s with mles := s.mles.modify mle f })
    (table : ∀ {s} table lost, I s → I { s with ifaceLocatorsTable := table, lost := lost }) :
    WriteRule W bad I where
  policy := policy
  touch mle h _ := write mle _ h
  write mle h := write mle _ h
  lose h := table _ _ h
  unattach loc h := by
    refine .of_modify ?_
    split
    · exact h
    · exact table _ _ h

variable (hl : WriteRule W bad I)

include hl

theorem setMleMapping_keeps (h : I s) (mle : Nat) (m : Mapping) :
    KeepsAny bad I s (setMleMapping mle m) :=
  .of_modify (hl.write mle h)

theorem updateLocalLocator_keeps (h : I s) (loc : Nat) (f : Locator → Locator) :
    KeepsAny bad I s (updateLocalLocator loc f) := by
  refine .seq (derefLocalLocator_keeps h loc) fun _ s1 h1 => ?_
  refine .seq (.of_modify (hl.lose h1)) fun _ s2 h2 => .get_bind ?_
  exact Keeps.forM (fun mle _ s hs => Keeps.seq (derefMle_keeps hs mle) fun _ _ h3 =>
    hl.setMleMapping_keeps h3 mle _) h2

theorem activateOrDrop_keeps (h : I s) (loc : Nat) (loct : Locator) (addr : LispAddr) :
    KeepsAny bad I s (activateOrDrop W env loc loct addr) := by
  refine .bind (getMapLocEntContainingLoctPtr_keeps (fun _ _ => trivial) h loc) fun o s1 _ h1 => ?_
  cases o with
  | none => exact .of_pure trivial h1
  | some mle =>
    refine .seq (derefMle_keeps h1 mle) fun e s2 h2 => ?_
    refine .seq (.of_lift (mappingGetLoctWithAddr_safe _ _) h2) fun found s3 h3 => ?_
    cases found with
    | some _ =>
      refine .seq (.of_lift (loctLstIndex_safe _ _ _ _) h3) fun i s4 h4 => ?_
      cases i with
      | none => exact hl.unattach loc h4
      | some i =>
        exact .seq (hl.unattach loc h4) fun _ _ h5 => hl.setMleMapping_keeps h5 mle _
    | none =>
      refine .seq (.of_lift (mappingActivateLocator_safe _ _ _) h3) fun m s4 h4 => ?_
      exact .seq (hl.setMleMapping_keeps h4 mle m) fun _ _ h5 => hl.updatedMapLocInf_keeps h5 mle

theorem ifEventLocator_keeps (h : I s) (addr : LispAddr) (loc : Nat) :
    KeepsAny bad I s (ifEventLocator W env addr loc) := by
  refine .seq (derefLocalLocator_keeps h loc) fun loct s1 h1 => ?_
  split_ifs
  · exact hl.activateOrDrop_keeps h1 loc loct addr
  · exact hl.updateLocalLocator_keeps h1 loc _

variable (hi : LinksRule I)

include hi

theorem ifEventAddress_keeps (h : I s) (ifl : IfaceLocators) (afi : Af) (old : Option LispAddr)
    (addr : LispAddr) : KeepsAny bad I s (ifEventAddress W env ifl afi old addr) := by
  have hlocs : ∀ l : List Nat, KeepsAny bad I s (l.forM (ifEventLocator W env addr)) := fun l =>
    .forM (fun loc _ s hs => hl.ifEventLocator_keeps hs addr loc) h
  have hsort : ∀ s1 : Xtr R, I s1 → KeepsAny bad I s1 (ifl.mapLocEntries.forM fun mle => do
      let e ← derefMle mle
      let m ← Prog.lift (mappingSortLocators e.mapping addr)
      modify fun s => { s with lost := s.lost ++ e.mapping.locators.filter (· ∉ m.locators) }
      setMleMapping mle m) := fun s1 h1 =>
    .forM (fun mle _ s hs => .seq (derefMle_keeps hs mle) fun e _ h2 =>
      .seq (.of_lift (mappingSortLocators_safe _ _) h2) fun m _ h3 =>
        .seq (.of_modify (hl.lose h3)) fun _ _ h4 => hl.setMleMapping_keeps h4 mle m) h1
  cases afi with
  | INET =>
    exact .seq (hlocs _) fun _ _ h1 => .seq (modifyIface_keeps hi h1 _ fun _ => rfl) fun _ s2 h2 =>
      hsort s2 h2
  | INET6 =>
    exact .seq (hlocs _) fun _ _ h1 => .seq (modifyIface_keeps hi h1 _ fun _ => rfl) fun _ s2 h2 =>
      hsort s2 h2

theorem ifEventStatus_keeps (h : I s) (ifl : IfaceLocators) (status : LinkState) :
    KeepsAny bad I s (ifEventStatus W env ifl status) := by
  refine .seq (.forM (fun loc _ s hs => hl.updateLocalLocator_keeps hs loc _) h) ?_
  intro _ s1 h1
  refine .seq (modifyIface_keeps hi h1 _ fun _ => rfl) fun _ s2 h2 => ?_
  exact .forM (fun mle _ s hs => hl.updatedMapLocInf_keeps hs mle) h2

theorem xtrIfEvent_keeps (hsmr : ∀ {s}, I s → KeepsAny bad I s (programSmr LISPD_SMR_TIMEOUT))
    (h : I s) (name : String) (old new : Option LispAddr) (status : LinkState) :
    KeepsAny bad I s (xtrIfEvent W env name old new status) := by
  refine .get_bind ?_
  split
  · exact Keeps.of_pure trivial h
  · split
    · exact Keeps.seq (hl.ifEventStatus_keeps hi h _ status) fun _ _ h1 =>
        hl.ifEventEnd_keeps hsmr h1
    · split_ifs
      · exact Keeps.of_pure trivial h
      · split
        · exact Keeps.seq (hl.ifEventAddress_keeps hi h _ _ _ _) fun _ _ h1 =>
            hl.ifEventEnd_keeps hsmr h1
        · exact Keeps.of_pure trivial h

end WriteRule

end Rules

end Lispmob
