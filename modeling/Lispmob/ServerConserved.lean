import Lispmob.Faults
import Lispmob.RegisterEffects

/-!
# Invariants that every function of the Map-Server keeps

`ServerConserved` is for the Map-Server what `Conserved` is for the router: an invariant, a kind of
fault `bad`, and what the operations on sites, registrations and timers do to them. The functions
from the handler of Map-Registers to the configuration then keep the invariant and do not stop with
a `bad` fault.

Parsing a record computes the network prefix of its EID, and accepting it may compare it with that
of the site; whether they stop with a `bad` fault depends on the EIDs, and is asked of the user.
-/

set_option linter.unusedSectionVars false

namespace Lispmob

open Prog (SafeResult SafeFrom Keeps)

/-! ## Network prefixes -/

section Networks

variable {bad : Fault → Prop} (hrange : ¬ bad .outOfRange)

include hrange

theorem networkAddress_avoids (a : IpAddr) (plen : UInt8) : Avoids bad (networkAddress a plen) := by
  cases a with
  | v4 a =>
    rw [networkAddress, prefGetNetworkAddressV4]
    split_ifs
    · trivial
    · trivial
    · exact hrange
  | v6 a =>
    rw [networkAddress, prefGetNetworkAddressV6]
    split_ifs
    · trivial
    · exact hrange

theorem prefGetNetworkAddress_some (a : IpAddr) (plen : UInt8) :
    SafeResult bad (fun o => o.isSome) (prefGetNetworkAddress (.ippref a plen)) :=
  .map (networkAddress_avoids hrange a plen) fun _ _ => rfl

omit hrange in
theorem ippref_of_lafi {addr : LispAddr} (h : lispAddrLafi addr = .IPPREF) :
    ∃ a plen, addr = .ippref a plen := by
  cases addr with
  | ippref a plen => exact ⟨a, plen, rfl⟩
  | _ => cases h

/-- `pref_is_prefix_b_part_of_a` looks at the kinds of both addresses first. -/
theorem prefIsPrefixBPartOfA_avoids (a b : LispAddr) : Avoids bad (prefIsPrefixBPartOfA a b) := by
  unfold prefIsPrefixBPartOfA
  simp only
  split_ifs with hpref hafi hlen
  · trivial
  · trivial
  · trivial
  · rw [not_or, not_not, not_not] at hpref
    obtain ⟨a, plenA, rfl⟩ := ippref_of_lafi hpref.1
    obtain ⟨b, plenB, rfl⟩ := ippref_of_lafi hpref.2
    refine .bind (prefGetNetworkAddress_some hrange a plenA) fun o ho => ?_
    refine .bind (prefGetNetworkAddress_some hrange b plenA) fun o' ho' => ?_
    obtain ⟨n, rfl⟩ := Option.isSome_iff_exists.mp ho
    obtain ⟨n', rfl⟩ := Option.isSome_iff_exists.mp ho'
    trivial

theorem acceptsEid_avoids (site : LispSitePrefix) (eid : LispAddr) :
    Avoids bad (acceptsEid site eid) := by
  unfold acceptsEid
  split_ifs
  · exact prefIsPrefixBPartOfA_avoids hrange _ _
  · trivial

/-- An EID that is no IP prefix has no network prefix, and that is a missing address. -/
theorem parseRegisterRecord_avoids [SparesPointers bad] (hmissing : ¬ bad .missingAddress)
    (raw : RawRecord) : Avoids bad (parseRegisterRecord raw) := by
  refine .bind (lispMsgParseMappingRecord_safe 0 .null raw) fun p _ => ?_
  split
  · trivial
  · refine .bind (P := fun _ => True) ?_ fun o _ => ?_
    · refine .bind (P := fun _ => True) ?_ fun o _ => ?_
      · unfold prefGetNetworkAddress
        split
        · exact .map (networkAddress_avoids hrange _ _) fun _ _ => trivial
        · trivial
      · cases o <;> trivial
    · cases o with
      | none => exact hmissing
      | some _ => trivial

end Networks

/-! ## The invariant -/

/-- An invariant of the Map-Server and what the operations of the Map-Server do to it. -/
structure ServerConserved (bad : Fault → Prop) where
  inv : MapServer → Prop
  /-- The EIDs the databases are asked for. -/
  key : LispAddr → Prop
  key_site : ∀ {s sp site}, inv s → s.sites.cell sp = some site → key site.eidPrefix
  key_rsite : ∀ {s rs rsite}, inv s → s.rsites.cell rs = some rsite → key rsite.siteMap.eidPrefix
  -- timers
  startExpiration : ∀ {s rs rsite}, inv s → s.rsites.cell rs = some rsite →
    SafeResult bad (fun ts => inv { s with ts := ts }) (lsiteEntryStartExpirationTimer s.ts rs)
  updateExpiration : ∀ {s} rs, inv s →
    SafeResult bad (fun ts => inv { s with ts := ts }) (lsiteEntryUpdateExpirationTimer s.ts rs)
  advance : ∀ {s}, inv s → inv { s with ts := advanceSpoke s.ts }
  rotated : ∀ {s ts}, inv s → handleTimersVisit s.ts = .rotated ts → inv { s with ts := ts }
  expired : ∀ {s t ts}, inv s → handleTimersVisit s.ts = .expired t ts → inv { s with ts := ts }
  -- databases
  lookupSite : ∀ {s a} exact, inv s → key a → Avoids bad (findNode s.lispSitesDb a exact)
  lookupReg : ∀ {s a} exact, inv s → key a → Avoids bad (findNode s.regSitesDb a exact)
  addSite : ∀ {s site}, inv s → key site.eidPrefix →
    SafeResult bad (fun r => inv { s with sites := s.sites.alloc site, lispSitesDb := r.2 })
      (mdbAddEntry s.lispSitesDb site.eidPrefix s.sites.next)
  addRsite : ∀ {s m}, inv s → key m.eidPrefix →
    SafeResult bad (fun r => inv { s with rsites := s.rsites.alloc ⟨m⟩, regSitesDb := r.2 })
      (mdbAddEntry s.regSitesDb m.eidPrefix s.rsites.next)
  removeReg : ∀ {s a}, inv s → key a →
    SafeResult bad (fun r => inv { s with regSitesDb := r.2 }) (mdbRemoveEntry s.regSitesDb a)
  -- sites
  writeSite : ∀ {s f} sp, inv s → (∀ site, (f site).eidPrefix = site.eidPrefix) →
    inv { s with sites := s.sites.modify sp f }
  writeRsite : ∀ {s m} rs, inv s → key m.eidPrefix →
    inv { s with rsites := s.rsites.modify rs fun _ => ⟨m⟩ }
  /-- `lisp_reg_site_del`. -/
  delRsite : ∀ {s} rs, inv s →
    SafeResult bad (fun ts => inv { s with ts := ts, rsites := s.rsites.free rs })
      (stopTimersFromObj s.ts rs)
  rest : ∀ {s tick now accepted}, inv s →
    inv { s with inTick := tick, now := now, accepted := accepted }

variable {bad : Fault → Prop}

theorem lsiteEntryStartExpirationTimer_safe [SparesPointers bad]
    (ts : Timers Nat Nat) (rs : Nat) : Avoids bad (lsiteEntryStartExpirationTimer ts rs) :=
  lmtimerStart_safe _ _ _

theorem lsiteEntryUpdateExpirationTimer_safe [SparesPointers bad]
    (ts : Timers Nat Nat) (rs : Nat) : Avoids bad (lsiteEntryUpdateExpirationTimer ts rs) := by
  refine .bind (htablePtrsTimersGetTimersOfType_safe ts rs _) fun o _ => ?_
  split
  · exact SparesPointers.nullDeref
  · exact lmtimerStart_safe ts _ _
  · trivial

namespace ServerConserved

variable [SparesPointers bad] (C : ServerConserved bad) {s : MapServer}
  {α : Type}

/-- The program keeps the invariant and does not stop with a `bad` fault; `Q` is what is known of
its result. -/
abbrev Returns (Q : α → Prop) (s : MapServer) (x : MsM α) : Prop :=
  Keeps bad C.inv Q s x

/-- Nothing is said of a result. -/
abbrev Any (s : MapServer) (x : MsM α) : Prop :=
  C.Returns (fun _ => True) s x

variable {C} {m : Mapping}

/-! ## Access -/

theorem derefSite_keeps (h : C.inv s) (sp : Nat) :
    C.Returns (fun site => C.key site.eidPrefix) s (derefSite sp) :=
  .get_bind
    (Keeps.of_option SparesPointers.useAfterFree h fun _ hsite => C.key_site h hsite)

theorem derefRsite_keeps (h : C.inv s) (rs : Nat) :
    C.Returns (fun rsite => C.key rsite.siteMap.eidPrefix) s (derefRsite rs) :=
  .get_bind
    (Keeps.of_option SparesPointers.useAfterFree h fun _ hrs => C.key_rsite h hrs)

theorem onMsTimers_keeps {f : Timers Nat Nat → Except Fault (Timers Nat Nat)}
    (hf : SafeResult bad (fun ts => C.inv { s with ts := ts }) (f s.ts)) : C.Any s (onMsTimers f) :=
  SafeFrom.get_bind (SafeFrom.lift_bind hf fun _ h => Keeps.of_set h)

theorem setProxyReply_keeps (h : C.inv s) (sp : Nat) (proxyReply : Bool) :
    C.Any s (setProxyReply sp proxyReply) :=
  .of_modify (C.writeSite sp h fun _ => rfl)

/-! ## Map-Registers -/

theorem updateRegSite_keeps (h : C.inv s) (sp rs : Nat) {siteMap : Mapping}
    (hsite : C.key siteMap.eidPrefix) (m : Mapping) (proxyReply : Bool) :
    C.Any s (updateRegSite sp rs siteMap m proxyReply) := by
  unfold updateRegSite
  split
  · exact .of_pure trivial h
  · refine .bind (derefSite_keeps h sp) fun regPref s1 _ h1 => ?_
    have hupd : C.Any s1 (updateSiteLocators regPref rs siteMap m) := by
      unfold updateSiteLocators
      split
      · exact .of_pure trivial h1
      · refine .lift_bind (mappingUpdateLocators_safe 0 siteMap _) fun r hr => ?_
        exact Keeps.of_modify (C.writeRsite rs h1 (by rwa [hr]))
    exact .seq hupd fun _ _ h2 => setProxyReply_keeps h2 sp proxyReply

theorem refreshRegSite_keeps (h : C.inv s) (sp rs : Nat) (m : Mapping) (proxyReply : Bool) :
    C.Any s (refreshRegSite sp rs m proxyReply) := by
  refine .bind (derefRsite_keeps h rs) fun rsite s1 hrs h1 => ?_
  refine .seq (updateRegSite_keeps h1 sp rs hrs m proxyReply) fun _ s2 h2 => ?_
  exact onMsTimers_keeps (C.updateExpiration rs h2)

theorem addRegSite_keeps (h : C.inv s) (sp : Nat) (hm : C.key m.eidPrefix)
    (proxyReply : Bool) : C.Any s (addRegSite sp m proxyReply) := by
  refine .get_bind (.lift_bind (C.addRsite h hm) fun r hr => ?_)
  refine .bind (P := fun _ s1 => C.inv s1 ∧ s1.rsites.cell s.rsites.next = some ⟨m⟩)
    (.of_set ⟨hr, by rw [Heap.alloc_cell, if_pos rfl]⟩) fun _ s1 h1 => ?_
  refine Keeps.seq (onMsTimers_keeps (C.startExpiration h1.1 h1.2)) fun _ _ h2 => ?_
  exact setProxyReply_keeps h2 sp proxyReply

theorem registerMapping_keeps (h : C.inv s) (sp : Nat) (hm : C.key m.eidPrefix)
    (proxyReply : Bool) : C.Any s (registerMapping sp m proxyReply) := by
  refine .get_bind (.lift_bind (C.lookupReg true h hm) fun o _ => ?_)
  have hstore : C.Any s (storeOrRefresh sp m proxyReply o) := by
    cases o with
    | some rs => exact refreshRegSite_keeps h sp rs m proxyReply
    | none => exact addRegSite_keeps h sp hm proxyReply
  exact Keeps.seq hstore fun _ _ h1 => Keeps.of_modify (C.rest h1)

/-- Parsing a record does not stop with a `bad` fault, and its EID is one the invariant allows. -/
def Parses (C : ServerConserved bad) (raw : RawRecord) : Prop :=
  SafeResult bad (fun o => ∀ m, o = some m → C.key m.eidPrefix) (parseRegisterRecord raw)

/-- Comparing an EID with a site does not stop with a `bad` fault. -/
def Compares (C : ServerConserved bad) : Prop :=
  ∀ site eid, C.key site.eidPrefix → C.key eid → Avoids bad (acceptsEid site eid)

variable (hmac : Hmac) (hcmp : C.Compares)

include hcmp

theorem registerRecord_keeps (h : C.inv s) (msg : MapRegisterMsg) (v : RegisterVars)
    {raw : RawRecord} (hraw : C.Parses raw) : C.Any s (registerRecord hmac msg v raw) := by
  refine .lift_bind hraw fun o ho => ?_
  cases o with
  | none => exact Keeps.of_pure trivial h
  | some m =>
    have hm := ho m rfl
    refine .get_bind (.lift_bind (C.lookupSite false h hm) fun site _ => ?_)
    cases site with
    | none => exact Keeps.of_pure trivial h
    | some sp =>
      refine Keeps.bind (derefSite_keeps h sp) fun regPref s1 hreg h1 => ?_
      split
      · exact .of_pure trivial h1
      · exact .of_pure trivial h1
      · refine .lift_bind (hcmp regPref m.eidPrefix hreg hm) fun ok _ => ?_
        split
        · exact Keeps.ret (registerMapping_keeps h1 sp hm _)
        · exact Keeps.of_pure trivial h1

theorem registerRecords_keeps (msg : MapRegisterMsg) : ∀ (l : List RawRecord) (v : RegisterVars)
    {s : MapServer}, C.inv s → (∀ r ∈ l, C.Parses r) → C.Any s (registerRecords hmac msg v l)
  | [], _, _, h, _ => .of_pure trivial h
  | raw :: rest, v, s, h, hl => by
    refine .seq (registerRecord_keeps hmac hcmp h msg v (hl raw (by simp))) fun r s1 h1 => ?_
    cases r with
    | bad => exact .of_pure trivial h1
    | next v' =>
      exact registerRecords_keeps msg rest v' h1 fun r hr => hl r (List.mem_cons_of_mem _ hr)

theorem msRecvMapRegister_keeps (h : C.inv s) {msg : MapRegisterMsg}
    (hmsg : ∀ r ∈ readRecords msg.records msg.recCount.toNat, C.Parses r) :
    C.Any s (msRecvMapRegister hmac msg) := by
  refine .seq (registerRecords_keeps hmac hcmp msg _ _ h hmsg) fun o s1 h1 => ?_
  repeat' split
  all_goals exact .of_pure trivial h1

/-! ## Steps -/

omit hcmp in
theorem msTimerCb_keeps (h : C.inv s) (t : Nat) : C.Any s (msTimerCb t) := by
  refine .get_bind (.lift_bind (deref_safe s.ts t) fun tm _ => ?_)
  split
  · refine Keeps.bind (derefRsite_keeps h _) fun rs s1 hrs h1 => SafeFrom.get_bind ?_
    refine SafeFrom.lift_bind (C.removeReg h1 hrs) fun r hr => ?_
    refine Keeps.seq (Keeps.of_set hr) fun _ s2 h2 => ?_
    refine SafeFrom.bind (P := fun _ s3 => C.inv { s3 with rsites := s3.rsites.free tm.cbArgument })
      ?_ fun _ _ h3 => Keeps.of_modify h3
    exact .get_bind (.lift_bind (C.delRsite tm.cbArgument h2) fun _ h =>
      .of_set h)
  · exact .of_throw SparesPointers.typeConfusion

omit hcmp in
theorem msWheelIteration_keeps (h : C.inv s) : C.Any s msWheelIteration := by
  refine .get_bind ?_
  split
  · exact Keeps.of_set (C.rest h)
  · rename_i hvisit
    exact Keeps.of_set (C.rotated h hvisit)
  · rename_i hvisit
    exact Keeps.seq (Keeps.of_set (C.expired h hvisit)) fun _ _ h1 => msTimerCb_keeps h1 _

/-- The records of a message can be parsed without a `bad` fault. -/
def Receives (C : ServerConserved bad) : MsEvent → Prop
  | .mapRegister msg => ∀ r ∈ readRecords msg.records msg.recCount.toNat, C.Parses r
  | _ => True

theorem msStep_keeps (h : C.inv s) {ev : MsEvent} (hev : C.Receives ev) :
    C.Any s (msStep hmac ev) := by
  refine .get_bind ?_
  split
  · cases ev with
    | mapRegister msg =>
      exact Keeps.ret (msRecvMapRegister_keeps hmac hcmp h hev)
    | tick =>
      exact Keeps.ret (Keeps.of_modify (C.rest (C.advance h)))
    | wheel =>
      exact Keeps.ret (msWheelIteration_keeps h)
  · exact Keeps.of_pure trivial h

omit hcmp in
theorem msBoot_keeps (h : C.inv s) {conf : MsConf}
    (hsites : ∀ site ∈ conf.lispSites, C.key site.eidPrefix)
    (hstatics : ∀ m ∈ conf.staticSites, C.key m.eidPrefix) : C.Any s (msBoot conf) := by
  refine .seq (.forM (fun site hsite s h => ?_) h) fun _ s1 h1 =>
    .forM (fun m hm s h => ?_) h1
  · exact .get_bind (.lift_bind (C.addSite h (hsites site hsite)) fun _ hr =>
      Keeps.of_set hr)
  · refine .get_bind (.lift_bind (C.lookupReg true h (hstatics m hm)) fun o _ => ?_)
    cases o with
    | some _ => exact Keeps.of_pure trivial h
    | none => exact SafeFrom.lift_bind (C.addRsite h (hstatics m hm)) fun _ hr => Keeps.of_set hr

end ServerConserved

end Lispmob
