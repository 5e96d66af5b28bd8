import Lispmob.Forwarding
import Lispmob.PrefixLengths
import Lispmob.ServerConserved

/-!
# Prefix lengths at the Map-Server

The Map-Server computes the network prefix of every record of a Map-Register before it looks at
anything else, so a length that does not fit does its harm to any server, whatever its sites and
keys. `MsFits` is the invariant of the server in runs without such lengths.
-/

namespace Lispmob

open Option Heap Prog

open Prog (SafeResult SafeFrom Keeps)

/-! ## Network addresses -/

theorem networkAddress_ok {a : IpAddr} {plen : UInt8} (h : plen ≤ ipAddrAfiToDefaultMask a) :
    ∃ n, networkAddress a plen = .ok n ∧ ipAddrAfiToDefaultMask n = ipAddrAfiToDefaultMask a := by
  cases a with
  | v4 a =>
    have hle : plen ≤ 32 := h
    rw [networkAddress, prefGetNetworkAddressV4]
    split_ifs
    · exact ⟨_, rfl, rfl⟩
    · exact ⟨_, rfl, rfl⟩
  | v6 a =>
    have hle : plen ≤ 128 := h
    rw [networkAddress, prefGetNetworkAddressV6]
    simp only [hle, if_true]
    exact ⟨_, rfl, rfl⟩

theorem prefGetNetworkPrefix_fits {addr : LispAddr} (h : KeyFits addr) :
    SafeResult Fault.ofLength (fun o => ∀ p, o = some p → KeyFits p)
      (prefGetNetworkPrefix addr) := by
  cases addr with
  | ippref a plen =>
    obtain ⟨n, hn, hmask⟩ := networkAddress_ok h
    simp only [prefGetNetworkPrefix, prefGetNetworkAddress, hn, Except.map, bind, Except.bind]
    intro p hp
    rw [← some.inj hp]
    change plen ≤ ipAddrAfiToDefaultMask n
    rw [hmask]
    exact h
  | _ => rintro p ⟨⟩

theorem prefIsPrefixBPartOfA_fits {a b : LispAddr} (ha : KeyFits a) (hb : KeyFits b) :
    LengthSafe (prefIsPrefixBPartOfA a b) := by
  unfold prefIsPrefixBPartOfA
  simp only
  split_ifs with hpref hafi hlen
  · trivial
  · trivial
  · trivial
  · -- Both are IP prefixes of one family, and the length of the second is set to that of the first.
    rw [not_or, not_not, not_not] at hpref
    obtain ⟨a, plenA, rfl⟩ := ippref_of_lafi hpref.1
    obtain ⟨b, plenB, rfl⟩ := ippref_of_lafi hpref.2
    obtain ⟨n, hn, -⟩ := networkAddress_ok ha
    have hle : plenA ≤ ipAddrAfiToDefaultMask b := UInt8.le_trans (UInt8.not_lt.mp hlen) hb
    obtain ⟨k, hk, -⟩ := networkAddress_ok hle
    simp only [prefGetNetworkAddress, lispAddrSetPlen, lispAddrGetPlen, hn, hk, Except.map, bind,
      Except.bind]
    trivial

/-! ## The server -/

/-- The EIDs of the site prefixes and of the registered sites fit, and so do the tries. -/
structure MsFits (s : MapServer) : Prop where
  sitesDb : s.lispSitesDb.Sized
  regDb : s.regSitesDb.Sized
  sites : ∀ i site, s.sites.cell i = some site → KeyFits site.eidPrefix
  rsites : ∀ i rs, s.rsites.cell i = some rs → KeyFits rs.siteMap.eidPrefix

section Server

variable {s : MapServer} {α : Type} {db : Mdb Nat} {m : Mapping}

/-- The program keeps the EIDs of the server fitting, and no prefix length makes it stop. -/
abbrev ServerFits (Q : α → Prop) (s : MapServer) (x : MsM α) : Prop :=
  Keeps Fault.ofLength MsFits Q s x

theorem MsFits.congr (h : MsFits s) {s' : MapServer} (hl : s'.lispSitesDb = s.lispSitesDb)
    (hd : s'.regSitesDb = s.regSitesDb) (hs : s'.sites = s.sites) (hr : s'.rsites = s.rsites) :
    MsFits s' :=
  ⟨hl ▸ h.sitesDb, hd ▸ h.regDb, hs ▸ h.sites, hr ▸ h.rsites⟩

theorem derefSite_fits (h : MsFits s) (sp : Nat) :
    ServerFits (fun site => KeyFits site.eidPrefix) s (derefSite sp) :=
  SafeFrom.get_bind (Keeps.of_option id h fun site hsite => h.sites sp site hsite)

theorem derefRsite_fits (h : MsFits s) (rs : Nat) :
    ServerFits (fun rsite => KeyFits rsite.siteMap.eidPrefix) s (derefRsite rs) :=
  SafeFrom.get_bind (Keeps.of_option id h fun rsite hrs => h.rsites rs rsite hrs)

theorem MsFits.setRsite (h : MsFits s) (rs : Nat) (hm : KeyFits m.eidPrefix) :
    MsFits { s with rsites := s.rsites.modify rs fun _ => ⟨m⟩ } := by
  refine ⟨h.sitesDb, h.regDb, h.sites, fun i rsite hi => ?_⟩
  rw [modify_cell] at hi
  split_ifs at hi
  · obtain ⟨_, -, rfl⟩ := map_eq_some_iff.mp hi
    exact hm
  · exact h.rsites i rsite hi

theorem MsFits.addRsite (h : MsFits s) (hm : KeyFits m.eidPrefix)
    (hdb : db.Sized) : MsFits { s with rsites := s.rsites.alloc ⟨m⟩, regSitesDb := db } := by
  refine ⟨h.sitesDb, hdb, h.sites, fun i rsite hi => ?_⟩
  rw [alloc_cell] at hi
  split_ifs at hi
  · rw [← some.inj hi]
    exact hm
  · exact h.rsites i rsite hi

theorem parseRegisterRecord_fits {raw : RawRecord} (h : raw.Fits) :
    SafeResult Fault.ofLength (fun o => ∀ m, o = some m → KeyFits m.eidPrefix)
      (parseRegisterRecord raw) := by
  refine .bind (lispMsgParseMappingRecord_fits h 0 .null) fun p hp => ?_
  split
  · exact fun m hm => nomatch hm
  · rename_i hret
    refine .bind (prefGetNetworkPrefix_fits (hp (not_not.mp hret))) fun o ho => ?_
    cases o with
    | none => exact id
    | some eid =>
      intro m hm
      rw [← some.inj hm]
      exact ho eid rfl

theorem acceptsEid_fits {regPref : LispSitePrefix} (hreg : KeyFits regPref.eidPrefix)
    {eid : LispAddr} (heid : KeyFits eid) : LengthSafe (acceptsEid regPref eid) := by
  unfold acceptsEid
  split
  · exact prefIsPrefixBPartOfA_fits hreg heid
  · trivial

/-! ### Map-Requests -/

theorem locatorWithAfi_safe (afi : Af) : ∀ l, LengthSafe (locatorWithAfi afi l)
  | [] => trivial
  | loct :: rest => by
    have hrest := locatorWithAfi_safe afi rest
    rw [locatorWithAfi]
    split_ifs
    · exact hrest
    · split
      · exact id
      · split_ifs
        · trivial
        · exact hrest

theorem getLocatorWithAfi_safe (afi : Af) : ∀ l, LengthSafe (getLocatorWithAfi afi l)
  | [] => trivial
  | loctList :: rest => by
    have hrest := getLocatorWithAfi_safe afi rest
    rw [getLocatorWithAfi]
    split
    · exact hrest
    · refine .bind (locatorWithAfi_safe afi loctList) fun o _ => ?_
      cases o with
      | some addr => trivial
      | none => exact hrest

theorem forwardMreq_safe (env : CtrlEnv) (m : Mapping) : LengthSafe (forwardMreq env m) := by
  have hlookup : ∀ (b : Bool) (afi : Af),
      LengthSafe (if b then getLocatorWithAfi afi m.locatorsLists else .ok none) := by
    intro b afi
    split
    · exact getLocatorWithAfi_safe afi _
    · trivial
  refine .bind (hlookup _ _) fun v4 _ => ?_
  cases v4 with
  | some addr => trivial
  | none => exact .bind (hlookup _ _) fun _ _ => trivial

theorem proxyReply_safe {bad : Fault → Prop} [SparesPointers bad] (m : Mapping)
    (rlocs : List LispAddr) (la ra : LispAddr) : Avoids bad (proxyReply m rlocs la ra) := by
  refine .bind (lispMsgPutMapping_safe m none) fun l _ => ?_
  cases l with
  | nil => exact SparesPointers.nullDeref
  | cons _ _ => trivial

theorem answerRequest_fits (h : MsFits s) (env : CtrlEnv) (msg : MapRequestMsg) (la ra : LispAddr)
    (stale : Bool) {deid : LispAddr} (hd : KeyFits deid) :
    ServerFits (fun _ => True) s (answerRequest env msg la ra stale deid) := by
  refine .get_bind ?_
  refine Keeps.seq (Keeps.of_lift (findNode_fits h.sitesDb hd false) h) fun site s1 h1 => ?_
  refine Keeps.seq (Keeps.of_lift (findNode_fits h.regDb hd false) h1) fun rsite s2 h2 => ?_
  have hproxy : ∀ (m : Mapping) (s3 : MapServer), MsFits s3 → ServerFits (fun _ => True) s3 (do
      let sent ← lift (proxyReply m msg.itrRlocs la ra)
      return (sent, true)) := fun m s3 h3 =>
    .ret (.of_lift (proxyReply_safe m _ la ra) h3)
  split
  · exact .of_pure trivial h2
  · exact .of_pure trivial h2
  · exact .bind (derefRsite_fits h2 _) fun rs s3 _ h3 => hproxy _ s3 h3
  · refine .bind (derefRsite_fits h2 _) fun rs s3 _ h3 => ?_
    refine .bind (derefSite_fits h3 _) fun site s4 _ h4 => ?_
    split
    · exact hproxy _ s4 h4
    · refine .seq (.of_lift (forwardMreq_safe env _) h4) fun sent s5 h5 => ?_
      split
      · exact .of_throw id
      · exact .of_pure trivial h5

theorem answerRequests_fits (env : CtrlEnv) (msg : MapRequestMsg) (la ra : LispAddr) :
    ∀ (l : List LispAddr) (stale : Bool) {s : MapServer}, MsFits s → (∀ eid ∈ l, KeyFits eid) →
      ServerFits (fun _ => True) s (answerRequests env msg la ra stale l)
  | [], _, _, h, _ => .of_pure trivial h
  | deid :: rest, stale, _, h, hl => by
    refine .seq (answerRequest_fits h env msg la ra stale (hl deid (by simp))) ?_
    intro r s1 h1
    have hrest : ∀ eid ∈ rest, KeyFits eid := fun eid he => hl eid (List.mem_cons_of_mem _ he)
    exact .ret (answerRequests_fits env msg la ra rest r.2 h1 hrest)

theorem msRecvMapRequest_fits (h : MsFits s) (env : CtrlEnv) {msg : MapRequestMsg}
    (hmsg : ∀ eid ∈ msg.eids, KeyFits eid) (la ra : LispAddr) :
    ServerFits (fun _ => True) s (msRecvMapRequest env msg la ra) := by
  unfold msRecvMapRequest
  split
  · exact .of_pure trivial h
  · exact .ret (answerRequests_fits env msg la ra _ _ h hmsg)

/-! ### Steps and runs -/

theorem MsFits.setSite (h : MsFits s) (sp : Nat) {f : LispSitePrefix → LispSitePrefix}
    (hf : ∀ site, (f site).eidPrefix = site.eidPrefix) :
    MsFits { s with sites := s.sites.modify sp f } := by
  refine ⟨h.sitesDb, h.regDb, fun i site hi => ?_, h.rsites⟩
  rw [modify_cell] at hi
  split_ifs at hi
  · obtain ⟨site', hsite', rfl⟩ := map_eq_some_iff.mp hi
    rw [hf]
    exact h.sites sp site' hsite'
  · exact h.sites i site hi

theorem MsFits.addSite (h : MsFits s) {site : LispSitePrefix} (hsite : KeyFits site.eidPrefix)
    (hdb : db.Sized) : MsFits { s with sites := s.sites.alloc site, lispSitesDb := db } := by
  refine ⟨hdb, h.regDb, fun i site' hi => ?_, h.rsites⟩
  rw [alloc_cell] at hi
  split_ifs at hi
  · rwa [← some.inj hi]
  · exact h.sites i site' hi

theorem MsFits.delRsite (h : MsFits s) (rs : Nat) {ts : Timers Nat Nat} :
    MsFits { s with ts := ts, rsites := s.rsites.free rs } := by
  refine ⟨h.sitesDb, h.regDb, h.sites, fun i rsite hi => ?_⟩
  rw [free_cell] at hi
  split_ifs at hi
  exact h.rsites i rsite hi

/-- The EIDs of the server are kept fitting, and no prefix length makes it stop. -/
def serverConservedFits : ServerConserved Fault.ofLength where
  inv := MsFits
  key := KeyFits
  key_site h hsite := h.sites _ _ hsite
  key_rsite h hrs := h.rsites _ _ hrs
  startExpiration h _ := (lsiteEntryStartExpirationTimer_safe _ _).of_ok fun _ _ =>
    h.congr rfl rfl rfl rfl
  updateExpiration rs h := (lsiteEntryUpdateExpirationTimer_safe _ rs).of_ok fun _ _ =>
    h.congr rfl rfl rfl rfl
  advance h := h.congr rfl rfl rfl rfl
  rotated h _ := h.congr rfl rfl rfl rfl
  expired h _ := h.congr rfl rfl rfl rfl
  lookupSite exact h hk := findNode_fits h.sitesDb hk exact
  lookupReg exact h hk := findNode_fits h.regDb hk exact
  addSite h hk :=
    (mdbAddEntry_fits h.sitesDb hk _).mono (fun _ he => he) fun _ hr => h.addSite hk hr
  addRsite h hk :=
    (mdbAddEntry_fits h.regDb hk _).mono (fun _ he => he) fun _ hr => h.addRsite hk hr
  removeReg h hk := (mdbRemoveEntry_fits h.regDb hk).mono (fun _ he => he) fun _ hr =>
    ⟨h.sitesDb, hr, h.sites, h.rsites⟩
  writeSite sp h hf := h.setSite sp hf
  writeRsite rs h hm := h.setRsite rs hm
  delRsite rs h := (stopTimersFromObj_safe _ rs).of_ok fun _ _ => h.delRsite rs
  rest h := h.congr rfl rfl rfl rfl

theorem msStep_fits (hmac : Hmac) (h : MsFits s) {ev : MsEvent}
    (hev : ev.EidsFit) : ServerFits (fun _ => True) s (msStep hmac ev) := by
  refine ServerConserved.msStep_keeps (C := serverConservedFits) hmac
    (fun _ _ hsite heid => acceptsEid_fits hsite heid) h ?_
  cases ev with
  | mapRegister msg => exact fun r hr => parseRegisterRecord_fits (readRecords_fits hev _ r hr)
  | _ => trivial

end Server

/-- The configured EIDs fit. -/
structure MsConf.EidsFit (conf : MsConf) : Prop where
  sites : ∀ site ∈ conf.lispSites, KeyFits site.eidPrefix
  statics : ∀ m ∈ conf.staticSites, KeyFits m.eidPrefix

theorem msBoot_fits {conf : MsConf} (hconf : conf.EidsFit) :
    ServerFits (fun _ => True) msCtrlConstruct (msBoot conf) :=
  have h0 : MsFits msCtrlConstruct :=
    ⟨mdbNew_sized, mdbNew_sized, fun _ _ hi => (nomatch hi), fun _ _ hi => (nomatch hi)⟩
  ServerConserved.msBoot_keeps (C := serverConservedFits) h0 hconf.sites hconf.statics

/-- In a run in which the EIDs of all received messages fit, those in the databases do. -/
theorem MsReach.fits {hmac : Hmac} {conf : MsConf}
    (hconf : conf.EidsFit) {s : MapServer} (hs : MsReach hmac conf (fun _ ev => ev.EidsFit) s) :
    MsFits s := by
  refine Reach.invariant (fun s hinit => ?_) (fun s ev r s' hI hok hstep => ?_) hs
  · obtain ⟨u, hboot⟩ := hinit
    exact ((msBoot_fits hconf).of_run hboot).2
  · exact ((msStep_fits hmac hI hok).of_run hstep).2

/-! ## Both together -/

/-- In every run in which the EIDs of all received messages fit, the EIDs of the databases fit, and
a message whose EIDs fit neither fails the assertion of `pt_make_ip_prefix` nor makes the masks of
`pref_get_network_address` shift or index out of range. The router computes no network address. -/
theorem fitting_lengths_cause_no_fault (hash : PacketTuple → UInt32) (nonces : Nat → Nonce)
    (hmac : Hmac) :
    (∀ s, XtrReach ⟨fwdPolicyFlowBalancing hash, nonces, hmac⟩ XtrConf.EidsFit
        (fun _ ev => ev.EidsFit) s →
      XtrFits s ∧ ∀ ev f, ev.EidsFit →
        (xtrStep ⟨fwdPolicyFlowBalancing hash, nonces, hmac⟩ ev).run s = .error f →
          f ≠ .assertion) ∧
    ∀ conf : MsConf, conf.EidsFit → ∀ s, MsReach hmac conf (fun _ ev => ev.EidsFit) s →
      MsFits s ∧
      (∀ ev f, ev.EidsFit → (msStep hmac ev).run s = .error f → ¬ f.ofLength) ∧
      ∀ env msg la ra f, (∀ eid ∈ msg.eids, KeyFits eid) →
        (msRecvMapRequest env msg la ra).run s = .error f → ¬ f.ofLength := by
  have hW : PolicyAvoids _ (· = .assertion) := flowBalancing_avoids hash nonces hmac
  refine ⟨fun s hs => ?_, fun conf hconf s hs => ?_⟩
  · have h := XtrReach.fits hW hs
    exact ⟨h, fun ev f hev hf => (xtrStep_fits hW h hev).not_bad hf⟩
  · have h := MsReach.fits hconf hs
    exact ⟨h, fun ev f hev hf => (msStep_fits hmac h hev).not_bad hf,
      fun env msg la ra f hmsg hf => (msRecvMapRequest_fits h env hmsg la ra).not_bad hf⟩

/-! ## Runs of the small network

A packet to an address the router has no mapping for, then the answer. -/

theorem labPetrConf_eidsFit : (labPetrConf (.v4 4)).EidsFit := by
  have hkey : ValidKey (.ippref (.v4 0x0a000000#32) 8) := (by decide : (8 : UInt8) ≤ 32)
  obtain ⟨db, hdb, hsized⟩ := mdbAddEntry_ok (d := 0) mdbNew_sized hkey
  refine ⟨?_, by decide⟩
  simp only [labPetrConf, labConf, hdb]
  exact hsized

/-- A packet from `10.0.0.1` to `198.51.100.1`. -/
def labMiss : XtrEvent :=
  .packet ⟨.v4 0x0a000001#32, .v4 0xc6336401#32, 1, 1, 6⟩ labEnv

/-- The answer to the Map-Request for it, for the prefix of this length. -/
def labAnswer (plen : UInt8) : XtrEvent :=
  labReply 0 [.wellFormed ⟨1, 0, 0, .ip (.v4 0xc6336400#32), plen, []⟩]

/-- A registration of a prefix of this length. -/
def labRegistration (plen : UInt8) : MsEvent :=
  .mapRegister (labRegister labKeyA false [labSiteRecord 0x0a000000#32 plen 1440])

/-- Lengths of 24 and 8: the answer is installed, the prefix is registered. -/
theorem fitting_lengths_lab :
    (∃ s, XtrReach labBalancing XtrConf.EidsFit (fun _ ev => ev.EidsFit) s ∧
      s.mces.next = 4 ∧ XtrFits s) ∧
    ∃ s, MsReach labHmac labMsConf (fun _ ev => ev.EidsFit) s ∧ s.rsites.next = 1 ∧ MsFits s := by
  have hrouter : ∃ s, XtrReach labBalancing XtrConf.EidsFit (fun _ ev => ev.EidsFit) s ∧
      s.mces.next = 4 :=
    XtrReach.of_events (labPetrConf (.v4 4)) labEnv [labMiss, labAnswer 24] labPetrConf_eidsFit
      (by decide +kernel)
  have hserver : (runWhile (msStep labHmac) (fun _ ev => ev.EidsFit) [labRegistration 8]
      labServer).any (fun s => decide (s.rsites.next = 1)) = true := by
    decide +kernel
  obtain ⟨s, hs, hnext⟩ := hrouter
  obtain ⟨t, ht, hrsites⟩ := (any_eq_true _ _).mp hserver
  have hreach : MsReach labHmac labMsConf (fun _ ev => ev.EidsFit) t :=
    Reach.runWhile _ (.start ⟨(), rfl⟩) ht
  have hconf : labMsConf.EidsFit := ⟨by decide, by decide⟩
  exact ⟨⟨s, hs, hnext, ((fitting_lengths_cause_no_fault (fun _ => 0) (fun n => UInt64.ofNat n)
      fun _ _ => []).1 s hs).1⟩,
    t, hreach, of_decide_eq_true hrsites, ((fitting_lengths_cause_no_fault (fun _ => 0)
      (fun n => UInt64.ofNat n) labHmac).2 labMsConf hconf t hreach).1⟩

/-- A length of 33: the answer fails the assertion of `pt_make_ip_prefix`, the registration shifts
out of range. -/
theorem unfitting_length_faults :
    (∃ s, XtrReach labBalancing XtrConf.EidsFit (fun _ ev => ev.EidsFit) s ∧
      (xtrStep labBalancing (labAnswer 33)).run s = .error .assertion) ∧
    MsStartedWith labMsConf labServer ∧
      (msStep labHmac (labRegistration 33)).run labServer = .error .outOfRange := by
  have hrouter : ∃ s, XtrReach labBalancing XtrConf.EidsFit (fun _ ev => ev.EidsFit) s ∧
      fault ((xtrStep labBalancing (labAnswer 33)).run s) = some .assertion :=
    XtrReach.of_events (labPetrConf (.v4 4)) labEnv [labMiss] labPetrConf_eidsFit
      (by decide +kernel)
  have hserver : fault ((msStep labHmac (labRegistration 33)).run labServer) =
      some .outOfRange := by
    decide +kernel
  obtain ⟨s, hs, hfault⟩ := hrouter
  exact ⟨⟨s, hs, fault_eq_some_iff.mp hfault⟩, ⟨(), rfl⟩, fault_eq_some_iff.mp hserver⟩

end Lispmob
