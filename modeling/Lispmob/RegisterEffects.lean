import Lispmob.MapServer

/-!
# What the Map-Server's handlers do to its state

`Registers` says what accepting a record does: the registration that is there is refreshed, with or
without new locators, or a new one is added. `RecordEffect` says what one record of a Map-Register
does; all its outcomes but `registered` leave the state alone. `registerRecords_keeps` and
`msStep_cases` lift this to the loop and to the machine.

A site prefix never changes but for its proxy-reply setting (`SameSites`), so what a record matches
can be read off the state before the message.
-/

namespace Lispmob

open Prog Option Heap

variable {s s' : MapServer} {u : Unit} {sp : Nat} {b : Bool} {m : Mapping} {site : LispSitePrefix}
  {r : Nat}

/-! ## Inversion of successful accesses -/

@[simp] theorem derefSite_ok :
    (derefSite sp).run s = .ok (site, s') ↔ s.sites.cell sp = some site ∧ s' = s := by
  rw [derefSite, get_bind_ok, ofOption_ok]

@[simp] theorem derefRsite_ok {rs : LispRegSite} :
    (derefRsite r).run s = .ok (rs, s') ↔ s.rsites.cell r = some rs ∧ s' = s := by
  rw [derefRsite, get_bind_ok, ofOption_ok]

@[simp] theorem setProxyReply_ok :
    (setProxyReply sp b).run s = .ok (u, s') ↔
      s' = { s with sites := s.sites.modify sp fun site => { site with proxyReply := b } } := by
  simp [setProxyReply]

@[simp] theorem noteRegistered_ok :
    (noteRegistered sp m b).run s = .ok (u, s') ↔
      s' = { s with accepted := ⟨sp, m, b, s.now⟩ :: s.accepted } := by
  simp [noteRegistered]

@[simp] theorem onMsTimers_ok {f : Timers Nat Nat → Except Fault (Timers Nat Nat)} :
    (onMsTimers f).run s = .ok (u, s') ↔ ∃ ts, f s.ts = .ok ts ∧ s' = { s with ts := ts } := by
  rw [onMsTimers, get_bind_ok, bind_ok]
  constructor
  · rintro ⟨ts, s1, h, hset⟩
    obtain ⟨hf, rfl⟩ := lift_ok.mp h
    exact ⟨ts, hf, (set_ok.mp hset).2⟩
  · rintro ⟨ts, hf, rfl⟩
    exact ⟨ts, s, lift_ok.mpr ⟨hf, rfl⟩, set_ok.mpr ⟨rfl, rfl⟩⟩

/-! ## Registering a mapping -/

/-- What accepting a record for the mapping `m` under the site prefix `sp` does. -/
inductive Registers (sp : Nat) (m : Mapping) (proxyReply : Bool) (s : MapServer) :
    MapServer → Prop where
  /-- The stored mapping compares as equal: only the timer starts anew. -/
  | same {r : Nat} {rs : LispRegSite} {ts : Timers Nat Nat}
      (hl : mdbLookupEntryExact s.regSitesDb m.eidPrefix = .ok (some r))
      (hr : s.rsites.cell r = some rs) (hcmp : mappingCmp rs.siteMap m = true)
      (ht : lsiteEntryUpdateExpirationTimer s.ts r = .ok ts) :
      Registers sp m proxyReply s
        { s with ts := ts, accepted := ⟨sp, m, proxyReply, s.now⟩ :: s.accepted }
  /-- The mapping differs, but the site has merge semantics: it stays. -/
  | merged {r : Nat} {rs : LispRegSite} {site : LispSitePrefix} {ts : Timers Nat Nat}
      (hl : mdbLookupEntryExact s.regSitesDb m.eidPrefix = .ok (some r))
      (hr : s.rsites.cell r = some rs) (hcmp : mappingCmp rs.siteMap m = false)
      (hs : s.sites.cell sp = some site) (hmerge : site.merge = true)
      (ht : lsiteEntryUpdateExpirationTimer s.ts r = .ok ts) :
      Registers sp m proxyReply s
        { s with
          sites := s.sites.modify sp fun site => { site with proxyReply := proxyReply }
          ts := ts
          accepted := ⟨sp, m, proxyReply, s.now⟩ :: s.accepted }
  /-- The mapping differs: its locators are replaced. -/
  | updated {r next : Nat} {rs : LispRegSite} {siteMap : Mapping} {site : LispSitePrefix}
      {ts : Timers Nat Nat}
      (hl : mdbLookupEntryExact s.regSitesDb m.eidPrefix = .ok (some r))
      (hr : s.rsites.cell r = some rs) (hcmp : mappingCmp rs.siteMap m = false)
      (hs : s.sites.cell sp = some site) (hmerge : site.merge = false)
      (hu : mappingUpdateLocators 0 rs.siteMap m.locatorsLists = .ok (next, siteMap))
      (ht : lsiteEntryUpdateExpirationTimer s.ts r = .ok ts) :
      Registers sp m proxyReply s
        { s with
          rsites := s.rsites.modify r fun _ => ⟨siteMap⟩
          sites := s.sites.modify sp fun site => { site with proxyReply := proxyReply }
          ts := ts
          accepted := ⟨sp, m, proxyReply, s.now⟩ :: s.accepted }
  /-- The prefix was not registered. -/
  | added {ret : Ret} {db : Mdb Nat} {ts : Timers Nat Nat}
      (hl : mdbLookupEntryExact s.regSitesDb m.eidPrefix = .ok none)
      (ha : mdbAddEntry s.regSitesDb m.eidPrefix s.rsites.next = .ok (ret, db))
      (ht : lsiteEntryStartExpirationTimer s.ts s.rsites.next = .ok ts) :
      Registers sp m proxyReply s
        { s with
          rsites := s.rsites.alloc ⟨m⟩
          regSitesDb := db
          sites := s.sites.modify sp fun site => { site with proxyReply := proxyReply }
          ts := ts
          accepted := ⟨sp, m, proxyReply, s.now⟩ :: s.accepted }

theorem registerMapping_cases (h : (registerMapping sp m b).run s = .ok (u, s')) :
    Registers sp m b s s' := by
  rw [registerMapping, get_bind_ok, bind_ok] at h
  obtain ⟨o, s0, hlookup, hrest⟩ := h
  obtain ⟨hl, rfl⟩ := lift_ok.mp hlookup
  obtain ⟨_, s1, hstore, hnote⟩ := bind_ok.mp hrest
  obtain rfl := noteRegistered_ok.mp hnote
  cases o with
  | some r =>
    obtain ⟨rs, s2, hderef, hrefresh⟩ := bind_ok.mp hstore
    obtain ⟨hr, rfl⟩ := derefRsite_ok.mp hderef
    obtain ⟨_, s3, hupd, htimer⟩ := bind_ok.mp hrefresh
    obtain ⟨ts, ht, rfl⟩ := onMsTimers_ok.mp htimer
    rw [updateRegSite] at hupd
    split_ifs at hupd with hcmp
    · obtain ⟨rfl, rfl⟩ := pure_ok.mp hupd
      exact .same hl hr hcmp ht
    · rw [Bool.not_eq_true] at hcmp
      obtain ⟨site, s4, hderef', hchange⟩ := bind_ok.mp hupd
      obtain ⟨hsite, rfl⟩ := derefSite_ok.mp hderef'
      obtain ⟨_, s5, hloc, hproxy⟩ := bind_ok.mp hchange
      obtain rfl := setProxyReply_ok.mp hproxy
      rw [updateSiteLocators] at hloc
      split_ifs at hloc with hmerge
      · obtain ⟨rfl, rfl⟩ := pure_ok.mp hloc
        exact .merged hl hr hcmp hsite hmerge ht
      · rw [Bool.not_eq_true] at hmerge
        obtain ⟨⟨next, siteMap⟩, s6, hmap, hwrite⟩ := bind_ok.mp hloc
        obtain ⟨hu, rfl⟩ := lift_ok.mp hmap
        obtain ⟨-, rfl⟩ := modify_ok.mp hwrite
        exact .updated hl hr hcmp hsite hmerge hu ht
  | none =>
    change (addRegSite sp m b).run s0 = _ at hstore
    rw [addRegSite, get_bind_ok] at hstore
    obtain ⟨⟨ret, db⟩, s2, hadd, hrest'⟩ := bind_ok.mp hstore
    obtain ⟨ha, rfl⟩ := lift_ok.mp hadd
    obtain ⟨_, s3, hset, htimer⟩ := bind_ok.mp hrest'
    obtain ⟨-, rfl⟩ := set_ok.mp hset
    obtain ⟨_, s4, hstart, hproxy⟩ := bind_ok.mp htimer
    obtain ⟨ts, ht, rfl⟩ := onMsTimers_ok.mp hstart
    obtain rfl := setProxyReply_ok.mp hproxy
    exact .added hl ha ht

/-! ## The records of a Map-Register -/

/-- The mapping of a record, and the site prefix it matches with its identity. -/
def siteMatch (s : MapServer) (raw : RawRecord) : Option (Mapping × Nat × LispSitePrefix) :=
  match parseRegisterRecord raw with
  | .ok (some m) =>
    match mdbLookupEntry s.lispSitesDb m.eidPrefix with
    | .ok (some sp) => (s.sites.cell sp).map fun site => (m, sp, site)
    | _ => none
  | _ => none

/-- A record that matches a site prefix parses, and the site prefix is the longest match. -/
theorem siteMatch_eq_some_iff {raw : RawRecord} :
    siteMatch s raw = some (m, sp, site) ↔ parseRegisterRecord raw = .ok (some m) ∧
      mdbLookupEntry s.lispSitesDb m.eidPrefix = .ok (some sp) ∧ s.sites.cell sp = some site := by
  unfold siteMatch
  split
  · rename_i m' hm
    split
    · rename_i sp' hsp
      rw [hm]
      simp only [map_eq_some_iff, Prod.mk.injEq, Except.ok.injEq, some.injEq]
      constructor
      · rintro ⟨site', hcell, rfl, rfl, rfl⟩
        exact ⟨rfl, hsp, hcell⟩
      · rintro ⟨rfl, hsp', hcell⟩
        rw [hsp] at hsp'
        cases hsp'
        exact ⟨site, hcell, rfl, rfl, rfl⟩
    · rename_i hno
      simp only [reduceCtorEq, false_iff]
      rintro ⟨hm', hsp, -⟩
      rw [hm] at hm'
      cases hm'
      exact hno sp hsp
  · rename_i hno
    simp only [reduceCtorEq, false_iff]
    rintro ⟨hm, -⟩
    exact hno m hm

/-- What one record of a Map-Register does. -/
inductive RecordEffect (hmac : Hmac) (msg : MapRegisterMsg)
    (v : RegisterVars) (raw : RawRecord) (s : MapServer) : RecordExit → MapServer → Prop where
  /-- The record does not parse: the handler returns. -/
  | malformed (h : parseRegisterRecord raw = .ok none) : RecordEffect hmac msg v raw s .bad s
  /-- No site prefix covers its EID. -/
  | unmatched {m : Mapping} (h : parseRegisterRecord raw = .ok (some m))
      (hm : mdbLookupEntry s.lispSitesDb m.eidPrefix = .ok none) :
      RecordEffect hmac msg v raw s (.next v) s
  /-- The message does not verify with the key of its site prefix: the handler returns. -/
  | refused {m : Mapping} {sp : Nat} {site : LispSitePrefix}
      (h : siteMatch s raw = some (m, sp, site))
      (hk : checkKey hmac msg.auth v.key site.key = .refused) : RecordEffect hmac msg v raw s .bad s
  /-- Its site prefix has another key. -/
  | otherKey {m : Mapping} {sp : Nat} {site : LispSitePrefix}
      (h : siteMatch s raw = some (m, sp, site))
      (hk : checkKey hmac msg.auth v.key site.key = .other) :
      RecordEffect hmac msg v raw s (.next v) s
  /-- Its site prefix does not accept its EID. -/
  | outside {m : Mapping} {sp : Nat} {site : LispSitePrefix} {key : CString}
      (h : siteMatch s raw = some (m, sp, site))
      (hk : checkKey hmac msg.auth v.key site.key = .good key)
      (ha : acceptsEid site m.eidPrefix = .ok false) :
      RecordEffect hmac msg v raw s (.next { v with key := some key }) s
  /-- It is accepted. -/
  | registered {m : Mapping} {sp : Nat} {site : LispSitePrefix} {key : CString} {s' : MapServer}
      (h : siteMatch s raw = some (m, sp, site))
      (hk : checkKey hmac msg.auth v.key site.key = .good key)
      (ha : acceptsEid site m.eidPrefix = .ok true) (hr : Registers sp m msg.proxyReply s s') :
      RecordEffect hmac msg v raw s (.next (v.notify msg key m)) s'

section Register

variable {hmac : Hmac} {msg : MapRegisterMsg} {v : RegisterVars}
  {raw : RawRecord}
  {ok : MapServer → MsEvent → Prop} {out : Ret × Option SentMapNotify} {I : MapServer → Prop}
  {o : RecordExit} {conf : MsConf}

theorem registerRecord_cases (h : (registerRecord hmac msg v raw).run s = .ok (o, s')) :
    RecordEffect hmac msg v raw s o s' := by
  obtain ⟨om, s0, hparse, hbody⟩ := bind_ok.mp h
  obtain ⟨hp, rfl⟩ := lift_ok.mp hparse
  cases om with
  | none =>
    obtain ⟨rfl, rfl⟩ := pure_ok.mp hbody
    exact .malformed hp
  | some m =>
    rw [get_bind_ok] at hbody
    obtain ⟨osp, s1, hlookup, hsite⟩ := bind_ok.mp hbody
    obtain ⟨hl, rfl⟩ := lift_ok.mp hlookup
    cases osp with
    | none =>
      obtain ⟨rfl, rfl⟩ := pure_ok.mp hsite
      exact .unmatched hp hl
    | some sp =>
      obtain ⟨site, s2, hderef, hkey⟩ := bind_ok.mp hsite
      obtain ⟨hcell, rfl⟩ := derefSite_ok.mp hderef
      have hmatch := siteMatch_eq_some_iff.mpr ⟨hp, hl, hcell⟩
      cases hk : checkKey hmac msg.auth v.key site.key with
      | refused =>
        rw [hk] at hkey
        obtain ⟨rfl, rfl⟩ := pure_ok.mp hkey
        exact .refused hmatch hk
      | other =>
        rw [hk] at hkey
        obtain ⟨rfl, rfl⟩ := pure_ok.mp hkey
        exact .otherKey hmatch hk
      | good key =>
        rw [hk] at hkey
        obtain ⟨ok, s3, hacc, hend⟩ := bind_ok.mp hkey
        obtain ⟨ha, rfl⟩ := lift_ok.mp hacc
        cases ok with
        | false =>
          obtain ⟨rfl, rfl⟩ := pure_ok.mp hend
          exact .outside hmatch hk ha
        | true =>
          obtain ⟨_, s4, hreg, hret⟩ := bind_ok.mp hend
          obtain ⟨rfl, rfl⟩ := pure_ok.mp hret
          exact .registered hmatch hk ha (registerMapping_cases hreg)

/-- The induction over the records of a message. `I` is what holds before the records that are left,
`J` what holds when the handler returns. -/
theorem registerRecords_induct {I : List RawRecord → RegisterVars → MapServer → Prop}
    {J : MapServer → Prop} (hdone : ∀ v s, I [] v s → J s)
    (hbad : ∀ raw rest v s s', I (raw :: rest) v s → RecordEffect hmac msg v raw s .bad s' → J s')
    (hnext : ∀ raw rest v v' s s', I (raw :: rest) v s →
      RecordEffect hmac msg v raw s (.next v') s' → I rest v' s') :
    ∀ {l : List RawRecord} {v : RegisterVars} {s s' : MapServer} {o : Option RegisterVars},
      I l v s → (registerRecords hmac msg v l).run s = .ok (o, s') → J s'
  | [], v, s, s', o, hI, h => by
    obtain ⟨rfl, rfl⟩ := pure_ok.mp h
    exact hdone v _ hI
  | raw :: rest, v, s, s', o, hI, h => by
    obtain ⟨x, s1, hrec, hrest⟩ := bind_ok.mp h
    have heff := registerRecord_cases hrec
    cases x with
    | bad =>
      obtain ⟨rfl, rfl⟩ := pure_ok.mp hrest
      exact hbad raw rest v s _ hI heff
    | next v' =>
      exact registerRecords_induct hdone hbad hnext (hnext raw rest v v' s s1 hI heff) hrest

theorem msRecvMapRegister_records (h : (msRecvMapRegister hmac msg).run s = .ok (out, s')) :
    ∃ o, (registerRecords hmac msg ⟨none, [], false⟩
      (readRecords msg.records msg.recCount.toNat)).run s = .ok (o, s') := by
  obtain ⟨o, s1, hloop, hret⟩ := bind_ok.mp h
  have hs : s1 = s' := by
    repeat' split at hret
    all_goals
      obtain ⟨rfl, rfl⟩ := pure_ok.mp hret
      rfl
  exact ⟨o, hs ▸ hloop⟩

/-- What every accepted record keeps, the message keeps: the other records change nothing. -/
theorem registerRecords_keeps {l : List RawRecord} {o : Option RegisterVars}
    (h : (registerRecords hmac msg v l).run s = .ok (o, s')) (hI : I s)
    (hreg : ∀ raw ∈ l, ∀ s m sp site s', I s → siteMatch s raw = some (m, sp, site) →
      acceptsEid site m.eidPrefix = .ok true → Registers sp m msg.proxyReply s s' → I s') :
    I s' := by
  have hrec : ∀ raw ∈ l, ∀ v o s s', I s → RecordEffect hmac msg v raw s o s' → I s' := by
    intro raw hraw v o s s' hI heff
    cases heff with
    | registered hm _ ha hr => exact hreg raw hraw s _ _ _ s' hI hm ha hr
    | _ => exact hI
  refine registerRecords_induct (I := fun rest _ s => (∀ raw ∈ rest, raw ∈ l) ∧ I s) (J := I)
    (fun _ _ h => h.2) ?_ ?_ ⟨fun _ hraw => hraw, hI⟩ h
  · rintro raw rest v s s' ⟨hsub, hI⟩ heff
    exact hrec raw (hsub raw (by simp)) v _ s s' hI heff
  · rintro raw rest v v' s s' ⟨hsub, hI⟩ heff
    exact ⟨fun r hr => hsub r (List.mem_cons_of_mem _ hr),
      hrec raw (hsub raw (by simp)) v _ s s' hI heff⟩

/-! ## Site prefixes -/

/-- The settings of a site prefix that never change. -/
def LispSitePrefix.fixed (site : LispSitePrefix) : LispSitePrefix :=
  { site with proxyReply := false }

theorem LispSitePrefix.fixed_eq {site site0 : LispSitePrefix} (h : site.fixed = site0.fixed) :
    site.eidPrefix = site0.eidPrefix ∧ site.acceptMoreSpecifics = site0.acceptMoreSpecifics ∧
      site.key = site0.key ∧ site.merge = site0.merge := by
  simpa [LispSitePrefix.fixed] using h

/-- The site prefixes are the same but for their proxy-reply settings. -/
structure SameSites (s s' : MapServer) : Prop where
  db : s'.lispSitesDb = s.lispSitesDb
  cell : ∀ sp, (s'.sites.cell sp).map LispSitePrefix.fixed =
    (s.sites.cell sp).map LispSitePrefix.fixed

theorem SameSites.refl (s : MapServer) : SameSites s s :=
  ⟨rfl, fun _ => rfl⟩

theorem SameSites.trans {s₁ s₂ s₃ : MapServer} (h : SameSites s₁ s₂) (h' : SameSites s₂ s₃) :
    SameSites s₁ s₃ :=
  ⟨h'.db.trans h.db, fun sp => (h'.cell sp).trans (h.cell sp)⟩

/-- A site prefix of the later state is one of the earlier. -/
theorem SameSites.back (h : SameSites s s') (hs : s'.sites.cell sp = some site) :
    ∃ site0, s.sites.cell sp = some site0 ∧ site.fixed = site0.fixed := by
  have hc := h.cell sp
  rw [hs, map_some] at hc
  obtain ⟨site0, h0, hf⟩ := map_eq_some_iff.mp hc.symm
  exact ⟨site0, h0, hf.symm⟩

theorem fixed_cell_modify (sites : Heap LispSitePrefix) (sp i : Nat) (b : Bool) :
    ((sites.modify sp fun site => { site with proxyReply := b }).cell i).map
      LispSitePrefix.fixed = (sites.cell i).map LispSitePrefix.fixed := by
  rw [modify_cell]
  split_ifs with hi
  · rw [hi, map_map]
    rfl
  · rfl

theorem Registers.sameSites (h : Registers sp m b s s') : SameSites s s' := by
  cases h with
  | same => exact ⟨rfl, fun _ => rfl⟩
  | merged | updated | added => exact ⟨rfl, fun i => fixed_cell_modify s.sites sp i b⟩

theorem Registers.accepted (h : Registers sp m b s s') :
    s'.accepted = ⟨sp, m, b, s.now⟩ :: s.accepted := by
  cases h <;> rfl

theorem RecordEffect.sameSites (h : RecordEffect hmac msg v raw s o s') : SameSites s s' := by
  cases h with
  | registered _ _ _ hr => exact hr.sameSites
  | _ => exact .refl s

theorem msRecvMapRegister_sameSites
    (h : (msRecvMapRegister hmac msg).run s = .ok (out, s')) : SameSites s s' := by
  obtain ⟨o, hl⟩ := msRecvMapRegister_records h
  exact registerRecords_keeps hl (.refl s) fun _ _ _ _ _ _ _ hI _ _ hr => hI.trans hr.sameSites

/-- The site prefix a record matches is the same before and after. -/
theorem SameSites.siteMatch (h : SameSites s s') (hm : siteMatch s' raw = some (m, sp, site)) :
    ∃ site0, Lispmob.siteMatch s raw = some (m, sp, site0) ∧ site.fixed = site0.fixed := by
  obtain ⟨hp, hl, hc⟩ := siteMatch_eq_some_iff.mp hm
  obtain ⟨site0, hc0, hf⟩ := h.back hc
  rw [h.db] at hl
  exact ⟨site0, siteMatch_eq_some_iff.mpr ⟨hp, hl, hc0⟩, hf⟩

/-! ## The machine -/

/-- What one step of the Map-Server does. -/
inductive MsEffect (hmac : Hmac) (s : MapServer) :
    MsEvent → MapServer → Prop where
  /-- The event was not due. -/
  | notDue (e : MsEvent) : MsEffect hmac s e s
  /-- A Map-Register was processed. -/
  | mapRegister {msg : MapRegisterMsg} {out : Ret × Option SentMapNotify} {s' : MapServer}
      (h : (msRecvMapRegister hmac msg).run s = .ok (out, s')) (hin : s.inTick = false) :
      MsEffect hmac s (.mapRegister msg) s'
  /-- The wheel advanced by one spoke. -/
  | ticked (hin : s.inTick = false) : MsEffect hmac s .tick
      { s with ts := advanceSpoke s.ts, inTick := true, now := s.now + 1 }
  /-- The loop of the tick ended. -/
  | spokeDone (h : handleTimersVisit s.ts = .done) (hin : s.inTick = true) :
      MsEffect hmac s .wheel { s with inTick := false }
  /-- A timer with rotations left was visited. -/
  | rotated {ts : Timers Nat Nat} (h : handleTimersVisit s.ts = .rotated ts)
      (hin : s.inTick = true) :
      MsEffect hmac s .wheel { s with ts := ts }
  /-- The registration of a site timed out. -/
  | expired {t : Nat} {ts ts' : Timers Nat Nat} {tm : Timer Nat} {rs : LispRegSite}
      {o : Option Nat} {db : Mdb Nat} (h : handleTimersVisit s.ts = .expired t ts)
      (htm : ts.timers.cell t = some tm) (hty : tm.type = .REG_SITE_EXPRY_TIMER)
      (hr : s.rsites.cell tm.cbArgument = some rs)
      (hrm : mdbRemoveEntry s.regSitesDb rs.siteMap.eidPrefix = .ok (o, db))
      (hstop : stopTimersFromObj ts tm.cbArgument = .ok ts') (hin : s.inTick = true) :
      MsEffect hmac s .wheel
        { s with regSitesDb := db, ts := ts', rsites := s.rsites.free tm.cbArgument }

theorem msStep_cases {e : MsEvent} {out : MsOut} (h : (msStep hmac e).run s = .ok (out, s')) :
    MsEffect hmac s e s' := by
  rw [msStep, get_bind_ok] at h
  split_ifs at h with hdue
  · cases e with
    | mapRegister msg =>
      obtain ⟨⟨r, mntf⟩, s1, hrecv, hret⟩ := bind_ok.mp h
      obtain ⟨rfl, rfl⟩ := pure_ok.mp hret
      exact .mapRegister hrecv (by simpa [MsEvent.due] using hdue)
    | tick =>
      obtain ⟨_, s1, hmod, hret⟩ := bind_ok.mp h
      obtain ⟨-, rfl⟩ := modify_ok.mp hmod
      obtain ⟨rfl, rfl⟩ := pure_ok.mp hret
      exact .ticked (by simpa [MsEvent.due] using hdue)
    | wheel =>
      obtain ⟨_, s1, hwheel, hret⟩ := bind_ok.mp h
      obtain ⟨rfl, rfl⟩ := pure_ok.mp hret
      rw [msWheelIteration, get_bind_ok] at hwheel
      cases hv : handleTimersVisit s.ts with
      | done =>
        rw [hv] at hwheel
        obtain ⟨-, rfl⟩ := set_ok.mp hwheel
        exact .spokeDone hv hdue
      | rotated ts =>
        rw [hv] at hwheel
        obtain ⟨-, rfl⟩ := set_ok.mp hwheel
        exact .rotated hv hdue
      | expired t ts =>
        rw [hv] at hwheel
        obtain ⟨_, s2, hset, hcb⟩ := bind_ok.mp hwheel
        obtain ⟨-, rfl⟩ := set_ok.mp hset
        rw [msTimerCb, get_bind_ok] at hcb
        obtain ⟨tm, s3, hderef, hcb'⟩ := bind_ok.mp hcb
        obtain ⟨htm, rfl⟩ := lift_ok.mp hderef
        rw [deref_ok] at htm
        split at hcb'
        · rename_i hty
          obtain ⟨rs, s4, hrs, hcb1⟩ := bind_ok.mp hcb'
          obtain ⟨hr, rfl⟩ := derefRsite_ok.mp hrs
          rw [get_bind_ok] at hcb1
          obtain ⟨⟨o, db⟩, s5, hremove, hcb2⟩ := bind_ok.mp hcb1
          obtain ⟨hrm, rfl⟩ := lift_ok.mp hremove
          obtain ⟨_, s6, hset', hdel⟩ := bind_ok.mp hcb2
          obtain ⟨-, rfl⟩ := set_ok.mp hset'
          obtain ⟨_, s7, hstop, hfree⟩ := bind_ok.mp hdel
          obtain ⟨ts', hts', rfl⟩ := onMsTimers_ok.mp hstop
          obtain ⟨-, rfl⟩ := modify_ok.mp hfree
          exact .expired hv htm hty hr hrm hts' hdue
        · cases throw_ok.mp hcb'
  · obtain ⟨rfl, rfl⟩ := pure_ok.mp h
    exact .notDue e

/-- What holds at the start and is kept by every step that meets `ok` holds all along the run. -/
theorem MsReach.invariant_of (h0 : ∀ s, MsStartedWith conf s → I s)
    (hstep : ∀ s e s', I s → ok s e → MsEffect hmac s e s' → I s') {s : MapServer}
    (h : MsReach hmac conf ok s) : I s :=
  Reach.invariant h0 (fun s e _ s' hI hok hrun => hstep s e s' hI hok (msStep_cases hrun)) h

/-! ## Starting -/

/-- What the Map-Server looks like before its first event. -/
structure Booted (conf : MsConf) (s : MapServer) : Prop where
  site : ∀ sp site, s.sites.cell sp = some site → site ∈ conf.lispSites
  stored : ∀ k r, s.regSitesDb.stored k = some r →
    ∃ m ∈ conf.staticSites, s.rsites.cell r = some ⟨m⟩ ∧ mdbKey m.eidPrefix = some k
  rsite : ∀ r rs, s.rsites.cell r = some rs → rs.siteMap ∈ conf.staticSites
  ts : s.ts = Timers.init
  accepted : s.accepted = []

/-- What adding an entry to a database stores under a key. -/
theorem stored_of_mdbAddEntry {db db' : Mdb Nat} {addr : LispAddr} {d : Nat} {ret : Ret}
    {k : MdbKey} (h : mdbAddEntry db addr d = .ok (ret, db'))
    (hk : db'.stored k = some r) : db.stored k = some r ∨ (mdbKey addr = some k ∧ r = d) := by
  by_cases hret : ret = .GOOD
  · subst hret
    obtain ⟨k0, hk0, hst⟩ := mdbAddEntry_stored h
    rw [hst] at hk
    split_ifs at hk with heq
    · subst heq
      cases hs : db.stored k with
      | none =>
        rw [hs] at hk
        exact .inr ⟨hk0, (some.inj hk).symm⟩
      | some r' =>
        rw [hs] at hk
        exact .inl hk
    · exact .inl hk
  · rw [mdbAddEntry_bad h hret] at hk
    exact .inl hk

theorem msAddLispSitePrefix_ok (h : (msAddLispSitePrefix site).run s = .ok (u, s')) :
    ∃ ret db, mdbAddEntry s.lispSitesDb site.eidPrefix s.sites.next = .ok (ret, db) ∧
      s' = { s with sites := s.sites.alloc site, lispSitesDb := db } := by
  rw [msAddLispSitePrefix, get_bind_ok] at h
  obtain ⟨⟨ret, db⟩, s1, hadd, hset⟩ := bind_ok.mp h
  obtain ⟨ha, rfl⟩ := lift_ok.mp hadd
  obtain ⟨-, rfl⟩ := set_ok.mp hset
  exact ⟨ret, db, ha, rfl⟩

theorem configureRegisteredSite_ok (h : (configureRegisteredSite m).run s = .ok (u, s')) :
    s' = s ∨ ∃ ret db, mdbAddEntry s.regSitesDb m.eidPrefix s.rsites.next = .ok (ret, db) ∧
      s' = { s with rsites := s.rsites.alloc ⟨m⟩, regSitesDb := db } := by
  rw [configureRegisteredSite, get_bind_ok] at h
  obtain ⟨o, s1, hlookup, hrest⟩ := bind_ok.mp h
  obtain ⟨-, rfl⟩ := lift_ok.mp hlookup
  cases o with
  | some r =>
    obtain ⟨rfl, rfl⟩ := pure_ok.mp hrest
    exact .inl rfl
  | none =>
    obtain ⟨⟨ret, db⟩, s2, hadd, hset⟩ := bind_ok.mp hrest
    obtain ⟨ha, rfl⟩ := lift_ok.mp hadd
    obtain ⟨-, rfl⟩ := set_ok.mp hset
    exact .inr ⟨ret, db, ha, rfl⟩

theorem MsStartedWith.booted (h : MsStartedWith conf s) : Booted conf s := by
  obtain ⟨_, h⟩ := h
  obtain ⟨_, s1, hsites, hstatics⟩ := bind_ok.mp h
  have hempty : Booted conf msCtrlConstruct :=
    ⟨by simp [msCtrlConstruct], by simp [msCtrlConstruct, mdbNew_stored],
      by simp [msCtrlConstruct], rfl, rfl⟩
  have h1 : Booted conf s1 := by
    refine forM_keeps (fun site hsite _ s s' hI hrun => ?_) hempty hsites
    obtain ⟨ret, db, -, rfl⟩ := msAddLispSitePrefix_ok hrun
    refine ⟨fun sp site' hcell => ?_, hI.stored, hI.rsite, hI.ts, hI.accepted⟩
    rw [alloc_cell] at hcell
    split_ifs at hcell
    · cases hcell
      exact hsite
    · exact hI.site sp site' hcell
  refine forM_keeps (fun m hm _ s s' hI hrun => ?_) h1 hstatics
  obtain rfl | ⟨ret, db, ha, rfl⟩ := configureRegisteredSite_ok hrun
  · exact hI
  · refine ⟨hI.site, fun k r hk => ?_, fun r rs hcell => ?_, hI.ts, hI.accepted⟩
    · obtain hold | ⟨hkey, rfl⟩ := stored_of_mdbAddEntry ha hk
      · obtain ⟨m', hm', hcell, hkey⟩ := hI.stored k r hold
        have hne : r ≠ s.rsites.next := Nat.ne_of_lt (lt_next hcell)
        refine ⟨m', hm', ?_, hkey⟩
        rw [alloc_cell, if_neg hne, hcell]
      · refine ⟨m, hm, ?_, hkey⟩
        rw [alloc_cell, if_pos rfl]
    · rw [alloc_cell] at hcell
      split_ifs at hcell
      · cases hcell
        exact hm
      · exact hI.rsite r rs hcell

/-! ## Runs of a list of events -/

/-- Start the Map-Server and run a list of events, as long as each of them meets `ok`. -/
def msRunEvents (hmac : Hmac) (ok : MapServer → MsEvent → Prop)
    [∀ s ev, Decidable (ok s ev)] (conf : MsConf) (evs : List MsEvent) : Option MapServer :=
  match (msBoot conf).run msCtrlConstruct with
  | .ok (_, s) => runWhile (msStep hmac) ok evs s
  | .error _ => none

/-- What holds at the end of such a run holds in a reachable state. -/
theorem MsReach.of_events [∀ s ev, Decidable (ok s ev)]
    {Q : MapServer → Prop} [DecidablePred Q] (conf : MsConf) (evs : List MsEvent)
    (h : (msRunEvents hmac ok conf evs).any (fun s => decide (Q s)) = true) :
    ∃ s, MsReach hmac conf ok s ∧ Q s := by
  obtain ⟨s, hs, hQ⟩ := (any_eq_true _ _).mp h
  refine ⟨s, ?_, of_decide_eq_true hQ⟩
  unfold msRunEvents at hs
  split at hs
  · rename_i hboot
    exact Reach.runWhile evs (.start ⟨_, hboot⟩) hs
  · cases hs

end Register

/-! ## A small Map-Server

Two site prefixes: `10.0.0.0/8` with the key `a`, and `11.0.0.0/8` with the key `ab`, which accepts
more specifics. -/

/-- A digest of twenty bytes that tells short keys apart. -/
def labHmac (key _packet : List UInt8) : List UInt8 :=
  (key ++ List.replicate 20 7).take 20

def labKeyA : CString :=
  ⟨[97], by simp⟩

def labKeyAB : CString :=
  ⟨[97, 98], by simp⟩

def labSites : List LispSitePrefix :=
  [⟨.ippref (.v4 0x0a000000#32) 8, false, false, labKeyA, false⟩,
    ⟨.ippref (.v4 0x0b000000#32) 8, false, true, labKeyAB, false⟩]

def labMsConf : MsConf :=
  ⟨labSites, []⟩

/-- The Map-Server right after its start. -/
def labServer : MapServer :=
  match (msBoot labMsConf).run msCtrlConstruct with
  | .ok (_, s) => s
  | .error _ => msCtrlConstruct

/-- A record for an IPv4 prefix, with one locator. -/
def labSiteRecord (base : BitVec 32) (plen : UInt8) (ttl : UInt32) : RawRecord :=
  .wellFormed
    ⟨ttl, 0, 1, .ip (.v4 base), plen, [⟨.ip (.v4 77), true, false, false, 1, 100, 255, 0⟩]⟩

/-- A Map-Register authenticated with a key. -/
def labRegister (key : CString) (proxyReply : Bool) (records : List RawRecord) : MapRegisterMsg :=
  ⟨5, proxyReply, true, UInt8.ofNat records.length, records, ⟨1, 20, labHmac key.bytes [], []⟩⟩

end Lispmob
