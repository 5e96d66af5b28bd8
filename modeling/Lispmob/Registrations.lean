import Lispmob.RegisterEffects

/-!
# The registered sites as a map from prefixes to mappings

`MapServer.registration` reads the registered-sites database through its pointers. In a well-formed
state (`MapServer.Wf`) every entry is a live site stored under its own EID prefix, so accepting a
record changes the map at the prefix of the record only, and an expiration only removes.

A site prefix that does not accept more specifics is compared with the EID by `lisp_addr_cmp`, which
does not look at the prefix lengths. `registered_authorized` says that everything registered is
covered by the configuration in the runs in which the lengths agree whenever the addresses do;
`longer_mask_registered` is a longer prefix registered at the address of a site prefix.
-/

namespace Lispmob

open Prog Option Heap

variable {s s' : MapServer} {r : Nat} {m : Mapping} {k : MdbKey}

/-! ## Well-formed states -/

/-- Every entry of the database is a live site, stored under its own EID prefix. -/
def MapServer.Wf (s : MapServer) : Prop :=
  ∀ k r, s.regSitesDb.stored k = some r →
    ∃ rs, s.rsites.cell r = some rs ∧ mdbKey rs.siteMap.eidPrefix = some k

/-- The mapping registered under a key. -/
def MapServer.registration (s : MapServer) (k : MdbKey) : Option Mapping :=
  (s.regSitesDb.stored k).bind fun r => (s.rsites.cell r).map LispRegSite.siteMap

theorem registration_eq_some_iff :
    s.registration k = some m ↔
      ∃ r, s.regSitesDb.stored k = some r ∧ s.rsites.cell r = some ⟨m⟩ := by
  unfold MapServer.registration
  rw [bind_eq_some_iff]
  refine exists_congr fun r => and_congr_right fun _ => ?_
  rw [map_eq_some_iff]
  exact ⟨fun ⟨rs, hrs, hm⟩ => hrs.trans (congrArg some (by rw [← hm])), fun h => ⟨_, h, rfl⟩⟩

/-- In a well-formed state the registrations are the entries of the database. -/
theorem MapServer.Wf.registration_eq_none_iff (hw : s.Wf) :
    s.registration k = none ↔ s.regSitesDb.stored k = none := by
  unfold MapServer.registration
  cases hst : s.regSitesDb.stored k with
  | none => simp
  | some r =>
    obtain ⟨rs, hrs, -⟩ := hw k r hst
    simp [hrs]

/-- Two entries of the database are different sites. -/
theorem MapServer.Wf.key_unique (hw : s.Wf) {k k' : MdbKey}
    (h : s.regSitesDb.stored k = some r) (h' : s.regSitesDb.stored k' = some r) : k' = k := by
  obtain ⟨rs, hrs, hk⟩ := hw k r h
  obtain ⟨rs', hrs', hk'⟩ := hw k' r h'
  rw [hrs] at hrs'
  cases hrs'
  exact some.inj (hk'.symm.trans hk)

theorem Booted.wf {conf : MsConf} (h : Booted conf s) : s.Wf := by
  intro k r hst
  obtain ⟨m, -, hcell, hkey⟩ := h.stored k r hst
  exact ⟨⟨m⟩, hcell, hkey⟩

/-- The mapping of a record has the network prefix of its EID. -/
theorem parseRegisterRecord_some {raw : RawRecord} (h : parseRegisterRecord raw = .ok (some m)) :
    ∃ rec a n plen, raw = .wellFormed rec ∧ rec.eidPrefix = .ippref a plen ∧
      networkAddress a plen = .ok n ∧ m.eidPrefix = .ippref n plen ∧ m.ttl = rec.ttl ∧
      m.action = rec.action := by
  rw [parseRegisterRecord, except_bind_ok] at h
  obtain ⟨p, hp, h⟩ := h
  split_ifs at h with hret
  · cases except_pure_ok.mp h
  · obtain ⟨rec, rfl, heid, httl, hact⟩ :=
      lispMsgParseMappingRecord_good hp (not_not.mp hret)
    obtain ⟨o, ho, h⟩ := except_bind_ok.mp h
    cases o with
    | none => cases except_throw_ok.mp h
    | some eid =>
      cases except_pure_ok.mp h
      obtain ⟨a, n, plen, haddr, rfl, hnet⟩ := prefGetNetworkPrefix_some ho
      exact ⟨rec, a, n, plen, rfl, heid.symm.trans haddr, hnet, rfl, httl, hact⟩

/-! ## What a record does to the map -/

/-- How the mapping registered under the prefix of a record comes from the mapping that was
registered, and the mapping of the record. -/
inductive Stores (merge : Bool) (m : Mapping) : Option Mapping → Mapping → Prop where
  /-- The two compare as equal. -/
  | same {m₀ : Mapping} (hcmp : mappingCmp m₀ m = true) : Stores merge m (some m₀) m₀
  /-- The site has merge semantics. -/
  | merged {m₀ : Mapping} (hmerge : merge = true) : Stores merge m (some m₀) m₀
  /-- The locators are replaced. -/
  | updated {m₀ m' : Mapping} {next : Nat}
      (hu : mappingUpdateLocators 0 m₀ m.locatorsLists = .ok (next, m')) :
      Stores merge m (some m₀) m'
  /-- Nothing was registered. -/
  | added : Stores merge m none m

/-- The EID prefix that is registered is the one that was, or that of the record. -/
theorem Stores.eidPrefix {merge : Bool} {m m' : Mapping} {o : Option Mapping}
    (h : Stores merge m o m') : (∃ m₀, o = some m₀ ∧ m'.eidPrefix = m₀.eidPrefix) ∨ m' = m := by
  cases h with
  | same | merged => exact .inl ⟨_, rfl, rfl⟩
  | updated hu => exact .inl ⟨_, rfl, (mappingUpdateLocators_keeps hu).1⟩
  | added => exact .inr rfl

section Records

variable {sp : Nat} {b : Bool} {n : IpAddr} {plen : UInt8}

/-- The key of a prefix. -/
def prefixKey (n : IpAddr) (plen : UInt8) : MdbKey :=
  .ip (ipAddrAfi n) ((ipBits n).take plen.toNat)

theorem refreshed_registration {rs : LispRegSite} (heid : m.eidPrefix = .ippref n plen)
    (hl : mdbLookupEntryExact s.regSitesDb m.eidPrefix = .ok (some r))
    (hr : s.rsites.cell r = some rs) :
    s.regSitesDb.stored (prefixKey n plen) = some r ∧
      s.registration (prefixKey n plen) = some rs.siteMap := by
  rw [heid] at hl
  have hst : s.regSitesDb.stored (prefixKey n plen) = some r :=
    (mdbLookupEntryExact_ippref hl).symm
  exact ⟨hst, registration_eq_some_iff.mpr ⟨r, hst, hr⟩⟩

theorem added_stored {ret : Ret} {db : Mdb Nat} (heid : m.eidPrefix = .ippref n plen)
    (hl : mdbLookupEntryExact s.regSitesDb m.eidPrefix = .ok none)
    (ha : mdbAddEntry s.regSitesDb m.eidPrefix r = .ok (ret, db)) :
    s.regSitesDb.stored (prefixKey n plen) = none ∧
      ∀ k, db.stored k = if k = prefixKey n plen then some r else s.regSitesDb.stored k := by
  rw [heid] at hl ha
  have hfree : s.regSitesDb.stored (prefixKey n plen) = none :=
    (mdbLookupEntryExact_ippref hl).symm
  have hgood : ret = .GOOD := by
    simp only [mdbAddEntry, except_bind_ok, except_pure_ok] at ha
    obtain ⟨_, -, _, -, ha⟩ := ha
    cases ha
    rfl
  subst hgood
  obtain ⟨k0, hk0, hst⟩ := mdbAddEntry_stored ha
  have hkey : k0 = prefixKey n plen := (some.inj hk0).symm
  subst hkey
  refine ⟨hfree, fun k => ?_⟩
  rw [hst k, hfree, getD_none]

/-- Accepting a record keeps the state well formed and changes the registration of its prefix
only. -/
theorem Registers.registration (h : Registers sp m b s s') (hw : s.Wf)
    (heid : m.eidPrefix = .ippref n plen) :
    s'.Wf ∧ ∃ m' merge, Stores merge m (s.registration (prefixKey n plen)) m' ∧
      (merge = true → ∃ site, s.sites.cell sp = some site ∧ site.merge = true) ∧
      ∀ k, s'.registration k = if k = prefixKey n plen then some m' else s.registration k := by
  cases h with
  | @same r rs ts hl hr hcmp ht =>
    obtain ⟨hst, hreg⟩ := refreshed_registration heid hl hr
    refine ⟨hw, rs.siteMap, false, hreg ▸ .same hcmp, nofun, fun k => ?_⟩
    split_ifs with hk
    · rw [hk, ← hreg]
      rfl
    · rfl
  | @merged r rs site ts hl hr hcmp hs hmerge ht =>
    obtain ⟨hst, hreg⟩ := refreshed_registration heid hl hr
    refine ⟨hw, rs.siteMap, true, hreg ▸ .merged rfl, fun _ => ⟨site, hs, hmerge⟩, fun k => ?_⟩
    split_ifs with hk
    · rw [hk, ← hreg]
      rfl
    · rfl
  | @updated r next rs siteMap site ts hl hr hcmp hs hmerge hu ht =>
    obtain ⟨hst, hreg⟩ := refreshed_registration heid hl hr
    refine ⟨fun k i hi => ?_, siteMap, false, hreg ▸ .updated hu, nofun, fun k => ?_⟩
    · obtain ⟨rs', hrs', hkey⟩ := hw k i hi
      rw [modify_cell]
      split_ifs with hir
      · subst hir
        rw [hr] at hrs'
        cases hrs'
        refine ⟨⟨siteMap⟩, by rw [hr]; rfl, ?_⟩
        rw [(mappingUpdateLocators_keeps hu).1, hkey]
      · exact ⟨rs', hrs', hkey⟩
    · -- the site that is written is stored under this key only
      unfold MapServer.registration
      split_ifs with hk
      · rw [hk, hst, bind_some, modify_cell, if_pos rfl, hr]
        rfl
      · cases hst' : s.regSitesDb.stored k with
        | none => rfl
        | some i =>
          have hne : i ≠ r := fun heq => hk (hw.key_unique hst (heq ▸ hst'))
          rw [bind_some, bind_some, modify_cell, if_neg hne]
  | @added ret db ts hl ha ht =>
    obtain ⟨hfree, hstored⟩ := added_stored heid hl ha
    refine ⟨fun k i hi => ?_, m, false, ?_, nofun, fun k => ?_⟩
    · rw [hstored] at hi
      rw [alloc_cell]
      split_ifs at hi with hk
      · cases hi
        rw [if_pos rfl]
        exact ⟨⟨m⟩, rfl, by rw [heid, hk]; rfl⟩
      · obtain ⟨rs, hrs, hkey⟩ := hw k i hi
        rw [if_neg (Nat.ne_of_lt (lt_next hrs))]
        exact ⟨rs, hrs, hkey⟩
    · rw [hw.registration_eq_none_iff.mpr hfree]
      exact .added
    · unfold MapServer.registration
      rw [hstored]
      split_ifs with hk
      · rw [bind_some, alloc_cell, if_pos rfl]
        rfl
      · cases hst' : s.regSitesDb.stored k with
        | none => rfl
        | some i =>
          obtain ⟨rs, hrs, -⟩ := hw k i hst'
          have hne : i ≠ s.rsites.next := Nat.ne_of_lt (lt_next hrs)
          rw [bind_some, bind_some, alloc_cell, if_neg hne]

end Records

section Runs

variable {hmac : Hmac} {conf : MsConf} {e : MsEvent}

/-- A step that is no Map-Register keeps the state well formed and adds no registration. -/
theorem MsEffect.registration (h : MsEffect hmac s e s') (hw : s.Wf)
    (he : ∀ msg, e ≠ .mapRegister msg) :
    s'.Wf ∧ ∀ k m, s'.registration k = some m → s.registration k = some m := by
  cases h with
  | notDue | ticked | spokeDone | rotated => exact ⟨hw, fun _ _ hm => hm⟩
  | mapRegister => exact absurd rfl (he _)
  | @expired t ts ts' tm rs o db hv htm hty hr hrm hstop =>
    -- what is still stored is another site, so it is still live
    have hold : ∀ k i, db.stored k = some i →
        s.regSitesDb.stored k = some i ∧ i ≠ tm.cbArgument := by
      intro k i hi
      obtain ⟨hnone, -, hst⟩ | ⟨k0, hk0, -, hst⟩ := mdbRemoveEntry_stored hrm
      · rw [hst] at hi
        refine ⟨hi, fun heq => ?_⟩
        obtain ⟨rs', hrs', hkey⟩ := hw k i hi
        rw [heq, hr] at hrs'
        cases hrs'
        rw [hnone] at hkey
        cases hkey
      · rw [hst] at hi
        split_ifs at hi with hk
        refine ⟨hi, fun heq => hk ?_⟩
        obtain ⟨rs', hrs', hkey⟩ := hw k i hi
        rw [heq, hr] at hrs'
        cases hrs'
        exact some.inj (hkey.symm.trans hk0)
    refine ⟨fun k i hi => ?_, fun k m hm => ?_⟩
    · obtain ⟨hi0, hne⟩ := hold k i hi
      rw [free_cell, if_neg hne]
      exact hw k i hi0
    · obtain ⟨i, hi, hcell⟩ := registration_eq_some_iff.mp hm
      obtain ⟨hi0, hne⟩ := hold k i hi
      rw [free_cell, if_neg hne] at hcell
      exact registration_eq_some_iff.mpr ⟨i, hi0, hcell⟩

/-- The site prefixes are those of the configuration, but for their proxy-reply settings. -/
def Configured (conf : MsConf) (s : MapServer) : Prop :=
  ∀ sp site, s.sites.cell sp = some site → ∃ site₀ ∈ conf.lispSites, site.fixed = site₀.fixed

theorem Booted.isConfigured (h : Booted conf s) : Configured conf s :=
  fun sp site hcell => ⟨site, h.site sp site hcell, rfl⟩

theorem SameSites.isConfigured (h : SameSites s s') (hc : Configured conf s) :
    Configured conf s' := by
  intro sp site hcell
  obtain ⟨site1, hcell1, hf⟩ := h.back hcell
  obtain ⟨site0, hmem, hf0⟩ := hc sp site1 hcell1
  exact ⟨site0, hmem, hf.trans hf0⟩

theorem MsEffect.sameSites (h : MsEffect hmac s e s') : SameSites s s' := by
  cases h with
  | mapRegister h => exact msRecvMapRegister_sameSites h
  | _ => exact ⟨rfl, fun _ => rfl⟩

/-! ## Authorized prefixes -/

/-- The configuration covers the prefix: a site prefix that accepts more specifics contains it, or a
site prefix is equal to it. -/
def Authorized (conf : MsConf) (eid : LispAddr) : Prop :=
  (∃ site ∈ conf.lispSites, site.acceptMoreSpecifics = true ∧ PrefixContains site.eidPrefix eid) ∨
    ∃ site ∈ conf.lispSites, site.eidPrefix = eid

/-- A record at the address of a site prefix that does not accept more specifics has its length. -/
def LengthsMatch (s : MapServer) : MsEvent → Prop
  | .mapRegister msg => ∀ raw ∈ readRecords msg.records msg.recCount.toNat,
      ∀ x ∈ siteMatch s raw, x.2.2.acceptMoreSpecifics = false →
        lispAddrCmp x.2.2.eidPrefix x.1.eidPrefix = 0 →
          lispAddrGetPlen x.1.eidPrefix = lispAddrGetPlen x.2.2.eidPrefix
  | _ => True

instance (s : MapServer) : ∀ e, Decidable (LengthsMatch s e)
  | .mapRegister _ => inferInstanceAs (Decidable (∀ raw ∈ _, _))
  | .tick | .wheel => inferInstanceAs (Decidable True)

/-- What the check of a record's EID lets through, when its length is right. -/
theorem acceptsEid_authorized {site : LispSitePrefix} {eid : LispAddr}
    (ha : acceptsEid site eid = .ok true)
    (hlen : site.acceptMoreSpecifics = false → lispAddrCmp site.eidPrefix eid = 0 →
      lispAddrGetPlen eid = lispAddrGetPlen site.eidPrefix)
    (heid : ∃ n plen, eid = .ippref n plen) :
    (site.acceptMoreSpecifics = true ∧ PrefixContains site.eidPrefix eid) ∨
      site.eidPrefix = eid := by
  rw [acceptsEid] at ha
  split_ifs at ha with hmore
  · exact .inl ⟨hmore, prefIsPrefixBPartOfA_contains ha⟩
  · rw [Bool.not_eq_true] at hmore
    have hcmp : lispAddrCmp site.eidPrefix eid = 0 := of_decide_eq_true (Except.ok.inj ha)
    have hplen := hlen hmore hcmp
    obtain ⟨n, plen, rfl⟩ := heid
    right
    cases hsite : site.eidPrefix with
    | ippref a p =>
      rw [hsite] at hcmp hplen
      rw [(lispAddrCmp_ippref_eq_zero_iff a n p plen).mp hcmp, show plen = p from hplen]
    | _ =>
      rw [hsite] at hcmp
      cases hcmp

theorem MsEffect.authorized (h : MsEffect hmac s e s') (hok : LengthsMatch s e)
    (hw : s.Wf) (hc : Configured conf s)
    (hI : ∀ k m, s.registration k = some m → Authorized conf m.eidPrefix) :
    s'.Wf ∧ ∀ k m, s'.registration k = some m → Authorized conf m.eidPrefix := by
  cases e with
  | tick | wheel =>
    obtain ⟨hw', hback⟩ := h.registration hw (fun _ hmsg => by cases hmsg)
    exact ⟨hw', fun k m hm => hI k m (hback k m hm)⟩
  | mapRegister msg =>
    cases h with
    | notDue => exact ⟨hw, hI⟩
    | mapRegister h =>
      obtain ⟨o, hl⟩ := msRecvMapRegister_records h
      have hkeep := registerRecords_keeps hl
        (I := fun s1 => SameSites s s1 ∧ s1.Wf ∧
          ∀ k m, s1.registration k = some m → Authorized conf m.eidPrefix) ⟨.refl s, hw, hI⟩ ?_
      · exact hkeep.2
      · rintro raw hraw s1 m sp site s2 ⟨hsame, hw1, hI1⟩ hmatch ha hr
        obtain ⟨hp, -, hcell⟩ := siteMatch_eq_some_iff.mp hmatch
        obtain ⟨_, _, n, plen, -, -, -, heid, -⟩ := parseRegisterRecord_some hp
        obtain ⟨hw2, m', merge, hstores, -, hreg⟩ := hr.registration hw1 heid
        refine ⟨hsame.trans hr.sameSites, hw2, fun k mk hmk => ?_⟩
        rw [hreg] at hmk
        split_ifs at hmk
        · cases hmk
          obtain ⟨m0, hm0, heq⟩ | rfl := hstores.eidPrefix
          · rw [heq]
            exact hI1 _ m0 hm0
          · -- the record adds a prefix: what the check says about its site prefix
            obtain ⟨site1, hmatch1, hf1⟩ := hsame.siteMatch hmatch
            obtain ⟨site0, hmem, hf0⟩ :=
              hc sp site1 (siteMatch_eq_some_iff.mp hmatch1).2.2
            obtain ⟨he1, hacc1, -⟩ := LispSitePrefix.fixed_eq hf1
            obtain ⟨he0, hacc0, -⟩ := LispSitePrefix.fixed_eq hf0
            have hlen := hok raw hraw _ hmatch1
            rw [← he1, ← hacc1] at hlen
            have hauth := acceptsEid_authorized ha hlen ⟨n, plen, heid⟩
            rw [he1, he0, hacc1, hacc0] at hauth
            rcases hauth with hin | heq
            · exact .inl ⟨site0, hmem, hin⟩
            · exact .inr ⟨site0, hmem, heq⟩
        · exact hI1 k mk hmk

/-- From an empty database on, in the runs in which the records at the address of a site prefix
without more specifics have its length, every registered prefix is covered by the configuration. -/
theorem registered_authorized (hempty : conf.staticSites = [])
    (h : MsReach hmac conf LengthsMatch s) {k : MdbKey} {r : Nat}
    (hst : s.regSitesDb.stored k = some r) :
    ∃ rs, s.rsites.cell r = some rs ∧ mdbKey rs.siteMap.eidPrefix = some k ∧
      Authorized conf rs.siteMap.eidPrefix := by
  have hI : Configured conf s ∧ s.Wf ∧
      ∀ k m, s.registration k = some m → Authorized conf m.eidPrefix := by
    refine MsReach.invariant_of (I := fun s => Configured conf s ∧ s.Wf ∧
      ∀ k m, s.registration k = some m → Authorized conf m.eidPrefix) ?_ ?_ h
    · intro s hs
      refine ⟨hs.booted.isConfigured, hs.booted.wf, fun k m hm => ?_⟩
      obtain ⟨r, hst, -⟩ := registration_eq_some_iff.mp hm
      obtain ⟨m0, hm0, -⟩ := hs.booted.stored k r hst
      rw [hempty] at hm0
      cases hm0
    · rintro s e s' ⟨hc, hw, hI⟩ hok heff
      exact ⟨heff.sameSites.isConfigured hc, heff.authorized hok hw hc hI⟩
  obtain ⟨-, hw, hauth⟩ := hI
  obtain ⟨rs, hrs, hkey⟩ := hw k r hst
  exact ⟨rs, hrs, hkey, hauth k rs.siteMap (registration_eq_some_iff.mpr ⟨r, hst, hrs⟩)⟩

end Runs

/-- Both sites of the small Map-Server register: `10.0.0.0/8`, and `11.1.0.0/16` as a more specific
prefix. -/
theorem registered_authorized_lab :
    ∃ s, MsReach labHmac labMsConf LengthsMatch s ∧
      s.regSitesDb.stored (prefixKey (.v4 0x0a000000#32) 8) = some 0 ∧
      s.regSitesDb.stored (prefixKey (.v4 0x0b010000#32) 16) = some 1 ∧
      ∀ k r, s.regSitesDb.stored k = some r →
        ∃ rs, s.rsites.cell r = some rs ∧ mdbKey rs.siteMap.eidPrefix = some k ∧
          Authorized labMsConf rs.siteMap.eidPrefix := by
  have hrun : ∃ s, MsReach labHmac labMsConf LengthsMatch s ∧
      s.regSitesDb.stored (prefixKey (.v4 0x0a000000#32) 8) = some 0 ∧
      s.regSitesDb.stored (prefixKey (.v4 0x0b010000#32) 16) = some 1 :=
    MsReach.of_events labMsConf
      [.mapRegister (labRegister labKeyA true [labSiteRecord 0x0a000000#32 8 10]),
        .mapRegister (labRegister labKeyAB true [labSiteRecord 0x0b010000#32 16 10])]
      (by decide +kernel)
  obtain ⟨s, hs, h0, h1⟩ := hrun
  exact ⟨s, hs, h0, h1, fun k r hst => registered_authorized rfl hs hst⟩

/-- `10.0.0.0/24` is registered although the only site prefix at that address is `10.0.0.0/8`, which
does not accept more specifics. -/
theorem longer_mask_registered :
    ∃ s, MsReach labHmac labMsConf (fun _ _ => True) s ∧
      (∃ r, s.regSitesDb.stored (prefixKey (.v4 0x0a000000#32) 24) = some r ∧
        (s.rsites.cell r).map (·.siteMap.eidPrefix) = some (.ippref (.v4 0x0a000000#32) 24)) ∧
      ¬ Authorized labMsConf (.ippref (.v4 0x0a000000#32) 24) := by
  have hrun : ∃ s, MsReach labHmac labMsConf (fun _ _ => True) s ∧
      s.regSitesDb.stored (prefixKey (.v4 0x0a000000#32) 24) = some 0 ∧
      (s.rsites.cell 0).map (·.siteMap.eidPrefix) = some (.ippref (.v4 0x0a000000#32) 24) :=
    MsReach.of_events labMsConf
      [.mapRegister (labRegister labKeyA true [labSiteRecord 0x0a000000#32 24 10])]
      (by decide +kernel)
  obtain ⟨s, hs, hst, hcell⟩ := hrun
  refine ⟨s, hs, ⟨0, hst, hcell⟩, ?_⟩
  rintro (⟨site, hsite, hmore, hin⟩ | ⟨site, hsite, heq⟩)
  · obtain rfl | rfl := List.mem_pair.mp hsite
    · cases hmore
    · obtain ⟨-, hbits⟩ := hin (.v4 0x0a000000#32) ⟨rfl, List.take_prefix _ _⟩
      revert hbits
      decide
  · obtain rfl | rfl := List.mem_pair.mp hsite
    · revert heq
      decide
    · revert heq
      decide

end Lispmob
