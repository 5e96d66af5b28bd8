import Lispmob.LocatorLists
import Lispmob.Registrations

/-!
# What a registration says about the last record accepted for it

A record for a registered prefix that compares as equal with the stored mapping changes nothing but
the timer, and one that differs replaces the locators only: TTL and action are never written again,
and the proxy-reply bit of an equal record is dropped. The bit belongs to the site prefix, so a
record for another prefix of the site writes it too.

`registration_agrees` is the statement for the runs in which records do not ask for such a change
and have plain locators; `refresh_keeps_ttl` is a refresh with another TTL and another proxy-reply
bit.
-/

namespace Lispmob

open Prog Option List

variable {s s' : MapServer} {k : MdbKey} {m : Mapping} {a : Registration} {raw : RawRecord}

/-! ## Keys of network prefixes -/

theorem prefixKey_injective {a a' n n' : IpAddr} {plen plen' : UInt8}
    (h : networkAddress a plen = .ok n) (h' : networkAddress a' plen' = .ok n')
    (hk : prefixKey n plen = prefixKey n' plen') : n = n' ∧ plen = plen' := by
  obtain ⟨hle, hafi, hbits⟩ := networkAddress_bits h
  obtain ⟨hle', hafi', hbits'⟩ := networkAddress_bits h'
  obtain ⟨hfam, htake⟩ := MdbKey.ip.inj hk
  have hmask : ∀ {x y : IpAddr}, ipAddrAfi x = ipAddrAfi y →
      ipAddrAfiToDefaultMask x = ipAddrAfiToDefaultMask y := by
    intro x y hxy
    cases x <;> cases y <;> first | rfl | cases hxy
  have hlen := congrArg length htake
  rw [networkAddress_take h, networkAddress_take h', length_take, length_take,
    ipBits_length, ipBits_length, Nat.min_eq_left (UInt8.le_iff_toNat_le.mp hle),
    Nat.min_eq_left (UInt8.le_iff_toNat_le.mp hle')] at hlen
  have hplen : plen = plen' := UInt8.toNat_inj.mp hlen
  subst hplen
  refine ⟨ipBits_injective ?_, rfl⟩
  rw [networkAddress_take h, networkAddress_take h'] at htake
  rw [hbits, hbits', htake, hmask (hafi.symm.trans (hfam.trans hafi'))]

/-! ## The last accepted record -/

/-- The last record accepted for a prefix. -/
def MapServer.lastAccepted (s : MapServer) (k : MdbKey) : Option Registration :=
  s.accepted.find? fun a => mdbKey a.record.eidPrefix = some k

theorem lastAccepted_mem (h : s.lastAccepted k = some a) :
    a ∈ s.accepted ∧ mdbKey a.record.eidPrefix = some k :=
  ⟨mem_of_find?_eq_some h, by simpa using find?_some h⟩

/-- The registered mapping says what the record said, and the site prefix of the record has the
proxy-reply setting of its message. -/
structure Agrees (s : MapServer) (a : Registration) (m : Mapping) : Prop where
  ttl : m.ttl = a.record.ttl
  action : m.action = a.record.action
  locators : (m.locators.map Locator.content).Perm (a.record.locators.map Locator.content)
  proxyReply : (s.sites.cell a.site).map LispSitePrefix.proxyReply = some a.proxyReply

/-- Every registration agrees with the last record accepted for it. -/
def AllAgree (s : MapServer) : Prop :=
  ∀ k a m, s.lastAccepted k = some a → s.registration k = some m → Agrees s a m

/-- A registered prefix was last accepted under the site prefix. -/
def SiteInUse (s : MapServer) (sp : Nat) : Prop :=
  ∃ a ∈ s.accepted, a.site = sp ∧ ∃ k ∈ mdbKey a.record.eidPrefix,
    s.lastAccepted k = some a ∧ (s.registration k).isSome = true

instance (s : MapServer) (sp : Nat) : Decidable (SiteInUse s sp) :=
  inferInstanceAs (Decidable (∃ a ∈ _, _ ∧ _))

theorem SiteInUse.of_last (ha : s.lastAccepted k = some a)
    (hm : s.registration k = some m) : SiteInUse s a.site := by
  obtain ⟨hmem, hkey⟩ := lastAccepted_mem ha
  exact ⟨a, hmem, rfl, k, hkey, ha, by rw [hm]; rfl⟩

/-! ## The condition -/

/-- The record of a message, with the mapping and the site prefix it matches, asks for no change
that is not made: it has the TTL and the action of the registration of its prefix, and the message
has the proxy-reply setting of its site prefix when that is in use. -/
@[mk_iff] structure AsksNoChange (s : MapServer) (msg : MapRegisterMsg)
    (x : Mapping × Nat × LispSitePrefix) : Prop where
  stored : ∀ m₀ ∈ (mdbKey x.1.eidPrefix).bind s.registration,
    m₀.ttl = x.1.ttl ∧ m₀.action = x.1.action
  proxyReply : ((mdbKey x.1.eidPrefix).bind s.registration).isSome = true ∨ SiteInUse s x.2.1 →
    x.2.2.proxyReply = msg.proxyReply

instance (s : MapServer) (msg : MapRegisterMsg) (x : Mapping × Nat × LispSitePrefix) :
    Decidable (AsksNoChange s msg x) :=
  decidable_of_iff _ (asksNoChange_iff s msg x).symm

/-- The records of a Map-Register have plain locators and ask for no change that is not made; two
records for one prefix have one TTL and one action. -/
def KeepsAgreement (s : MapServer) : MsEvent → Prop
  | .mapRegister msg => ∀ raw ∈ readRecords msg.records msg.recCount.toNat, raw.plain ∧
      ∀ x ∈ siteMatch s raw, AsksNoChange s msg x ∧
        ∀ raw' ∈ readRecords msg.records msg.recCount.toNat, ∀ x' ∈ siteMatch s raw',
          x'.1.eidPrefix = x.1.eidPrefix → x'.1.ttl = x.1.ttl ∧ x'.1.action = x.1.action
  | _ => True

instance (s : MapServer) : ∀ e, Decidable (KeepsAgreement s e)
  | .mapRegister _ => inferInstanceAs (Decidable (∀ raw ∈ _, _))
  | .tick | .wheel => inferInstanceAs (Decidable True)

/-! ## One record -/

/-- The mapping that is registered after a record with plain locators. -/
theorem Stores.agrees {m m' : Mapping} {o : Option Mapping} (h : Stores false m o m')
    (hg : Grouped m.locatorsLists)
      (hsame : ∀ m₀, o = some m₀ → m₀.ttl = m.ttl ∧ m₀.action = m.action) :
    m'.ttl = m.ttl ∧ m'.action = m.action ∧
      (m'.locators.map Locator.content).Perm (m.locators.map Locator.content) := by
  cases h with
  | @same m₀ hcmp =>
    obtain ⟨httl, hact⟩ := hsame _ rfl
    simp only [mappingCmp, Bool.and_eq_true] at hcmp
    have hcontents := locatorsListsCmp_contents (fun l hl => (hg l hl).plain) hcmp.2
    exact ⟨httl, hact, List.Perm.of_eq hcontents⟩
  | merged hmerge => cases hmerge
  | @updated m₀ _ next hu =>
    obtain ⟨-, httl, hact⟩ := mappingUpdateLocators_keeps hu
    obtain ⟨httl0, hact0⟩ := hsame _ rfl
    exact ⟨httl.trans httl0, hact.trans hact0, mappingUpdateLocators_contents hu hg⟩
  | added => exact ⟨rfl, rfl, List.Perm.refl _⟩

/-- The mapping of a record with plain locators has grouped lists. -/
theorem parseRegisterRecord_grouped
    (h : parseRegisterRecord raw = .ok (some m)) (hp : raw.plain) : Grouped m.locatorsLists := by
  rw [parseRegisterRecord, except_bind_ok] at h
  obtain ⟨p, hparse, h⟩ := h
  split_ifs at h with hret
  · cases except_pure_ok.mp h
  · obtain ⟨o, -, h⟩ := except_bind_ok.mp h
    cases o with
    | none => cases except_throw_ok.mp h
    | some eid =>
      cases except_pure_ok.mp h
      exact lispMsgParseMappingRecord_grouped hparse (not_not.mp hret) hp

section Records

variable {sp : Nat} {b : Bool} {n : IpAddr} {plen : UInt8} {site : LispSitePrefix}

/-- The site prefixes after a record: that of the record has the bit of the message, unless the
record compares as equal with a registration. -/
theorem Registers.sites (h : Registers sp m b s s') (hs : s.sites.cell sp = some site)
    (heid : m.eidPrefix = .ippref n plen)
    (hsame : (s.registration (prefixKey n plen)).isSome = true → site.proxyReply = b) (i : Nat) :
    s'.sites.cell i = if i = sp then some { site with proxyReply := b } else s.sites.cell i := by
  have hmodify : ((s.sites.modify sp fun site => { site with proxyReply := b }).cell i) =
      if i = sp then some { site with proxyReply := b } else s.sites.cell i := by
    rw [Heap.modify_cell, hs]
    rfl
  cases h with
  | same hl hr =>
    split_ifs with hi
    · obtain ⟨-, hreg⟩ := refreshed_registration heid hl hr
      have hb := hsame (by rw [hreg]; rfl)
      rw [hi, hs, ← hb]
    · rfl
  | merged | updated | added => exact hmodify

theorem Registers.lastAccepted (h : Registers sp m b s s') (heid : m.eidPrefix = .ippref n plen)
    (k : MdbKey) :
    s'.lastAccepted k =
      if k = prefixKey n plen then some ⟨sp, m, b, s.now⟩ else s.lastAccepted k := by
  unfold MapServer.lastAccepted
  have hkey : mdbKey m.eidPrefix = some (prefixKey n plen) := by rw [heid]; rfl
  rw [h.accepted, find?_cons, hkey]
  split_ifs with hk
  · simp [hk]
  · simp [Ne.symm hk]

/-- One record that asks for no change that is not made. -/
theorem Registers.allAgree (h : Registers sp m b s s') (hw : s.Wf) (hI : AllAgree s)
    (heid : m.eidPrefix = .ippref n plen) (hg : Grouped m.locatorsLists)
    (hs : s.sites.cell sp = some site) (hmerge : site.merge = false)
    (hstored : ∀ m₀, s.registration (prefixKey n plen) = some m₀ →
      m₀.ttl = m.ttl ∧ m₀.action = m.action)
    (hproxy : (s.registration (prefixKey n plen)).isSome = true ∨ SiteInUse s sp →
      site.proxyReply = b) :
    s'.Wf ∧ AllAgree s' ∧ ∀ k m', s'.registration k = some m' →
      if k = prefixKey n plen then m'.ttl = m.ttl ∧ m'.action = m.action
      else s.registration k = some m' := by
  obtain ⟨hw', m1, merge, hstores, hmergeOf, hreg⟩ := h.registration hw heid
  have hsites := h.sites hs heid fun hsome => hproxy (.inl hsome)
  have hno : merge = false := by
    by_contra hne
    obtain ⟨site', hs', hm'⟩ := hmergeOf (Bool.not_eq_false _ ▸ hne)
    rw [hs] at hs'
    cases hs'
    rw [hmerge] at hm'
    cases hm'
  subst hno
  obtain ⟨httl, hact, hloc⟩ := hstores.agrees hg hstored
  refine ⟨hw', fun k a mk ha hmk => ?_, fun k mk hmk => ?_⟩
  · rw [h.lastAccepted heid] at ha
    rw [hreg] at hmk
    split_ifs at ha hmk with hk
    · cases ha
      cases hmk
      exact ⟨httl, hact, hloc, by rw [hsites, if_pos rfl]; rfl⟩
    · obtain ⟨httl', hact', hloc', hsite'⟩ := hI k a mk ha hmk
      refine ⟨httl', hact', hloc', ?_⟩
      rw [hsites]
      split_ifs with ha'
      · -- the site prefix is in use, so it keeps its setting
        rw [ha', hs] at hsite'
        rw [← hproxy (.inr (ha' ▸ .of_last ha hmk))]
        exact hsite'
      · exact hsite'
  · rw [hreg] at hmk
    split_ifs at hmk ⊢ with hk
    · cases hmk
      exact ⟨httl, hact⟩
    · exact hmk

end Records

/-! ## Messages and runs -/

section Runs

variable {hmac : Hmac} {conf : MsConf} {e : MsEvent}

/-- What holds between two records of a message that keeps the agreement. -/
structure BetweenRecords (conf : MsConf) (msg : MapRegisterMsg) (s0 s : MapServer) : Prop where
  wf : s.Wf
  configured : Configured conf s
  agree : AllAgree s
  sites : SameSites s0 s
  asks : ∀ raw ∈ readRecords msg.records msg.recCount.toNat,
    ∀ x ∈ siteMatch s raw, AsksNoChange s msg x

/-- The records after one that was accepted still ask for no change that is not made. -/
theorem BetweenRecords.next {msg : MapRegisterMsg} {s0 : MapServer}
    {sp : Nat} {site : LispSitePrefix} (h : BetweenRecords conf msg s0 s)
    (hmerge : ∀ site ∈ conf.lispSites, site.merge = false)
    (hok : KeepsAgreement s0 (.mapRegister msg))
    (hraw : raw ∈ readRecords msg.records msg.recCount.toNat)
    (hmatch : siteMatch s raw = some (m, sp, site)) (hr : Registers sp m msg.proxyReply s s') :
    BetweenRecords conf msg s0 s' := by
  obtain ⟨hp, hlookup, hcell⟩ := siteMatch_eq_some_iff.mp hmatch
  obtain ⟨_, a, n, plen, -, -, hnet, heid, -⟩ := parseRegisterRecord_some hp
  have hkey : mdbKey m.eidPrefix = some (prefixKey n plen) := by rw [heid]; rfl
  have hasks := h.asks raw hraw _ hmatch
  have hstored : ∀ m0, s.registration (prefixKey n plen) = some m0 →
      m0.ttl = m.ttl ∧ m0.action = m.action := by
    intro m0 hm0
    refine hasks.stored m0 ?_
    rw [hkey]
    exact hm0
  have hproxy : (s.registration (prefixKey n plen)).isSome = true ∨ SiteInUse s sp →
      site.proxyReply = msg.proxyReply := by
    intro huse
    refine hasks.proxyReply ?_
    rw [hkey]
    exact huse
  have hnomerge : site.merge = false := by
    obtain ⟨site0, hmem, hf⟩ := h.configured sp site hcell
    rw [(LispSitePrefix.fixed_eq hf).2.2.2]
    exact hmerge site0 hmem
  obtain ⟨hw', hagree', hback⟩ := hr.allAgree h.wf h.agree heid
    (parseRegisterRecord_grouped hp (hok raw hraw).1) hcell hnomerge hstored hproxy
  refine ⟨hw', hr.sameSites.isConfigured h.configured, hagree', h.sites.trans hr.sameSites, ?_⟩
  rintro raw' hraw' ⟨m', sp', site'⟩ hmatch'
  obtain ⟨hp', hlookup', hcell'⟩ := siteMatch_eq_some_iff.mp hmatch'
  obtain ⟨_, a', n', plen', -, -, hnet', heid', -⟩ := parseRegisterRecord_some hp'
  have hkey' : mdbKey m'.eidPrefix = some (prefixKey n' plen') := by rw [heid']; rfl
  -- a record with the key of the one that was accepted has its EID prefix, and its site prefix
  have hsame : prefixKey n' plen' = prefixKey n plen →
      m'.eidPrefix = m.eidPrefix ∧ sp' = sp := by
    intro heq
    obtain ⟨rfl, rfl⟩ := prefixKey_injective hnet' hnet heq
    have heids : m'.eidPrefix = m.eidPrefix := heid'.trans heid.symm
    rw [hr.sameSites.db, heids, hlookup] at hlookup'
    exact ⟨heids, (Option.some.inj (Except.ok.inj hlookup')).symm⟩
  have hsites := hr.sites hcell heid fun hsome => hproxy (.inl hsome)
  -- what the record asked for before
  obtain ⟨site1, hmatch1, -⟩ := hr.sameSites.siteMatch hmatch'
  have hasks1 := h.asks raw' hraw' _ hmatch1
  refine ⟨fun m0 hm0 => ?_, fun huse => ?_⟩
  · rw [hkey', bind_some] at hm0
    have hold := hback _ m0 hm0
    split_ifs at hold with hk
    · obtain ⟨site2, hmatch2, -⟩ := h.sites.siteMatch hmatch
      obtain ⟨site3, hmatch3, -⟩ := (h.sites.trans hr.sameSites).siteMatch hmatch'
      have htwo := ((hok raw hraw).2 _ hmatch2).2 raw' hraw' _ hmatch3 (hsame hk).1
      exact ⟨hold.1.trans htwo.1.symm, hold.2.trans htwo.2.symm⟩
    · refine hasks1.stored m0 ?_
      rw [hkey', bind_some]
      exact hold
  · rw [hsites] at hcell'
    split_ifs at hcell' with hsp
    · cases hcell'
      rfl
    · have hcell1 := (siteMatch_eq_some_iff.mp hmatch1).2.2
      rw [hcell'] at hcell1
      cases hcell1
      -- another site prefix: nothing of it was written, and it is in use only if it was before
      refine hasks1.proxyReply ?_
      rw [hkey', bind_some] at huse ⊢
      have hreg : ∀ k, k ≠ prefixKey n plen → (s'.registration k).isSome = true →
          (s.registration k).isSome = true := by
        intro k hk hsome
        obtain ⟨mk, hmk⟩ := isSome_iff_exists.mp hsome
        have hold := hback k mk hmk
        rw [if_neg hk] at hold
        rw [hold]
        rfl
      rcases huse with hsome | ⟨b, -, hbsite, k, hbkey, hlast, hsome⟩
      · exact .inl (hreg _ (fun heq => hsp (hsame heq).2) hsome)
      · rw [hr.lastAccepted heid] at hlast
        split_ifs at hlast with hk
        · cases hlast
          exact absurd hbsite.symm hsp
        · obtain ⟨mk, hmk⟩ := isSome_iff_exists.mp (hreg k hk hsome)
          exact .inr (hbsite ▸ .of_last hlast hmk)

/-- A step that is no Map-Register leaves the site prefixes and the history alone. -/
theorem MsEffect.history (h : MsEffect hmac s e s')
    (he : ∀ msg, e ≠ .mapRegister msg) : s'.sites = s.sites ∧ s'.accepted = s.accepted := by
  cases h with
  | mapRegister => exact absurd rfl (he _)
  | _ => exact ⟨rfl, rfl⟩

theorem MsEffect.allAgree (h : MsEffect hmac s e s') (hok : KeepsAgreement s e)
    (hmerge : ∀ site ∈ conf.lispSites, site.merge = false) (hw : s.Wf) (hc : Configured conf s)
    (hI : AllAgree s) : s'.Wf ∧ AllAgree s' := by
  cases e with
  | tick | wheel =>
    obtain ⟨hw', hback⟩ := h.registration hw (fun _ hmsg => by cases hmsg)
    obtain ⟨hsites, hacc⟩ := h.history (fun _ hmsg => by cases hmsg)
    refine ⟨hw', fun k a m ha hm => ?_⟩
    unfold MapServer.lastAccepted at ha
    rw [hacc] at ha
    obtain ⟨httl, hact, hloc, hproxy⟩ := hI k a m ha (hback k m hm)
    exact ⟨httl, hact, hloc, hsites ▸ hproxy⟩
  | mapRegister msg =>
    cases h with
    | notDue => exact ⟨hw, hI⟩
    | mapRegister h =>
      obtain ⟨o, hl⟩ := msRecvMapRegister_records h
      have hstart : BetweenRecords conf msg s s :=
        ⟨hw, hc, hI, .refl s, fun raw hraw x hx => ((hok raw hraw).2 x hx).1⟩
      have hend := registerRecords_keeps hl (I := BetweenRecords conf msg s) hstart
        fun raw hraw s1 m sp site s2 h1 hmatch _ hr => h1.next hmerge hok hraw hmatch hr
      exact ⟨hend.wf, hend.agree⟩

/-- Without merge semantics, in the runs in which no record asks for a change that is not made,
every registered mapping has the TTL, the action and the locators of the last record accepted for
its prefix, and the site prefix of that record has the proxy-reply setting of its message. -/
theorem registration_agrees (hmerge : ∀ site ∈ conf.lispSites, site.merge = false)
    (h : MsReach hmac conf KeepsAgreement s) {r : Nat} {rs : LispRegSite} {a : Registration}
    (hst : s.regSitesDb.stored k = some r) (hr : s.rsites.cell r = some rs)
    (ha : s.lastAccepted k = some a) : Agrees s a rs.siteMap := by
  have hI : Configured conf s ∧ s.Wf ∧ AllAgree s := by
    refine MsReach.invariant_of (I := fun s => Configured conf s ∧ s.Wf ∧ AllAgree s) ?_ ?_ h
    · intro s hs
      refine ⟨hs.booted.isConfigured, hs.booted.wf, fun k a m ha _ => ?_⟩
      unfold MapServer.lastAccepted at ha
      rw [hs.booted.accepted] at ha
      cases ha
    · rintro s e s' ⟨hc, hw, hI⟩ hok heff
      exact ⟨heff.sameSites.isConfigured hc, heff.allAgree hok hmerge hw hc hI⟩
  exact hI.2.2 k a rs.siteMap ha (registration_eq_some_iff.mpr ⟨r, hst, hr⟩)

end Runs

/-- A record of the small Map-Server with another locator. -/
def labMovedRecord : RawRecord :=
  .wellFormed ⟨10, 0, 1, .ip (.v4 0x0a000000#32), 8,
    [⟨.ip (.v4 78), true, false, false, 2, 50, 255, 0⟩]⟩

/-- A site registers and then moves to another locator. -/
theorem registration_agrees_moved :
    ∃ s rs a, MsReach labHmac labMsConf KeepsAgreement s ∧
      s.accepted.length = 2 ∧ s.regSitesDb.stored (prefixKey (.v4 0x0a000000#32) 8) = some 0 ∧
      s.rsites.cell 0 = some rs ∧
      s.lastAccepted (prefixKey (.v4 0x0a000000#32) 8) = some a ∧ Agrees s a rs.siteMap := by
  have hrun : ∃ s, MsReach labHmac labMsConf KeepsAgreement s ∧ s.accepted.length = 2 ∧
      s.regSitesDb.stored (prefixKey (.v4 0x0a000000#32) 8) = some 0 ∧
      (s.rsites.cell 0).isSome = true ∧
      (s.lastAccepted (prefixKey (.v4 0x0a000000#32) 8)).isSome = true :=
    MsReach.of_events labMsConf
      [.mapRegister (labRegister labKeyA true [labSiteRecord 0x0a000000#32 8 10]), .tick, .wheel,
        .mapRegister (labRegister labKeyA true [labMovedRecord])]
      (by decide +kernel)
  obtain ⟨s, hs, hlen, hst, hcell, hlast⟩ := hrun
  obtain ⟨rs, hrs⟩ := isSome_iff_exists.mp hcell
  obtain ⟨a, ha⟩ := isSome_iff_exists.mp hlast
  exact ⟨s, rs, a, hs, hlen, hst, hrs, ha, registration_agrees (by decide) hs hst hrs ha⟩

/-- A site registers with a TTL of 10 and the proxy-reply bit, then with a TTL of 20 and without the
bit. The registration keeps the first TTL and the site prefix the first setting. -/
theorem refresh_keeps_ttl :
    ∃ s, MsReach labHmac labMsConf (fun _ _ => True) s ∧
      (∀ site ∈ labMsConf.lispSites, site.merge = false) ∧
      s.regSitesDb.stored (prefixKey (.v4 0x0a000000#32) 8) = some 0 ∧
      (s.rsites.cell 0).map (·.siteMap.ttl) = some 10 ∧
      (s.lastAccepted (prefixKey (.v4 0x0a000000#32) 8)).map
        (fun a => (a.site, a.record.ttl, a.proxyReply)) = some (0, 20, false) ∧
      (s.sites.cell 0).map LispSitePrefix.proxyReply = some true :=
  MsReach.of_events labMsConf
    [.mapRegister (labRegister labKeyA true [labSiteRecord 0x0a000000#32 8 10]),
      .mapRegister (labRegister labKeyA false [labSiteRecord 0x0a000000#32 8 20])]
    (by decide +kernel)

end Lispmob
