import Lispmob.RegisterEffects

/-!
# Authentication of registered records

The Map-Server verifies a Map-Register once, with the key `K` of the first record that matches a
site prefix. A later record is accepted when the key of its own site prefix starts with `K`, and the
digests are compared as C strings. So a record can be registered under a site prefix with whose key
the message does not verify.

`registered_verified_iff` says exactly when every registered record is authenticated by the key of
its own site prefix: when the message passes the check with `K`, the authentication data is the HMAC
under the key of every site prefix that accepts one of the records and whose key starts with `K`.
-/

namespace Lispmob

open Prog List

variable {hmac : Hmac} {auth : AuthField}

/-! ## Comparison of keys -/

/-- `strncmp` over the length of the first string: the first is an initial segment of the second. -/
theorem strncmpEq_length_iff : ∀ {a b : List UInt8}, (∀ x ∈ a, x ≠ 0) →
    (strncmpEq a.length a b = true ↔ a <+: b)
  | [], b, _ => by simp [strncmpEq]
  | x :: a, b, h => by
    have hx : x ≠ 0 := h x (by simp)
    have ha : ∀ y ∈ a, y ≠ 0 := fun y hy => h y (mem_cons_of_mem _ hy)
    cases b with
    | nil => simp [strncmpEq, hx]
    | cons y b =>
      by_cases hxy : x = y
      · simp [strncmpEq, hx, strncmpEq_length_iff ha]
      · simp [strncmpEq, hxy]

theorem checkKey_some_good_iff {key siteKey key' : CString} :
    checkKey hmac auth (some key) siteKey = .good key' ↔
      key.bytes <+: siteKey.bytes ∧ key' = key := by
  rw [← strncmpEq_length_iff key.nonzero, checkKey]
  split_ifs with h
  · simp [h, eq_comm]
  · simp [h]

theorem checkKey_none_good_iff {siteKey key : CString} :
    checkKey hmac auth none siteKey = .good key ↔
      lispMsgCheckAuthField hmac auth siteKey.bytes = true ∧ key = siteKey := by
  rw [checkKey]
  split_ifs with h
  · simp [h, eq_comm]
  · simp [h]

/-! ## Registered records -/

/-- The authentication data of a message is the HMAC under a key. -/
def Verifies (hmac : Hmac) (auth : AuthField) (key : CString) :
    Prop :=
  auth.data = hmac key.bytes auth.zeroed

instance (hmac : Hmac) (auth : AuthField) (key : CString) :
    Decidable (Verifies hmac auth key) :=
  inferInstanceAs (Decidable (auth.data = hmac key.bytes auth.zeroed))

/-- The records accepted between two states, the last one first. -/
def newlyAccepted (s s' : MapServer) : List Registration :=
  s'.accepted.take (s'.accepted.length - s.accepted.length)

/-- The key configured for the site prefix an EID matches. -/
def siteKey (s : MapServer) (eid : LispAddr) : Option CString :=
  match mdbLookupEntry s.lispSitesDb eid with
  | .ok (some sp) => (s.sites.cell sp).map (·.key)
  | _ => none

/-- The message verifies with the key of the site prefix a registered record matches. -/
def Authenticated (hmac : Hmac) (s : MapServer) (auth : AuthField)
    (a : Registration) : Prop :=
  ∃ key ∈ siteKey s a.record.eidPrefix, Verifies hmac auth key

/-- The record parses. -/
def parses (raw : RawRecord) : Bool :=
  match parseRegisterRecord raw with
  | .ok (some _) => true
  | _ => false

/-- The records of a message before the first one that does not parse. -/
def readableRecords (msg : MapRegisterMsg) : List RawRecord :=
  (readRecords msg.records msg.recCount.toNat).takeWhile parses

/-- The key of the site prefix a record matches. -/
def matchedKey (s : MapServer) (raw : RawRecord) : Option CString :=
  (siteMatch s raw).map fun x => x.2.2.key

/-- The records of a list that are accepted once `key` is the key of the message are authenticated
by the keys of their own site prefixes. -/
def RecordsVerify (hmac : Hmac) (s : MapServer) (auth : AuthField)
    (key : CString) (l : List RawRecord) : Prop :=
  ∀ raw ∈ l, ∀ x ∈ siteMatch s raw, acceptsEid x.2.2 x.1.eidPrefix = .ok true →
    key.bytes <+: x.2.2.key.bytes → Verifies hmac auth x.2.2.key

/-- If the message passes the check with the key of the first record that matches a site prefix, its
authentication data is the HMAC under the key of every site prefix that accepts one of its records
and whose key starts with that one. -/
def KeysVerify (hmac : Hmac) (s : MapServer)
    (msg : MapRegisterMsg) : Prop :=
  ∀ key ∈ (readableRecords msg).findSome? (matchedKey s),
    lispMsgCheckAuthField hmac msg.auth key.bytes = true →
      RecordsVerify hmac s msg.auth key (readableRecords msg)

instance (hmac : Hmac) (s : MapServer) (auth : AuthField)
    (a : Registration) : Decidable (Authenticated hmac s auth a) :=
  inferInstanceAs (Decidable (∃ key ∈ siteKey s a.record.eidPrefix, Verifies hmac auth key))

instance (hmac : Hmac) (s : MapServer) (msg : MapRegisterMsg) :
    Decidable (KeysVerify hmac s msg) :=
  inferInstanceAs (Decidable (∀ key ∈ _, _ → ∀ raw ∈ _, ∀ x ∈ _, _ → _ → _))

section Loop

variable {msg : MapRegisterMsg} {s s1 s' : MapServer}
  {raw : RawRecord} {m : Mapping} {sp : Nat} {site : LispSitePrefix} {key : CString}

theorem parses_of_parse (h : parseRegisterRecord raw = .ok (some m)) : parses raw = true := by
  rw [parses, h]

theorem not_parses_of_none (h : parseRegisterRecord raw = .ok none) : parses raw = false := by
  rw [parses, h]

/-- A record that no site prefix covers matches none, also in an earlier state. -/
theorem siteMatch_none (hss : SameSites s s1) (h : parseRegisterRecord raw = .ok (some m))
    (hl : mdbLookupEntry s1.lispSitesDb m.eidPrefix = .ok none) : siteMatch s raw = none := by
  rw [hss.db] at hl
  rw [siteMatch, h]
  dsimp only
  rw [hl]

/-- The history grows by the records that are accepted. -/
theorem newlyAccepted_of_append {new : List Registration}
    (h : s'.accepted = new ++ s.accepted) : newlyAccepted s s' = new := by
  rw [newlyAccepted, h, length_append, Nat.add_sub_cancel, take_left]

/-- A record accepted under a site prefix is authenticated when the message verifies with the key of
that site prefix. -/
theorem authenticated_iff (hss : SameSites s s1) (hm : siteMatch s1 raw = some (m, sp, site))
    (b : Bool) (n : Nat) :
    Authenticated hmac s msg.auth ⟨sp, m, b, n⟩ ↔ Verifies hmac msg.auth site.key := by
  obtain ⟨site0, hm0, hf⟩ := hss.siteMatch hm
  obtain ⟨-, hl, hc⟩ := siteMatch_eq_some_iff.mp hm0
  obtain ⟨-, -, hkey, -⟩ := LispSitePrefix.fixed_eq hf
  have hsk : siteKey s m.eidPrefix = some site0.key := by
    rw [siteKey, hl]
    dsimp only
    rw [hc, Option.map_some]
  simp [Authenticated, hsk, hkey]

/-- The check for more specifics does not depend on the proxy-reply setting. -/
theorem acceptsEid_fixed {site site₀ : LispSitePrefix} (h : site.fixed = site₀.fixed)
    (eid : LispAddr) : acceptsEid site eid = acceptsEid site₀ eid := by
  obtain ⟨heid, hacc, -, -⟩ := LispSitePrefix.fixed_eq h
  rw [acceptsEid, acceptsEid, hacc, heid]

theorem recordsVerify_cons {l : List RawRecord} :
    RecordsVerify hmac s msg.auth key (raw :: l) ↔
      (∀ x ∈ siteMatch s raw, acceptsEid x.2.2 x.1.eidPrefix = .ok true →
        key.bytes <+: x.2.2.key.bytes → Verifies hmac msg.auth x.2.2.key) ∧
        RecordsVerify hmac s msg.auth key l := by
  simp only [RecordsVerify, mem_cons, forall_eq_or_imp]

/-- What one record does once the key of the message is known: it ends the message, or it goes on
and its registration, if there is one, is authenticated under the stated condition. -/
theorem recordEffect_some {v : RegisterVars} {o : RecordExit} (hv : v.key = some key)
    (hss : SameSites s s1) (h : RecordEffect hmac msg v raw s1 o s') :
    (o = .bad ∧ parses raw = false ∧ s'.accepted = s1.accepted) ∨
      ∃ v' new, o = .next v' ∧ v'.key = some key ∧ parses raw = true ∧
        s'.accepted = new ++ s1.accepted ∧ ((∀ a ∈ new, Authenticated hmac s msg.auth a) ↔
          ∀ x ∈ siteMatch s raw, acceptsEid x.2.2 x.1.eidPrefix = .ok true →
            key.bytes <+: x.2.2.key.bytes → Verifies hmac msg.auth x.2.2.key) := by
  cases h with
  | malformed hp => exact .inl ⟨rfl, not_parses_of_none hp, rfl⟩
  | unmatched hp hl =>
    refine .inr ⟨v, [], rfl, hv, parses_of_parse hp, rfl, ?_⟩
    simp [siteMatch_none hss hp hl]
  | refused hm hk =>
    rw [hv, checkKey] at hk
    split_ifs at hk
  | @otherKey m sp site hm hk =>
    obtain ⟨site0, hm0, hf⟩ := hss.siteMatch hm
    obtain ⟨-, -, hkey, -⟩ := LispSitePrefix.fixed_eq hf
    have hp := (siteMatch_eq_some_iff.mp hm0).1
    have hno : ¬ key.bytes <+: site0.key.bytes := fun hpre => by
      rw [hv, hkey, checkKey_some_good_iff.mpr ⟨hpre, rfl⟩] at hk
      cases hk
    refine .inr ⟨v, [], rfl, hv, parses_of_parse hp, rfl, ?_⟩
    simp [hm0, hno]
  | @outside m sp site key' hm hk ha =>
    obtain ⟨site0, hm0, hf⟩ := hss.siteMatch hm
    have hp := (siteMatch_eq_some_iff.mp hm0).1
    rw [hv, checkKey_some_good_iff] at hk
    rw [acceptsEid_fixed hf] at ha
    refine .inr ⟨_, [], rfl, by rw [hk.2], parses_of_parse hp, rfl, ?_⟩
    simp [hm0, ha]
  | @registered m sp site key' _ hm hk ha hr =>
    obtain ⟨site0, hm0, hf⟩ := hss.siteMatch hm
    obtain ⟨-, -, hkey, -⟩ := LispSitePrefix.fixed_eq hf
    have hp := (siteMatch_eq_some_iff.mp hm0).1
    rw [hv, checkKey_some_good_iff] at hk
    rw [acceptsEid_fixed hf] at ha
    refine .inr ⟨_, [_], rfl, ?_, parses_of_parse hp, hr.accepted, ?_⟩
    · rw [RegisterVars.notify, hk.2]
      split_ifs <;> rfl
    · simp [authenticated_iff hss hm, hm0, ha, ← hkey, hk.1]

/-- What the rest of a message does once its key is known. -/
theorem registerRecords_some : ∀ {l : List RawRecord} {v : RegisterVars}
    {s1 s' : MapServer} {o : Option RegisterVars}, v.key = some key → SameSites s s1 →
      (registerRecords hmac msg v l).run s1 = .ok (o, s') →
        ∃ new, s'.accepted = new ++ s1.accepted ∧
          ((∀ a ∈ new, Authenticated hmac s msg.auth a) ↔
            RecordsVerify hmac s msg.auth key (l.takeWhile parses))
  | [], v, s1, s', o, _, _, h => by
    obtain ⟨rfl, rfl⟩ := pure_ok.mp h
    exact ⟨[], rfl, by simp [RecordsVerify]⟩
  | raw :: rest, v, s1, s', o, hv, hss, h => by
    obtain ⟨x, s2, hrec, hrest⟩ := bind_ok.mp h
    have heff := registerRecord_cases hrec
    have hss2 := hss.trans heff.sameSites
    obtain ⟨rfl, hp, hacc⟩ | ⟨v', c, rfl, hv', hp, hacc, hc⟩ := recordEffect_some hv hss heff
    · obtain ⟨rfl, rfl⟩ := pure_ok.mp hrest
      refine ⟨[], hacc, ?_⟩
      simp [hp, RecordsVerify]
    · obtain ⟨new, hnew, hiff⟩ := registerRecords_some hv' hss2 hrest
      refine ⟨new ++ c, by rw [hnew, hacc, append_assoc], ?_⟩
      rw [takeWhile_cons, if_pos hp, recordsVerify_cons, ← hiff, ← hc]
      simp only [mem_append, or_imp, forall_and]
      exact and_comm

/-- The key of the site prefix a record matches, read off an earlier state. -/
theorem matchedKey_eq (hss : SameSites s s1) (h : siteMatch s1 raw = some (m, sp, site)) :
    parses raw = true ∧ matchedKey s raw = some site.key := by
  obtain ⟨site0, hm0, hf⟩ := hss.siteMatch h
  obtain ⟨-, -, hkey, -⟩ := LispSitePrefix.fixed_eq hf
  exact ⟨parses_of_parse (siteMatch_eq_some_iff.mp hm0).1, by simp [matchedKey, hm0, hkey]⟩

/-- A message whose first record with a site prefix has passed the check: from that record on it is
processed as if its key had been known before. -/
theorem registerRecords_first {rest : List RawRecord} {v v' : RegisterVars} {s₂ : MapServer}
    {o : Option RegisterVars} (hss : SameSites s s1) (hm : siteMatch s1 raw = some (m, sp, site))
    (hk : checkKey hmac msg.auth none site.key = .good key)
    (heff : RecordEffect hmac msg { v with key := some key } raw s1 (.next v') s₂)
    (h : (registerRecords hmac msg v' rest).run s₂ = .ok (o, s')) :
    ∃ new, s'.accepted = new ++ s1.accepted ∧
      ((∀ a ∈ new, Authenticated hmac s msg.auth a) ↔
        ∀ key ∈ ((raw :: rest).takeWhile parses).findSome? (matchedKey s),
          lispMsgCheckAuthField hmac msg.auth key.bytes = true →
            RecordsVerify hmac s msg.auth key ((raw :: rest).takeWhile parses)) := by
  obtain ⟨hcheck, rfl⟩ := checkKey_none_good_iff.mp hk
  obtain ⟨hbad, -⟩ | ⟨v'', c, hnext, hv', hp, hacc, hc⟩ := recordEffect_some rfl hss heff
  · cases hbad
  · cases hnext
    obtain ⟨new, hnew, hiff⟩ := registerRecords_some hv' (hss.trans heff.sameSites) h
    refine ⟨new ++ c, by rw [hnew, hacc, append_assoc], ?_⟩
    have hboth : (∀ a ∈ new ++ c, Authenticated hmac s msg.auth a) ↔
        RecordsVerify hmac s msg.auth site.key ((raw :: rest).takeWhile parses) := by
      rw [takeWhile_cons, if_pos hp, recordsVerify_cons, ← hiff, ← hc]
      simp only [mem_append, or_imp, forall_and]
      exact and_comm
    rw [hboth, takeWhile_cons, if_pos hp, findSome?_cons, (matchedKey_eq hss hm).2]
    simp [hcheck]

/-- What a message does until its key is known, and from there on. -/
theorem registerRecords_none : ∀ {l : List RawRecord} {v : RegisterVars} {s1 s' : MapServer}
    {o : Option RegisterVars}, v.key = none → SameSites s s1 →
      (registerRecords hmac msg v l).run s1 = .ok (o, s') →
        ∃ new, s'.accepted = new ++ s1.accepted ∧
          ((∀ a ∈ new, Authenticated hmac s msg.auth a) ↔
            ∀ key ∈ (l.takeWhile parses).findSome? (matchedKey s),
              lispMsgCheckAuthField hmac msg.auth key.bytes = true →
                RecordsVerify hmac s msg.auth key (l.takeWhile parses))
  | [], v, s1, s', o, _, _, h => by
    obtain ⟨rfl, rfl⟩ := pure_ok.mp h
    exact ⟨[], rfl, by simp⟩
  | raw :: rest, v, s1, s', o, hv, hss, h => by
    obtain ⟨x, s2, hrec, hrest⟩ := bind_ok.mp h
    -- with the key already set, the check of the same key passes
    have hself : ∀ {key siteKey : CString}, checkKey hmac msg.auth v.key siteKey = .good key →
        checkKey hmac msg.auth (some key) siteKey = .good key := fun {key siteKey} hk => by
      rw [hv, checkKey_none_good_iff] at hk
      exact checkKey_some_good_iff.mpr ⟨hk.2 ▸ prefix_refl _, rfl⟩
    cases registerRecord_cases hrec with
    | malformed hp =>
      obtain ⟨rfl, rfl⟩ := pure_ok.mp hrest
      exact ⟨[], rfl, by simp [not_parses_of_none hp]⟩
    | unmatched hp hl =>
      have hnone := siteMatch_none hss hp hl
      obtain ⟨new, hnew, hiff⟩ := registerRecords_none hv hss hrest
      refine ⟨new, hnew, hiff.trans ?_⟩
      simp [parses_of_parse hp, matchedKey, hnone, recordsVerify_cons]
    | @refused m sp site hm hk =>
      obtain ⟨rfl, rfl⟩ := pure_ok.mp hrest
      obtain ⟨hp, hkey⟩ := matchedKey_eq hss hm
      have hfail : lispMsgCheckAuthField hmac msg.auth site.key.bytes ≠ true := fun hcheck => by
        rw [hv, checkKey, if_pos hcheck] at hk
        cases hk
      exact ⟨[], rfl, by simp [hp, hkey, hfail]⟩
    | otherKey hm hk =>
      rw [hv, checkKey] at hk
      split_ifs at hk
    | outside hm hk ha =>
      exact registerRecords_first hss hm (hv ▸ hk) (.outside hm (hself hk) ha) hrest
    | registered hm hk ha hr =>
      refine registerRecords_first (v := v) hss hm (hv ▸ hk) ?_ hrest
      have heff := RecordEffect.registered (v := { v with key := some _ }) hm (hself hk) ha hr
      exact heff

end Loop

/-! ## The result -/

/-- Every record a Map-Register registers is authenticated by the key of its own site prefix exactly
when `KeysVerify` holds of the message. -/
theorem registered_verified_iff {hmac : Hmac}
    {msg : MapRegisterMsg} {s s' : MapServer} {out : Ret × Option SentMapNotify}
    (h : (msRecvMapRegister hmac msg).run s = .ok (out, s')) :
    (∀ a ∈ newlyAccepted s s', Authenticated hmac s msg.auth a) ↔ KeysVerify hmac s msg := by
  obtain ⟨o, hl⟩ := msRecvMapRegister_records h
  obtain ⟨new, hnew, hiff⟩ := registerRecords_none rfl (.refl s) hl
  rw [newlyAccepted_of_append hnew]
  exact hiff

/-- A message with two records of one site, under its key. -/
def labGoodRegister : MapRegisterMsg :=
  labRegister labKeyAB true [labSiteRecord 0x0b000100#32 24 10, labSiteRecord 0x0b000200#32 24 10]

/-- Both are registered, and authenticated. -/
theorem registered_verified_two : ∃ out s',
    (msRecvMapRegister labHmac labGoodRegister).run labServer = .ok (out, s') ∧
      (newlyAccepted labServer s').length = 2 ∧
      ∀ a ∈ newlyAccepted labServer s', Authenticated labHmac labServer labGoodRegister.auth a := by
  obtain ⟨out, s', h, htwo⟩ : ∃ out s',
      (msRecvMapRegister labHmac labGoodRegister).run labServer = .ok (out, s') ∧
        (newlyAccepted labServer s').length = 2 := by
    decide +kernel
  exact ⟨out, s', h, htwo, (registered_verified_iff h).mpr (by decide +kernel)⟩

/-- A message under the key `a` whose second record belongs to the site with the key `ab`. -/
def labSecondRegister : MapRegisterMsg :=
  labRegister labKeyA true [labSiteRecord 0x0a000000#32 8 10, labSiteRecord 0x0b000100#32 24 10]

/-- The second record is registered although the message does not verify with the key of its site:
that key merely starts with the one the message was checked with. -/
theorem later_record_unverified : ∃ out s', MsStartedWith labMsConf labServer ∧
    (msRecvMapRegister labHmac labSecondRegister).run labServer = .ok (out, s') ∧
      ∃ a ∈ newlyAccepted labServer s',
        ¬ Authenticated labHmac labServer labSecondRegister.auth a := by
  obtain ⟨out, s', h, hbad⟩ : ∃ out s',
      (msRecvMapRegister labHmac labSecondRegister).run labServer = .ok (out, s') ∧
        ∃ a ∈ newlyAccepted labServer s',
          ¬ Authenticated labHmac labServer labSecondRegister.auth a := by
    decide +kernel
  exact ⟨out, s', ⟨(), rfl⟩, h, hbad⟩

end Lispmob
