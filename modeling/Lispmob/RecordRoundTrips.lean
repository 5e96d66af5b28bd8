import Lispmob.LocatorKinds
import Lispmob.RecordWriting

/-!
# Mapping records that are read back

What `lisp_msg_put_mapping` appends is read by `lisp_msg_parse_mapping_record`. The writer goes
through the lists of the mapping, leaves out what is down and counts as it goes. The parser collects
the locators from the end and builds lists of its own, so they come back in another order.

`record_read_back_iff` says for which mappings the record comes back as it was. The action is lost
on the way: the writer never fills it in. A list is passed over when its first locator has no
address, and taken as a whole otherwise. Of two locators with one address the parser keeps one. And
the record is written in place only if it fits.
-/

namespace Lispmob

open Prog List

variable {c : PutCall} {b : MsgBuf} {l : Locator} {y : List UInt8} {data : Nat}

/-! ## Reading the locators -/

/-- The record says of the locator what the code reads back. -/
structure ReadAs (l : Locator) (r : LocatorRecord) : Prop where
  addr : r.addr = l.addr
  reachable : r.reachable = true
  priority : r.priority = l.priority
  weight : r.weight = l.weight
  mpriority : r.mpriority = l.mpriority
  mweight : r.mweight = l.mweight

theorem setBit_testBit (x : UInt8) (i j : Nat) (hi : i < 8) :
    (setBit x i true).toNat.testBit j = (x.toNat.testBit j || decide (i = j)) := by
  have hpow : (UInt8.ofNat (2 ^ i)).toNat = 2 ^ i := by
    rw [UInt8.toNat_ofNat_of_lt']
    exact Nat.pow_lt_pow_right (by decide) hi
  rw [setBit, if_pos rfl, UInt8.toNat_or, Nat.testBit_or, hpow, Nat.testBit_two_pow]

/-- The flags say that a locator that is up can be reached. -/
theorem locFlags_reachable (probed : Option LispAddr) (h : l.state = .UP)
    (u : UInt8) : (if isProbed probed l then setBit (locFlags l u) 1 true
      else locFlags l u).toNat.testBit 0 = true := by
  have hflags : (locFlags l u).toNat.testBit 0 = true := by
    rw [locFlags, h, decide_eq_true rfl, setBit_testBit _ _ _ (by decide)]
    simp
  split_ifs
  · rw [setBit_testBit _ _ _ (by decide), hflags]
    rfl
  · exact hflags

/-- A plain address takes 18 bytes at most, and is read back. -/
theorem Holds.parsePlain {b e : List UInt8} {off : Nat} {a : LispAddr} (ha : a.plain = true)
    (he : AddrBytes a e) (h : Holds b off e) :
    lispAddrParse b off = .ok ⟨e.length, .set a⟩ ∧ e.length ≠ 0 := by
  have hreg : a.regular false = true ∧ a.regular true = true ∧ 0 < lispAddrSizeToWrite a ∧
      lispAddrSizeToWrite a ≤ 18 := by
    cases a with
    | noAddr => exact ⟨rfl, rfl, by decide, by decide⟩
    | ip a =>
      refine ⟨rfl, rfl, Nat.succ_pos _, ?_⟩
      cases a <;> simp [lispAddrSizeToWrite, ipAddrGetSizeToWrite, IpAddr.bytes]
    | _ => cases ha
  have hlen := he.1
  have hle := h.le
  refine ⟨LispAddr.parse_encoding hreg.1 (he.2 hreg.2.1) (by omega) h (by omega), by omega⟩

section Reading

variable {b : List UInt8} {probed : Option LispAddr}

theorem lispMsgParseLoc_bytes (hup : l.state = .UP)
    (hplain : l.addr.plain = true) (hy : LocatorBytes probed l y) (h : Holds b data y) :
    ∃ r r', lispMsgParseLoc b data = .ok (some (r, data + y.length)) ∧ r.record = some r' ∧
      ReadAs l r' := by
  obtain ⟨x, u, e, he, rfl⟩ := hy
  have hle := h.le
  have hprio := h.left.readByte
  have hweight := (Holds.right (l := [l.priority]) h.left).readByte
  have hmprio := (Holds.right (l := [l.priority, l.weight]) h.left).readByte
  have hmweight := (Holds.right (l := [l.priority, l.weight, l.mpriority]) h.left).readByte
  have hflags :=
    (Holds.right (l := [l.priority, l.weight, l.mpriority, l.mweight, x]) h.left).readByte
  obtain ⟨haddr, hne⟩ := h.right.parsePlain hplain he
  rw [length_append] at hle ⊢
  simp only [length_cons, length_nil, Nat.zero_add,
    Nat.reduceAdd] at hweight hmprio hmweight hflags haddr hle ⊢
  generalize hf :
    (if isProbed probed l then setBit (locFlags l u) 1 true else locFlags l u) = f at hflags
  refine ⟨⟨.set l.addr, f.toNat.testBit 0, f.toNat.testBit 2, f.toNat.testBit 1, l.priority,
    l.weight, l.mpriority, l.mweight⟩, _, ?_, rfl, ⟨rfl, ?_, rfl, rfl, rfl, rfl⟩⟩
  · simp only [lispMsgParseLoc, hflags, haddr, if_neg hne, hprio, hweight, hmprio, hmweight, bind,
      Except.bind, pure, Except.pure, lbufPull_of_le hle]
  · exact hf ▸ locFlags_reachable probed hup u

theorem readLocators_bytes : ∀ {l : List Locator} {y y' : List UInt8} {data : Nat},
    (∀ x ∈ l, x.state = .UP ∧ x.addr.plain = true) → LocatorsBytes probed l y →
      Holds b data (y ++ y') →
        ∃ rs rs', readLocators b l.length data = .ok (some (rs, data + y.length)) ∧
          rs.mapM LocatorRead.record = some rs' ∧ List.Forall₂ ReadAs l rs'
  | [], y, y', data, _, hy, _ => by
    cases hy
    exact ⟨[], [], rfl, rfl, .nil⟩
  | x :: l, y, y', data, hx, hy, h => by
    obtain ⟨y1, y2, hy1, hy2, rfl⟩ := hy
    rw [append_assoc] at h
    obtain ⟨hup, hplain⟩ := hx x (by simp)
    obtain ⟨r, r', hr, hr', hread⟩ := lispMsgParseLoc_bytes hup hplain hy1 h.left
    obtain ⟨rs, rs', hrs, hrs', hreads⟩ :=
      readLocators_bytes (fun z hz => hx z (by simp [hz])) hy2 h.right
    refine ⟨r :: rs, r' :: rs', ?_, ?_, .cons hread hreads⟩
    · simp only [length_cons, readLocators, hr, hrs, bind, Except.bind, pure, Except.pure,
        Option.map_some, length_append, Nat.add_assoc]
    · simp only [mapM_cons, hr', hrs']
      rfl

end Reading

/-! ## Reading a record -/

/-- The bytes of some locators are those of the first and those of the rest. -/
theorem LocatorsBytes.split {probed : Option LispAddr} : ∀ {l l' : List Locator} {y : List UInt8},
    LocatorsBytes probed (l ++ l') y →
      ∃ y₁ y₂, y = y₁ ++ y₂ ∧ LocatorsBytes probed l y₁ ∧ LocatorsBytes probed l' y₂
  | [], _, y, h => ⟨[], y, rfl, rfl, h⟩
  | x :: l, l', y, h => by
    obtain ⟨y₁, y₂, h1, h2, rfl⟩ := h
    obtain ⟨z1, z2, rfl, hz1, hz2⟩ := h2.split
    exact ⟨y₁ ++ z1, z2, by rw [append_assoc], ⟨y₁, z1, h1, hz1, rfl⟩, hz2⟩

/-- The flags of a record: the authoritative bit, and no action. -/
theorem recordFlags_read (v : Bool) : (setBit 0x10 4 v).toNat / 32 = 0 ∧
    (setBit 0x10 4 v).toNat / 16 % 2 = v.toNat := by
  cases v <;> decide

/-- What is read of a record: as many locators as a byte can count. -/
theorem readMappingRecord_bytes {b y : List UInt8} {a : IpAddr} {plen : UInt8}
    (hy : RecordBytes c y) (h : Holds b data y) (heid : c.m.eidPrefix = .ippref a plen)
    (hplain : ∀ x ∈ c.locators, x.addr.plain = true) :
    ∃ r rec,
      readMappingRecord b data = .ok (some (r, data + 10 + lispAddrSizeToWrite c.m.eidPrefix +
        locatorsSize (c.locators.take (c.locators.length % 256)))) ∧ r.record = some rec ∧
      rec.ttl = c.m.ttl ∧ rec.action = 0 ∧
      rec.authoritative = UInt8.ofNat (c.m.authoritative.toNat % 2) ∧
      rec.eidPrefix = c.m.eidPrefix ∧
      List.Forall₂ ReadAs (c.locators.take (c.locators.length % 256)) rec.locators := by
  obtain ⟨e, ls, he, hls, rfl⟩ := hy
  have he' : AddrBytes (.ip a) e := by
    rw [heid] at he
    exact ⟨he.1, fun _ => he.2 rfl⟩
  rw [← take_append_drop (c.locators.length % 256) c.locators] at hls
  obtain ⟨ls1, ls2, rfl, hls1, hls2⟩ := hls.split
  have hhdr := h.left
  have hbody := h.right
  have hlen : (recordHdr c.m c.locators.length).length = 10 := by simp [recordHdr]
  rw [hlen] at hbody
  have httl := hhdr.left.readBytes (beBytes_length 4 _)
  have hrest := hhdr.right
  rw [beBytes_length] at hrest
  have hcount := hrest.readByte
  have hplen := (Holds.right (l := [UInt8.ofNat c.locators.length]) hrest).readByte
  have hflags := (Holds.right (l := [UInt8.ofNat c.locators.length, lispAddrGetPlen c.m.eidPrefix])
    hrest).readByte
  obtain ⟨haddr, hne⟩ := hbody.left.parsePlain (a := .ip a) rfl he'
  have hup : ∀ x ∈ c.locators.take (c.locators.length % 256),
      x.state = .UP ∧ x.addr.plain = true := fun x hx =>
    ⟨announced_up x (mem_of_mem_take hx), hplain x (mem_of_mem_take hx)⟩
  obtain ⟨rs, recs, hrs, hrecs, hreads⟩ := readLocators_bytes hup hls1 hbody.right
  have hle := h.le
  simp only [length_append, hlen] at hle
  have htake : (c.locators.take (c.locators.length % 256)).length = c.locators.length % 256 :=
    length_take_of_le (Nat.mod_le _ _)
  rw [htake] at hrs
  have hpull : lbufPull b data 10 = data + 10 := lbufPull_of_le (by omega)
  have hpull' : lbufPull b (data + 10) e.length = data + 10 + e.length := lbufPull_of_le (by omega)
  simp only [length_cons, length_nil, Nat.zero_add, Nat.add_assoc,
    Nat.reduceAdd] at hplen hflags hrs hpull'
  obtain ⟨haction, hauth⟩ := recordFlags_read (c.m.authoritative.toNat % 2 = 1)
  refine ⟨⟨c.m.ttl, 0, UInt8.ofNat (c.m.authoritative.toNat % 2), .set (.ip a), plen, rs⟩,
    ⟨c.m.ttl, 0, UInt8.ofNat (c.m.authoritative.toNat % 2), .ip a, plen, recs⟩, ?_, ?_, rfl, rfl,
    rfl, heid.symm, hreads⟩
  · have hplen' : lispAddrGetPlen c.m.eidPrefix = plen := by rw [heid]; rfl
    have httl' : UInt32.ofNat (beNat (beBytes 4 c.m.ttl.toNat)) = c.m.ttl := by
      rw [beNat_beBytes_of_lt c.m.ttl.toNat_lt, UInt32.ofNat_toNat]
    have hbit : (decide (c.m.authoritative.toNat % 2 = 1)).toNat = c.m.authoritative.toNat % 2 := by
      rcases Nat.mod_two_eq_zero_or_one c.m.authoritative.toNat with h | h <;> simp [h]
    have hmod : (UInt8.ofNat c.locators.length).toNat = c.locators.length % 256 :=
      UInt8.toNat_ofNat'
    rw [hbit] at hauth
    rw [he.1] at haddr hne hpull' hrs
    rw [hls1.length] at hrs
    simp only [readMappingRecord, httl, hflags, hpull, haddr, if_neg hne, hplen, hcount, hmod,
      hpull', hrs, bind, Except.bind, pure, Except.pure, haction, hauth, httl', hplen',
      Nat.add_assoc]
    rfl
  · simp only [RecordRead.record, AddrField.fresh, hrecs]
    rfl

/-! ## Building the mapping -/

/-- The addresses of some locators are part of what they say. -/
theorem addresses_eq (l : List Locator) : addresses l =
    ((l.map Locator.content).map Prod.fst).filter fun a => lispAddrLafi a ≠ .NO_ADDR := by
  rw [map_map, filter_map]
  rfl

theorem addresses_content {l l' : List Locator}
    (h : (l.map Locator.content).Perm (l'.map Locator.content)) :
    (addresses l).Perm (addresses l') := by
  rw [addresses_eq, addresses_eq]
  exact (h.map _).filter _

theorem locatorParse_content {r : LocatorRecord} (h : ReadAs l r) (ptr : Nat) :
    (locatorParse ptr r).content = l.content := by
  simp only [locatorParse, Locator.content, h.addr, h.priority, h.weight, h.mpriority, h.mweight]

theorem parseLocators_contents : ∀ {l : List Locator} {rs : List LocatorRecord} (next : Nat)
    (acc : List Locator), List.Forall₂ ReadAs l rs →
      ((parseLocators next acc rs).map Locator.content).Perm
        (l.map Locator.content ++ acc.map Locator.content)
  | [], [], _, _, _ => List.Perm.refl _
  | x :: l, r :: rs, next, acc, .cons hr hrs => by
    refine (parseLocators_contents _ _ hrs).trans ?_
    rw [map_cons, locatorParse_content hr]
    exact perm_middle

theorem lispMsgParseMappingRecord_read {rec : MappingRecord} {l : List Locator}
    (hreads : List.Forall₂ ReadAs l rec.locators) (hplain : ∀ x ∈ l, x.addr.plain = true)
    (next : Nat) (probed : Probed) :
    ∃ p, lispMsgParseMappingRecord next probed (.wellFormed rec) = .ok p ∧ p.ret = .GOOD ∧
      p.m.eidPrefix = rec.eidPrefix ∧ p.m.ttl = rec.ttl ∧ p.m.action = rec.action ∧
      p.m.authoritative = rec.authoritative ∧ (addresses p.m.locators).Nodup ∧
      p.m.locators.length ≤ l.length ∧
      (∀ x ∈ l, x.hasAddr = false → x.content ∈ p.m.locators.map Locator.content) ∧
      ((addresses l).Nodup → (p.m.locators.map Locator.content).Perm (l.map Locator.content)) := by
  have hcontents : ((parseLocators next [] rec.locators).map Locator.content).Perm
      (l.map Locator.content) := by
    simpa using parseLocators_contents next [] hreads
  have hfresh :
    FreshLocators next (next + rec.locators.length) (parseLocators next [] rec.locators) :=
    parseLocators_fresh .nil (Nat.le_refl _)
  have hplain' : ∀ x ∈ parseLocators next [] rec.locators, x.addr.plain = true := by
    intro x hx
    obtain ⟨y, hy, heq⟩ := mem_map.mp (hcontents.mem_iff.mp (mem_map_of_mem hx))
    rw [← show y.addr = x.addr from congrArg Prod.fst heq]
    exact hplain y hy
  rw [lispMsgParseMappingRecord]
  generalize parseLocators next [] rec.locators = L at hcontents hfresh hplain' ⊢
  obtain ⟨m', hrun, hwf, hkept, hall⟩ := addLocators_wellFormed (l := L) (m := { mappingNew with
      ttl := rec.ttl
      action := rec.action
      authoritative := rec.authoritative
      eidPrefix := lispAddrSetPlen rec.eid rec.eidPlen }) ⟨by simp [mappingNew], .nil⟩
    (by simpa [Mapping.locators, mappingNew] using hplain')
    (by simpa [Mapping.locators, mappingNew] using hfresh.nodup)
  have hkeeps := addLocators_keeps hrun
  have hlength := (addLocators_subperm hrun).length_le
  simp only [Mapping.locators, mappingNew, flatten_nil, append_nil] at hkept hall hlength
  refine ⟨⟨.GOOD, m', probedAfter m' [] (probedLocator next rec.locators),
    next + rec.locators.length⟩, by rw [hrun]; rfl, rfl, by rw [hkeeps]; rfl, by rw [hkeeps],
    by rw [hkeeps], by rw [hkeeps], hwf.distinct, ?_, fun x hx hno => ?_, fun hdistinct => ?_⟩
  · have := hcontents.length_eq
    simp only [length_map] at this
    exact this ▸ hlength
  · obtain ⟨y, hy, heq⟩ := mem_map.mp (hcontents.mem_iff.mpr (mem_map_of_mem hx))
    rw [← heq]
    refine mem_map_of_mem (hkept y hy ?_)
    rwa [Locator.hasAddr, show y.addr = x.addr from congrArg Prod.fst heq]
  · refine List.Perm.trans ((hall ?_).map _) hcontents
    exact (addresses_content hcontents).nodup_iff.mpr hdistinct

/-! ## The record of a mapping -/

/-- The locators of a mapping that are up and have an address. -/
def upAddressed (m : Mapping) : List Locator :=
  m.locators.filter fun l => l.state = .UP && l.hasAddr

/-- The mapping is for an IP prefix, its locators that are up have IP addresses or none, and there
are not too many of them to be counted. -/
structure Announceable (m : Mapping) : Prop where
  eid : ∃ a plen, m.eidPrefix = .ippref a plen
  plain : ∀ x ∈ m.locators, x.state = .UP → x.addr.plain = true
  few : (upAddressed m).length ≤ 255

/-- The record that a call appends to a message is read back as it was. -/
def ReadsBack (malloc : Malloc) (b : MsgBuf) (c : PutCall) : Prop :=
  ∃ ptr b' r rec, lispMsgPutMappingBytes malloc b c.m c.probed = .ok (some ptr, b') ∧
    readMappingRecord b'.data b.data.length = .ok (some (r, b'.data.length)) ∧
    r.record = some rec ∧ ∀ next probed, ∃ p,
      lispMsgParseMappingRecord next probed (.wellFormed rec) = .ok p ∧ p.ret = .GOOD ∧
      p.m.eidPrefix = c.m.eidPrefix ∧ p.m.ttl = c.m.ttl ∧ p.m.action = c.m.action ∧
      p.m.authoritative = c.m.authoritative ∧
      (p.m.locators.map Locator.content).Perm ((upAddressed c.m).map Locator.content)

/-- The mapping has no action, each of its lists is of locators with an address or of locators
without, as far as they are up, no address is there twice among these, and the record fits into
the room left after its header. -/
structure Readable (room : Nat) (c : PutCall) : Prop where
  action : c.m.action = 0
  authoritative : c.m.authoritative.toNat < 2
  nonempty : [] ∉ c.m.locatorsLists
  heads : ∀ l ∈ c.m.locatorsLists, ∀ x ∈ l.head?, ∀ y ∈ l, y.state = .UP → y.hasAddr = x.hasAddr
  distinct : (addresses (upAddressed c.m)).Nodup
  fits : c.bodySize ≤ tailAfter room 10

/-- The locators that are written are up, and of the mapping. -/
theorem announced_sublist : ∀ lists : List (List Locator),
    (announced lists).Sublist (lists.flatten.filter (·.state = .UP))
  | [] => .slnil
  | [] :: _ => nil_sublist _
  | (x :: l) :: lists => by
    rw [announced, flatten_cons, filter_append]
    split_ifs
    · exact (announced_sublist lists).trans (sublist_append_right _ _)
    · exact (List.Sublist.refl _).append (announced_sublist lists)

/-- In lists of one kind those with an address are written. -/
theorem announced_eq : ∀ lists : List (List Locator), [] ∉ lists →
    (∀ l ∈ lists, ∀ x ∈ l.head?, ∀ y ∈ l, y.state = .UP → y.hasAddr = x.hasAddr) →
      announced lists = lists.flatten.filter fun l => l.state = .UP && l.hasAddr
  | [], _, _ => rfl
  | [] :: _, h, _ => absurd (by simp) h
  | (x :: l) :: lists, h, hheads => by
    have hrest := announced_eq lists (fun hmem => h (by simp [hmem]))
      fun k hk => hheads k (by simp [hk])
    have hx := hheads (x :: l) (by simp) x (by simp)
    rw [announced, hrest, flatten_cons, filter_append]
    split_ifs with hlafi
    · have hnil : (x :: l).filter (fun l => decide (l.state = .UP) && l.hasAddr) = [] := by
        refine filter_eq_nil_iff.mpr fun y hy hboth => ?_
        simp only [Bool.and_eq_true, decide_eq_true_eq] at hboth
        have hhas := hx y hy hboth.1
        rw [hboth.2, Locator.hasAddr, hlafi] at hhas
        cases hhas
      rw [hnil, nil_append]
    · congr 1
      refine filter_congr fun y hy => ?_
      by_cases hup : y.state = .UP
      · rw [hx y hy hup, Locator.hasAddr]
        simp [hup, hlafi]
      · simp [hup]

/-- If all that is written has an address, it is part of what is up and has one. -/
theorem announced_sublist_addressed {lists : List (List Locator)}
    (h : ∀ x ∈ announced lists, x.hasAddr = true) :
    (announced lists).Sublist (lists.flatten.filter fun l => l.state = .UP && l.hasAddr) := by
  have hsub := (announced_sublist lists).filter Locator.hasAddr
  rw [filter_eq_self.mpr h, filter_filter] at hsub
  simpa only [Bool.and_comm] using hsub

/-- If that is all of it, the first locators of the lists speak for the rest. -/
theorem heads_of_announced : ∀ lists : List (List Locator), [] ∉ lists →
    (∀ x ∈ announced lists, x.hasAddr = true) →
      (lists.flatten.filter fun l => l.state = .UP && l.hasAddr).length ≤ (announced lists).length →
        ∀ l ∈ lists, ∀ x ∈ l.head?, ∀ y ∈ l, y.state = .UP → y.hasAddr = x.hasAddr
  | [], _, _, _ => by simp
  | [] :: _, h, _, _ => absurd (by simp) h
  | (x :: l) :: lists, h, hall, hlen => by
    have hrest : [] ∉ lists := fun hmem => h (by simp [hmem])
    rw [announced] at hall hlen
    rw [flatten_cons, filter_append, length_append] at hlen
    intro k hk z hz y hy hup
    by_cases hlafi : lispAddrLafi x.addr = .NO_ADDR
    · rw [if_pos hlafi] at hall hlen
      have hle := (announced_sublist_addressed hall).length_le
      obtain rfl | hk := mem_cons.mp hk
      · cases hz
        have hnil : ((x :: l).filter fun l => l.state = .UP && l.hasAddr) = [] :=
          length_eq_zero_iff.mp (by omega)
        have hy' := filter_eq_nil_iff.mp hnil y hy
        have hx : x.hasAddr = false := by simp [Locator.hasAddr, hlafi]
        rw [hx]
        simpa [hup] using hy'
      · exact heads_of_announced lists hrest hall (by omega) k hk z hz y hy hup
    · rw [if_neg hlafi] at hall hlen
      have hfirst : ∀ w ∈ x :: l, w.state = .UP → w.hasAddr = true := fun w hw hwup =>
        hall w (mem_append_left _ (mem_filter.mpr ⟨hw, by simpa using hwup⟩))
      obtain rfl | hk := mem_cons.mp hk
      · cases hz
        rw [hfirst y hy hup, Locator.hasAddr]
        simp [hlafi]
      · have hsame : (x :: l).filter (fun l => decide (l.state = .UP) && l.hasAddr) =
            (x :: l).filter (·.state = .UP) := by
          refine filter_congr fun w hw => ?_
          by_cases hwup : w.state = .UP
          · simp [hwup, hfirst w hw hwup]
          · simp [hwup]
        rw [hsame, length_append] at hlen
        exact heads_of_announced lists hrest (fun w hw => hall w (mem_append_right _ hw))
          (by omega) k hk z hz y hy hup

/-- A call for an EID that can be written returns when the record fits and no list is empty. -/
theorem PutCall.roomAfter_eq (heid : lispAddrWritable c.m.eidPrefix = true) (room : Nat) :
    (c.bodySize ≤ tailAfter room 10 ∧ [] ∉ c.m.locatorsLists ∧
        c.roomAfter room = .left (tailAfter room 10 - c.bodySize)) ∨
      (¬ (c.bodySize ≤ tailAfter room 10 ∧ [] ∉ c.m.locatorsLists) ∧
        (c.roomAfter room = .stale ∨ c.roomAfter room = .broken)) := by
  by_cases hok : c.bodySize ≤ tailAfter room 10 ∧ [] ∉ c.m.locatorsLists
  · have hsize := hok.1
    rw [PutCall.bodySize] at hsize
    have hroom : tailAfter (tailAfter room 10) (lispAddrSizeToWrite c.m.eidPrefix) =
        tailAfter room 10 - lispAddrSizeToWrite c.m.eidPrefix := if_neg (by omega)
    have hlocs := locatorsRoom_of_le c.probed (show locatorsSize c.locators ≤
      tailAfter room 10 - lispAddrSizeToWrite c.m.eidPrefix by omega)
    simp [PutCall.roomAfter, heid, hroom, hlocs, hok.1, hok.2]
  · refine .inr ⟨hok, ?_⟩
    simp only [PutCall.roomAfter, heid, Bool.not_true, if_neg Bool.false_ne_true]
    split_ifs with _ hempty hfit
    · exact .inl rfl
    · exact .inr rfl
    · exact absurd ⟨hfit, hempty⟩ hok
    · exact .inl rfl

/-- The call leaves a record in the message exactly when the record fits and no list is empty. -/
theorem lispMsgPutMappingBytes_record (malloc : Malloc) (hb : UnderConstruction b)
    (heid : lispAddrWritable c.m.eidPrefix = true) :
    (c.bodySize ≤ tailAfter b.tail.length 10 ∧ [] ∉ c.m.locatorsLists ∧ ∃ ptr b' y,
        lispMsgPutMappingBytes malloc b c.m c.probed = .ok (some ptr, b') ∧ RecordBytes c y ∧
        b'.data = bumpCount b.data ++ y) ∨
      (¬ (c.bodySize ≤ tailAfter b.tail.length 10 ∧ [] ∉ c.m.locatorsLists) ∧
        ∀ r, lispMsgPutMappingBytes malloc b c.m c.probed ≠ .ok r) := by
  have hspec := lispMsgPutMappingBytes_spec malloc hb c
  rcases c.roomAfter_eq heid b.tail.length with ⟨hfit, hempty, hroom⟩ | ⟨hno, hroom | hroom⟩
  · rw [hroom] at hspec
    obtain ⟨ptr, b', hrun, -, -, -, hptr, hadded⟩ := hspec
    rw [RecordAdded, if_pos heid] at hadded
    obtain ⟨y, hy, hdata⟩ := hadded
    obtain ⟨p, rfl⟩ := Option.isSome_iff_exists.mp (hptr.mpr heid)
    exact .inl ⟨hfit, hempty, p, b', y, hrun, hy, hdata⟩
  · rw [hroom] at hspec
    exact .inr ⟨hno, fun r hr => by cases hspec.symm.trans hr⟩
  · rw [hroom] at hspec
    exact .inr ⟨hno, fun r hr => by cases hspec.symm.trans hr⟩

theorem RecordBytes.length (h : RecordBytes c y) :
    y.length = 10 + lispAddrSizeToWrite c.m.eidPrefix + locatorsSize c.locators := by
  obtain ⟨e, ls, he, hls, rfl⟩ := h
  simp only [length_append, he.1, hls.length, recordHdr, beBytes_length, length_cons, length_nil]
  omega

theorem locatorsSize_append : ∀ l l' : List Locator,
    locatorsSize (l ++ l') = locatorsSize l + locatorsSize l'
  | [], l' => by simp [locatorsSize]
  | x :: l, l' => by
    rw [cons_append, locatorsSize, locatorsSize, locatorsSize_append l l']
    omega

/-- The first locators have the size of all of them only if they are all of them. -/
theorem take_of_locatorsSize {l : List Locator} {k : Nat}
    (h : locatorsSize (l.take k) = locatorsSize l) : l.take k = l := by
  have hsplit := locatorsSize_append (l.take k) (l.drop k)
  rw [take_append_drop] at hsplit
  have hdrop : l.drop k = [] := by
    cases hd : l.drop k with
    | nil => rfl
    | cons x l' =>
      rw [hd, locatorsSize] at hsplit
      omega
  have hall := take_append_drop k l
  rwa [hdrop, append_nil] at hall

theorem Announceable.announced_plain (hm : Announceable c.m) :
    ∀ x ∈ c.locators, x.addr.plain = true := fun x hx =>
  hm.plain x (mem_of_mem_filter ((announced_sublist _).subset hx)) (announced_up x hx)

/-- What is read of the record that a call appends: it ends where the message does if the number of
its locators fits into the header. -/
theorem putMapping_read (malloc : Malloc) (hb : UnderConstruction b) (hm : Announceable c.m) :
    (c.bodySize ≤ tailAfter b.tail.length 10 ∧ [] ∉ c.m.locatorsLists ∧ ∃ ptr b' r e rec,
        lispMsgPutMappingBytes malloc b c.m c.probed = .ok (some ptr, b') ∧
        readMappingRecord b'.data b.data.length = .ok (some (r, e)) ∧
        r.record = some rec ∧ rec.ttl = c.m.ttl ∧ rec.action = 0 ∧
        rec.authoritative = UInt8.ofNat (c.m.authoritative.toNat % 2) ∧
        rec.eidPrefix = c.m.eidPrefix ∧
        (e = b'.data.length ↔ c.locators.take (c.locators.length % 256) = c.locators) ∧
        List.Forall₂ ReadAs (c.locators.take (c.locators.length % 256)) rec.locators) ∨
      (¬ (c.bodySize ≤ tailAfter b.tail.length 10 ∧ [] ∉ c.m.locatorsLists) ∧
        ∀ r, lispMsgPutMappingBytes malloc b c.m c.probed ≠ .ok r) := by
  obtain ⟨a, plen, heid⟩ := hm.eid
  refine (lispMsgPutMappingBytes_record malloc hb (c := c) (by rw [heid]; rfl)).imp_left ?_
  rintro ⟨hfit, hempty, ptr, b', y, hrun, hy, hdata⟩
  have hholds : Holds b'.data b.data.length y := by
    have hintro := Holds.intro (bumpCount b.data) y []
    rwa [append_nil, ← hdata, bumpCount_length] at hintro
  have hlen : b'.data.length = b.data.length + 10 + lispAddrSizeToWrite c.m.eidPrefix +
      locatorsSize c.locators := by
    rw [hdata, length_append, bumpCount_length, hy.length]
    omega
  obtain ⟨r, rec, hread, hrec, httl, haction, hauth, heid', hlocs⟩ :=
    readMappingRecord_bytes hy hholds heid hm.announced_plain
  refine ⟨hfit, hempty, ptr, b', r, _, rec, hrun, hread, hrec, httl, haction, hauth, heid', ?_,
    hlocs⟩
  rw [hlen]
  refine ⟨fun hend => take_of_locatorsSize (by omega), fun hall => ?_⟩
  rw [hall]

theorem ReadsBack.readable {malloc : Malloc} (hb : UnderConstruction b) (hm : Announceable c.m)
    (h : ReadsBack malloc b c) : Readable b.tail.length c := by
  obtain ⟨ptr, b', r, rec, hrun, hread, hrec, hparse⟩ := h
  rcases putMapping_read malloc hb hm with
    ⟨hfit, hempty, ptr2, b2, r2, e, rec2, hrun2, hread2, hrec2, -, haction, hauth, -, hend, hlocs⟩ |
    ⟨-, hfail⟩
  · cases hrun.symm.trans hrun2
    cases hread.symm.trans hread2
    cases hrec.symm.trans hrec2
    rw [hend.mp rfl] at hlocs
    obtain ⟨p, hp, -, -, -, hact, haut, hnodup, hle, hkept, -⟩ :=
      lispMsgParseMappingRecord_read hlocs hm.announced_plain 0 .null
    obtain ⟨p2, hp2, -, -, -, hact2, haut2, hperm⟩ := hparse 0 .null
    cases hp.symm.trans hp2
    have hcount := hperm.length_eq
    rw [length_map, length_map] at hcount
    -- what is kept without address is not among what is to be read
    have hhas : ∀ x ∈ c.locators, x.hasAddr = true := fun x hx => by
      by_contra hno
      obtain ⟨y, hy, heq⟩ := mem_map.mp (hperm.mem_iff.mp (hkept x hx (Bool.eq_false_iff.mpr hno)))
      have haddr : y.addr = x.addr := congrArg Prod.fst heq
      have := (mem_filter.mp hy).2
      rw [Bool.and_eq_true, Locator.hasAddr, haddr] at this
      exact hno this.2
    refine ⟨?_, ?_, hempty, ?_, (addresses_content hperm).nodup_iff.mp hnodup, hfit⟩
    · rw [← hact2, hact, haction]
    · rw [← haut2, haut, hauth, UInt8.toNat_ofNat']
      omega
    · exact heads_of_announced _ hempty hhas (hcount ▸ hle)
  · exact absurd hrun (hfail _)

theorem Readable.readsBack (malloc : Malloc) (hb : UnderConstruction b) (hm : Announceable c.m)
    (h : Readable b.tail.length c) : ReadsBack malloc b c := by
  rcases putMapping_read malloc hb hm with
    ⟨-, hempty, ptr, b', r, e, rec, hrun, hread, hrec, httl, haction, hauth, heid, hend, hlocs⟩ |
    ⟨hno, -⟩
  · have hup : c.locators = upAddressed c.m := announced_eq _ hempty h.heads
    have hfew := hm.few
    rw [← hup] at hfew
    rw [Nat.mod_eq_of_lt (by omega), take_length] at hend hlocs
    rw [hend.mpr rfl] at hread
    refine ⟨ptr, b', r, rec, hrun, hread, hrec, fun next probed => ?_⟩
    obtain ⟨p, hp, hret, heid', httl', hact, haut, -, -, -, hperm⟩ :=
      lispMsgParseMappingRecord_read hlocs hm.announced_plain next probed
    refine ⟨p, hp, hret, heid'.trans heid, httl'.trans httl, ?_, ?_, ?_⟩
    · rw [hact, haction, h.action]
    · rw [haut, hauth, Nat.mod_eq_of_lt h.authoritative, UInt8.ofNat_toNat]
    · rw [hup] at hperm
      exact hperm h.distinct
  · exact absurd ⟨h.fits, h.nonempty⟩ hno

/-- A record is read back as it was exactly when the mapping is readable. -/
theorem record_read_back_iff (malloc : Malloc) {b : MsgBuf} (hb : UnderConstruction b)
    {c : PutCall} (hm : Announceable c.m) : ReadsBack malloc b c ↔ Readable b.tail.length c :=
  ⟨fun h => h.readable hb hm, fun h => h.readsBack malloc hb hm⟩

/-- A mapping with an IPv4 and an IPv6 locator. -/
def labPairCall : PutCall :=
  ⟨{ labPutCall.m with locatorCount := 2, locatorsLists :=
    [[⟨0, .ip (.v4 0x0a000001), .UP, 1, 100, 255, 0⟩], [⟨1, .ip (.v6 1), .UP, 2, 100, 255, 0⟩]] },
    none⟩

theorem record_read_back_two : ReadsBack zeroMalloc (labMsg 100) labPairCall :=
  (record_read_back_iff zeroMalloc (labMsg_underConstruction 100)
    ⟨⟨_, _, rfl⟩, by decide, by decide⟩).mpr
      ⟨rfl, by decide, by decide, by decide, by decide, by decide⟩

/-- The record of a negative mapping, that asks for native forwarding. -/
def labNativeCall : PutCall :=
  ⟨{ labPutCall.m with action := 1, locatorCount := 0, locatorsLists := [] }, none⟩

/-- A list of two locators, with the first of them down and not set to an address. -/
def labUnsetCall : PutCall :=
  ⟨{ labPutCall.m with locatorCount := 2, locatorsLists := [[⟨0, .noAddr, .DOWN, 1, 100, 255, 0⟩,
    ⟨1, .ip (.v4 0x0a000001), .UP, 1, 100, 255, 0⟩]] }, none⟩

/-- The action of a mapping is not written, and a list with an unset first locator is left out. -/
theorem record_not_read_back :
    Announceable labNativeCall.m ∧ ¬ ReadsBack zeroMalloc (labMsg 100) labNativeCall ∧
      Announceable labUnsetCall.m ∧ ¬ ReadsBack zeroMalloc (labMsg 100) labUnsetCall := by
  have hnative : Announceable labNativeCall.m := ⟨⟨_, _, rfl⟩, by decide, by decide⟩
  have hunset : Announceable labUnsetCall.m := ⟨⟨_, _, rfl⟩, by decide, by decide⟩
  refine ⟨hnative, fun h => ?_, hunset, fun h => ?_⟩
  · exact absurd (h.readable (labMsg_underConstruction 100) hnative).action (by decide)
  · exact absurd (h.readable (labMsg_underConstruction 100) hunset).heads (by decide)

end Lispmob
