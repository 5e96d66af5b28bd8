import Lispmob.Mapping

/-!
# Control messages at the level of records

The handlers read a message as a header, an authentication field and a sequence of mapping records.
`lispMsgParseMappingRecord` builds a mapping from one record as the source does: the locators are
collected in reverse, added one by one, and the pointer to the probed one is left behind for the
caller, who may release it. `Probed` keeps track of what that pointer refers to.

`checkAuthField` is the authentication check, for an abstract HMAC. The two digests are compared as
C strings, so the comparison stops at a zero byte.
-/

namespace Lispmob

open Prog List

variable {m m' : Mapping} {ret : Ret} {α : Type} {i : Nat} {L : List (List α)}
  {l left : List Locator} {p : ParsedRecord} {probed : Probed} {raw : RawRecord} {loct : Locator}
  {next : Nat}

/-! ## Mapping records -/

/-- A locator record, as parsed from a message. -/
structure LocatorRecord where
  addr : LispAddr
  reachable : Bool
  isLocal : Bool
  probed : Bool
  priority : UInt8
  weight : UInt8
  mpriority : UInt8
  mweight : UInt8

/-- A mapping record, as parsed from a message, with addresses that are whole. The parser leaves an
AFI list, or an LCAF of an unknown type, without content; no record has such an address. -/
structure MappingRecord where
  ttl : UInt32
  action : UInt8
  authoritative : UInt8
  eid : LispAddr
  eidPlen : UInt8
  locators : List LocatorRecord

/-- The next record of a message, or bytes that do not parse as one. -/
inductive RawRecord where
  | malformed
  | wellFormed (rec : MappingRecord)

/-- The first `n` records read from a message. -/
def readRecords (records : List RawRecord) (n : Nat) : List RawRecord :=
  (List.range n).map fun i => records.getD i .malformed

/-- The records up to the first that does not parse, where a handler stops. -/
def parsedRecords : List RawRecord → List MappingRecord
  | .wellFormed rec :: rest => rec :: parsedRecords rest
  | _ => []

/-- What the `probed` pointer of a message handler refers to. -/
inductive Probed where
  /-- The variable was never assigned. -/
  | uninit
  | null
  /-- A locator of the mapping parsed last. -/
  | live (ptr : Nat)
  /-- A locator that no mapping owns. -/
  | loose
  /-- A locator already released. -/
  | dangling
deriving DecidableEq

/-- The result of parsing a record. -/
structure ParsedRecord where
  ret : Ret
  m : Mapping
  probed : Probed
  /-- The next free locator identity. -/
  next : Nat

/-- `locator_parse`: down only when local and not reachable. -/
def locatorParse (ptr : Nat) (r : LocatorRecord) : Locator :=
  { ptr := ptr
    addr := r.addr
    state := if !r.reachable && r.isLocal then .DOWN else .UP
    priority := r.priority
    weight := r.weight
    mpriority := r.mpriority
    mweight := r.mweight }

/-- The loop of `lisp_msg_parse_mapping_record_split`: new objects, inserted at the front. -/
def parseLocators (next : Nat) (locList : List Locator) : List LocatorRecord → List Locator
  | [] => locList
  | r :: rest => parseLocators (next + 1) (locatorParse next r :: locList) rest

/-- The identity of the first locator with the probed bit. -/
def probedLocator (next : Nat) : List LocatorRecord → Option Nat
  | [] => none
  | r :: rest => if r.probed then some next else probedLocator (next + 1) rest

/-- The loop of `lisp_msg_parse_mapping_record`: a duplicate is released, any other failure ends
the loop. The locators that were not reached are returned. -/
def addLocators (m : Mapping) : List Locator → Except Fault (Ret × Mapping × List Locator)
  | [] => .ok (.GOOD, m, [])
  | loc :: rest => do
    match ← mappingAddLocator m loc with
    | (.GOOD, m') => addLocators m' rest
    | (.ERR_EXIST, m') => addLocators m' rest
    | (_, m') => return (.BAD, m', rest)

/-- What the probed pointer refers to after the locators were added. -/
def probedAfter (m : Mapping) (left : List Locator) : Option Nat → Probed
  | none => .null
  | some ptr =>
    if m.locators.any (·.ptr = ptr) then .live ptr
    else if left.any (·.ptr = ptr) then .loose
    else .dangling

/-- `lisp_msg_parse_mapping_record`. Bytes that do not parse leave `probed` as it was. -/
def lispMsgParseMappingRecord (next : Nat) (probed : Probed) :
    RawRecord → Except Fault ParsedRecord
  | .malformed => .ok ⟨.BAD, mappingNew, probed, next⟩
  | .wellFormed r => do
    let m := { mappingNew with
      ttl := r.ttl
      action := r.action
      authoritative := r.authoritative
      eidPrefix := lispAddrSetPlen r.eid r.eidPlen }
    let (ret, m', left) ← addLocators m (parseLocators next [] r.locators)
    return ⟨ret, m', probedAfter m' left (probedLocator next r.locators),
      next + r.locators.length⟩

/-- `locator_del` on the probed pointer in the error path of a handler, right before the mapping
parsed last is released: fine for null and for a locator that nothing else owns. -/
def locatorDelProbed : Probed → Except Fault Unit
  | .null => .ok ()
  | .loose => .ok ()
  | _ => .error .badRelease

/-- The EID of a well-formed record, with its prefix length. -/
def MappingRecord.eidPrefix (r : MappingRecord) : LispAddr :=
  lispAddrSetPlen r.eid r.eidPlen

/-! ## What adding a locator does -/

/-- The outcomes of `mapping_add_locator`: the locator starts a list of its kind, is inserted in the
list with index `i`, takes the place of `aux`, which has its address and a larger priority value, or
is left out. A list that cannot be compared with it refuses it, after `aux` was removed or before.
-/
inductive AddOutcome (m : Mapping) (x : Locator) : Ret → Mapping → Prop where
  | newList {lists : List (List Locator)}
      (kind : mappingGetLoctLstWithAddrType m x.addr = .ok none)
      (added : glistAdd locatorListCmpAfi [x] m.locatorsLists = some lists) :
      AddOutcome m x .GOOD (mappingCountLocator { m with locatorsLists := lists } x.addr)
  | inserted {i : Nat} {l : List Locator}
      (kind : mappingGetLoctLstWithAddrType m x.addr = .ok (some i))
      (new : glistContain locatorCmpAddr x (m.locatorsLists.getD i []) = false)
      (added : glistAdd locatorCmpAddr x (m.locatorsLists.getD i []) = some l) :
      AddOutcome m x .GOOD
        (mappingCountLocator { m with locatorsLists := m.locatorsLists.set i l } x.addr)
  | replaced {i : Nat} {aux : Locator} {l : List Locator}
      (kind : mappingGetLoctLstWithAddrType m x.addr = .ok (some i))
      (old : locatorListGetLocatorWithAddr (m.locatorsLists.getD i []) x.addr = some aux)
      (prio : x.priority < aux.priority)
      (added : glistAdd locatorCmpAddr x
        ((m.locatorsLists.getD i []).eraseP (·.ptr = aux.ptr)) = some l) :
      AddOutcome m x .GOOD { m with locatorsLists := m.locatorsLists.set i l }
  | dropped {i : Nat} {aux : Locator}
      (kind : mappingGetLoctLstWithAddrType m x.addr = .ok (some i))
      (old : locatorListGetLocatorWithAddr (m.locatorsLists.getD i []) x.addr = some aux)
      (refused : glistAdd locatorCmpAddr x
        ((m.locatorsLists.getD i []).eraseP (·.ptr = aux.ptr)) = none) :
      AddOutcome m x .BAD { m with
        locatorsLists :=
          m.locatorsLists.set i ((m.locatorsLists.getD i []).eraseP (·.ptr = aux.ptr)) }
  | kept {i : Nat} {aux : Locator}
      (kind : mappingGetLoctLstWithAddrType m x.addr = .ok (some i))
      (old : locatorListGetLocatorWithAddr (m.locatorsLists.getD i []) x.addr = some aux)
      (prio : ¬ x.priority < aux.priority) : AddOutcome m x .ERR_EXIST m
  | refused : AddOutcome m x .BAD m

theorem mappingAddLocator_cases {x : Locator} (h : mappingAddLocator m x = .ok (ret, m')) :
    AddOutcome m x ret m' := by
  rw [mappingAddLocator, except_bind_ok] at h
  obtain ⟨o, kind, h⟩ := h
  cases o with
  | none =>
    dsimp only at h
    split at h
    · cases h
      exact .refused
    · cases h
      exact .newList kind ‹_›
  | some i =>
    dsimp only at h
    split_ifs at h with hcontain
    · split at h
      · cases h
      · split_ifs at h with hprio
        · split at h
          · cases h
            exact .dropped kind ‹_› ‹_›
          · cases h
            exact .replaced kind ‹_› hprio ‹_›
        · cases h
          exact .kept kind ‹_› hprio
    · split at h
      · cases h
        exact .refused
      · cases h
        exact .inserted kind (Bool.eq_false_iff.mpr hcontain) ‹_›

@[simp] theorem mappingCountLocator_lists (m : Mapping) (addr : LispAddr) :
    (mappingCountLocator m addr).locatorsLists = m.locatorsLists := by
  unfold mappingCountLocator
  split_ifs <;> rfl

/-- Adding a locator changes the lists and the count only. -/
theorem mappingAddLocator_keeps (h : mappingAddLocator m loct = .ok (ret, m')) :
    m' = { m with locatorCount := m'.locatorCount, locatorsLists := m'.locatorsLists } := by
  cases mappingAddLocator_cases h with
  | newList | inserted =>
    unfold mappingCountLocator
    split_ifs <;> rfl
  | replaced | dropped | kept | refused => rfl

/-- What every addition keeps, about the locators still to be added and the mapping, holds when the
loop ends. If it ends well, none of the additions failed. -/
theorem addLocators_induct {I : List Locator → Mapping → Prop} {left : List Locator}
    (step : ∀ {x rest m r m₁}, I (x :: rest) m → mappingAddLocator m x = .ok (r, m₁) →
      (ret = .GOOD → r ≠ .BAD) → I rest m₁) : ∀ {l : List Locator} {m : Mapping}, I l m →
        addLocators m l = .ok (ret, m', left) → I left m'
  | [], _, hI, h => by
    cases h
    exact hI
  | x :: l, m, hI, h => by
    rw [addLocators, except_bind_ok] at h
    obtain ⟨⟨r, m₁⟩, hadd, h⟩ := h
    cases r with
    | GOOD | ERR_EXIST => exact addLocators_induct step (step hI hadd (by simp)) h
    | BAD | ERR_NO_EXIST =>
      cases except_pure_ok.mp h
      exact step hI hadd (by simp)

/-- Adding locators changes the lists and the count only. -/
theorem addLocators_keeps (h : addLocators m l = .ok (ret, m', left)) :
    m' = { m with locatorCount := m'.locatorCount, locatorsLists := m'.locatorsLists } := by
  refine addLocators_induct (I := fun _ m1 => m1 = { m with
    locatorCount := m1.locatorCount, locatorsLists := m1.locatorsLists }) ?_ rfl h
  intro x rest m1 r m2 hI hadd _
  rw [mappingAddLocator_keeps hadd, hI]

/-- A record that parses gives a mapping with its EID prefix, TTL and action. -/
theorem lispMsgParseMappingRecord_good (h : lispMsgParseMappingRecord next probed raw = .ok p)
    (hret : p.ret = .GOOD) :
    ∃ r, raw = .wellFormed r ∧ p.m.eidPrefix = r.eidPrefix ∧ p.m.ttl = r.ttl ∧
      p.m.action = r.action := by
  cases raw with
  | malformed =>
    simp only [lispMsgParseMappingRecord, Except.ok.injEq] at h
    rw [← h] at hret
    cases hret
  | wellFormed r =>
    simp only [lispMsgParseMappingRecord, except_bind_ok, except_pure_ok] at h
    obtain ⟨⟨ret, m', left⟩, hadd, rfl⟩ := h
    rw [addLocators_keeps hadd]
    exact ⟨r, rfl, rfl, rfl, rfl⟩

/-! ## Identities of parsed locators -/

/-- Writing one inner list of a list of lists, up to order. -/
theorem flatten_set_perm (hi : i < L.length) (l : List α) :
    (L.set i l).flatten.Perm (l ++ (L.eraseIdx i).flatten) := by
  simpa using (set_perm_cons_eraseIdx hi l).flatten

/-- One inner list of a list of lists apart, up to order. -/
theorem flatten_getD_perm (hi : i < L.length) :
    L.flatten.Perm (L.getD i [] ++ (L.eraseIdx i).flatten) := by
  rw [getD_eq_getElem?_getD, getElem?_eq_getElem hi, Option.getD_some]
  simpa using (getElem_cons_eraseIdx_perm hi).symm.flatten

/-- Replacing an inner list by one with at most one more element. -/
theorem flatten_set_subperm {l : List α} {x : α}
    (h : l.Subperm (x :: L.getD i [])) : (L.set i l).flatten.Subperm (x :: L.flatten) := by
  by_cases hi : i < L.length
  · have hsub : (l ++ (L.eraseIdx i).flatten).Subperm
        ((x :: L.getD i []) ++ (L.eraseIdx i).flatten) :=
      subperm_append_right _ |>.mpr h
    have hperm := (flatten_getD_perm hi).symm.cons x
    exact (flatten_set_perm hi l).subperm.trans (hsub.trans hperm.subperm)
  · rw [set_eq_of_length_le (Nat.not_lt.mp hi)]
    exact (sublist_cons_self x _).subperm

@[simp] theorem mappingCountLocator_locators (m : Mapping) (addr : LispAddr) :
    (mappingCountLocator m addr).locators = m.locators := by
  unfold mappingCountLocator
  split_ifs <;> rfl

/-- Adding a locator leaves the old ones or some of them, and at most the new one. -/
theorem mappingAddLocator_subperm (h : mappingAddLocator m loct = .ok (ret, m')) :
    m'.locators.Subperm (loct :: m.locators) := by
  have hself : m.locators.Subperm (loct :: m.locators) := (sublist_cons_self _ _).subperm
  cases mappingAddLocator_cases h with
  | newList _ added =>
    simpa [Mapping.locators] using (glistAdd_perm added).flatten.subperm
  | inserted _ _ added =>
    rw [mappingCountLocator_locators]
    exact flatten_set_subperm (glistAdd_perm added).subperm
  | replaced _ _ _ added =>
    exact flatten_set_subperm
      ((glistAdd_perm added).subperm.trans (eraseP_sublist.cons_cons _).subperm)
  | dropped =>
    exact flatten_set_subperm (eraseP_sublist.trans (sublist_cons_self _ _)).subperm
  | kept | refused => exact hself

/-- The locators of a mapping built from a list are some of that list. -/
theorem addLocators_subperm (h : addLocators m l = .ok (ret, m', left)) :
    m'.locators.Subperm (l ++ m.locators) := by
  refine (sublist_append_right left _).subperm.trans (addLocators_induct (I := fun rest m1 =>
    (rest ++ m1.locators).Subperm (l ++ m.locators)) ?_ (List.Subperm.refl _) h)
  intro x rest m1 r m2 hI hadd _
  exact ((subperm_append_left rest |>.mpr (mappingAddLocator_subperm hadd)).trans
    perm_middle.subperm).trans hI

theorem parseLocators_fresh {lo : Nat} : ∀ {l : List LocatorRecord} {next : Nat}
    {locList : List Locator}, FreshLocators lo next locList → lo ≤ next →
      FreshLocators lo (next + l.length) (parseLocators next locList l)
  | [], _, _, h, _ => h
  | r :: rest, next, locList, h, hlo => by
    rw [parseLocators, length_cons, Nat.add_comm rest.length 1, ← Nat.add_assoc]
    have hnew : FreshLocators next (next + 1) [locatorParse next r] :=
      ⟨by simp, by simp [locatorParse]⟩
    exact parseLocators_fresh (h.append hnew hlo (Nat.le_succ _)) (Nat.le_succ_of_le hlo)

/-- The locators of a parsed mapping are new objects. -/
theorem lispMsgParseMappingRecord_fresh (h : lispMsgParseMappingRecord next probed raw = .ok p) :
    next ≤ p.next ∧ FreshLocators next p.next p.m.locators := by
  cases raw with
  | malformed =>
    simp only [lispMsgParseMappingRecord, Except.ok.injEq] at h
    rw [← h]
    exact ⟨Nat.le_refl _, .nil⟩
  | wellFormed r =>
    simp only [lispMsgParseMappingRecord, except_bind_ok, except_pure_ok] at h
    obtain ⟨⟨ret, m', left⟩, hadd, rfl⟩ := h
    refine ⟨Nat.le_add_right _ _, ?_⟩
    refine (parseLocators_fresh .nil (Nat.le_refl _)).subperm ?_
    simpa [Mapping.locators, mappingNew] using addLocators_subperm hadd

/-! ## Authentication -/

/-- The length of the authentication data, `auth_data_get_len_for_type` for every key type. -/
def SHA1_AUTH_DATA_LEN : Nat := 20

/-- The authentication field of a message, and the message with that field zeroed. -/
structure AuthField where
  keyId : UInt16
  dataLen : UInt16
  /-- The authentication data of the message. -/
  data : List UInt8
  /-- The whole message with the authentication data set to zero. -/
  zeroed : List UInt8

/-- A C string: its bytes, without the terminating zero. -/
structure CString where
  bytes : List UInt8
  nonzero : ∀ b ∈ bytes, b ≠ 0
deriving DecidableEq

/-- `strncmp` returns `0`: the bytes agree up to the first zero or the bound. -/
def strncmpEq : Nat → List UInt8 → List UInt8 → Bool
  | 0, _, _ => true
  | n + 1, a, b =>
    let x := a.headD 0
    let y := b.headD 0
    if x ≠ y then false else if x = 0 then true else strncmpEq n a.tail b.tail

/-- An HMAC: the digest of a message under a key. -/
abbrev Hmac := List UInt8 → List UInt8 → List UInt8

/-- `lisp_msg_check_auth_field` and `check_auth_field`. The key type is truncated to a byte. -/
def lispMsgCheckAuthField (hmac : Hmac) (a : AuthField)
    (key : List UInt8) : Bool :=
  a.dataLen = 20 && a.keyId.toUInt8 = 1 &&
    strncmpEq SHA1_AUTH_DATA_LEN (hmac key a.zeroed) a.data

theorem strncmpEq_self : ∀ (n : Nat) (a : List UInt8), strncmpEq n a a = true
  | 0, _ => rfl
  | n + 1, a => by
    simp only [strncmpEq, ne_eq, not_true, if_false]
    split_ifs
    · rfl
    · exact strncmpEq_self n a.tail

end Lispmob
