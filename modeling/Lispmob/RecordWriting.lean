import Lispmob.AddressRoundTrips
import Lispmob.FlowBalancing
import Lispmob.MessageBuffers

/-!
# Writing mapping records

`lisp_msg_put_mapping` appends a record to a message: a header, the EID and the locators that are
up. The number of locators goes into the header when they are all written, and the probed bit into
the header of a locator after its address. The pointers to these headers were taken before, and if
the buffer was moved in between, they point into memory that is no longer its own.

So the fields of a sequence of records are all written in place exactly when the EID and the
locators of each record fit into the room left after its header (`fields_in_place_iff`).
-/

namespace Lispmob

open List

/-! ## The code -/

/-- Assign a bit-field of one bit. -/
def setBit (x : UInt8) (i : Nat) (v : Bool) : UInt8 :=
  if v then x ||| UInt8.ofNat (2 ^ i) else x &&& ~~~UInt8.ofNat (2 ^ i)

/-- The flags of a locator after `lisp_msg_put_locator`: the bits `local` and `reachable`. -/
def locFlags (l : Locator) (flags : UInt8) : UInt8 :=
  setBit (setBit flags 2 true) 0 (l.state = .UP)

/-- `mapping_record_init_hdr`. -/
def mappingRecordInitHdr : List UInt8 :=
  beBytes 4 10 ++ [1, 0, 0x10, 0, 0, 0]

/-- `increment_record_count`; the message types with records are the first four. -/
def incrementRecordCount (b : MsgBuf) : Except Fault MsgBuf := do
  let first ← byteAt b.mem b.lisp
  if 1 ≤ first.toNat / 16 ∧ first.toNat / 16 ≤ 4 then b.modifyByte b.lispPtr 3 (· + 1)
  else return b

/-- The locator has the probed address, if there is one. -/
def isProbed (probed : Option LispAddr) (l : Locator) : Bool :=
  match probed, lispAddrGetIpAddr l.addr with
  | some p, some ip => lispAddrCmp ip p = 0
  | _, _ => false

section Code

variable (malloc : Malloc)

/-- `lisp_msg_put_locator`. The result of writing the address is ignored. -/
def lispMsgPutLocator (b : MsgBuf) (l : Locator) : Except Fault (LbufPtr × MsgBuf) := do
  let (loc, b) := b.putUninit malloc 6
  let b ← b.write loc [(loc.off, [l.priority, l.weight, l.mpriority, l.mweight])]
  let b ← b.modifyByte loc 5 (locFlags l)
  let (_, b) ← lispMsgPutAddr malloc b l.addr
  return (loc, b)

/-- `lisp_msg_put_mapping_hdr`. -/
def lispMsgPutMappingHdr (b : MsgBuf) : Except Fault (LbufPtr × MsgBuf) := do
  let (hdr, b) := b.putUninit malloc 10
  let b ← b.write hdr [(hdr.off, mappingRecordInitHdr)]
  return (hdr, b)

/-- The probed bit of a locator that was written, in the inner loop of `lisp_msg_put_mapping`. -/
def putProbed (probed : Option LispAddr) (b : MsgBuf) (ploc : LbufPtr) (loct : Locator) :
    Except Fault MsgBuf :=
  if isProbed probed loct then b.modifyByte ploc 5 (setBit · 1 true) else .ok b

/-- The inner loop of `lisp_msg_put_mapping`, with the number of locators. -/
def putLocatorList (probed : Option LispAddr) :
    List Locator → Nat → MsgBuf → Except Fault (Nat × MsgBuf)
  | [], n, b => .ok (n, b)
  | loct :: rest, n, b =>
    if loct.state = .DOWN then putLocatorList probed rest n b
    else do
      let (ploc, b) ← lispMsgPutLocator malloc b loct
      let b ← putProbed probed b ploc loct
      putLocatorList probed rest (n + 1) b

/-- The outer loop of `lisp_msg_put_mapping`. The first locator of each list is read. -/
def putLocatorsLists (probed : Option LispAddr) :
    List (List Locator) → Nat → MsgBuf → Except Fault (Nat × MsgBuf)
  | [], n, b => .ok (n, b)
  | [] :: _, _, _ => .error .nullDeref
  | (loct :: more) :: rest, n, b =>
    if lispAddrLafi loct.addr = .NO_ADDR then putLocatorsLists probed rest n b
    else do
      let (n, b) ← putLocatorList malloc probed (loct :: more) n b
      putLocatorsLists probed rest n b

/-- The header of a record, as `lisp_msg_put_mapping` fills it in before it goes on. The action of
the mapping is not written. -/
def putRecordHdr (b : MsgBuf) (m : Mapping) : Except Fault (LbufPtr × MsgBuf) := do
  let (hdr, b) ← lispMsgPutMappingHdr malloc b
  let b ← b.write hdr [(hdr.off + 5, [lispAddrGetPlen m.eidPrefix])]
  let b ← b.write hdr [(hdr.off, beBytes 4 m.ttl.toNat)]
  let b ← b.modifyByte hdr 6 (setBit · 4 (m.authoritative.toNat % 2 = 1))
  return (hdr, b)

/-- `lisp_msg_put_mapping`. -/
def lispMsgPutMappingBytes (b : MsgBuf) (m : Mapping) (probed : Option LispAddr) :
    Except Fault (Option LbufPtr × MsgBuf) := do
  let (hdr, b) ← putRecordHdr malloc b m
  match ← lispMsgPutAddr malloc b m.eidPrefix with
  | (none, b) => return (none, b)
  | (some _, b) =>
    let (n, b) ← putLocatorsLists malloc probed m.locatorsLists 0 b
    let b ← b.write hdr [(hdr.off + 4, [UInt8.ofNat n])]
    let b ← incrementRecordCount b
    return (some hdr, b)

end Code

/-! ## Writing in place -/

section InPlace

variable {b b1 : MsgBuf} {d y y' : List UInt8} {p : LbufPtr} {pos : Nat} {x : UInt8} {i : Nat}

theorem write_at {old l : List UInt8} (hdata : b.data = d ++ (old ++ y))
    (hlen : old.length = l.length) (hpos : pos = b.head.length + d.length)
    (hp : p.block = b.block) : b.write p [(pos, l)] = .ok { b with data := d ++ (l ++ y) } := by
  have hmem : b.mem = (b.head ++ d) ++ (old ++ (y ++ b.tail)) := by
    simp only [Lbuf.mem, hdata, append_assoc]
  refine write_of_apply b ?_ ?_ hp
  · rw [hmem, hpos, ← length_append, (Fills.single _ l).apply hlen]
    simp only [append_assoc]
  · simp only [hdata, length_append, hlen]

theorem modifyByte_at (hdata : b.data = d ++ (x :: y)) (hp : p.block = b.block)
    (hpos : p.off + i = b.head.length + d.length) (f : UInt8 → UInt8) :
    b.modifyByte p i f = .ok { b with data := d ++ (f x :: y) } := by
  have hmem : b.mem = (b.head ++ d) ++ ([x] ++ (y ++ b.tail)) := by
    simp only [Lbuf.mem, hdata, append_assoc, cons_append, nil_append]
  have hx : byteAt b.mem (p.off + i) = .ok x := by
    rw [hmem, hpos, ← length_append]
    exact (Holds.intro _ [x] _).readByte
  replace hdata : b.data = d ++ ([x] ++ y) := hdata
  rw [MsgBuf.modifyByte, if_pos hp]
  simp only [hx, bind, Except.bind]
  exact write_at (l := [f x]) hdata rfl hpos hp

theorem Appended.setData (h : Appended b b1 y) (hlen : y'.length = y.length) :
    Appended b { b1 with data := b.data ++ y' } y' :=
  ⟨h.head, h.lisp, rfl, h.le, hlen.symm ▸ h.same, hlen.symm ▸ h.room⟩

/-- Writing over some of the bytes that were appended. -/
theorem Appended.write_at {y₁ old l y₂ : List UInt8} (h : Appended b b1 (y₁ ++ (old ++ y₂)))
    (hlen : old.length = l.length)
    (hpos : pos = b.head.length + b.data.length + y₁.length) (hp : p.block = b1.block) :
    ∃ b₂, b1.write p [(pos, l)] = .ok b₂ ∧ Appended b b₂ (y₁ ++ (l ++ y₂)) ∧
      b₂.block = b1.block ∧ b₂.tail = b1.tail := by
  have hdata : b1.data = (b.data ++ y₁) ++ (old ++ y₂) := by rw [h.data, append_assoc]
  have hpos' : pos = b1.head.length + (b.data ++ y₁).length := by
    rw [hpos, h.head, length_append, Nat.add_assoc]
  refine ⟨_, Lispmob.write_at hdata hlen hpos' hp, ?_, rfl, rfl⟩
  rw [append_assoc]
  exact h.setData (by simp only [length_append, hlen])

theorem Appended.modifyByte_at {y₁ y₂ : List UInt8}
    (h : Appended b b1 (y₁ ++ (x :: y₂))) (hp : p.block = b1.block)
    (hpos : p.off + i = b.head.length + b.data.length + y₁.length) (f : UInt8 → UInt8) :
    ∃ b₂, b1.modifyByte p i f = .ok b₂ ∧ Appended b b₂ (y₁ ++ (f x :: y₂)) ∧
      b₂.block = b1.block ∧ b₂.tail = b1.tail := by
  have hdata : b1.data = (b.data ++ y₁) ++ (x :: y₂) := by rw [h.data, append_assoc]
  have hpos' : p.off + i = b1.head.length + (b.data ++ y₁).length := by
    rw [hpos, h.head, length_append, Nat.add_assoc]
  refine ⟨_, Lispmob.modifyByte_at hdata hp hpos' f, ?_, rfl, rfl⟩
  rw [append_assoc]
  exact h.setData (by simp)

theorem modifyByte_stale (h : p.block ≠ b.block) (i : Nat) (f : UInt8 → UInt8) :
    b.modifyByte p i f = .error .useAfterFree := by
  rw [MsgBuf.modifyByte, if_neg h]
  rfl

theorem write_stale (h : p.block ≠ b.block) (ws : Writes) : b.write p ws = .error .useAfterFree :=
  if_neg h

end InPlace

/-! ## Locators -/

/-- The bytes of an address: as many as it takes, and in the format if it is regular. -/
def AddrBytes (a : LispAddr) (e : List UInt8) : Prop :=
  e.length = lispAddrSizeToWrite a ∧ (a.regular true = true → a.encoding = some e)

/-- The bytes of a locator. One byte and some of the flags are as they were in memory; the probed
bit is set if it should be. -/
def LocatorBytes (probed : Option LispAddr) (l : Locator) (y : List UInt8) : Prop :=
  ∃ x u e, AddrBytes l.addr e ∧ y = [l.priority, l.weight, l.mpriority, l.mweight, x,
    if isProbed probed l then setBit (locFlags l u) 1 true else locFlags l u] ++ e

/-- The bytes of some locators, one after the other. -/
def LocatorsBytes (probed : Option LispAddr) : List Locator → List UInt8 → Prop
  | [], y => y = []
  | l :: rest, y => ∃ y₁ y₂, LocatorBytes probed l y₁ ∧ LocatorsBytes probed rest y₂ ∧ y = y₁ ++ y₂

/-- The number of bytes of some locators. -/
def locatorsSize : List Locator → Nat
  | [] => 0
  | l :: rest => 6 + lispAddrSizeToWrite l.addr + locatorsSize rest

variable {l : Locator} {b : MsgBuf}

theorem LocatorBytes.length {probed : Option LispAddr} {y : List UInt8}
    (h : LocatorBytes probed l y) : y.length = 6 + lispAddrSizeToWrite l.addr := by
  obtain ⟨x, u, e, he, rfl⟩ := h
  rw [length_append, he.1]
  rfl

theorem LocatorsBytes.length {probed : Option LispAddr} : ∀ {l : List Locator} {y : List UInt8},
    LocatorsBytes probed l y → y.length = locatorsSize l
  | [], y, h => by rw [h]; rfl
  | l :: rest, y, h => by
    obtain ⟨y1, y2, h1, h2, rfl⟩ := h
    rw [length_append, h1.length, h2.length, locatorsSize]

section Specs

variable (malloc : Malloc) (probed : Option LispAddr)

theorem lispMsgPutAddr_bytes (b : MsgBuf) (a : LispAddr) : ∃ ptr e b',
    lispMsgPutAddr malloc b a = .ok (ptr, b') ∧ AddrBytes a e ∧ Appended b b' e ∧
      b'.tail.length = tailAfter b.tail.length (lispAddrSizeToWrite a) ∧
      (ptr.isSome ↔ lispAddrWritable a = true) := by
  obtain ⟨e, b', hrun, hlen, happ, htail, hcovers⟩ := lispMsgPutAddr_spec malloc b a
  refine ⟨_, e, b', hrun, ⟨hlen, fun hreg => ?_⟩, happ, htail, ?_⟩
  · obtain ⟨e', he', hfills⟩ := LispAddr.regular_fills hreg
    rw [hcovers e' he' (hfills _).covers, he']
  · rw [← lispAddrWrite_len_ne_zero a (b.head.length + b.data.length)]
    split_ifs with hzero
    · simp [hzero]
    · simp [hzero]

/-- `lisp_msg_put_locator` appends a locator without the probed bit. The pointer it returns is
current when the address fitted. -/
theorem lispMsgPutLocator_spec (b : MsgBuf) (l : Locator) : ∃ block x u e b',
    lispMsgPutLocator malloc b l = .ok (⟨block, b.head.length + b.data.length⟩, b') ∧
      AddrBytes l.addr e ∧
      Appended b b' ([l.priority, l.weight, l.mpriority, l.mweight, x, locFlags l u] ++ e) ∧
      (block = b'.block ↔ lispAddrSizeToWrite l.addr ≤ tailAfter b.tail.length 6) ∧
      b'.tail.length = tailAfter (tailAfter b.tail.length 6) (lispAddrSizeToWrite l.addr) := by
  obtain ⟨y, b1, hput, hlen, happ, htail⟩ := putUninit_spec malloc b 6
  obtain ⟨y0, y1, y2, y3, x, u, rfl⟩ : ∃ y0 y1 y2 y3 x u, y = [y0, y1, y2, y3, x, u] := by
    match y, hlen with
    | [y0, y1, y2, y3, x, u], _ => exact ⟨y0, y1, y2, y3, x, u, rfl⟩
  replace happ : Appended b b1 ([] ++ ([y0, y1, y2, y3] ++ [x, u])) := happ
  let loc : LbufPtr := ⟨b1.block, b.head.length + b.data.length⟩
  obtain ⟨b2, hwrite, happ2, hblock2, htail2⟩ := happ.write_at (p := loc)
    (l := [l.priority, l.weight, l.mpriority, l.mweight]) rfl rfl rfl
  replace happ2 : Appended b b2 ([l.priority, l.weight, l.mpriority, l.mweight, x] ++ [u]) := happ2
  obtain ⟨b3, hmodify, happ3, hblock3, htail3⟩ :=
    happ2.modifyByte_at (p := loc) hblock2.symm (i := 5) rfl (locFlags l)
  obtain ⟨ptr, e, b', haddr, he, happ', htail', -⟩ := lispMsgPutAddr_bytes malloc b3 l.addr
  have hroom : b3.tail.length = tailAfter b.tail.length 6 := by rw [htail3, htail2, htail]
  refine ⟨b1.block, x, u, e, b', ?_, he, ?_, ?_, ?_⟩
  · simp only [length_nil, Nat.add_zero] at hwrite
    simp only [lispMsgPutLocator, hput, loc, hwrite, hmodify, haddr, bind, Except.bind, pure,
      Except.pure]
  · simpa using happ3.trans happ'
  · rw [← hroom, ← he.1, ← happ'.same, hblock3, hblock2]
    exact eq_comm
  · rw [htail', hroom]

/-- The room left after some locators, unless the buffer is moved between the header of a probed
locator and its address. -/
def locatorsRoom : Nat → List Locator → Option Nat
  | room, [] => some room
  | room, l :: rest =>
    if isProbed probed l && lispAddrSizeToWrite l.addr > tailAfter room 6 then none
    else locatorsRoom (tailAfter (tailAfter room 6) (lispAddrSizeToWrite l.addr)) rest

theorem locatorsRoom_of_le : ∀ {l : List Locator} {room : Nat}, locatorsSize l ≤ room →
    locatorsRoom probed room l = some (room - locatorsSize l)
  | [], room, _ => rfl
  | l :: rest, room, h => by
    rw [locatorsSize] at h
    have hhdr : tailAfter room 6 = room - 6 := if_neg (by omega)
    have haddr : tailAfter (room - 6) (lispAddrSizeToWrite l.addr) =
        room - 6 - lispAddrSizeToWrite l.addr := if_neg (by omega)
    rw [locatorsRoom, hhdr, haddr, if_neg (by simp; omega), locatorsRoom_of_le (by omega),
      locatorsSize]
    congr 1
    omega

/-- The probed bit is set in the header of its locator if the address of the locator fitted. -/
theorem putProbed_spec {b b1 : MsgBuf} {x u : UInt8} {e : List UInt8} (block : Nat)
    (happ : Appended b b1 ([l.priority, l.weight, l.mpriority, l.mweight, x, locFlags l u] ++ e))
    (he : AddrBytes l.addr e) (h : isProbed probed l = true → block = b1.block) :
    ∃ y b₂, putProbed probed b1 ⟨block, b.head.length + b.data.length⟩ l = .ok b₂ ∧
      LocatorBytes probed l y ∧ Appended b b₂ y ∧ b₂.tail = b1.tail := by
  unfold putProbed
  split_ifs with hp
  · replace happ : Appended b b1 ([l.priority, l.weight, l.mpriority, l.mweight, x] ++
      (locFlags l u :: e)) := by simpa using happ
    obtain ⟨b₂, hrun, happ2, -, htail⟩ := happ.modifyByte_at
      (p := ⟨block, b.head.length + b.data.length⟩) (h hp) (i := 5) rfl (setBit · 1 true)
    exact ⟨_, b₂, hrun, ⟨x, u, e, he, by simp [hp]⟩, happ2, htail⟩
  · exact ⟨_, b1, rfl, ⟨x, u, e, he, by simp [hp]⟩, happ, rfl⟩

/-- The inner loop appends the locators, or writes a probed bit through a pointer that is no longer
good. -/
theorem putLocatorList_spec : ∀ (l : List Locator) (n : Nat) (b : MsgBuf),
    (∀ x ∈ l, x.state = .UP) → match locatorsRoom probed b.tail.length l with
      | none => putLocatorList malloc probed l n b = .error .useAfterFree
      | some room => ∃ y b', putLocatorList malloc probed l n b = .ok (n + l.length, b') ∧
          LocatorsBytes probed l y ∧ Appended b b' y ∧ b'.tail.length = room
  | [], n, b, _ => ⟨[], b, rfl, rfl, .refl b, rfl⟩
  | l :: rest, n, b, hup => by
    have hstate : ¬ l.state = .DOWN := by
      rw [hup l mem_cons_self]
      decide
    obtain ⟨block, x, u, e, b1, hput, he, happ, hblock, htail⟩ := lispMsgPutLocator_spec malloc b l
    rw [locatorsRoom, putLocatorList, if_neg hstate, hput]
    simp only [bind, Except.bind]
    by_cases hstale : (isProbed probed l && lispAddrSizeToWrite l.addr > tailAfter b.tail.length 6)
        = true
    · rw [if_pos hstale]
      rw [Bool.and_eq_true, decide_eq_true_eq] at hstale
      have hne : block ≠ b1.block := fun heq => absurd (hblock.mp heq) (Nat.not_le.mpr hstale.2)
      rw [putProbed, if_pos hstale.1, modifyByte_stale (p := ⟨block, _⟩) hne]
    · rw [if_neg hstale]
      obtain ⟨y1, b2, hprobed, hbytes1, happ2, htail2⟩ := putProbed_spec probed block happ
        he fun hp => hblock.mpr (by simpa [hp] using hstale)
      have hrest := putLocatorList_spec rest (n + 1) b2 fun z hz => hup z (mem_cons_of_mem _ hz)
      rw [htail2, htail] at hrest
      rw [hprobed]
      dsimp only
      split at hrest
      · exact hrest
      · obtain ⟨y, b', hrun, hbytes, happ', hroom⟩ := hrest
        refine ⟨_, b', ?_, ⟨y1, y, hbytes1, hbytes, rfl⟩, happ2.trans happ', hroom⟩
        rw [hrun, length_cons, Nat.add_assoc, Nat.add_comm 1]

theorem putLocatorList_filter : ∀ (l : List Locator) (n : Nat) (b : MsgBuf),
    putLocatorList malloc probed (l.filter (·.state = .UP)) n b = putLocatorList malloc probed l n b
  | [], _, _ => rfl
  | l :: rest, n, b => by
    cases hstate : l.state with
    | DOWN =>
      rw [filter_cons_of_neg (by simp [hstate]), putLocatorList_filter rest, putLocatorList,
        if_pos hstate]
    | UP =>
      rw [filter_cons_of_pos (by simp [hstate]), putLocatorList, putLocatorList]
      simp only [putLocatorList_filter rest]

theorem putLocatorList_append : ∀ (l l' : List Locator) (n : Nat) (b : MsgBuf),
    putLocatorList malloc probed (l ++ l') n b = (do
      let (n, b) ← putLocatorList malloc probed l n b
      putLocatorList malloc probed l' n b)
  | [], _, _, _ => rfl
  | l :: rest, l', n, b => by
    rw [cons_append, putLocatorList, putLocatorList]
    split_ifs
    · exact putLocatorList_append rest l' n b
    · simp only [bind_assoc, putLocatorList_append rest l']

end Specs

/-! ## The locators of a mapping -/

/-- The locators `lisp_msg_put_mapping` goes through: those that are up, of the lists that do not
start with a locator without address, and of the lists before the first empty one. -/
def announced : List (List Locator) → List Locator
  | [] => []
  | [] :: _ => []
  | (loct :: more) :: rest =>
    if lispAddrLafi loct.addr = .NO_ADDR then announced rest
    else (loct :: more).filter (·.state = .UP) ++ announced rest

theorem announced_up : ∀ {lists : List (List Locator)}, ∀ x ∈ announced lists, x.state = .UP
  | [] :: _, x, hx => nomatch hx
  | (loct :: more) :: rest, x, hx => by
    rw [announced] at hx
    split_ifs at hx
    · exact announced_up x hx
    · rcases mem_append.mp hx with hx | hx
      · exact of_decide_eq_true (mem_filter.mp hx).2
      · exact announced_up x hx

/-- The loops over the lists go through those locators, and fail at an empty list. -/
theorem putLocatorsLists_eq (malloc : Malloc) (probed : Option LispAddr) :
    ∀ (lists : List (List Locator)) (n : Nat) (b : MsgBuf),
      putLocatorsLists malloc probed lists n b = (do
        let r ← putLocatorList malloc probed (announced lists) n b
        if [] ∈ lists then throw .nullDeref else return r)
  | [], n, b => rfl
  | [] :: _, n, b => by
    rfl
  | (loct :: more) :: rest, n, b => by
    have hmem : [] ∈ (loct :: more) :: rest ↔ [] ∈ rest := by simp
    simp only [putLocatorsLists, announced, hmem]
    by_cases hlafi : lispAddrLafi loct.addr = .NO_ADDR
    · rw [if_pos hlafi, if_pos hlafi]
      exact putLocatorsLists_eq malloc probed rest n b
    · rw [if_neg hlafi, if_neg hlafi, putLocatorList_append, putLocatorList_filter]
      simp only [putLocatorsLists_eq malloc probed rest, bind_assoc]

/-! ## Records -/

/-- The header of a record with `n` locators. -/
def recordHdr (m : Mapping) (n : Nat) : List UInt8 :=
  beBytes 4 m.ttl.toNat ++ [UInt8.ofNat n, lispAddrGetPlen m.eidPrefix,
    setBit 0x10 4 (m.authoritative.toNat % 2 = 1), 0, 0, 0]

theorem putRecordHdr_spec (malloc : Malloc) (b : MsgBuf) (m : Mapping) : ∃ b',
    putRecordHdr malloc b m = .ok (⟨b'.block, b.head.length + b.data.length⟩, b') ∧
      Appended b b' (recordHdr m 1) ∧ b'.tail.length = tailAfter b.tail.length 10 := by
  obtain ⟨y, b1, hput, hlen, happ, htail⟩ := putUninit_spec malloc b 10
  let hdr : LbufPtr := ⟨b1.block, b.head.length + b.data.length⟩
  replace happ : Appended b b1 ([] ++ (y ++ [])) := by simpa using happ
  obtain ⟨b2, hinit, happ2, hblock2, htail2⟩ :=
    happ.write_at (p := hdr) (l := mappingRecordInitHdr) hlen rfl rfl
  replace happ2 : Appended b b2 ((beBytes 4 10 ++ [1]) ++ ([0] ++ [0x10, 0, 0, 0])) := happ2
  obtain ⟨b3, hplen, happ3, hblock3, htail3⟩ := happ2.write_at (p := hdr)
    (l := [lispAddrGetPlen m.eidPrefix]) rfl rfl hblock2.symm
  replace happ3 : Appended b b3 ([] ++ (beBytes 4 10 ++ [1, lispAddrGetPlen m.eidPrefix, 0x10, 0,
    0, 0])) := happ3
  obtain ⟨b4, httl, happ4, hblock4, htail4⟩ := happ3.write_at (p := hdr)
    (l := beBytes 4 m.ttl.toNat) rfl rfl (hblock3.trans hblock2).symm
  have hblock : b4.block = b1.block := hblock4.trans (hblock3.trans hblock2)
  replace happ4 : Appended b b4 ((beBytes 4 m.ttl.toNat ++ [1, lispAddrGetPlen m.eidPrefix]) ++
    (0x10 :: [0, 0, 0])) := by simpa using happ4
  obtain ⟨b', hauth, happ', hblock', htail'⟩ := happ4.modifyByte_at (p := hdr) hblock.symm (i := 6)
    (by simp [hdr]) (setBit · 4 (m.authoritative.toNat % 2 = 1))
  refine ⟨b', ?_, by simpa [recordHdr] using happ', by rw [htail', htail4, htail3, htail2, htail]⟩
  rw [hblock', hblock]
  simp only [length_nil, Nat.add_zero, length_append, beBytes_length,
    length_cons] at hinit hplen httl
  simp only [putRecordHdr, lispMsgPutMappingHdr, hput, hinit, hplen, httl, hauth, hdr, bind,
    Except.bind, pure, Except.pure]

/-- A message under construction has its header. -/
structure UnderConstruction (b : MsgBuf) : Prop where
  start : b.lisp = b.head.length
  hdr : 4 ≤ b.data.length

/-- The message with the number of records in its header incremented. -/
def bumpCount : List UInt8 → List UInt8
  | first :: x :: y :: n :: rest =>
    if 1 ≤ first.toNat / 16 ∧ first.toNat / 16 ≤ 4 then first :: x :: y :: (n + 1) :: rest
    else first :: x :: y :: n :: rest
  | d => d

theorem bumpCount_length : ∀ d : List UInt8, (bumpCount d).length = d.length
  | first :: x :: y :: n :: rest => by
    rw [bumpCount]
    split_ifs <;> rfl
  | [] => rfl
  | [_] => rfl
  | [_, _] => rfl
  | [_, _, _] => rfl

/-- The count is in the message that is being written. -/
theorem incrementRecordCount_spec {d y : List UInt8} (hdata : b.data = d ++ y)
    (hlisp : b.lisp = b.head.length) (hd : 4 ≤ d.length) :
    ∃ b', incrementRecordCount b = .ok b' ∧ b'.head = b.head ∧ b'.lisp = b.lisp ∧
      b'.data = bumpCount d ++ y ∧ b'.tail = b.tail := by
  match d, hd with
  | first :: x :: z :: n :: rest, _ =>
    have hfirst : byteAt b.mem b.lisp = .ok first := by
      rw [Lbuf.mem, hdata, hlisp]
      exact (Holds.intro b.head [first] _).readByte
    have hcount := modifyByte_at (p := b.lispPtr) (d := [first, x, z]) (i := 3) (y := rest ++ y)
      (x := n) hdata rfl (by simp [MsgBuf.lispPtr, hlisp]) (· + 1)
    simp only [incrementRecordCount, hfirst, bind, Except.bind, bumpCount]
    split_ifs
    · exact ⟨_, hcount, rfl, rfl, rfl, rfl⟩
    · exact ⟨b, rfl, rfl, rfl, hdata, rfl⟩

/-- A call of `lisp_msg_put_mapping`. -/
structure PutCall where
  m : Mapping
  probed : Option LispAddr

namespace PutCall

/-- The locators of the record. -/
def locators (c : PutCall) : List Locator :=
  announced c.m.locatorsLists

/-- The number of bytes after the header of the record. -/
def bodySize (c : PutCall) : Nat :=
  lispAddrSizeToWrite c.m.eidPrefix + locatorsSize c.locators

end PutCall

/-- How a call ends, as far as the room in the buffer goes. -/
inductive PutEnd where
  /-- A field is written through a pointer taken before the buffer was moved. -/
  | stale
  /-- An empty list of locators is reached. -/
  | broken
  | left (room : Nat)
deriving DecidableEq

/-- The room left by a call. -/
def PutCall.roomAfter (c : PutCall) (room : Nat) : PutEnd :=
  let room1 := tailAfter room 10
  let room2 := tailAfter room1 (lispAddrSizeToWrite c.m.eidPrefix)
  if !lispAddrWritable c.m.eidPrefix then .left room2
  else if locatorsRoom c.probed room2 c.locators = none then .stale
  else if [] ∈ c.m.locatorsLists then .broken
  else if c.bodySize ≤ room1 then .left (room1 - c.bodySize)
  else .stale

/-- The bytes of a record: its header with the number of its locators, the EID and the locators. -/
def RecordBytes (c : PutCall) (y : List UInt8) : Prop :=
  ∃ e ls, AddrBytes c.m.eidPrefix e ∧ LocatorsBytes c.probed c.locators ls ∧
    y = recordHdr c.m c.locators.length ++ (e ++ ls)

/-- What a call does to a message: the record follows, and it is counted. Without its EID it is not,
and only the room for header and EID follows. -/
def RecordAdded (c : PutCall) (d d' : List UInt8) : Prop :=
  if lispAddrWritable c.m.eidPrefix then ∃ y, RecordBytes c y ∧ d' = bumpCount d ++ y
  else ∃ y : List UInt8, y.length = 10 + lispAddrSizeToWrite c.m.eidPrefix ∧ d' = d ++ y

/-- The end of a call whose pointer to the header is still good. -/
theorem putRecordEnd_spec {b b1 b₂ : MsgBuf} (hb : UnderConstruction b) {c : PutCall}
    {e ls : List UInt8} (happ₁ : Appended b b1 (recordHdr c.m 1))
    (happ₂ : Appended b1 b₂ (e ++ ls)) (he : AddrBytes c.m.eidPrefix e)
    (hls : LocatorsBytes c.probed c.locators ls) (hdr : LbufPtr) (hblock : hdr.block = b₂.block)
    (hoff : hdr.off = b.head.length + b.data.length) :
    ∃ b₃ b', b₂.write hdr [(hdr.off + 4, [UInt8.ofNat c.locators.length])] = .ok b₃ ∧
      incrementRecordCount b₃ = .ok b' ∧ UnderConstruction b' ∧ b'.head = b.head ∧
      b'.tail = b₂.tail ∧ ∃ y, RecordBytes c y ∧ b'.data = bumpCount b.data ++ y := by
  have happ : Appended b b₂ (beBytes 4 c.m.ttl.toNat ++ ([UInt8.ofNat 1] ++
      ([lispAddrGetPlen c.m.eidPrefix, setBit 0x10 4 (c.m.authoritative.toNat % 2 = 1), 0, 0, 0] ++
        (e ++ ls)))) := by
    simpa [recordHdr] using happ₁.trans happ₂
  have hpos : hdr.off + 4 = b.head.length + b.data.length + (beBytes 4 c.m.ttl.toNat).length := by
    rw [hoff, beBytes_length]
  obtain ⟨b₃, hwrite, happ3, -, htail3⟩ :=
    happ.write_at (l := [UInt8.ofNat c.locators.length]) rfl hpos hblock
  obtain ⟨b', hcount, hhead, hlisp, hdata, htail⟩ := incrementRecordCount_spec happ3.data
    (by rw [happ3.lisp, happ3.head, hb.start]) hb.hdr
  refine ⟨b₃, b', hwrite, hcount, ⟨?_, ?_⟩, hhead.trans happ3.head, htail.trans htail3, _,
    ⟨e, ls, he, hls, ?_⟩, hdata⟩
  · rw [hlisp, hhead, happ3.lisp, happ3.head, hb.start]
  · rw [hdata, length_append, bumpCount_length]
    exact Nat.le_add_right_of_le hb.hdr
  · simp [recordHdr]

theorem lispMsgPutMappingBytes_spec (malloc : Malloc) (hb : UnderConstruction b)
    (c : PutCall) : match c.roomAfter b.tail.length with
      | .stale => lispMsgPutMappingBytes malloc b c.m c.probed = .error .useAfterFree
      | .broken => lispMsgPutMappingBytes malloc b c.m c.probed = .error .nullDeref
      | .left room => ∃ ptr b', lispMsgPutMappingBytes malloc b c.m c.probed = .ok (ptr, b') ∧
          UnderConstruction b' ∧ b'.head = b.head ∧ b'.tail.length = room ∧
          (ptr.isSome ↔ lispAddrWritable c.m.eidPrefix = true) ∧ RecordAdded c b.data b'.data := by
  obtain ⟨b1, hhdr, happ1, htail1⟩ := putRecordHdr_spec malloc b c.m
  obtain ⟨ptr, e, b2, heid, he, happ2, htail2, hptr⟩ :=
    lispMsgPutAddr_bytes malloc b1 c.m.eidPrefix
  have hlocs := putLocatorList_spec malloc c.probed c.locators 0 b2 announced_up
  rw [htail2, htail1, Nat.zero_add] at hlocs
  simp only [PutCall.roomAfter, lispMsgPutMappingBytes, hhdr, heid, bind, Except.bind]
  cases ptr with
  | none =>
    have hw : lispAddrWritable c.m.eidPrefix = false := by simpa using hptr
    rw [hw]
    refine ⟨none, b2, rfl, ⟨?_, ?_⟩, happ2.head.trans happ1.head, ?_, by simp, ?_⟩
    · rw [happ2.lisp, happ1.lisp, happ2.head, happ1.head, hb.start]
    · rw [happ2.data, happ1.data, append_assoc, length_append]
      exact Nat.le_add_right_of_le hb.hdr
    · rw [htail2, htail1]
    · rw [RecordAdded, hw, if_neg (by decide)]
      refine ⟨recordHdr c.m 1 ++ e, ?_, ?_⟩
      · rw [length_append, he.1]
        simp [recordHdr]
      · rw [happ2.data, happ1.data, append_assoc]
  | some ptr =>
    have hw : lispAddrWritable c.m.eidPrefix = true := hptr.mp rfl
    have hann : announced c.m.locatorsLists = c.locators := rfl
    simp only [hw, Bool.not_true, if_neg Bool.false_ne_true, putLocatorsLists_eq, hann, bind,
      Except.bind]
    split at hlocs
    · rename_i hroom
      rw [if_pos hroom, hlocs]
    · rename_i room hroom
      obtain ⟨ls, b3, hrun, hls, happ3, -⟩ := hlocs
      rw [if_neg (by simp [hroom]), hrun]
      by_cases hempty : [] ∈ c.m.locatorsLists
      · simp only [if_pos hempty]
        rfl
      · have hbody := happ2.trans happ3
        have hsame := hbody.same
        have hroom3 := hbody.room
        have hsize : (e ++ ls).length = c.bodySize := by
          rw [length_append, he.1, hls.length, PutCall.bodySize]
        rw [hsize, htail1] at hsame hroom3
        simp only [if_neg hempty, pure, Except.pure]
        split_ifs with hfit
        · have hblock := hsame.mpr hfit
          obtain ⟨b4, b', hwrite, hcount, hb', hhead, htail', y, hy, hdata⟩ := putRecordEnd_spec
            hb happ1 hbody he hls ⟨b1.block, b.head.length + b.data.length⟩ hblock.symm rfl
          refine ⟨some ⟨b1.block, b.head.length + b.data.length⟩, b', by simp only [hwrite, hcount],
            hb', hhead, ?_, by simp, ?_⟩
          · rw [htail', hroom3 hblock]
          · rw [RecordAdded, hw, if_pos rfl]
            exact ⟨y, hy, hdata⟩
        · have hmoved : b1.block ≠ b3.block := fun heq => hfit (hsame.mp heq.symm)
          rw [write_stale (p := ⟨b1.block, _⟩) hmoved]

/-! ## Sequences of records -/

/-- A sequence of calls on one message. -/
def putMappings (malloc : Malloc) : MsgBuf → List PutCall → Except Fault MsgBuf
  | b, [] => .ok b
  | b, c :: rest => do
    let (_, b) ← lispMsgPutMappingBytes malloc b c.m c.probed
    putMappings malloc b rest

/-- What a sequence of calls does to a message. -/
def RecordsAdded : List PutCall → List UInt8 → List UInt8 → Prop
  | [], d, d' => d' = d
  | c :: rest, d, d' => ∃ d1, RecordAdded c d d1 ∧ RecordsAdded rest d1 d'

/-- No field is written through a pointer taken before the buffer was moved, and when the calls
return, all the fields are in the records and the header they belong to. -/
structure FieldsInPlace (malloc : Malloc) (b : MsgBuf) (calls : List PutCall) : Prop where
  current : putMappings malloc b calls ≠ .error .useAfterFree
  added : ∀ b', putMappings malloc b calls = .ok b' →
    b'.head = b.head ∧ RecordsAdded calls b.data b'.data

/-- The EID and the locators of each record fit into the room left after its header. -/
def recordsFit : Nat → List PutCall → Bool
  | _, [] => true
  | room, c :: rest =>
    match c.roomAfter room with
    | .stale => false
    | .broken => true
    | .left room => recordsFit room rest

/-- The calls end well when the records fit, or at an empty list of locators. Otherwise one of them
writes through a pointer that is no longer good. -/
theorem putMappings_spec (malloc : Malloc) : ∀ (calls : List PutCall) {b : MsgBuf},
    UnderConstruction b →
      if recordsFit b.tail.length calls then FieldsInPlace malloc b calls
      else putMappings malloc b calls = .error .useAfterFree
  | [], b, _ => ⟨nofun, fun _ h => by cases h; exact ⟨rfl, rfl⟩⟩
  | c :: rest, b, hb => by
    have hcall := lispMsgPutMappingBytes_spec malloc hb c
    rw [recordsFit]
    split at hcall
    · simp [putMappings, hcall, bind, Except.bind]
    · have hrun : putMappings malloc b (c :: rest) = .error .nullDeref := by
        simp [putMappings, hcall, bind, Except.bind]
      exact ⟨by simp [hrun], by simp [hrun]⟩
    · obtain ⟨ptr, b1, hcall, hb1, hhead, htail, -, hadded⟩ := hcall
      have hrun : putMappings malloc b (c :: rest) = putMappings malloc b1 rest := by
        simp [putMappings, hcall, bind, Except.bind]
      have hrest := putMappings_spec malloc rest hb1
      rw [htail] at hrest
      split_ifs at hrest ⊢
      · refine ⟨hrun ▸ hrest.current, fun b' hb' => ?_⟩
        obtain ⟨hhead', hadded'⟩ := hrest.added b' (hrun ▸ hb')
        exact ⟨hhead'.trans hhead, _, hadded, hadded'⟩
      · rw [hrun, hrest]

/-- The fields of a sequence of records are all written in place exactly when the records fit. -/
theorem fields_in_place_iff (malloc : Malloc) {b : MsgBuf} (hb : UnderConstruction b)
    (calls : List PutCall) :
    FieldsInPlace malloc b calls ↔ recordsFit b.tail.length calls = true := by
  have hspec := putMappings_spec malloc calls hb
  split_ifs at hspec with hfit
  · exact iff_of_true hspec hfit
  · exact iff_of_false (fun h => h.current hspec) hfit

/-- A call for a mapping with one IPv4 locator, which is not probed. -/
def labPutCall : PutCall :=
  ⟨{ eidPrefix := .ippref (.v4 0xc0000200) 24, locatorCount := 1, locatorsLists := [[⟨0,
    .ip (.v4 0x0a000001), .UP, 1, 100, 255, 0⟩]], ttl := 10, action := 0, authoritative := 1 },
      none⟩

theorem labMsg_underConstruction (n : Nat) : UnderConstruction (labMsg n) :=
  ⟨rfl, by simp [labMsg]⟩

theorem labMsg_stale {n : Nat} {calls : List PutCall} (h : recordsFit n calls = false) :
    ¬ FieldsInPlace zeroMalloc (labMsg n) calls ∧
      putMappings zeroMalloc (labMsg n) calls = .error .useAfterFree := by
  have hfit : recordsFit (labMsg n).tail.length calls = false := by
    rwa [show (labMsg n).tail.length = n from length_replicate]
  have hspec := putMappings_spec zeroMalloc calls (labMsg_underConstruction n)
  rw [hfit, if_neg Bool.false_ne_true] at hspec
  exact ⟨fun hplace => hplace.current hspec, hspec⟩

/-- Three records fit into a message with room for a hundred bytes. -/
theorem fields_in_place_three : recordsFit 100 [labPutCall, labPutCall, labPutCall] = true ∧
    FieldsInPlace zeroMalloc (labMsg 100) [labPutCall, labPutCall, labPutCall] :=
  ⟨by decide, (fields_in_place_iff zeroMalloc (labMsg_underConstruction 100) _).mpr (by decide)⟩

/-- The buffer of a new Map-Reply has room for 145 records like that. The next one moves it, and the
number of its locators is written into memory that was freed. -/
theorem fields_out_of_place :
    ¬ FieldsInPlace zeroMalloc (labMsg 4084) (List.replicate 146 labPutCall) ∧
      putMappings zeroMalloc (labMsg 4084) (List.replicate 146 labPutCall) =
        .error .useAfterFree :=
  labMsg_stale (by decide +kernel)

end Lispmob
