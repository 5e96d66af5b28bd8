import Lispmob.AddressWriting

/-!
# Building messages

A message is built by appending to a buffer. `lbuf_put_uninit` gives a pointer to the new bytes, and
reallocates the memory of the buffer when they do not fit. A pointer that was taken before is then
worth nothing, even where the new memory happens to have the address of the old one: `LbufPtr`
remembers the piece of memory it points into, and writing through one into a piece that the buffer
no longer has is the fault `useAfterFree`. A byte written past the end of the memory is lost here.

`lisp_msg_put_addr` makes room for an address and writes it. It does what it should for regular
addresses, and for a Geo address, for which it makes no room (`put_addr_appends_iff`). When another
address cannot be written, the room made for it stays in the message.
-/

namespace Lispmob

open List

variable {a : LispAddr} {ws : Writes} {p : LbufPtr}

/-! ## Pointers into a buffer -/

/-- A pointer into the memory of a buffer. -/
structure LbufPtr where
  /-- The piece of memory the pointer was taken in. -/
  block : Nat
  off : Nat
deriving DecidableEq

/-- A message under construction. Its buffer comes from `lisp_msg_create_buf`. -/
structure MsgBuf extends Lbuf where
  /-- The piece of memory the buffer has now. -/
  block : Nat
  /-- `lisp`, the offset of the message. -/
  lisp : Nat
  lisp_lt : lisp < UINT16_MAX
  heap : source = .MALLOC

namespace MsgBuf

/-- `lbuf_tail`. -/
def tailPtr (b : MsgBuf) : LbufPtr :=
  ⟨b.block, b.head.length + b.data.length⟩

/-- `lbuf_lisp`. -/
def lispPtr (b : MsgBuf) : LbufPtr :=
  ⟨b.block, b.lisp⟩

/-- Write through a pointer; the positions are offsets in the memory. -/
def write (b : MsgBuf) (p : LbufPtr) (ws : Writes) : Except Fault MsgBuf :=
  if p.block = b.block then
    let m := ws.apply b.mem
    .ok { b with
      head := m.take b.head.length
      data := (m.drop b.head.length).take b.data.length
      tail := m.drop (b.head.length + b.data.length) }
  else .error .useAfterFree

/-- Change the byte at a distance from a pointer. -/
def modifyByte (b : MsgBuf) (p : LbufPtr) (i : Nat) (f : UInt8 → UInt8) : Except Fault MsgBuf := do
  if p.block = b.block then
    let x ← byteAt b.mem (p.off + i)
    b.write p [(p.off + i, [f x])]
  else throw .useAfterFree

variable (malloc : Malloc)

/-- `lbuf_prealloc_tailroom`. -/
def preallocTailroom (b : MsgBuf) (size : Nat) : MsgBuf :=
  if size > b.tail.length then
    { b with
      tail := (b.tail ++ malloc.bytes (max size 64)).take (max size 64)
      block := b.block + 1 }
  else b

/-- `lbuf_put_uninit`. -/
def putUninit (b : MsgBuf) (size : Nat) : LbufPtr × MsgBuf :=
  let b := b.preallocTailroom malloc size
  (b.tailPtr, { b with data := b.data ++ b.tail.take size, tail := b.tail.drop size })

end MsgBuf

/-- `lisp_msg_put_addr`; `none` is the null pointer. -/
def lispMsgPutAddr (malloc : Malloc) (b : MsgBuf) (addr : LispAddr) :
    Except Fault (Option LbufPtr × MsgBuf) := do
  let (ptr, b) := b.putUninit malloc (lispAddrSizeToWrite addr)
  let w := lispAddrWrite addr ptr.off
  let b ← b.write ptr w.writes
  if w.len = 0 then return (none, b) else return (some ptr, b)

/-! ## Appending -/

/-- The room left after `size` bytes are appended where there is room for `room`. -/
def tailAfter (room size : Nat) : Nat :=
  if size > room then max size 64 - size else room - size

/-- What appending `y` does to a buffer: the part in use grows, and the memory is another one when
there was no room. -/
structure Appended (b b' : MsgBuf) (y : List UInt8) : Prop where
  head : b'.head = b.head
  lisp : b'.lisp = b.lisp
  data : b'.data = b.data ++ y
  le : b.block ≤ b'.block
  same : b'.block = b.block ↔ y.length ≤ b.tail.length
  room : b'.block = b.block → b'.tail.length = b.tail.length - y.length

theorem Appended.refl (b : MsgBuf) : Appended b b [] :=
  ⟨rfl, rfl, (append_nil _).symm, Nat.le_refl _, by simp, fun _ => rfl⟩

theorem Appended.trans {b b₁ b2 : MsgBuf} {y z : List UInt8} (h : Appended b b₁ y)
    (h' : Appended b₁ b2 z) : Appended b b2 (y ++ z) := by
  have hle := h.le
  have hle' := h'.le
  have hsame := h.same
  have hsame' := h'.same
  refine ⟨h'.head.trans h.head, h'.lisp.trans h.lisp, ?_, Nat.le_trans hle hle', ?_, ?_⟩
  · rw [h'.data, h.data, append_assoc]
  · rw [length_append]
    constructor
    · intro heq
      have hroom := h.room (by omega)
      omega
    · intro hfit
      have hroom := h.room (by omega)
      omega
  · intro heq
    have hroom := h.room (by omega)
    have hroom' := h'.room (by omega)
    rw [length_append]
    omega

section Put

variable (malloc : Malloc) (b : MsgBuf)

/-- Making room moves the buffer when there is not enough. -/
theorem preallocTailroom_spec (size : Nat) :
    (b.preallocTailroom malloc size).head = b.head ∧
      (b.preallocTailroom malloc size).lisp = b.lisp ∧
      (b.preallocTailroom malloc size).data = b.data ∧
      b.block ≤ (b.preallocTailroom malloc size).block ∧
      ((b.preallocTailroom malloc size).block = b.block ↔ size ≤ b.tail.length) ∧
      (b.preallocTailroom malloc size).tail.length =
        if size > b.tail.length then max size 64 else b.tail.length := by
  unfold MsgBuf.preallocTailroom
  split_ifs with hroom
  · refine ⟨rfl, rfl, rfl, Nat.le_succ _, ?_, ?_⟩
    · exact ⟨fun h => absurd h (Nat.succ_ne_self _), fun h => absurd hroom (Nat.not_lt.mpr h)⟩
    · rw [length_take_of_le]
      rw [length_append, malloc.length_bytes]
      exact Nat.le_add_left _ _
  · exact ⟨rfl, rfl, rfl, Nat.le_refl _, ⟨fun _ => Nat.not_lt.mp hroom, fun _ => rfl⟩, rfl⟩

/-- `lbuf_put_uninit` gives a pointer to new bytes at the end. -/
theorem putUninit_spec (size : Nat) : ∃ y b', b.putUninit malloc size =
    (⟨b'.block, b.head.length + b.data.length⟩, b') ∧ y.length = size ∧ Appended b b' y ∧
      b'.tail.length = tailAfter b.tail.length size := by
  obtain ⟨hhead, hlisp, hdata, hle, hsame, htail⟩ := preallocTailroom_spec malloc b size
  unfold MsgBuf.putUninit tailAfter
  generalize b.preallocTailroom malloc size = b1 at hhead hlisp hdata hle hsame htail ⊢
  have hlen : (b1.tail.take size).length = size := by
    rw [length_take, htail]
    split_ifs <;> omega
  refine ⟨b1.tail.take size,
    { b1 with data := b1.data ++ b1.tail.take size, tail := b1.tail.drop size }, ?_, hlen,
    ⟨hhead, hlisp, ?_, hle, hlen.symm ▸ hsame, ?_⟩, ?_⟩
  · simp only [MsgBuf.tailPtr, hhead, hdata]
  · rw [hdata]
  · intro heq
    have hfit := hsame.mp heq
    rw [hlen, length_drop, htail, if_neg (Nat.not_lt.mpr hfit)]
  · rw [length_drop, htail]
    split_ifs <;> rfl

/-- Writing that leaves what is before the message alone. -/
theorem write_of_apply {data tail : List UInt8}
    (h : ws.apply b.mem = b.head ++ (data ++ tail)) (hlen : data.length = b.data.length)
    (hp : p.block = b.block) : b.write p ws = .ok { b with data := data, tail := tail } := by
  simp only [MsgBuf.write, if_pos hp, h, take_left, drop_left, ← drop_drop, ← hlen]

/-- Writing after the first part of the message changes the rest only. -/
theorem write_spec {d y : List UInt8} (hdata : b.data = d ++ y)
    (hfrom : ws.From (b.head.length + d.length)) (hp : p.block = b.block) :
    ∃ y' t, b.write p ws = .ok { b with data := d ++ y', tail := t } ∧
      y'.length = y.length ∧ t.length = b.tail.length ∧
      ∀ e, e.length = y.length → Covers ws (b.head.length + d.length) e → y' = e := by
  have hmem : b.mem = (b.head ++ d) ++ (y ++ b.tail) := by
    rw [Lbuf.mem, hdata, append_assoc, append_assoc]
  rw [← length_append] at hfrom ⊢
  obtain ⟨l, hl, hlen⟩ := hfrom.apply_append (y ++ b.tail)
  rw [length_append] at hlen
  refine ⟨l.take y.length, l.drop y.length, ?_, ?_, ?_, ?_⟩
  · refine write_of_apply b ?_ ?_ hp
    · rw [hmem, hl, append_assoc, append_assoc, take_append_drop]
    · rw [hdata, length_append, length_append, length_take, hlen]
      omega
  · rw [length_take, hlen]
    exact Nat.min_eq_left (Nat.le_add_right _ _)
  · rw [length_drop, hlen, Nat.add_sub_cancel_left]
  · intro e he hcovers
    have hholds := hcovers.holds (m := b.head ++ d ++ (y ++ b.tail)) (by
      simp only [length_append, he]
      omega)
    rw [hl, Holds, slice, if_pos (by simp only [length_append, he, hlen]; omega),
      drop_left, Option.some.injEq, he] at hholds
    exact hholds

end Put

theorem Appended.write {b b₁ : MsgBuf} {y : List UInt8} (h : Appended b b₁ y)
    (hfrom : ws.From (b.head.length + b.data.length)) (hp : p.block = b₁.block) :
    ∃ y' b2, b₁.write p ws = .ok b2 ∧ Appended b b2 y' ∧ b2.block = b₁.block ∧
      b2.tail.length = b₁.tail.length ∧ y'.length = y.length ∧
      ∀ e, e.length = y.length → Covers ws (b.head.length + b.data.length) e → y' = e := by
  rw [← h.head] at hfrom ⊢
  obtain ⟨y', t, hrun, hlen, ht, hcovers⟩ := write_spec b₁ h.data hfrom hp
  refine ⟨y', _, hrun, ⟨h.head, h.lisp, rfl, h.le, hlen.symm ▸ h.same, ?_⟩, rfl, ht, hlen, hcovers⟩
  intro heq
  rw [ht, hlen]
  exact h.room heq

/-- `lisp_msg_put_addr` appends as many bytes as the address takes, and returns a pointer to them
unless the address cannot be written. -/
theorem lispMsgPutAddr_spec (malloc : Malloc) (b : MsgBuf) (a : LispAddr) :
    ∃ y b', lispMsgPutAddr malloc b a =
        .ok (if (lispAddrWrite a (b.head.length + b.data.length)).len = 0 then none
          else some ⟨b'.block, b.head.length + b.data.length⟩, b') ∧
      y.length = lispAddrSizeToWrite a ∧ Appended b b' y ∧
      b'.tail.length = tailAfter b.tail.length (lispAddrSizeToWrite a) ∧
      ∀ e, a.encoding = some e → Covers (lispAddrWrite a (b.head.length + b.data.length)).writes
        (b.head.length + b.data.length) e → y = e := by
  obtain ⟨y1, b1, hput, hlen, happ, htail⟩ := putUninit_spec malloc b (lispAddrSizeToWrite a)
  obtain ⟨y, b', hwrite, happ', hblock, htail', hlen', hcovers⟩ :=
    happ.write (lispAddrWrite_from a _) (p := ⟨b1.block, b.head.length + b.data.length⟩) rfl
  refine ⟨y, b', ?_, hlen'.trans hlen, happ', htail'.trans htail, ?_⟩
  · simp only [lispMsgPutAddr, hput, hwrite, hblock, bind, Except.bind, pure, Except.pure]
    split_ifs <;> rfl
  · intro e he hc
    exact hcovers e (by rw [hlen, (LispAddr.encoding_sized he).size]) hc

theorem lispMsgPutAddr_regular (malloc : Malloc) (b : MsgBuf) (ha : a.regular true = true) :
    ∃ e b', a.encoding = some e ∧
      lispMsgPutAddr malloc b a = .ok (some ⟨b'.block, b.head.length + b.data.length⟩, b') ∧
      Appended b b' e ∧ b'.tail.length = tailAfter b.tail.length (lispAddrSizeToWrite a) := by
  obtain ⟨e, he, hfills⟩ := LispAddr.regular_fills ha
  obtain ⟨y, b', hrun, -, happ, htail, hcovers⟩ := lispMsgPutAddr_spec malloc b a
  have hsized := LispAddr.encoding_sized he
  have hlen := hsized.len (b.head.length + b.data.length)
  have hpos := hsized.pos
  refine ⟨e, b', he, ?_, hcovers e he (hfills _).covers ▸ happ, htail⟩
  rw [hrun, if_neg (by omega)]

/-! ## Appending an address -/

/-- `lisp_msg_put_addr` is as it should be: it appends the address in the format and writes nothing
but the bytes it appends, or it returns the null pointer and leaves the message alone. -/
def AppendsAddr (malloc : Malloc) (b : MsgBuf) (a : LispAddr) : Prop :=
  ∃ ptr b', lispMsgPutAddr malloc b a = .ok (ptr, b') ∧ b'.head = b.head ∧
    ((∃ e, a.encoding = some e ∧ e.length = lispAddrSizeToWrite a ∧
        ptr = some ⟨b'.block, b.head.length + b.data.length⟩ ∧ b'.data = b.data ++ e ∧
        Fills (lispAddrWrite a (b.head.length + b.data.length)).writes
          (b.head.length + b.data.length) e) ∨
      (ptr = none ∧ b'.data = b.data))

/-- Geo coordinates. -/
def LispAddr.isGeo : LispAddr → Bool
  | .geo _ _ _ _ => true
  | _ => false

theorem isGeo_of_size (h : lispAddrSizeToWrite a = 0) : a.isGeo = true := by
  cases a with
  | geo _ _ _ _ => rfl
  | _ => simp [lispAddrSizeToWrite, ipAddrGetSizeToWrite] at h

theorem AppendsAddr.regular {malloc : Malloc} {b : MsgBuf} (h : AppendsAddr malloc b a) :
    a.isGeo = true ∨ a.regular true = true := by
  obtain ⟨ptr, b', hrun, -, ⟨e, he, -, -, -, hfills⟩ | ⟨-, hdata⟩⟩ := h
  · exact .inr (LispAddr.regular_of_covers he hfills.covers)
  · obtain ⟨y, b1, hrun', hlen, happ, -, -⟩ := lispMsgPutAddr_spec malloc b a
    rw [hrun', Except.ok.injEq, Prod.mk.injEq] at hrun
    have hgrown := congrArg List.length hdata
    rw [← hrun.2, happ.data, length_append, hlen] at hgrown
    exact .inl (isGeo_of_size (by omega))

/-- An address is appended as it should be exactly when it is regular, or Geo coordinates, which are
not written at all. -/
theorem put_addr_appends_iff (malloc : Malloc) (b : MsgBuf) (a : LispAddr) :
    AppendsAddr malloc b a ↔ a.isGeo = true ∨ a.regular true = true := by
  refine ⟨AppendsAddr.regular, ?_⟩
  rintro (hgeo | hreg)
  · obtain ⟨y, b', hrun, hlen, happ, -, -⟩ := lispMsgPutAddr_spec malloc b a
    cases a with
    | geo _ _ _ _ =>
      have hy : y = [] := length_eq_zero_iff.mp hlen
      refine ⟨_, b', hrun, happ.head, .inr ⟨rfl, ?_⟩⟩
      rw [happ.data, hy, append_nil]
    | _ => cases hgeo
  · obtain ⟨e, b', he, hrun, happ, -⟩ := lispMsgPutAddr_regular malloc b hreg
    obtain ⟨e', he', hfills⟩ := LispAddr.regular_fills hreg
    cases he.symm.trans he'
    exact ⟨_, b', hrun, happ.head, .inl ⟨e, he, (LispAddr.encoding_sized he).size.symm, rfl,
      happ.data, hfills _⟩⟩

/-- Memory with zeros. -/
def zeroMalloc : Malloc :=
  ⟨fun n => List.replicate n 0, zeros_length⟩

/-- A Map-Reply with no records, in a buffer with room for `n` bytes. -/
def labMsg (n : Nat) : MsgBuf :=
  { source := .MALLOC, head := [], data := 0x20 :: List.replicate 11 0, tail := List.replicate n 0,
    ip := none, udp := none, l3 := none, block := 0, lisp := 0, lisp_lt := by decide,
    heap := rfl }

/-- The length of an AFI list is written after the list. A path with Geo coordinates cannot be
written; the room for it stays in the message. -/
theorem put_addr_out_of_place :
    ¬ AppendsAddr zeroMalloc (labMsg 100) (.afiList [.ip (.v4 0x0a000001)]) ∧
      written (lispAddrWrite (.afiList [.ip (.v4 0x0a000001)]) 12).writes 32 = some 0 ∧
      written (lispAddrWrite (.afiList [.ip (.v4 0x0a000001)]) 12).writes 18 = none ∧
      ((lispMsgPutAddr zeroMalloc (labMsg 100) (.elp [.mk false false false
        (.geo ⟨0, 0, 0, 0⟩ ⟨0, 0, 0, 0⟩ 0 .noAddr)])).map fun r => (r.1, r.2.data.length)) =
          .ok (none, 12 + 10) := by
  refine ⟨fun h => ?_, by decide, by decide, by decide⟩
  exact absurd h.regular (by decide)

end Lispmob
