import Lispmob.ByteWrites
import Lispmob.Packets
import Lispmob.XtrCache

/-!
# Writing addresses into messages

`lisp_addr_size_to_write` and `lisp_addr_write`, with the functions for the LCAF types. The two walk
over the address on their own, and the caller relies on them to agree. `lispAddrWrite a off` is what
the second does for a pointer `off`: the bytes it writes, and the length it returns, `0` when the
address cannot be written. What was written up to there stays.

`LispAddr.encoding` is what should be written, in the layouts of `lisp_message_fields.h`: the length
field of an LCAF counts the bytes after its first eight. There is none for Geo coordinates, which
have no function to write them. `LispAddr.regular` are the addresses without the three LCAF types
that are not written that way: the length field of an AFI list goes to another place, and that of an
instance is eight too large.
-/

namespace Lispmob

open List Option

variable {hdr e r : List UInt8} {addr : Nat → AddrWrite} {rest w : Nat → NodesWrite} {type : UInt8}
  {size : Nat} {lenPos : Nat → Nat} {off : Nat}

/-! ## Sizes -/

/-- `ip_addr_get_size_to_write`, with the address family. -/
def ipAddrGetSizeToWrite (ip : IpAddr) : Nat :=
  ip.bytes.length + 2

mutual

/-- `lisp_addr_size_to_write`. The table of functions has none for the Geo type. -/
def lispAddrSizeToWrite : LispAddr → Nat
  | .noAddr => 2
  | .ip a => ipAddrGetSizeToWrite a
  | .ippref a _ => ipAddrGetSizeToWrite a
  | .afiList l => 8 + afiListSize l
  | .iid _ _ a => 12 + lispAddrSizeToWrite a
  | .geo _ _ _ _ => 0
  | .mc _ _ _ s g => 16 + lispAddrSizeToWrite s + lispAddrSizeToWrite g
  | .elp nodes => 8 + elpNodesSize nodes
  | .rle nodes => 8 + rleNodesSize nodes
termination_by structural a => a

/-- The loop of `afi_list_type_get_size_to_write`. -/
def afiListSize : List LispAddr → Nat
  | [] => 0
  | a :: rest => lispAddrSizeToWrite a + afiListSize rest
termination_by structural l => l

/-- The loop of `elp_type_get_size_to_write`. -/
def elpNodesSize : List ElpNode → Nat
  | [] => 0
  | .mk _ _ _ a :: rest => 2 + lispAddrSizeToWrite a + elpNodesSize rest
termination_by structural l => l

/-- The loop of `rle_type_get_size_to_write`. -/
def rleNodesSize : List RleNode → Nat
  | [] => 0
  | .mk _ a :: rest => 4 + lispAddrSizeToWrite a + rleNodesSize rest
termination_by structural l => l

end

/-! ## Writing -/

/-- What a function that writes an address does: the length it returns, and the bytes. -/
structure AddrWrite where
  len : Nat
  writes : Writes

/-- What the loop over the nodes of an LCAF does: where it stops, unless a node cannot be written,
and the bytes. -/
structure NodesWrite where
  stop : Option Nat
  writes : Writes

/-- An IP address with its address family. -/
def ipAddrEncoding (ip : IpAddr) : List UInt8 :=
  beBytes 2 (match ip with | .v4 _ => 1 | .v6 _ => 2) ++ ip.bytes

/-- `ip_addr_write_to_pkt`. -/
def ipAddrWriteToPkt (ip : IpAddr) (off : Nat) : AddrWrite :=
  ⟨2 + ip.bytes.length, [(off, ipAddrEncoding ip)]⟩

/-- The first six bytes of an LCAF. The last of them has a meaning of its own in some types. -/
def lcafHdrStart (type rsvd2 : UInt8) : List UInt8 :=
  beBytes 2 LISP_AFI_LCAF ++ [0, 0, type, rsvd2]

/-- One iteration of the loop over the nodes of an LCAF: a header, an address, and the rest unless
the address cannot be written. -/
def nodeWrite (hdr : List UInt8) (addr : Nat → AddrWrite) (rest : Nat → NodesWrite) (cur : Nat) :
    NodesWrite :=
  let w := addr (cur + hdr.length)
  if w.len = 0 then ⟨none, (cur, hdr) :: w.writes⟩
  else
    let r := rest (cur + hdr.length + w.len)
    ⟨r.stop, (cur, hdr) :: (w.writes ++ r.writes)⟩

/-- An LCAF that is a list of nodes. The length field is written last, at `lenPos` of the position
the loop stopped at. -/
def nodesLcafWrite (type : UInt8) (lenPos : Nat → Nat) (nodes : NodesWrite) (off : Nat) :
    AddrWrite :=
  match nodes.stop with
  | none => ⟨0, (off, lcafHdrStart type 0) :: nodes.writes⟩
  | some cur => ⟨cur - off, (off, lcafHdrStart type 0) ::
      (nodes.writes ++ [(lenPos cur, beBytes 2 (cur - off - 8))])⟩

/-- The flags of a hop, `elp_node_flags`. -/
def elpNodeFlags (L P S : Bool) : List UInt8 :=
  [0, UInt8.ofNat (4 * L.toNat + 2 * P.toNat + S.toNat)]

/-- The header of a node of a replication list, `rle_node_hdr_t`. -/
def rleNodeHdr (level : UInt8) : List UInt8 :=
  [0, 0, 0, level]

mutual

/-- `lisp_addr_write`, with the functions of `write_fcts`. -/
def lispAddrWrite : LispAddr → Nat → AddrWrite
  | .noAddr, off => ⟨2, [(off, [0, 0])]⟩
  | .ip a, off => ipAddrWriteToPkt a off
  | .ippref a _, off => ipAddrWriteToPkt a off
  -- the length goes through the pointer to the end of the list, not to its header
  | .afiList l, off => nodesLcafWrite 1 (fun cur => cur + 6) (afiListWrite l (off + 8)) off
  -- the length counts the header
  | .iid iid mlen a, off =>
    let w := lispAddrWrite a (off + 12)
    ⟨12 + w.len, (off, lcafHdrStart 2 mlen ++ (beBytes 2 (12 + lispAddrSizeToWrite a) ++
      beBytes 4 iid.toNat)) :: w.writes⟩
  | .geo _ _ _ _, _ => ⟨0, []⟩
  | .mc srcPlen grpPlen iid s g, off =>
    let w := lispAddrWrite s (off + 16)
    let w' := lispAddrWrite g (off + 16 + w.len)
    ⟨16 + w.len + w'.len, (off, lcafHdrStart 9 0) ::
      (off + 8, beBytes 4 iid.toNat ++ [0, 0, srcPlen, grpPlen]) ::
        (w.writes ++ (w'.writes ++ [(off + 6, beBytes 2 (w.len + w'.len + 8))]))⟩
  | .elp nodes, off => nodesLcafWrite 10 (fun _ => off + 6) (elpNodesWrite nodes (off + 8)) off
  | .rle nodes, off => nodesLcafWrite 13 (fun _ => off + 6) (rleNodesWrite nodes (off + 8)) off
termination_by structural a => a

/-- The loop of `afi_list_type_write_to_pkt`. -/
def afiListWrite : List LispAddr → Nat → NodesWrite
  | [], cur => ⟨some cur, []⟩
  | a :: rest, cur => nodeWrite [] (lispAddrWrite a) (afiListWrite rest) cur
termination_by structural l => l

/-- The loop of `elp_type_write_to_pkt`. -/
def elpNodesWrite : List ElpNode → Nat → NodesWrite
  | [], cur => ⟨some cur, []⟩
  | .mk L P S a :: rest, cur =>
    nodeWrite (elpNodeFlags L P S) (lispAddrWrite a) (elpNodesWrite rest) cur
termination_by structural l => l

/-- The loop of `rle_type_write_to_pkt`. -/
def rleNodesWrite : List RleNode → Nat → NodesWrite
  | [], cur => ⟨some cur, []⟩
  | .mk level a :: rest, cur =>
    nodeWrite (rleNodeHdr level) (lispAddrWrite a) (rleNodesWrite rest) cur
termination_by structural l => l

end

/-! ## The format -/

/-- An LCAF with its header. -/
def lcafEncoding (type rsvd2 : UInt8) (body : List UInt8) : List UInt8 :=
  lcafHdrStart type rsvd2 ++ (beBytes 2 body.length ++ body)

mutual

/-- The bytes that stand for an address in a message. -/
def LispAddr.encoding : LispAddr → Option (List UInt8)
  | .noAddr => some [0, 0]
  | .ip a => some (ipAddrEncoding a)
  | .ippref a _ => some (ipAddrEncoding a)
  | .afiList l => (afiListEncoding l).map (lcafEncoding 1 0)
  | .iid iid mlen a => a.encoding.map fun e => lcafEncoding 2 mlen (beBytes 4 iid.toNat ++ e)
  | .geo _ _ _ _ => none
  | .mc srcPlen grpPlen iid s g => do
    let e ← s.encoding
    let e' ← g.encoding
    return lcafEncoding 9 0 (beBytes 4 iid.toNat ++ ([0, 0, srcPlen, grpPlen] ++ (e ++ e')))
  | .elp nodes => (elpNodesEncoding nodes).map (lcafEncoding 10 0)
  | .rle nodes => (rleNodesEncoding nodes).map (lcafEncoding 13 0)
termination_by structural a => a

/-- The addresses of an AFI list. -/
def afiListEncoding : List LispAddr → Option (List UInt8)
  | [] => some []
  | a :: rest => do
    let e ← a.encoding
    let r ← afiListEncoding rest
    return [] ++ (e ++ r)
termination_by structural l => l

/-- The hops of an explicit locator path. -/
def elpNodesEncoding : List ElpNode → Option (List UInt8)
  | [] => some []
  | .mk L P S a :: rest => do
    let e ← a.encoding
    let r ← elpNodesEncoding rest
    return elpNodeFlags L P S ++ (e ++ r)
termination_by structural l => l

/-- The nodes of a replication list. -/
def rleNodesEncoding : List RleNode → Option (List UInt8)
  | [] => some []
  | .mk level a :: rest => do
    let e ← a.encoding
    let r ← rleNodesEncoding rest
    return rleNodeHdr level ++ (e ++ r)
termination_by structural l => l

end

mutual

/-- The address is built from the kinds that are written in the format: no address, IP addresses,
IP prefixes if `prefixes`, multicast information, paths and replication lists. -/
def LispAddr.regular (prefixes : Bool) : LispAddr → Bool
  | .noAddr => true
  | .ip _ => true
  | .ippref _ _ => prefixes
  | .afiList _ => false
  | .iid _ _ _ => false
  | .geo _ _ _ _ => false
  | .mc _ _ _ s g => s.regular prefixes && g.regular prefixes
  | .elp nodes => elpRegular prefixes nodes
  | .rle nodes => rleRegular prefixes nodes
termination_by structural a => a

/-- Every hop of a path is regular. -/
def elpRegular (prefixes : Bool) : List ElpNode → Bool
  | [] => true
  | .mk _ _ _ a :: rest => a.regular prefixes && elpRegular prefixes rest
termination_by structural l => l

/-- Every node of a replication list is regular. -/
def rleRegular (prefixes : Bool) : List RleNode → Bool
  | [] => true
  | .mk _ a :: rest => a.regular prefixes && rleRegular prefixes rest
termination_by structural l => l

end

/-! ## Where and how much is written -/

@[simp] theorem lcafHdrStart_length (type rsvd2 : UInt8) :
    (lcafHdrStart type rsvd2).length = 6 := by
  simp [lcafHdrStart]

@[simp] theorem lcafEncoding_length (type rsvd2 : UInt8) (body : List UInt8) :
    (lcafEncoding type rsvd2 body).length = 8 + body.length := by
  simp only [lcafEncoding, length_append, lcafHdrStart_length, beBytes_length]
  omega

@[simp] theorem elpNodeFlags_length (L P S : Bool) : (elpNodeFlags L P S).length = 2 :=
  rfl

@[simp] theorem rleNodeHdr_length (level : UInt8) : (rleNodeHdr level).length = 4 :=
  rfl

@[simp] theorem ipAddrEncoding_length (ip : IpAddr) :
    (ipAddrEncoding ip).length = ipAddrGetSizeToWrite ip := by
  simp only [ipAddrEncoding, ipAddrGetSizeToWrite, length_append, beBytes_length]
  omega

/-- The loop over nodes writes from its position on, and does not step back. -/
def NodesForward (w : Nat → NodesWrite) : Prop :=
  ∀ cur, (w cur).writes.From cur ∧ ∀ e, (w cur).stop = some e → cur ≤ e

theorem nodeWrite_forward (haddr : ∀ off, (addr off).writes.From off) (hrest : NodesForward rest) :
    NodesForward (nodeWrite hdr addr rest) := by
  intro cur
  have ha := (haddr (cur + hdr.length)).mono (Nat.le_add_right cur _)
  unfold nodeWrite
  dsimp only
  split_ifs
  · exact ⟨.cons (Nat.le_refl _) ha, fun _ he => nomatch he⟩
  · obtain ⟨hw, he⟩ := hrest (cur + hdr.length + (addr (cur + hdr.length)).len)
    refine ⟨.cons (Nat.le_refl _) (ha.append (hw.mono (by omega))), ?_⟩
    intro e hstop
    have := he e hstop
    omega

theorem nodesLcafWrite_from (h : NodesForward w) (hpos : ∀ cur, off ≤ cur → off ≤ lenPos cur) :
    (nodesLcafWrite type lenPos (w (off + 8)) off).writes.From off := by
  obtain ⟨hw, he⟩ := h (off + 8)
  have hw' := hw.mono (Nat.le_add_right off 8)
  unfold nodesLcafWrite
  split
  · exact .cons (Nat.le_refl _) hw'
  · rename_i cur hstop
    have hcur : off ≤ cur := Nat.le_of_add_right_le (he cur hstop)
    exact .cons (Nat.le_refl _) (hw'.append (.cons (hpos cur hcur) (.nil _)))

mutual

theorem lispAddrWrite_from : ∀ (a : LispAddr) (off : Nat), (lispAddrWrite a off).writes.From off
  | .noAddr, off => .cons (Nat.le_refl _) (.nil _)
  | .ip _, off => .cons (Nat.le_refl _) (.nil _)
  | .ippref _ _, off => .cons (Nat.le_refl _) (.nil _)
  | .afiList l, off =>
    nodesLcafWrite_from (afiListWrite_forward l) fun _ h => Nat.le_add_right_of_le h
  | .iid _ _ a, off => .cons (Nat.le_refl _) ((lispAddrWrite_from a (off + 12)).mono (by omega))
  | .geo _ _ _ _, off => .nil _
  | .mc _ _ _ s g, off => by
    have hs := (lispAddrWrite_from s (off + 16)).mono (Nat.le_add_right off _)
    have hg := (lispAddrWrite_from g (off + 16 + (lispAddrWrite s (off + 16)).len)).mono
      (by omega : off ≤ _)
    exact .cons (Nat.le_refl _) (.cons (Nat.le_add_right _ _)
      (hs.append (hg.append (.cons (Nat.le_add_right _ _) (.nil _)))))
  | .elp nodes, off =>
    nodesLcafWrite_from (elpNodesWrite_forward nodes) fun _ _ => Nat.le_add_right _ _
  | .rle nodes, off =>
    nodesLcafWrite_from (rleNodesWrite_forward nodes) fun _ _ => Nat.le_add_right _ _

theorem afiListWrite_forward : ∀ l : List LispAddr, NodesForward (afiListWrite l)
  | [] => fun _ => ⟨.nil _, fun _ he => Nat.le_of_eq (some.inj he)⟩
  | a :: rest => nodeWrite_forward (lispAddrWrite_from a) (afiListWrite_forward rest)

theorem elpNodesWrite_forward : ∀ l : List ElpNode, NodesForward (elpNodesWrite l)
  | [] => fun _ => ⟨.nil _, fun _ he => Nat.le_of_eq (some.inj he)⟩
  | .mk _ _ _ a :: rest => nodeWrite_forward (lispAddrWrite_from a) (elpNodesWrite_forward rest)

theorem rleNodesWrite_forward : ∀ l : List RleNode, NodesForward (rleNodesWrite l)
  | [] => fun _ => ⟨.nil _, fun _ he => Nat.le_of_eq (some.inj he)⟩
  | .mk _ a :: rest => nodeWrite_forward (lispAddrWrite_from a) (rleNodesWrite_forward rest)

end

/-- The lengths agree: of the space asked for, of what is written and of the format. -/
structure Sized (size : Nat) (w : Nat → AddrWrite) (e : List UInt8) : Prop where
  size : size = e.length
  pos : 0 < e.length
  len : ∀ off, (w off).len = e.length

/-- The lengths of a list of nodes agree. -/
structure NodesSized (size : Nat) (w : Nat → NodesWrite) (e : List UInt8) : Prop where
  size : size = e.length
  stop : ∀ cur, (w cur).stop = some (cur + e.length)

theorem NodesSized.nil : NodesSized 0 (fun cur => ⟨some cur, []⟩) [] :=
  ⟨rfl, fun _ => rfl⟩

theorem NodesSized.cons {size size' : Nat} (hdr : List UInt8) (h : Sized size addr e)
    (h' : NodesSized size' rest r) :
    NodesSized (hdr.length + size + size') (nodeWrite hdr addr rest) (hdr ++ (e ++ r)) := by
  refine ⟨?_, ?_⟩
  · rw [h.size, h'.size]
    simp only [length_append]
    omega
  · intro cur
    have hne : (addr (cur + hdr.length)).len ≠ 0 := by
      rw [h.len]
      exact Nat.ne_of_gt h.pos
    unfold nodeWrite
    rw [if_neg hne, h'.stop, h.len]
    simp only [length_append, some.injEq]
    omega

theorem NodesSized.lcaf (h : NodesSized size w e) (type : UInt8) (lenPos : Nat → Nat → Nat) :
    Sized (8 + size) (fun off => nodesLcafWrite type (lenPos off) (w (off + 8)) off)
      (lcafEncoding type 0 e) := by
  refine ⟨?_, ?_, ?_⟩
  · rw [h.size, lcafEncoding_length]
  · rw [lcafEncoding_length]
    omega
  · simp only [nodesLcafWrite, h.stop, lcafEncoding_length]
    omega

theorem do_two_eq_some_iff {α β γ : Type} {x : Option α} {y : Option β} {f : α → β → γ} {c : γ} :
    (do return f (← x) (← y)) = some c ↔ ∃ a, x = some a ∧ ∃ b, y = some b ∧ f a b = c := by
  cases x <;> cases y <;> simp

mutual

/-- An address in the format is as long as its size says, and its bytes are counted right. -/
theorem LispAddr.encoding_sized : ∀ {a : LispAddr} {e : List UInt8}, a.encoding = some e →
    Sized (lispAddrSizeToWrite a) (lispAddrWrite a) e
  | .noAddr, e, h => by
    cases h
    exact ⟨rfl, by decide, fun _ => rfl⟩
  | .ip a, e, h => by
    cases h
    refine ⟨(ipAddrEncoding_length a).symm, ?_, fun _ => ?_⟩
    · rw [ipAddrEncoding_length, ipAddrGetSizeToWrite]
      omega
    · rw [ipAddrEncoding_length, ipAddrGetSizeToWrite, Nat.add_comm]
      rfl
  | .ippref a _, e, h => by
    cases h
    refine ⟨(ipAddrEncoding_length a).symm, ?_, fun _ => ?_⟩
    · rw [ipAddrEncoding_length, ipAddrGetSizeToWrite]
      omega
    · rw [ipAddrEncoding_length, ipAddrGetSizeToWrite, Nat.add_comm]
      rfl
  | .afiList l, e, h => by
    obtain ⟨r, hr, rfl⟩ := Option.map_eq_some_iff.mp h
    exact (afiListEncoding_sized hr).lcaf 1 fun _ cur => cur + 6
  | .iid iid mlen a, e, h => by
    obtain ⟨r, hr, rfl⟩ := Option.map_eq_some_iff.mp h
    have ha := LispAddr.encoding_sized hr
    refine ⟨?_, ?_, fun off => ?_⟩
    · simp only [lispAddrSizeToWrite, ha.size, lcafEncoding_length, length_append,
        beBytes_length]
      omega
    · simp only [lcafEncoding_length]
      omega
    · simp only [lispAddrWrite, ha.len, lcafEncoding_length, length_append, beBytes_length]
      omega
  | .mc _ _ _ s g, e, h => by
    rw [LispAddr.encoding] at h
    obtain ⟨es, hs, eg, hg, rfl⟩ := do_two_eq_some_iff.mp h
    have hs' := LispAddr.encoding_sized hs
    have hg' := LispAddr.encoding_sized hg
    refine ⟨?_, ?_, fun off => ?_⟩
    · simp only [lispAddrSizeToWrite, hs'.size, hg'.size, lcafEncoding_length, length_append,
        beBytes_length, length_cons, length_nil]
      omega
    · simp only [lcafEncoding_length]
      omega
    · simp only [lispAddrWrite, hs'.len, hg'.len, lcafEncoding_length, length_append,
        beBytes_length, length_cons, length_nil]
      omega
  | .elp nodes, e, h => by
    obtain ⟨r, hr, rfl⟩ := Option.map_eq_some_iff.mp h
    exact (elpNodesEncoding_sized hr).lcaf 10 fun off _ => off + 6
  | .rle nodes, e, h => by
    obtain ⟨r, hr, rfl⟩ := Option.map_eq_some_iff.mp h
    exact (rleNodesEncoding_sized hr).lcaf 13 fun off _ => off + 6

theorem afiListEncoding_sized : ∀ {l : List LispAddr} {e : List UInt8},
    afiListEncoding l = some e → NodesSized (afiListSize l) (afiListWrite l) e
  | [], e, h => by
    cases h
    exact .nil
  | a :: rest, e, h => by
    rw [afiListEncoding] at h
    obtain ⟨ea, ha, er, hr, rfl⟩ := do_two_eq_some_iff.mp h
    have hn := NodesSized.cons [] (LispAddr.encoding_sized ha) (afiListEncoding_sized hr)
    rwa [length_nil, Nat.zero_add] at hn

theorem elpNodesEncoding_sized : ∀ {l : List ElpNode} {e : List UInt8},
    elpNodesEncoding l = some e → NodesSized (elpNodesSize l) (elpNodesWrite l) e
  | [], e, h => by
    cases h
    exact .nil
  | .mk L P S a :: rest, e, h => by
    rw [elpNodesEncoding] at h
    obtain ⟨ea, ha, er, hr, rfl⟩ := do_two_eq_some_iff.mp h
    exact .cons (elpNodeFlags L P S) (LispAddr.encoding_sized ha) (elpNodesEncoding_sized hr)

theorem rleNodesEncoding_sized : ∀ {l : List RleNode} {e : List UInt8},
    rleNodesEncoding l = some e → NodesSized (rleNodesSize l) (rleNodesWrite l) e
  | [], e, h => by
    cases h
    exact .nil
  | .mk level a :: rest, e, h => by
    rw [rleNodesEncoding] at h
    obtain ⟨ea, ha, er, hr, rfl⟩ := do_two_eq_some_iff.mp h
    exact .cons (rleNodeHdr level) (LispAddr.encoding_sized ha) (rleNodesEncoding_sized hr)

end

/-! ## What is written -/

/-- A node is filled in when its header, its address and the rest are. -/
theorem nodeWrite_fills (hdr : List UInt8) (h : Sized size addr e)
    (hf : ∀ off, Fills (addr off).writes off e) (hr : ∀ cur, Fills (rest cur).writes cur r)
    (cur : Nat) : Fills (nodeWrite hdr addr rest cur).writes cur (hdr ++ (e ++ r)) := by
  have hlen := h.len (cur + hdr.length)
  have hpos := h.pos
  unfold nodeWrite
  rw [if_neg (by omega), hlen]
  exact .cons ((hf _).append (hr _))

/-- An LCAF made of nodes is filled in when they are, and its length goes to the header. -/
theorem nodesLcafWrite_fills (h : NodesSized size w e) (hf : ∀ cur, Fills (w cur).writes cur e)
    (type : UInt8) (off : Nat) :
    Fills (nodesLcafWrite type (fun _ => off + 6) (w (off + 8)) off).writes off
      (lcafEncoding type 0 e) := by
  have hbody : off + 8 + e.length - off - 8 = e.length := by omega
  simp only [nodesLcafWrite, h.stop, lcafEncoding, hbody]
  have hw : Fills (w (off + 8)).writes (off + (lcafHdrStart type 0).length +
      (beBytes 2 e.length).length) e := by
    simpa using hf (off + 8)
  simpa using hw.last

mutual

theorem LispAddr.regular_fills : ∀ {a : LispAddr}, a.regular true = true →
    ∃ e, a.encoding = some e ∧ ∀ off, Fills (lispAddrWrite a off).writes off e
  | .noAddr, _ => ⟨_, rfl, fun off => .single off _⟩
  | .ip _, _ => ⟨_, rfl, fun off => .single off _⟩
  | .ippref _ _, _ => ⟨_, rfl, fun off => .single off _⟩
  | .mc srcPlen grpPlen iid s g, h => by
    rw [LispAddr.regular, Bool.and_eq_true] at h
    obtain ⟨es, hs, hsf⟩ := LispAddr.regular_fills h.1
    obtain ⟨eg, hg, hgf⟩ := LispAddr.regular_fills h.2
    have hslen := (LispAddr.encoding_sized hs).len
    have hglen := (LispAddr.encoding_sized hg).len
    refine ⟨_, by simp only [LispAddr.encoding, hs, hg]; rfl, fun off => ?_⟩
    have hbody : es.length + eg.length + 8 =
        (beBytes 4 iid.toNat ++ ([0, 0, srcPlen, grpPlen] ++ (es ++ eg))).length := by
      simp only [length_append, beBytes_length, length_cons, length_nil]
      omega
    have hws : Fills ((off + 8, beBytes 4 iid.toNat ++ [0, 0, srcPlen, grpPlen]) ::
        ((lispAddrWrite s (off + 16)).writes ++
          (lispAddrWrite g (off + 16 + es.length)).writes)) (off + 8)
        (beBytes 4 iid.toNat ++ ([0, 0, srcPlen, grpPlen] ++ (es ++ eg))) := by
      exact .cons ((hsf (off + 16)).append (hgf _))
    have hlast := Fills.last (l := lcafHdrStart 9 0) (f := beBytes 2 (es.length + eg.length + 8))
      (by simpa using hws)
    rw [lcafEncoding, ← hbody]
    simpa [lispAddrWrite, hslen, hglen] using hlast
  | .elp nodes, h => by
    obtain ⟨e, he, hf⟩ := elpRegular_fills h
    refine ⟨_, by rw [LispAddr.encoding, he]; rfl, fun off => ?_⟩
    exact nodesLcafWrite_fills (elpNodesEncoding_sized he) hf 10 off
  | .rle nodes, h => by
    obtain ⟨e, he, hf⟩ := rleRegular_fills h
    refine ⟨_, by rw [LispAddr.encoding, he]; rfl, fun off => ?_⟩
    exact nodesLcafWrite_fills (rleNodesEncoding_sized he) hf 13 off

theorem elpRegular_fills : ∀ {l : List ElpNode}, elpRegular true l = true →
    ∃ e, elpNodesEncoding l = some e ∧ ∀ cur, Fills (elpNodesWrite l cur).writes cur e
  | [], _ => ⟨[], rfl, fun _ _ => (placed_nil _ _).symm⟩
  | .mk L P S a :: rest, h => by
    rw [elpRegular, Bool.and_eq_true] at h
    obtain ⟨e, he, hf⟩ := LispAddr.regular_fills h.1
    obtain ⟨r, hr, hrf⟩ := elpRegular_fills h.2
    refine ⟨_, by simp only [elpNodesEncoding, he, hr]; rfl, ?_⟩
    exact nodeWrite_fills (elpNodeFlags L P S) (LispAddr.encoding_sized he) hf hrf

theorem rleRegular_fills : ∀ {l : List RleNode}, rleRegular true l = true →
    ∃ e, rleNodesEncoding l = some e ∧ ∀ cur, Fills (rleNodesWrite l cur).writes cur e
  | [], _ => ⟨[], rfl, fun _ _ => (placed_nil _ _).symm⟩
  | .mk level a :: rest, h => by
    rw [rleRegular, Bool.and_eq_true] at h
    obtain ⟨e, he, hf⟩ := LispAddr.regular_fills h.1
    obtain ⟨r, hr, hrf⟩ := rleRegular_fills h.2
    refine ⟨_, by simp only [rleNodesEncoding, he, hr]; rfl, ?_⟩
    exact nodeWrite_fills (rleNodeHdr level) (LispAddr.encoding_sized he) hf hrf

end

/-! ## What is not written -/

/-- A node is covered only if its address is; and if that is filled in, only if the rest is. -/
theorem Covers.node (h : Sized size addr e) (hforward : NodesForward rest)
    (haddr : ∀ off, (addr off).writes.From off) {cur : Nat}
    (hc : Covers (nodeWrite hdr addr rest cur).writes cur (hdr ++ (e ++ r))) :
    Covers (addr (cur + hdr.length)).writes (cur + hdr.length) e ∧
      (Fills (addr (cur + hdr.length)).writes (cur + hdr.length) e →
        Covers (rest (cur + hdr.length + e.length)).writes (cur + hdr.length + e.length) r) := by
  have hlen := h.len (cur + hdr.length)
  have hpos := h.pos
  have hrest := (hforward (cur + hdr.length + e.length)).1
  unfold nodeWrite at hc
  rw [if_neg (by omega), hlen] at hc
  have hfrom := (haddr (cur + hdr.length)).append (hrest.mono (by omega))
  have hafter := (Covers.append_inv (show Covers ([(cur, hdr)] ++ _) cur _ from hc) hfrom).2
  exact (hafter (.single _ _)).append_inv hrest

theorem placed_lcafEncoding {off j : Nat} (type rsvd2 : UInt8) (body : List UInt8)
    (h : off + 8 ≤ j) : placed off (lcafEncoding type rsvd2 body) j = placed (off + 8) body j := by
  have hhdr : (lcafHdrStart type rsvd2 ++ beBytes 2 body.length).length = 8 := by simp
  rw [lcafEncoding, ← append_assoc, placed_append_right _ (by rw [hhdr]; exact h), hhdr]

/-- The nodes of an LCAF whose length goes to its header. -/
theorem Covers.nodes (h : NodesSized size w e)
    (hc : Covers (nodesLcafWrite type (fun _ => off + 6) (w (off + 8)) off).writes off
      (lcafEncoding type 0 e)) : Covers (w (off + 8)).writes (off + 8) e := by
  intro j hlo hhi
  simp only [nodesLcafWrite, h.stop] at hc
  have hj := hc j (by omega) (by rw [lcafEncoding_length]; omega)
  have hhdr : placed off (lcafHdrStart type 0) j = none :=
    placed_of_ge (by rw [lcafHdrStart_length]; omega)
  have hlen : ∀ n, placed (off + 6) (beBytes 2 n) j = none :=
    fun n => placed_of_ge (by rw [beBytes_length]; omega)
  simpa only [placed_lcafEncoding _ _ _ hlo, written_cons, written_append, written_nil, hhdr, hlen,
    none_or, or_none] using hj

/-- The header of an AFI list, whose length goes to the end. -/
theorem nodesLcafWrite_hdr (type : UInt8) (h : NodesForward w) (off : Nat) :
    Covers (nodesLcafWrite type (fun cur => cur + 6) (w (off + 8)) off).writes off
      (lcafHdrStart type 0) := by
  intro j hlo hhi
  rw [lcafHdrStart_length] at hhi
  obtain ⟨hfrom, hstop⟩ := h (off + 8)
  unfold nodesLcafWrite
  split
  · rw [written_cons, hfrom j (by omega), none_or]
  · rename_i cur hcur
    have hle := hstop cur hcur
    rw [written_cons, written_append, hfrom j (by omega), written_cons,
      placed_of_lt _ (by show j < cur + 6; omega)]
    simp

mutual

/-- Only regular addresses are written in the format. -/
theorem LispAddr.regular_of_covers : ∀ {a : LispAddr} {e : List UInt8} {off : Nat},
    a.encoding = some e → Covers (lispAddrWrite a off).writes off e → a.regular true = true
  | .noAddr, _, _, _, _ => rfl
  | .ip _, _, _, _, _ => rfl
  | .ippref _ _, _, _, _, _ => rfl
  | .afiList l, e, off, h, hc => by
    obtain ⟨r, hr, rfl⟩ := Option.map_eq_some_iff.mp h
    -- nothing is ever written to the length field in the header
    have hj := hc (off + 6) (Nat.le_add_right _ _) (by rw [lcafEncoding_length]; omega)
    have hforward := (afiListWrite_forward l (off + 8)).1 (off + 6) (by omega)
    have hlen : ∀ n, placed (off + 8 + r.length + 6) (beBytes 2 n) (off + 6) = none :=
      fun n => placed_of_lt _ (by omega)
    simp only [lispAddrWrite, nodesLcafWrite, (afiListEncoding_sized hr).stop, written_cons,
      written_append, written_nil, hforward, hlen, Option.none_or, placed_add, lcafEncoding,
      lcafHdrStart] at hj
    simp at hj
    omega
  | .iid iid mlen a, e, off, h, hc => by
    obtain ⟨r, hr, rfl⟩ := Option.map_eq_some_iff.mp h
    have hfrom := lispAddrWrite_from a (off + 12)
    -- the low byte of the length field is eight too large
    have hj := hc (off + 7) (Nat.le_add_right _ _) (by rw [lcafEncoding_length]; omega)
    simp only [lispAddrWrite, (LispAddr.encoding_sized hr).size, written_cons,
      hfrom _ (by omega : off + 7 < off + 12), Option.none_or, placed_add, lcafEncoding,
      lcafHdrStart] at hj
    have hbyte : 12 + UInt8.ofNat r.length = UInt8.ofNat r.length + 1 + 1 + 1 + 1 := by
      simpa [beBytes] using hj
    have hnat := congrArg UInt8.toNat hbyte
    simp only [UInt8.toNat_add, UInt8.toNat_ofNat', UInt8.toNat_ofNat] at hnat
    omega
  | .geo _ _ _ _, _, _, h, _ => nomatch h
  | .mc srcPlen grpPlen iid s g, e, off, h, hc => by
    rw [LispAddr.encoding] at h
    obtain ⟨es, hs, eg, hg, rfl⟩ := do_two_eq_some_iff.mp h
    have hinner : Covers ((lispAddrWrite s (off + 16)).writes ++
        (lispAddrWrite g (off + 16 + es.length)).writes) (off + 16) (es ++ eg) := by
      intro j hlo hhi
      have hj := hc j (by omega) (by simp at hhi ⊢; omega)
      have hfixed : (beBytes 4 iid.toNat ++ [0, 0, srcPlen, grpPlen]).length = 8 := by simp
      have hhdr : placed off (lcafHdrStart 9 0) j = none :=
        placed_of_ge (by rw [lcafHdrStart_length]; omega)
      have hmiddle : placed (off + 8) (beBytes 4 iid.toNat ++ [0, 0, srcPlen, grpPlen]) j = none :=
        placed_of_ge (by rw [hfixed]; exact hlo)
      have hlen : ∀ n, placed (off + 6) (beBytes 2 n) j = none :=
        fun n => placed_of_ge (by rw [beBytes_length]; omega)
      rw [placed_lcafEncoding _ _ _ (by omega), ← append_assoc,
        placed_append_right _ (by rw [hfixed]; exact hlo), hfixed] at hj
      simpa only [lispAddrWrite, (LispAddr.encoding_sized hs).len, written_cons, written_append,
        written_nil, hhdr, hmiddle, hlen, Option.none_or, Option.or_none] using hj
    obtain ⟨hcs, hcg⟩ := hinner.append_inv (lispAddrWrite_from g _)
    have hsreg := LispAddr.regular_of_covers hs hcs
    obtain ⟨e', he', hf⟩ := LispAddr.regular_fills hsreg
    rw [hs, Option.some.injEq] at he'
    rw [LispAddr.regular, hsreg, LispAddr.regular_of_covers hg (hcg (he' ▸ hf _)), Bool.and_true]
  | .elp nodes, e, off, h, hc => by
    obtain ⟨r, hr, rfl⟩ := Option.map_eq_some_iff.mp h
    exact elpRegular_of_covers hr (Covers.nodes (elpNodesEncoding_sized hr) hc)
  | .rle nodes, e, off, h, hc => by
    obtain ⟨r, hr, rfl⟩ := Option.map_eq_some_iff.mp h
    exact rleRegular_of_covers hr (Covers.nodes (rleNodesEncoding_sized hr) hc)

theorem elpRegular_of_covers : ∀ {l : List ElpNode} {e : List UInt8} {cur : Nat},
    elpNodesEncoding l = some e → Covers (elpNodesWrite l cur).writes cur e →
      elpRegular true l = true
  | [], _, _, _, _ => rfl
  | .mk L P S a :: rest, e, cur, h, hc => by
    rw [elpNodesEncoding] at h
    obtain ⟨ea, ha, er, hr, rfl⟩ := do_two_eq_some_iff.mp h
    obtain ⟨hca, hcr⟩ := Covers.node (LispAddr.encoding_sized ha) (elpNodesWrite_forward rest)
      (lispAddrWrite_from a) hc
    have hreg := LispAddr.regular_of_covers ha hca
    obtain ⟨e', he', hf⟩ := LispAddr.regular_fills hreg
    rw [ha, Option.some.injEq] at he'
    rw [elpRegular, hreg, elpRegular_of_covers hr (hcr (he' ▸ hf _)), Bool.and_true]

theorem rleRegular_of_covers : ∀ {l : List RleNode} {e : List UInt8} {cur : Nat},
    rleNodesEncoding l = some e → Covers (rleNodesWrite l cur).writes cur e →
      rleRegular true l = true
  | [], _, _, _, _ => rfl
  | .mk level a :: rest, e, cur, h, hc => by
    rw [rleNodesEncoding] at h
    obtain ⟨ea, ha, er, hr, rfl⟩ := do_two_eq_some_iff.mp h
    obtain ⟨hca, hcr⟩ := Covers.node (LispAddr.encoding_sized ha) (rleNodesWrite_forward rest)
      (lispAddrWrite_from a) hc
    have hreg := LispAddr.regular_of_covers ha hca
    obtain ⟨e', he', hf⟩ := LispAddr.regular_fills hreg
    rw [ha, Option.some.injEq] at he'
    rw [rleRegular, hreg, rleRegular_of_covers hr (hcr (he' ▸ hf _)), Bool.and_true]

end

/-! ## Addresses that can be written -/

/-- A node is written when its address is, and the rest. -/
theorem nodeWrite_stop_isSome {p q : Bool} (ha : ∀ off, (addr off).len ≠ 0 ↔ p = true)
    (hr : ∀ cur, (rest cur).stop.isSome ↔ q = true) (cur : Nat) :
    (nodeWrite hdr addr rest cur).stop.isSome ↔ (p && q) = true := by
  have haddr := ha (cur + hdr.length)
  unfold nodeWrite
  dsimp only
  split_ifs with hzero
  · simp [← haddr, hzero]
  · simp [← haddr, hzero, ← hr (cur + hdr.length + (addr (cur + hdr.length)).len)]

/-- A list of nodes is written when all of them are. -/
theorem nodesLcafWrite_len_ne_zero {p : Bool} (hf : NodesForward w)
    (h : ∀ cur, (w cur).stop.isSome ↔ p = true) (off : Nat) :
    (nodesLcafWrite type lenPos (w (off + 8)) off).len ≠ 0 ↔ p = true := by
  rw [← h (off + 8)]
  unfold nodesLcafWrite
  split
  · rename_i hstop
    simp [hstop]
  · rename_i cur hstop
    have hle := (hf (off + 8)).2 cur hstop
    simp only [hstop, isSome_some, iff_true]
    omega

mutual

/-- The addresses for which `lisp_addr_write` returns a length. -/
theorem lispAddrWrite_len_ne_zero : ∀ (a : LispAddr) (off : Nat),
    (lispAddrWrite a off).len ≠ 0 ↔ lispAddrWritable a = true
  | .noAddr, off => by simp [lispAddrWrite, lispAddrWritable]
  | .ip a, off => by simp [lispAddrWrite, ipAddrWriteToPkt, lispAddrWritable]
  | .ippref a _, off => by simp [lispAddrWrite, ipAddrWriteToPkt, lispAddrWritable]
  | .afiList l, off => nodesLcafWrite_len_ne_zero (afiListWrite_forward l) (afiListWrite_stop l) off
  | .iid _ _ a, off => by simp [lispAddrWrite, lispAddrWritable]
  | .geo _ _ _ _, off => by simp [lispAddrWrite, lispAddrWritable]
  | .mc _ _ _ s g, off => by simp [lispAddrWrite, lispAddrWritable]
  | .elp nodes, off =>
    nodesLcafWrite_len_ne_zero (elpNodesWrite_forward nodes) (elpNodesWrite_stop nodes) off
  | .rle nodes, off =>
    nodesLcafWrite_len_ne_zero (rleNodesWrite_forward nodes) (rleNodesWrite_stop nodes) off

theorem afiListWrite_stop : ∀ (l : List LispAddr) (cur : Nat),
    (afiListWrite l cur).stop.isSome ↔ lispAddrsWritable l = true
  | [], cur => by simp [afiListWrite, lispAddrsWritable]
  | a :: rest, cur =>
    nodeWrite_stop_isSome (lispAddrWrite_len_ne_zero a) (afiListWrite_stop rest) cur

theorem elpNodesWrite_stop : ∀ (l : List ElpNode) (cur : Nat),
    (elpNodesWrite l cur).stop.isSome ↔ elpWritable l = true
  | [], cur => by simp [elpNodesWrite, elpWritable]
  | .mk _ _ _ a :: rest, cur =>
    nodeWrite_stop_isSome (lispAddrWrite_len_ne_zero a) (elpNodesWrite_stop rest) cur

theorem rleNodesWrite_stop : ∀ (l : List RleNode) (cur : Nat),
    (rleNodesWrite l cur).stop.isSome ↔ rleWritable l = true
  | [], cur => by simp [rleNodesWrite, rleWritable]
  | .mk _ a :: rest, cur =>
    nodeWrite_stop_isSome (lispAddrWrite_len_ne_zero a) (rleNodesWrite_stop rest) cur

end

end Lispmob
