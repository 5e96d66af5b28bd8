import Mathlib.Tactic.Common

/-!
# Addresses and their comparison

A `lisp_addr_t` is a tagged union: no address, an IP address, an IP prefix, or one of the LISP
Canonical Address Formats. `lispAddrCmp` and `lispAddrCmpAfi` are the two comparison functions the
lists, the mappings and the Map-Server are built on, with the source's return codes: `0` equal,
`1` bigger, `2` smaller, negative not comparable.

The comparisons are stated for two different objects: on `LM_AFI_NO_ADDR` the C function returns
`0` only when both pointers are the same.
-/

namespace Lispmob

/-! ## Return codes and faults -/

/-- The return codes of `defs.h` the modelled functions use. -/
inductive Ret where
  | GOOD
  | BAD
  | ERR_EXIST
  | ERR_NO_EXIST
deriving DecidableEq, Repr

/-- How an execution of the C program can leave defined behaviour. -/
inductive Fault where
  /-- A released timer or entry is read or started, or a released entry is released again. -/
  | useAfterFree
  /-- A timer that was stopped before is stopped again. -/
  | stoppedTwice
  /-- A null pointer is dereferenced. -/
  | nullDeref
  /-- An operation on addresses is applied to a null pointer. -/
  | missingAddress
  /-- The mapping of a database entry is read through a null pointer. -/
  | missingEntry
  /-- The argument of one kind of timer is read as that of another, incompatible kind. -/
  | typeConfusion
  /-- An object that a live structure still owns is released, or a wild pointer is. -/
  | badRelease
  /-- An `assert` fails. -/
  | assertion
  /-- A shift by more bits than the word has, or an index past the end of an array. -/
  | outOfRange
deriving DecidableEq, Repr

/-! ## Addresses -/

/-- An `ip_addr_t`: an IPv4 or an IPv6 address. -/
inductive IpAddr where
  | v4 (a : BitVec 32)
  | v6 (a : BitVec 128)
deriving DecidableEq, Repr

/-- One coordinate of a Geo LCAF. -/
structure GeoCoordinates where
  dir : UInt8
  deg : UInt16
  min : UInt8
  sec : UInt8
deriving DecidableEq, Repr

mutual

/-- A `lisp_addr_t`. The constructors after `ippref` are the LCAF types the code parses. -/
inductive LispAddr where
  | noAddr
  | ip (addr : IpAddr)
  | ippref (prefixAddr : IpAddr) (plen : UInt8)
  | afiList (addrs : List LispAddr)
  | iid (iid : UInt32) (mlen : UInt8) (iidaddr : LispAddr)
  | geo (latitude longitude : GeoCoordinates) (altitude : UInt32) (addr : LispAddr)
  | mc (srcPlen grpPlen : UInt8) (iid : UInt32) (src grp : LispAddr)
  | elp (nodes : List ElpNode)
  | rle (nodes : List RleNode)

/-- A hop of an explicit locator path. -/
inductive ElpNode where
  | mk (L P S : Bool) (addr : LispAddr)

/-- A node of a replication list. -/
inductive RleNode where
  | mk (level : UInt8) (addr : LispAddr)

end

mutual

/-- Structural equality of addresses, as a Boolean. -/
def LispAddr.beq : LispAddr → LispAddr → Bool
  | .noAddr, .noAddr => true
  | .ip a, .ip b => a = b
  | .ippref a p, .ippref b q => a = b && p = q
  | .afiList l, .afiList m => LispAddr.beqList l m
  | .iid i m a, .iid j n b => i = j && (m = n && LispAddr.beq a b)
  | .geo la lo al a, .geo la' lo' al' b => la = la' && (lo = lo' && (al = al' && LispAddr.beq a b))
  | .mc sp gp i s g, .mc sp' gp' i' s' g' =>
    sp = sp' && (gp = gp' && (i = i' && (LispAddr.beq s s' && LispAddr.beq g g')))
  | .elp l, .elp m => LispAddr.beqElp l m
  | .rle l, .rle m => LispAddr.beqRle l m
  | _, _ => false
termination_by structural a => a

/-- Structural equality of address lists. -/
def LispAddr.beqList : List LispAddr → List LispAddr → Bool
  | [], [] => true
  | a :: l, b :: m => LispAddr.beq a b && LispAddr.beqList l m
  | _, _ => false
termination_by structural a => a

/-- Structural equality of explicit locator paths. -/
def LispAddr.beqElp : List ElpNode → List ElpNode → Bool
  | [], [] => true
  | .mk L P S a :: l, .mk L' P' S' b :: m =>
    (L = L' && (P = P' && (S = S' && LispAddr.beq a b))) && LispAddr.beqElp l m
  | _, _ => false
termination_by structural a => a

/-- Structural equality of replication lists. -/
def LispAddr.beqRle : List RleNode → List RleNode → Bool
  | [], [] => true
  | .mk v a :: l, .mk w b :: m => (v = w && LispAddr.beq a b) && LispAddr.beqRle l m
  | _, _ => false
termination_by structural a => a

end

mutual

theorem LispAddr.beq_iff : ∀ a b, LispAddr.beq a b = true ↔ a = b
  | .noAddr, b => by cases b <;> simp [LispAddr.beq]
  | .ip _, b => by cases b <;> simp [LispAddr.beq]
  | .ippref _ _, b => by cases b <;> simp [LispAddr.beq]
  | .afiList l, b => by cases b <;> simp [LispAddr.beq, LispAddr.beqList_iff l]
  | .iid _ _ a, b => by cases b <;> simp [LispAddr.beq, LispAddr.beq_iff a]
  | .geo _ _ _ a, b => by cases b <;> simp [LispAddr.beq, LispAddr.beq_iff a]
  | .mc _ _ _ s g, b => by cases b <;> simp [LispAddr.beq, LispAddr.beq_iff s, LispAddr.beq_iff g]
  | .elp l, b => by cases b <;> simp [LispAddr.beq, LispAddr.beqElp_iff l]
  | .rle l, b => by cases b <;> simp [LispAddr.beq, LispAddr.beqRle_iff l]

theorem LispAddr.beqList_iff : ∀ l m, LispAddr.beqList l m = true ↔ l = m
  | [], m => by cases m <;> simp [LispAddr.beqList]
  | a :: l, m => by
    cases m <;> simp [LispAddr.beqList, LispAddr.beq_iff a, LispAddr.beqList_iff l]

theorem LispAddr.beqElp_iff : ∀ l m, LispAddr.beqElp l m = true ↔ l = m
  | [], m => by cases m <;> simp [LispAddr.beqElp]
  | .mk _ _ _ _ :: _, [] => by simp [LispAddr.beqElp]
  | .mk _ _ _ a :: l, .mk _ _ _ _ :: _ => by
    simp [LispAddr.beqElp, LispAddr.beq_iff a, LispAddr.beqElp_iff l]

theorem LispAddr.beqRle_iff : ∀ l m, LispAddr.beqRle l m = true ↔ l = m
  | [], m => by cases m <;> simp [LispAddr.beqRle]
  | .mk _ _ :: _, [] => by simp [LispAddr.beqRle]
  | .mk _ a :: l, .mk _ _ :: _ => by
    simp [LispAddr.beqRle, LispAddr.beq_iff a, LispAddr.beqRle_iff l]

end

instance : DecidableEq LispAddr := fun a b => decidable_of_iff _ (LispAddr.beq_iff a b)

/-! ## Families -/

/-- `lm_afi_t`, the tag of a `lisp_addr_t`. -/
inductive LmAfi where
  | NO_ADDR
  | IP
  | IPPREF
  | LCAF
deriving DecidableEq, Repr

/-- The tag's value in the C enumeration. -/
def LmAfi.toNat : LmAfi → Nat
  | .NO_ADDR => 0
  | .IP => 1
  | .IPPREF => 2
  | .LCAF => 3

/-- `lisp_addr_lafi`. -/
def lispAddrLafi : LispAddr → LmAfi
  | .noAddr => .NO_ADDR
  | .ip _ => .IP
  | .ippref _ _ => .IPPREF
  | _ => .LCAF

/-- The address family of an IP address. -/
inductive Af where
  | INET
  | INET6
deriving DecidableEq, Repr

/-- The value of the `AF_` constant. -/
def Af.toNat : Af → Nat
  | .INET => 2
  | .INET6 => 10

/-- `ip_addr_afi`. -/
def ipAddrAfi : IpAddr → Af
  | .v4 _ => .INET
  | .v6 _ => .INET6

/-- `ip_addr_afi_to_default_mask`, the number of bits of an address. -/
def ipAddrAfiToDefaultMask : IpAddr → UInt8
  | .v4 _ => 32
  | .v6 _ => 128

theorem lispAddrLafi_eq_ip_iff {addr : LispAddr} : lispAddrLafi addr = .IP ↔ ∃ a, addr = .ip a := by
  cases addr <;> simp [lispAddrLafi]

/-- `lisp_addr_ip_afi`; `none` stands for the `0` returned for other kinds of address. -/
def lispAddrIpAfi : LispAddr → Option Af
  | .ip a => some (ipAddrAfi a)
  | .ippref a _ => some (ipAddrAfi a)
  | _ => none

/-- `lisp_addr_ip_get_addr`. -/
def lispAddrIpGetAddr : LispAddr → Option IpAddr
  | .ip a => some a
  | .ippref a _ => some a
  | _ => none

/-- `lisp_addr_get_plen`. -/
def lispAddrGetPlen : LispAddr → UInt8
  | .ip a => ipAddrAfiToDefaultMask a
  | .ippref _ plen => plen
  | _ => 0

/-- `lisp_addr_set_plen`: an IP address becomes a prefix, an LCAF is left alone. -/
def lispAddrSetPlen (laddr : LispAddr) (plen : UInt8) : LispAddr :=
  match laddr with
  | .ip a => .ippref a plen
  | .ippref a _ => .ippref a plen
  | other => other

/-- `lisp_addr_ip_to_ippref`: the prefix of full length. -/
def lispAddrIpToIppref : LispAddr → LispAddr
  | .ip a => .ippref a (ipAddrAfiToDefaultMask a)
  | .ippref a _ => .ippref a (ipAddrAfiToDefaultMask a)
  | other => other

/-- `lisp_addr_is_mc`. -/
def lispAddrIsMc : LispAddr → Bool
  | .mc _ _ _ _ _ => true
  | _ => false

/-- `lisp_addr_lcaf_type`, the LCAF type code; `0` for the other kinds. -/
def lispAddrLcafType : LispAddr → Nat
  | .afiList _ => 1
  | .iid _ _ _ => 2
  | .geo _ _ _ _ => 6
  | .mc _ _ _ _ _ => 9
  | .elp _ => 10
  | .rle _ => 13
  | _ => 0

/-! ## Comparison -/

/-- The code returned by the comparison functions for two different numbers. -/
def cmpNat (a b : Nat) : Int :=
  if a < b then 2 else if b < a then 1 else 0

/-- `ip_addr_cmp`: `memcmp` on the bytes in network order. -/
def ipAddrCmp : IpAddr → IpAddr → Int
  | .v4 a, .v4 b => cmpNat a.toNat b.toNat
  | .v6 a, .v6 b => cmpNat a.toNat b.toNat
  | _, _ => -1

/-- `lisp_addr_cmp_afi`: order by tag, then by address family or LCAF type. -/
def lispAddrCmpAfi (addr1 addr2 : LispAddr) : Int :=
  let lafiA := (lispAddrLafi addr1).toNat
  let lafiB := (lispAddrLafi addr2).toNat
  if lafiB < lafiA then 1
  else if lafiA < lafiB then 2
  else
    match addr1, addr2 with
    | .noAddr, _ => 0
    | .ip a, .ip b => cmpNat (ipAddrAfi a).toNat (ipAddrAfi b).toNat
    | .ippref _ _, _ => -2
    | a, b => cmpNat (lispAddrLcafType a) (lispAddrLcafType b)

mutual

/-- `lisp_addr_cmp`, with the comparison functions of the LCAF types. The length of an IP prefix is
not compared, and `cmp_fcts` has no function for the Geo type. -/
def lispAddrCmp : LispAddr → LispAddr → Int
  | .noAddr, .noAddr => 2
  | .ip a, .ip b => ipAddrCmp a b
  | .ippref a _, .ippref b _ => ipAddrCmp a b
  | .afiList l, .afiList m =>
    if m.length < l.length then 1 else if l.length < m.length then 2 else afiListTypeCmp l m
  | .iid i m a, .iid j n b =>
    if i ≠ j then (if j < i then 1 else 2)
    else if m ≠ n then (if n < m then 1 else 2)
    else lispAddrCmp a b
  | .mc sp gp i s g, .mc sp' gp' i' s' g' =>
    if i ≠ i' ∨ sp ≠ sp' ∨ gp ≠ gp' then -1
    else if lispAddrCmp s s' = 0 then lispAddrCmp g g' else lispAddrCmp s s'
  | .elp l, .elp m => elpTypeCmp l m
  | .rle l, .rle m => rleTypeCmp l m
  | _, _ => -1
termination_by structural a => a

/-- The loop of `afi_list_type_cmp`, on lists of the same length. -/
def afiListTypeCmp : List LispAddr → List LispAddr → Int
  | a :: l, b :: m => if lispAddrCmp a b ≠ 0 then lispAddrCmp a b else afiListTypeCmp l m
  | _, _ => 0
termination_by structural a => a

/-- `elp_type_cmp`. The size test compares the first path with itself, and the loop steps with
`glist_prev` from the first hop back to the list head, so only the first hops are compared. -/
def elpTypeCmp : List ElpNode → List ElpNode → Int
  | .mk L P S a :: _, .mk L' P' S' b :: _ =>
    if lispAddrCmp a b ≠ 0 then
      (if lispAddrCmp a b < 0 then lispAddrCmpAfi a b else lispAddrCmp a b)
    else if L ≠ L' ∨ S ≠ S' ∨ P ≠ P' then 1
    else 0
  | _, _ => 0
termination_by structural a => a

/-- `rle_type_cmp`. The loop stops at the end of the shorter list. -/
def rleTypeCmp : List RleNode → List RleNode → Int
  | .mk v a :: l, .mk w b :: m =>
    if v ≠ w then (if v < w then 1 else 2)
    else if lispAddrCmp a b ≠ 0 then lispAddrCmp a b
    else rleTypeCmp l m
  | _, _ => 0
termination_by structural a => a

end

/-- Two IP addresses compare as equal exactly when they are. -/
theorem ipAddrCmp_eq_zero_iff (a b : IpAddr) : ipAddrCmp a b = 0 ↔ a = b := by
  cases a <;> cases b <;>
    simp only [ipAddrCmp, cmpNat, IpAddr.v4.injEq, IpAddr.v6.injEq, BitVec.toNat_eq,
      reduceCtorEq] <;>
    grind

/-- Prefixes compare as equal exactly when their addresses are, whatever their lengths. -/
theorem lispAddrCmp_ippref_eq_zero_iff (a b : IpAddr) (p q : UInt8) :
    lispAddrCmp (.ippref a p) (.ippref b q) = 0 ↔ a = b :=
  ipAddrCmp_eq_zero_iff a b

end Lispmob
