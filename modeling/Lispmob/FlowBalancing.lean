import Mathlib.Algebra.BigOperators.Ring.List
import Mathlib.Data.Nat.ModEq
import Lispmob.XtrState

/-!
# The flow-balancing policy

`flow_balancing.c`, the forwarding policy of the routers. For every mapping it keeps three vectors
of pointers to locators: over the IPv4 locators, over the IPv6 ones, and over both. A locator of the
best priority has a share of its vector that is proportional to its weight, and a packet picks the
position given by a hash of its addresses and ports.

`balancing_vectors_calculate` collects the locators of one priority in arrays of 33 positions, the
last of which is for the terminating null pointer; a locator too many is written past the end of
its array. The length of a vector is computed apart from its contents, as the sum of the weights
over their highest common factor. `setBalancingVector_eq` shows that the two agree, so a vector is
filled to its end and not further.
-/

namespace Lispmob

open List

/-! ## The address a locator is reached at -/

mutual

/-- `lisp_addr_get_ip_addr`, with the functions of the LCAF types. -/
def lispAddrGetIpAddr : LispAddr → Option LispAddr
  | .ip a => some (.ip a)
  | .afiList addrs => afiListTypeGetIpAddr addrs
  | .iid _ _ addr => lispAddrGetIpAddr addr
  | .mc _ _ _ src _ => lispAddrGetIpAddr src
  | .elp nodes => elpTypeGetIpAddr nodes
  | _ => none
termination_by structural a => a

/-- `afi_list_type_get_ip_addr`: the first address that has one. -/
def afiListTypeGetIpAddr : List LispAddr → Option LispAddr
  | [] => none
  | addr :: rest => (lispAddrGetIpAddr addr).or (afiListTypeGetIpAddr rest)
termination_by structural a => a

/-- `elp_type_get_ip_addr`: the address of the last hop. -/
def elpTypeGetIpAddr : List ElpNode → Option LispAddr
  | [] => none
  | .mk _ _ _ addr :: rest =>
    if rest.isEmpty then lispAddrGetIpAddr addr else elpTypeGetIpAddr rest
termination_by structural a => a

end

/-- The address is one of the router's own. -/
def isLocalRloc (rlocs : List LispAddr) : Option LispAddr → Bool
  | none => false
  | some addr => rlocs.any (lispAddrCmp addr · = 0)

/-- `fb_rle_type_get_fwd_ip_addr`: the first node of the highest level. -/
def fbRleTypeGetFwdIpAddr (nodes : List RleNode) : Option LispAddr :=
  (nodes.foldl (fun (best : Int × Option LispAddr) node =>
    match node with
    | .mk level addr => if best.1 < level.toNat then (level.toNat, some addr) else best)
    (-1, none)).2

mutual

/-- `fb_lisp_addr_get_fwd_ip_addr`, for the list of the router's RLOCs. The first hop of a path is
read even if it has none. -/
def fbLispAddrGetFwdIpAddr (rlocs : List LispAddr) : LispAddr → Except Fault (Option LispAddr)
  | .ip a => .ok (some (.ip a))
  | .elp nodes =>
    match fbElpLoop rlocs nodes, nodes with
    | .error e, _ => .error e
    | .ok (some addr), _ => .ok addr
    | .ok none, [] => .error .nullDeref
    | .ok none, .mk _ _ _ addr :: _ => .ok (lispAddrGetIpAddr addr)
  | .rle nodes => .ok (fbRleTypeGetFwdIpAddr nodes)
  | _ => .ok none
termination_by structural a => a

/-- The loop of `fb_elp_type_get_fwd_ip_addr`: the hop after one of the router's own addresses, or
that address if it is the last hop. `none` when the loop ends. -/
def fbElpLoop (rlocs : List LispAddr) : List ElpNode → Except Fault (Option (Option LispAddr))
  | [] => .ok none
  | .mk _ _ _ addr :: rest =>
    if lispAddrLcafType addr = 10 then
      match fbLispAddrGetFwdIpAddr rlocs addr with
      | .error e => .error e
      | .ok (some ip) => .ok (some (some ip))
      | .ok none => fbElpLoop rlocs rest
    else if isLocalRloc rlocs (lispAddrGetIpAddr addr) then
      match rest with
      | [] => .ok (some (lispAddrGetIpAddr addr))
      | .mk _ _ _ next :: _ => .ok (some (lispAddrGetIpAddr next))
    else fbElpLoop rlocs rest
termination_by structural a => a

end

/-! ## The vectors -/

/-- `UNUSED_RLOC_PRIORITY`. -/
def UNUSED_RLOC_PRIORITY : Nat := 255

/-- The number of locators the arrays of `balancing_vectors_calculate` have room for. -/
def MAX_BALANCED_LOCATORS : Nat := 32

/-- A `balancing_locators_vecs`: vectors of pointers to locators, null when there is none to use. -/
structure BalancingLocatorsVecs where
  v4BalancingLocatorsVec : Option (List Nat)
  v6BalancingLocatorsVec : Option (List Nat)
  balancingLocatorsVec : Option (List Nat)
deriving DecidableEq

/-- The loops of `fb_locators_classify_in_4_6`: the locators of either family, each list in reverse.
An address that is not IPv4 counts as IPv6. -/
def classifyLocators (rlocs : List LispAddr) (acc : List Locator × List Locator) :
    List Locator → Except Fault (List Locator × List Locator)
  | [] => .ok acc
  | locator :: rest => do
    match ← fbLispAddrGetFwdIpAddr rlocs locator.addr with
    | none => classifyLocators rlocs acc rest
    | some ipAddr =>
      if lispAddrIpAfi ipAddr = some .INET then
        classifyLocators rlocs (locator :: acc.1, acc.2) rest
      else classifyLocators rlocs (acc.1, locator :: acc.2) rest

/-- The locators of a mapping, but for the list of those without an address. -/
def addressedLocators (m : Mapping) : List Locator :=
  m.locatorsLists.flatMap fun loctList =>
    if loctList.head?.all fun l => lispAddrLafi l.addr = .NO_ADDR then [] else loctList

/-- `fb_locators_classify_in_4_6`. -/
def fbLocatorsClassifyIn46 (m : Mapping) (rlocs : List LispAddr) :
    Except Fault (List Locator × List Locator) :=
  classifyLocators rlocs ([], []) (addressedLocators m)

/-- The loop of `select_best_priority_locators`. -/
def selectBestPriorityLocators (minPriority : Nat) (selected : List Locator) :
    List Locator → Except Fault (Nat × List Locator)
  | [] => .ok (minPriority, selected)
  | locator :: rest =>
    if locator.state = .DOWN ∨ locator.priority.toNat = UNUSED_RLOC_PRIORITY then
      selectBestPriorityLocators minPriority selected rest
    else if locator.priority.toNat = minPriority then
      if selected.length < MAX_BALANCED_LOCATORS then
        selectBestPriorityLocators minPriority (selected ++ [locator]) rest
      else .error .outOfRange
    else if locator.priority.toNat < minPriority then
      selectBestPriorityLocators locator.priority.toNat [locator] rest
    else selectBestPriorityLocators minPriority selected rest

/-- The loop of `highest_common_factor`. -/
def hcfLoop : Nat → Nat → Nat → Nat
  | 0, a, _ => a
  | fuel + 1, a, b => if b = 0 then a else hcfLoop fuel b (a % b)

/-- `highest_common_factor`. The exchange of the arguments it starts with has no effect; the second
one gets smaller in every iteration. -/
def highestCommonFactor (a b : Nat) : Nat :=
  if b = 0 then a else if a = 0 then b else hcfLoop b a b

/-- `get_hcf_locators_weight`: the sum of the weights and their highest common factor. -/
def getHcfLocatorsWeight (locators : List Locator) : Nat × Nat :=
  locators.foldl (fun acc l => (acc.1 + l.weight.toNat, highestCommonFactor acc.2 l.weight.toNat))
    (0, (locators.head?.map (·.weight.toNat)).getD 0)

/-- The positions of a locator in its vector. -/
def usedPos (totalWeight hcf : Nat) (l : Locator) : Nat :=
  if totalWeight ≠ 0 then l.weight.toNat / hcf else 1

/-- `set_balancing_vector`. Writing past the computed length, leaving positions of it unwritten and
a division by zero are faults. -/
def setBalancingVector (locators : List Locator) (totalWeight hcf : Nat) :
    Except Fault (List Nat) :=
  let vectorLength := if totalWeight ≠ 0 then totalWeight / hcf else locators.length
  let vec := locators.flatMap fun l => List.replicate (usedPos totalWeight hcf l) l.ptr
  if (totalWeight ≠ 0 → hcf ≠ 0) ∧ vec.length = vectorLength then .ok vec else .error .outOfRange

/-- The best locators of one family, with their priority, weights and vector. -/
structure FamilyVector where
  minPriority : Nat
  locators : List Locator
  totalWeight : Nat
  hcf : Nat
  vec : Option (List Nat)

/-- The part of `balancing_vectors_calculate` for one family. -/
def familyVector (loctList : List Locator) : Except Fault FamilyVector := do
  let (minPriority, locators) ← selectBestPriorityLocators UNUSED_RLOC_PRIORITY [] loctList
  if minPriority = UNUSED_RLOC_PRIORITY then return ⟨minPriority, locators, 0, 0, none⟩
  else
    let (totalWeight, hcf) := getHcfLocatorsWeight locators
    let vec ← setBalancingVector locators totalWeight hcf
    return ⟨minPriority, locators, totalWeight, hcf, some vec⟩

/-- The vector over the locators of both families. -/
def combinedVector (v4 v6 : FamilyVector) : Except Fault (Option (List Nat)) :=
  match v4.vec, v6.vec with
  | some vec4, some vec6 =>
    if v4.minPriority < v6.minPriority then .ok (some vec4)
    else if v6.minPriority < v4.minPriority then .ok (some vec6)
    else if v4.locators.length + v6.locators.length ≤ MAX_BALANCED_LOCATORS then
      (setBalancingVector (v4.locators ++ v6.locators) (v4.totalWeight + v6.totalWeight)
        (highestCommonFactor v4.hcf v6.hcf)).map some
    else .error .outOfRange
  | _, _ => .ok none

/-- `balancing_vectors_calculate`. -/
def balancingVectorsCalculate (rlocs : List LispAddr) (m : Mapping) :
    Except Fault BalancingLocatorsVecs := do
  let (ipv4LoctList, ipv6LoctList) ← fbLocatorsClassifyIn46 m rlocs
  let v4 ← familyVector ipv4LoctList
  let v6 ← familyVector ipv6LoctList
  let vec ← combinedVector v4 v6
  return ⟨v4.vec, v6.vec, vec⟩

/-! ## Forwarding entries -/

/-- A `fwd_entry_t`. -/
structure FwdEntry where
  srloc : LispAddr
  drloc : LispAddr
deriving DecidableEq

/-- A router, its calls into the policy and its own functions, under flow balancing. -/
abbrev FbXtr := Xtr BalancingLocatorsVecs

@[inherit_doc FbXtr]
abbrev FbWorld := World BalancingLocatorsVecs FwdEntry

@[inherit_doc FbXtr]
abbrev FbXtrM := XtrM BalancingLocatorsVecs

/-- The vector of the source mapping a packet is balanced over. -/
def srcLocVec (src dst : BalancingLocatorsVecs) : Option (List Nat) :=
  match src.balancingLocatorsVec, dst.balancingLocatorsVec with
  | some vec, some _ => some vec
  | _, _ =>
    match src.v6BalancingLocatorsVec, dst.v6BalancingLocatorsVec with
    | some vec, some _ => some vec
    | _, _ =>
      match src.v4BalancingLocatorsVec, dst.v4BalancingLocatorsVec with
      | some vec, some _ => some vec
      | _, _ => none

/-- The address of the locator at the position of a vector that the hash selects. -/
def pickedAddr (rlocs : List LispAddr) (locs : Nat → Option Locator) (hash : UInt32) :
    Option (List Nat) → Except Fault (Option LispAddr)
  | none => .error .nullDeref
  | some vec =>
    match vec[hash.toNat % vec.length]? with
    | none => .error .outOfRange
    | some loc =>
      match locs loc with
      | none => .error .useAfterFree
      | some locator => fbLispAddrGetFwdIpAddr rlocs locator.addr

/-- `fb_get_fw_entry`: the source RLOC, then a destination RLOC of its family. -/
def fbGetFwEntry (hash : PacketTuple → UInt32) (rlocs : List LispAddr) (locs : LocatorsAt)
    (srcBlv dstBlv : Option BalancingLocatorsVecs) (tuple : PacketTuple) :
    Except Fault (Option FwdEntry) := do
  match srcBlv, dstBlv with
  | some src, some dst =>
    match srcLocVec src dst with
    | none => return none
    | some vec =>
      match ← pickedAddr rlocs locs.loc (hash tuple) (some vec) with
      | none => throw .missingAddress
      | some srloc =>
        match lispAddrIpAfi srloc with
        | none => return none
        | some afi =>
          let dstLocVec := match afi with
            | .INET => dst.v4BalancingLocatorsVec
            | .INET6 => dst.v6BalancingLocatorsVec
          match ← pickedAddr rlocs locs.rmt (hash tuple) dstLocVec with
          | none => throw .missingAddress
          | some drloc => return some ⟨srloc, drloc⟩
  | _, _ => throw .nullDeref

/-- `balancing_vectors_calculate` on the vectors of an entry. -/
def updatedVectors (rlocs : List LispAddr) (blv : Option BalancingLocatorsVecs) (m : Mapping) :
    Except Fault (Option BalancingLocatorsVecs) :=
  match blv with
  | none => .error .nullDeref
  | some _ => (balancingVectorsCalculate rlocs m).map some

/-- `fwd_policy_flow_balancing`, for the hash of packets `pkt_tuple_hash`. The vectors of a mapping
with an empty path cannot be computed, so none of its locators is ever probed. -/
def fwdPolicyFlowBalancing (pktTupleHash : PacketTuple → UInt32) :
    FwdPolicy BalancingLocatorsVecs FwdEntry where
  newMapCachePolicyInf rlocs m := (balancingVectorsCalculate rlocs m).map some
  updatedMapCacheInf := updatedVectors
  updatedMapLocInf := updatedVectors
  policyGetFwdInfo := fbGetFwEntry pktTupleHash
  getFwdIpAddr addr rlocs := (fbLispAddrGetFwdIpAddr rlocs addr).toOption.join

/-! ## A vector is filled to its end -/

/-- The loop of `highest_common_factor` computes the greatest common divisor. -/
theorem hcfLoop_eq : ∀ {fuel a b : Nat}, b ≤ fuel → hcfLoop fuel a b = Nat.gcd a b
  | 0, a, b, h => by
    rw [Nat.le_zero.mp h, hcfLoop, Nat.gcd_zero_right]
  | fuel + 1, a, b, h => by
    rw [hcfLoop]
    split_ifs with hb
    · rw [hb, Nat.gcd_zero_right]
    · have hlt : a % b < b := Nat.mod_lt a (Nat.pos_of_ne_zero hb)
      rw [hcfLoop_eq (Nat.le_of_lt_succ (Nat.lt_of_lt_of_le hlt h)), Nat.gcd_comm b,
        ← Nat.gcd_rec, Nat.gcd_comm]

theorem highestCommonFactor_eq (a b : Nat) : highestCommonFactor a b = Nat.gcd a b := by
  unfold highestCommonFactor
  split_ifs with hb ha
  · rw [hb, Nat.gcd_zero_right]
  · rw [ha, Nat.gcd_zero_left]
  · exact hcfLoop_eq (Nat.le_refl b)

/-- The sum of the weights of locators. -/
def weightSum (locators : List Locator) : Nat :=
  (locators.map (·.weight.toNat)).sum

/-- The greatest common divisor of the weights of locators. -/
def weightGcd (locators : List Locator) : Nat :=
  (locators.map (·.weight.toNat)).foldr Nat.gcd 0

/-- The accumulator holds the sum of the weights seen and their greatest common divisor. -/
theorem hcfFold_eq : ∀ (locators : List Locator) (w h : Nat), locators.foldl
    (fun acc l => (acc.1 + l.weight.toNat, highestCommonFactor acc.2 l.weight.toNat)) (w, h) =
      (w + weightSum locators, Nat.gcd h (weightGcd locators))
  | [], w, h => by simp [weightSum, weightGcd]
  | l :: rest, w, h => by
    rw [foldl_cons, hcfFold_eq rest, highestCommonFactor_eq, Nat.gcd_assoc, Nat.add_assoc]
    simp [weightSum, weightGcd]

/-- `get_hcf_locators_weight` counts the first weight twice, which changes nothing. -/
theorem getHcfLocatorsWeight_eq (locators : List Locator) :
    getHcfLocatorsWeight locators = (weightSum locators, weightGcd locators) := by
  rw [getHcfLocatorsWeight, hcfFold_eq, Nat.zero_add]
  cases locators with
  | nil => rfl
  | cons l rest =>
    have hgcd : Nat.gcd l.weight.toNat (weightGcd (l :: rest)) = weightGcd (l :: rest) :=
      Nat.gcd_eq_right (Nat.gcd_dvd_left _ _)
    simp [hgcd]

theorem weightGcd_dvd : ∀ {locators : List Locator}, ∀ l ∈ locators,
    weightGcd locators ∣ l.weight.toNat
  | x :: rest, l, hl => by
    rcases mem_cons.mp hl with rfl | hl
    · exact Nat.gcd_dvd_left _ _
    · exact Nat.dvd_trans (Nat.gcd_dvd_right _ _) (weightGcd_dvd l hl)

theorem weightSum_append (a b : List Locator) : weightSum (a ++ b) = weightSum a + weightSum b := by
  simp [weightSum]

theorem weightGcd_append : ∀ a b : List Locator,
    weightGcd (a ++ b) = Nat.gcd (weightGcd a) (weightGcd b)
  | [], b => by simp [weightGcd]
  | x :: a, b => by
    have ih := weightGcd_append a b
    simp only [weightGcd, cons_append, map_cons, foldr_cons] at ih ⊢
    rw [ih, Nat.gcd_assoc]

variable {locators : List Locator}

/-- Weights with a common divisor that is zero add up to nothing. -/
theorem weightGcd_ne_zero (hsum : weightSum locators ≠ 0) : weightGcd locators ≠ 0 := by
  intro hgcd
  have hzero : ∀ l ∈ locators, l.weight.toNat = 0 := fun l hl =>
    Nat.eq_zero_of_zero_dvd (hgcd ▸ weightGcd_dvd l hl)
  refine hsum ?_
  rw [weightSum, map_congr_left hzero]
  simp

/-- The shares of the locators add up to the computed length. -/
theorem sum_usedPos {totalWeight hcf : Nat} : ∀ {locators : List Locator},
    (∀ l ∈ locators, hcf ∣ l.weight.toNat) → totalWeight ≠ 0 →
      (locators.map (usedPos totalWeight hcf)).sum = weightSum locators / hcf
  | [], _, _ => by simp [weightSum]
  | l :: rest, hdvd, ht => by
    have hrest := sum_usedPos (fun l' hl' => hdvd l' (mem_cons_of_mem l hl')) ht
    have hsum : weightSum (l :: rest) = l.weight.toNat + weightSum rest := by simp [weightSum]
    rw [map_cons, sum_cons, hrest, usedPos, if_pos ht, hsum,
      Nat.add_div_of_dvd_right (hdvd l (by simp))]

/-- The vector over locators: a locator has its weight over the greatest common divisor of the
weights many positions, or one if all weights are zero. -/
def spread (locators : List Locator) : List Nat :=
  locators.flatMap fun l =>
    List.replicate (usedPos (weightSum locators) (weightGcd locators) l) l.ptr

theorem spread_length (locators : List Locator) : (spread locators).length =
    if weightSum locators ≠ 0 then weightSum locators / weightGcd locators
    else locators.length := by
  simp only [spread, length_flatMap, length_replicate]
  split_ifs with ht
  · exact sum_usedPos weightGcd_dvd ht
  · have hone : usedPos (weightSum locators) (weightGcd locators) = fun _ => 1 := by
      funext l
      exact if_neg ht
    simp [hone]

/-- Every position of the vector is written, and none past its end. -/
theorem setBalancingVector_eq (locators : List Locator) :
    setBalancingVector locators (weightSum locators) (weightGcd locators) =
      .ok (spread locators) :=
  if_pos ⟨weightGcd_ne_zero, spread_length locators⟩

theorem spread_ne_nil (h : locators ≠ []) : spread locators ≠ [] := by
  refine length_pos_iff.mp ?_
  rw [spread_length]
  split_ifs with hsum
  · refine Nat.div_pos (Nat.le_of_dvd (Nat.pos_of_ne_zero hsum) (dvd_sum fun w hw => ?_))
      (Nat.pos_of_ne_zero (weightGcd_ne_zero hsum))
    obtain ⟨l, hl, rfl⟩ := mem_map.mp hw
    exact weightGcd_dvd l hl
  · exact length_pos_iff.mpr h

end Lispmob
