import Mathlib.Data.List.TakeWhile
import Lispmob.Vectors

/-!
# The locators flows are sent over

`fb_locators_classify_in_4_6` sorts the locators of a mapping by the family of the address each is
reached at, `balancing_vectors_calculate` computes the vectors over them, and `fb_get_fw_entry`
picks the RLOCs of a packet from the vectors of two mappings.
-/

namespace Lispmob

open Prog List

variable {m src dst : Mapping} {rlocs : List LispAddr} {l4 l6 : List Locator} {addr : LispAddr}
  {afi : Af} {l : List Locator} {x : Locator}

/-! ## Explicit paths -/

mutual

/-- `lisp_addr_get_ip_addr` gives an IP address or none. -/
theorem lispAddrGetIpAddr_ip : ∀ {addr ip : LispAddr}, lispAddrGetIpAddr addr = some ip →
    ∃ a, ip = .ip a
  | .ip a, _, h => ⟨a, by simpa [lispAddrGetIpAddr, eq_comm] using h⟩
  | .afiList addrs, _, h => afiListTypeGetIpAddr_ip (by simpa [lispAddrGetIpAddr] using h)
  | .iid _ _ addr, _, h => lispAddrGetIpAddr_ip
    (show lispAddrGetIpAddr addr = _ by simpa [lispAddrGetIpAddr] using h)
  | .mc _ _ _ src _, _, h => lispAddrGetIpAddr_ip
    (show lispAddrGetIpAddr src = _ by simpa [lispAddrGetIpAddr] using h)
  | .elp nodes, _, h => elpTypeGetIpAddr_ip (by simpa [lispAddrGetIpAddr] using h)
  | .noAddr, _, h | .ippref _ _, _, h | .geo _ _ _ _, _, h | .rle _, _, h => by
    simp [lispAddrGetIpAddr] at h

theorem afiListTypeGetIpAddr_ip : ∀ {addrs : List LispAddr} {ip : LispAddr},
    afiListTypeGetIpAddr addrs = some ip → ∃ a, ip = .ip a
  | [], _, h => by simp [afiListTypeGetIpAddr] at h
  | addr :: rest, _, h => by
    rw [afiListTypeGetIpAddr, Option.or_eq_some_iff] at h
    rcases h with h | ⟨-, h⟩
    · exact lispAddrGetIpAddr_ip h
    · exact afiListTypeGetIpAddr_ip h

theorem elpTypeGetIpAddr_ip : ∀ {nodes : List ElpNode} {ip : LispAddr},
    elpTypeGetIpAddr nodes = some ip → ∃ a, ip = .ip a
  | [], _, h => by simp [elpTypeGetIpAddr] at h
  | .mk _ _ _ addr :: rest, _, h => by
    rw [elpTypeGetIpAddr] at h
    split_ifs at h
    · exact lispAddrGetIpAddr_ip h
    · exact elpTypeGetIpAddr_ip h

end

mutual

/-- The hops an address stands for: those of a path, or the address itself. -/
def hopsOf : LispAddr → List LispAddr
  | .elp nodes => pathHops nodes
  | addr => [addr]
termination_by structural a => a

/-- The flattened hops of a path. -/
def pathHops : List ElpNode → List LispAddr
  | [] => []
  | .mk _ _ _ addr :: rest => hopsOf addr ++ pathHops rest
termination_by structural a => a

end

/-- The hop is one of the router's own RLOCs. -/
abbrev isLocalHop (rlocs : List LispAddr) (hop : LispAddr) : Bool :=
  isLocalRloc rlocs (lispAddrGetIpAddr hop)

/-- The hop after the first one that is a local RLOC, that one if it is the last, and the first hop
if none is local. -/
def nextHop (rlocs : List LispAddr) (hops : List LispAddr) : Option LispAddr :=
  match hops.dropWhile fun hop => !isLocalHop rlocs hop with
  | [] => hops.head?.bind lispAddrGetIpAddr
  | [last] => lispAddrGetIpAddr last
  | _ :: next :: _ => lispAddrGetIpAddr next

mutual

/-- The path decides rightly, in a sequence with `before` in front of its hops and `after` behind
them. -/
def pathRight (rlocs before after : List LispAddr) : LispAddr → Bool
  | .elp nodes => hopsRight rlocs before after [] nodes
  | _ => false
termination_by structural a => a

/-- The same, after the hops `passed` of the path, none of which is local. The first path inside it
decides, if no local RLOC is in front of it. A local RLOC ends the whole sequence or is followed by
a hop of this path; if that is a path itself, its first hop is its last. Where the path has neither,
the whole sequence begins with it and has no local RLOC. -/
def hopsRight (rlocs before after passed : List LispAddr) : List ElpNode → Bool
  | [] => before.isEmpty && (after.all fun hop => !isLocalHop rlocs hop) &&
      (passed.head?.bind lispAddrGetIpAddr).isSome
  | .mk _ _ _ addr :: rest =>
    if lispAddrLcafType addr = 10 then
      pathRight rlocs (before ++ passed) (pathHops rest ++ after) addr
    else if isLocalHop rlocs addr then
      match rest with
      | [] => after.isEmpty
      | .mk _ _ _ next :: _ => (lispAddrGetIpAddr next).isSome &&
          lispAddrGetIpAddr next = (hopsOf next).head?.bind lispAddrGetIpAddr
    else hopsRight rlocs before after (passed ++ [addr]) rest
termination_by structural a => a

end

/-- The address of the first hop. -/
def firstNode : List ElpNode → Option LispAddr
  | [] => none
  | .mk _ _ _ addr :: _ => some addr

mutual

/-- Every hop has an IP address, and no local RLOC is followed by a path that ends without one. -/
def addressedHop (rlocs : List LispAddr) : LispAddr → Bool
  | .elp nodes => addressedHops rlocs nodes
  | addr => (lispAddrGetIpAddr addr).isSome
termination_by structural a => a

def addressedHops (rlocs : List LispAddr) : List ElpNode → Bool
  | [] => true
  | .mk _ _ _ addr :: rest => addressedHop rlocs addr && addressedHops rlocs rest &&
      (!isLocalHop rlocs addr || (lispAddrGetIpAddr ((firstNode rest).getD addr)).isSome)
termination_by structural a => a

end

/-- None of the hops is a local RLOC. -/
abbrev Remote (rlocs hops : List LispAddr) : Prop :=
  ∀ hop ∈ hops, isLocalHop rlocs hop = false

/-- The IP addresses of the hops are different. -/
abbrev DistinctHops (hops : List LispAddr) : Prop :=
  (hops.map lispAddrGetIpAddr).Nodup

section NextHop

variable {before hops after passed : List LispAddr} {hop ip : LispAddr} {nodes : List ElpNode}
  {L P S : Bool}

theorem nextHop_local (hbefore : Remote rlocs before) (hhop : isLocalHop rlocs hop = true) :
    nextHop rlocs (before ++ hop :: after) = lispAddrGetIpAddr (after.head?.getD hop) := by
  rw [nextHop, dropWhile_append_of_pos (by simpa using hbefore),
    dropWhile_cons_of_neg (by simp [hhop])]
  cases after <;> rfl

theorem nextHop_remote (hbefore : Remote rlocs before) (hafter : Remote rlocs after) :
    nextHop rlocs (before ++ after) = (before ++ after).head?.bind lispAddrGetIpAddr := by
  rw [nextHop, dropWhile_eq_nil_iff.mpr fun x hx => ?_]
  simpa using (mem_append.mp hx).elim (hbefore x) (hafter x)

/-- The next hop is one of those behind the others, if one of them is local. -/
theorem nextHop_mem (hbefore : Remote rlocs before) (hlocal : ¬ Remote rlocs hops) :
    ∃ x ∈ hops, nextHop rlocs (before ++ hops) = lispAddrGetIpAddr x := by
  rw [nextHop, dropWhile_append_of_pos (by simpa using hbefore)]
  have hne : (hops.dropWhile fun hop => !isLocalHop rlocs hop) ≠ [] := by
    simpa [dropWhile_eq_nil_iff] using hlocal
  have hsub := (dropWhile_suffix (l := hops) fun hop => !isLocalHop rlocs hop).subset
  cases hdrop : hops.dropWhile fun hop => !isLocalHop rlocs hop with
  | nil => exact absurd hdrop hne
  | cons hop rest =>
    rw [hdrop] at hsub
    cases rest with
    | nil => exact ⟨hop, hsub (by simp), rfl⟩
    | cons next rest => exact ⟨next, hsub (by simp), rfl⟩

theorem DistinctHops.ne {hops' : List LispAddr} {x y : LispAddr}
    (h : DistinctHops (hops ++ hops')) (hx : x ∈ hops) (hy : y ∈ hops') :
    lispAddrGetIpAddr x ≠ lispAddrGetIpAddr y := by
  rw [DistinctHops, map_append, nodup_append] at h
  exact h.2.2 _ (mem_map_of_mem hx) _ (mem_map_of_mem hy)

theorem hopsOf_plain (h : lispAddrLcafType addr ≠ 10) : hopsOf addr = [addr] := by
  cases addr with
  | elp nodes => exact absurd rfl h
  | _ => simp [hopsOf]

theorem addressedHop_plain (h : lispAddrLcafType addr ≠ 10) :
    addressedHop rlocs addr = (lispAddrGetIpAddr addr).isSome := by
  cases addr with
  | elp nodes => exact absurd rfl h
  | _ => simp [addressedHop]

mutual

theorem hopsOf_ne_nil : ∀ {addr ip : LispAddr}, lispAddrGetIpAddr addr = some ip →
    hopsOf addr ≠ []
  | .elp nodes, ip, h => by
    rw [lispAddrGetIpAddr] at h
    rw [hopsOf]
    exact pathHops_ne_nil h
  | .noAddr, _, _ | .ip _, _, _ | .ippref _ _, _, _ | .afiList _, _, _ | .iid _ _ _, _, _
  | .geo _ _ _ _, _, _ | .mc _ _ _ _ _, _, _ | .rle _, _, _ => by simp [hopsOf]

theorem pathHops_ne_nil : ∀ {nodes : List ElpNode} {ip : LispAddr},
    elpTypeGetIpAddr nodes = some ip → pathHops nodes ≠ []
  | .mk _ _ _ addr :: rest, ip, h => by
    rw [elpTypeGetIpAddr] at h
    split_ifs at h
    · simp [pathHops, hopsOf_ne_nil h]
    · simp [pathHops, pathHops_ne_nil h]

end

/-- What the path gives, from the hops after `passed` on. -/
def pathResult (rlocs passed : List LispAddr) (nodes : List ElpNode) :
    Except Fault (Option LispAddr) :=
  match fbElpLoop rlocs nodes, passed.head?.or (firstNode nodes) with
  | .error e, _ => .error e
  | .ok (some addr), _ => .ok addr
  | .ok none, none => .error .nullDeref
  | .ok none, some first => .ok (lispAddrGetIpAddr first)

theorem fwd_elp (nodes : List ElpNode) :
    fbLispAddrGetFwdIpAddr rlocs (.elp nodes) = pathResult rlocs [] nodes := by
  rw [fbLispAddrGetFwdIpAddr.eq_def, pathResult]
  rcases nodes with _ | ⟨⟨_, _, _, addr⟩, rest⟩
  · simp [fbElpLoop, firstNode]
  · simp only [firstNode, head?_nil, Option.none_or]
    rcases fbElpLoop rlocs (_ :: rest) with e | _ | addr <;> rfl

theorem pathResult_local (hplain : lispAddrLcafType addr ≠ 10)
    (hlocal : isLocalHop rlocs addr = true) :
    pathResult rlocs passed (.mk L P S addr :: nodes) =
      .ok (lispAddrGetIpAddr ((firstNode nodes).getD addr)) := by
  rw [pathResult, fbElpLoop.eq_def]
  simp only [if_neg hplain, if_pos hlocal]
  rcases nodes with _ | ⟨⟨_, _, _, next⟩, rest⟩ <;> rfl

theorem pathResult_remote (hplain : lispAddrLcafType addr ≠ 10)
    (hremote : ¬ isLocalHop rlocs addr = true) :
    pathResult rlocs passed (.mk L P S addr :: nodes) =
      pathResult rlocs (passed ++ [addr]) nodes := by
  rw [pathResult, fbElpLoop.eq_def, pathResult]
  simp only [if_neg hplain, if_neg hremote]
  cases passed <;> rfl

theorem pathResult_path (hpath : lispAddrLcafType addr = 10) {r : Except Fault (Option LispAddr)}
    (h : fbLispAddrGetFwdIpAddr rlocs addr = r) (hr : r ≠ .ok none) :
    pathResult rlocs passed (.mk L P S addr :: nodes) = r := by
  rw [pathResult, fbElpLoop.eq_def]
  simp only [if_pos hpath, h]
  rcases r with e | _ | ip
  · rfl
  · exact absurd rfl hr
  · rfl

mutual

/-- A path that decides rightly leads to the next hop. -/
theorem pathRight_fwd : ∀ {addr : LispAddr} {before after : List LispAddr}, Remote rlocs before →
    pathRight rlocs before after addr →
      ∃ ip, fbLispAddrGetFwdIpAddr rlocs addr = .ok (some ip) ∧
        nextHop rlocs (before ++ (hopsOf addr ++ after)) = some ip
  | .elp nodes, before, after, hbefore, h => by
    rw [pathRight] at h
    obtain ⟨ip, hres, hnext⟩ := hopsRight_result (by simpa using hbefore) h
    rw [hopsOf, fwd_elp]
    exact ⟨ip, hres, by simpa using hnext⟩

theorem hopsRight_result : ∀ {nodes : List ElpNode} {before after passed : List LispAddr},
    Remote rlocs (before ++ passed) → hopsRight rlocs before after passed nodes →
      ∃ ip, pathResult rlocs passed nodes = .ok (some ip) ∧
        nextHop rlocs (before ++ passed ++ (pathHops nodes ++ after)) = some ip
  | [], before, after, passed, hremote, h => by
    simp only [hopsRight, Bool.and_eq_true, all_eq_true, Bool.not_eq_true', List.isEmpty_iff] at h
    obtain ⟨⟨rfl, hafter⟩, hfirst⟩ := h
    obtain ⟨ip, hip⟩ := Option.isSome_iff_exists.mp hfirst
    rw [nil_append] at hremote
    rw [pathHops, nil_append, nil_append, nextHop_remote hremote hafter]
    cases passed with
    | nil => cases hip
    | cons hop passed => exact ⟨ip, by simpa [pathResult, fbElpLoop] using hip, hip⟩
  | .mk L P S addr :: rest, before, after, passed, hremote, h => by
    rw [hopsRight.eq_def] at h
    simp only at h
    rw [pathHops]
    split_ifs at h with hpath hlocal
    · obtain ⟨ip, hfwd, hnext⟩ := pathRight_fwd hremote h
      exact ⟨ip, pathResult_path hpath hfwd (by simp), by simpa using hnext⟩
    · rw [hopsOf_plain hpath, singleton_append, cons_append, nextHop_local hremote hlocal,
        pathResult_local hpath hlocal]
      rcases rest with _ | ⟨⟨_, _, _, next⟩, rest⟩
      · cases haddr : lispAddrGetIpAddr addr with
        | none => simp [isLocalHop, haddr, isLocalRloc] at hlocal
        | some ip =>
          rw [List.isEmpty_iff.mp h]
          exact ⟨ip, congrArg Except.ok haddr, haddr⟩
      · simp only [Bool.and_eq_true, decide_eq_true_eq] at h
        obtain ⟨ip, hip⟩ := Option.isSome_iff_exists.mp h.1
        rw [hip] at h
        obtain ⟨hop, hhop, hhead⟩ := Option.bind_eq_some_iff.mp h.2.symm
        refine ⟨ip, congrArg Except.ok hip, ?_⟩
        rw [pathHops, append_assoc, head?_append, hhop]
        exact hhead
    · obtain ⟨ip, hres, hnext⟩ := hopsRight_result (by grind) h
      rw [pathResult_remote hpath hlocal, hopsOf_plain hpath]
      exact ⟨ip, hres, by simpa using hnext⟩

end

mutual

/-- Where the hops are addressed and distinct, only a path that decides rightly leads to the next
hop. -/
theorem pathRight_of_fwd : ∀ {addr : LispAddr} {r : Option LispAddr},
    lispAddrLcafType addr = 10 → addressedHop rlocs addr →
      fbLispAddrGetFwdIpAddr rlocs addr = .ok r → r ≠ none ∧
        ∀ {before after : List LispAddr}, Remote rlocs before →
          DistinctHops (before ++ (hopsOf addr ++ after)) →
            nextHop rlocs (before ++ (hopsOf addr ++ after)) = r →
              pathRight rlocs before after addr
  | .elp nodes, r, _, haddr, h => by
    rw [addressedHop] at haddr
    rw [fwd_elp] at h
    obtain ⟨hr, hright⟩ := hopsRight_of_result (by simp) haddr h
    refine ⟨hr, fun hremote hdistinct hnext => ?_⟩
    rw [hopsOf] at hdistinct hnext
    rw [pathRight]
    exact hright (by simpa using hremote) (by simpa using hdistinct) (by simpa using hnext)

theorem hopsRight_of_result : ∀ {nodes : List ElpNode} {passed : List LispAddr}
    {r : Option LispAddr}, (∀ hop ∈ passed, (lispAddrGetIpAddr hop).isSome) →
      addressedHops rlocs nodes → pathResult rlocs passed nodes = .ok r → r ≠ none ∧
        ∀ {before after : List LispAddr}, Remote rlocs (before ++ passed) →
          DistinctHops (before ++ passed ++ (pathHops nodes ++ after)) →
            nextHop rlocs (before ++ passed ++ (pathHops nodes ++ after)) = r →
              hopsRight rlocs before after passed nodes
  | [], [], r, _, _, h => by simp [pathResult, fbElpLoop, firstNode] at h
  | [], first :: passed, r, hpassed, _, h => by
    have hres : lispAddrGetIpAddr first = r := by simpa [pathResult, fbElpLoop] using h
    have hsome := hpassed first (by simp)
    refine ⟨fun hnone => by simp [hres, hnone] at hsome, ?_⟩
    intro before after hremote hdistinct hnext
    rw [pathHops, nil_append] at hdistinct hnext
    have hafter : Remote rlocs after := by
      by_contra hlocal
      obtain ⟨x, hx, hnext'⟩ := nextHop_mem hremote hlocal
      exact hdistinct.ne (x := first) (by simp) hx (by rw [hres, ← hnext, hnext'])
    have hbefore : before = [] := by
      rw [nextHop_remote hremote hafter] at hnext
      cases before with
      | nil => rfl
      | cons x before =>
        rw [append_assoc] at hdistinct
        exact absurd (hnext.trans hres.symm) (hdistinct.ne (by simp) (by simp))
    simpa [hopsRight, hbefore, hsome] using hafter
  | .mk L P S addr :: rest, passed, r, hpassed, hnodes, h => by
    simp only [addressedHops, Bool.and_eq_true] at hnodes
    obtain ⟨⟨haddr, hrest⟩, hfollowed⟩ := hnodes
    rw [pathHops]
    by_cases hpath : lispAddrLcafType addr = 10
    · cases hfwd : fbLispAddrGetFwdIpAddr rlocs addr with
      | error e =>
        rw [pathResult_path hpath hfwd (by simp)] at h
        cases h
      | ok r' =>
        obtain ⟨hr, hright⟩ := pathRight_of_fwd hpath haddr hfwd
        rw [pathResult_path hpath hfwd fun hnone => hr (Except.ok.inj hnone)] at h
        rw [← Except.ok.inj h]
        refine ⟨hr, fun hremote hdistinct hnext => ?_⟩
        rw [append_assoc (hopsOf addr)] at hdistinct hnext
        rw [hopsRight.eq_def]
        simpa only [if_pos hpath] using hright hremote hdistinct hnext
    by_cases hlocal : isLocalHop rlocs addr
    · rw [pathResult_local hpath hlocal] at h
      simp only [hlocal, Bool.not_true, Bool.false_or] at hfollowed
      have hres := Except.ok.inj h
      refine ⟨fun hnone => by simp [hres, hnone] at hfollowed, ?_⟩
      intro before after hremote hdistinct hnext
      rw [hopsOf_plain hpath, singleton_append] at hdistinct hnext
      rw [cons_append, nextHop_local hremote hlocal, ← hres] at hnext
      rw [hopsRight.eq_def]
      simp only [if_neg hpath, if_pos hlocal]
      rcases rest with _ | ⟨⟨_, _, _, next⟩, rest⟩
      · cases after with
        | nil => rfl
        | cons x after =>
          rw [pathHops, cons_append, nil_append, append_cons] at hdistinct
          exact absurd hnext.symm (hdistinct.ne (by simp [firstNode]) (by simp [pathHops]))
      · obtain ⟨ip, hip⟩ := Option.isSome_iff_exists.mp hfollowed
        simp only [firstNode, Option.getD_some] at hip hnext
        cases hhops : hopsOf next with
        | nil => exact absurd hhops (hopsOf_ne_nil hip)
        | cons hop hops =>
          simp only [pathHops, hhops, cons_append, head?_cons, Option.getD_some] at hnext
          simp [hhops, hnext, hip]
    · rw [pathResult_remote hpath hlocal] at h
      rw [addressedHop_plain hpath] at haddr
      obtain ⟨hr, hright⟩ := hopsRight_of_result (by grind) hrest h
      refine ⟨hr, fun hremote hdistinct hnext => ?_⟩
      rw [hopsOf_plain hpath] at hdistinct hnext
      rw [hopsRight.eq_def]
      simp only [if_neg hpath, if_neg hlocal]
      exact hright (by grind) (by simpa using hdistinct) (by simpa using hnext)

end

end NextHop

mutual

/-- A path is reached at an IP address, if at any. -/
theorem fbLispAddrGetFwdIpAddr_elp : ∀ {addr ip : LispAddr}, lispAddrLcafType addr = 10 →
    fbLispAddrGetFwdIpAddr rlocs addr = .ok (some ip) → ∃ a, ip = .ip a
  | .elp nodes, ip, _, h => by
    rw [fbLispAddrGetFwdIpAddr.eq_def] at h
    simp only at h
    split at h
    · cases h
    · rename_i hloop
      cases h
      exact fbElpLoop_ip hloop
    · cases h
    · exact lispAddrGetIpAddr_ip (Except.ok.inj h)

theorem fbElpLoop_ip : ∀ {nodes : List ElpNode} {ip : LispAddr},
    fbElpLoop rlocs nodes = .ok (some (some ip)) → ∃ a, ip = .ip a
  | [], _, h => by simp [fbElpLoop] at h
  | .mk _ _ _ addr :: rest, ip, h => by
    rw [fbElpLoop.eq_def] at h
    simp only at h
    split_ifs at h with help
    · split at h
      · cases h
      · rename_i hfwd
        cases h
        exact fbLispAddrGetFwdIpAddr_elp help hfwd
      · exact fbElpLoop_ip h
    · split at h <;> exact lispAddrGetIpAddr_ip (Option.some.inj (Except.ok.inj h))
    · exact fbElpLoop_ip h

end

/-- The family of the IP address a locator is reached at; `none` when there is none. -/
def fwdAfi (rlocs : List LispAddr) (addr : LispAddr) : Option Af :=
  match fbLispAddrGetFwdIpAddr rlocs addr with
  | .ok (some (.ip a)) => some (ipAddrAfi a)
  | _ => none

/-- The locators are sorted exactly by the family of the IP address each is reached at. -/
def SortedByFamily (rlocs : List LispAddr) (m : Mapping) : Prop :=
  ∃ l4 l6, fbLocatorsClassifyIn46 m rlocs = .ok (l4, l6) ∧ ∀ x,
    (x ∈ l4 ↔ x ∈ m.locators ∧ fwdAfi rlocs x.addr = some .INET) ∧
    (x ∈ l6 ↔ x ∈ m.locators ∧ fwdAfi rlocs x.addr = some .INET6)

/-- What locators must be like: no path without hops is met on the way to a forwarding address, the
first node of the highest level of a replication list has an IP address, and no locator that is
reached at an IP address is in a list that starts with one without an address. -/
structure Sortable (rlocs : List LispAddr) (m : Mapping) : Prop where
  paths : ∀ x ∈ addressedLocators m, ∃ o, fbLispAddrGetFwdIpAddr rlocs x.addr = .ok o
  lists : ∀ x ∈ addressedLocators m, ∀ nodes, x.addr = .rle nodes →
    ∀ a, fbRleTypeGetFwdIpAddr nodes = some a → ∃ ip, a = .ip ip
  kinds : ∀ x ∈ m.locators, x ∉ addressedLocators m → fwdAfi rlocs x.addr = none

theorem fwdAfi_eq_some_iff : fwdAfi rlocs addr = some afi ↔
    ∃ a, fbLispAddrGetFwdIpAddr rlocs addr = .ok (some (.ip a)) ∧ ipAddrAfi a = afi := by
  unfold fwdAfi
  split <;> simp_all

theorem fwdFamily_iff {v4 : Bool}
    (h : ∀ ip, fbLispAddrGetFwdIpAddr rlocs addr = .ok (some ip) → ∃ a, ip = .ip a) :
    fwdFamily rlocs addr = .ok (some v4) ↔
      fwdAfi rlocs addr = some (if v4 then .INET else .INET6) := by
  simp only [fwdFamily, except_map_ok, fwdAfi_eq_some_iff, Option.map_eq_some_iff]
  constructor
  · rintro ⟨o, hfwd, ip, rfl, rfl⟩
    obtain ⟨a, rfl⟩ := h ip hfwd
    refine ⟨a, hfwd, ?_⟩
    cases hafi : ipAddrAfi a <;> simp [lispAddrIpAfi, hafi]
  · cases v4 <;> simp_all [lispAddrIpAfi]

/-- `fb_locators_classify_in_4_6` is exact on such mappings and on no others. -/
theorem sorted_by_family_iff (rlocs : List LispAddr) (m : Mapping) :
    SortedByFamily rlocs m ↔ Sortable rlocs m := by
  constructor
  · rintro ⟨l4, l6, hclass, hmem⟩
    obtain ⟨hok, heq⟩ := fbLocatorsClassifyIn46_ok.mp hclass
    obtain ⟨rfl, rfl⟩ := Prod.mk.inj heq
    have hfam : ∀ v4 x, x ∈ ofFamily rlocs v4 (addressedLocators m) ↔
        x ∈ m.locators ∧ fwdAfi rlocs x.addr = some (if v4 then .INET else .INET6) := by
      rintro (_ | _) x
      exacts [(hmem x).2, (hmem x).1]
    refine ⟨fun x hx => ?_, fun x hx nodes haddr a ha => ?_, fun x hx hnot => ?_⟩
    · obtain ⟨o, ho⟩ := hok x hx
      obtain ⟨fwd, hfwd, -⟩ := except_map_ok.mp ho
      exact ⟨fwd, hfwd⟩
    · have hfwd : fbLispAddrGetFwdIpAddr rlocs x.addr = .ok (some a) := by
        rw [haddr, fbLispAddrGetFwdIpAddr, ha]
      have hx := (hfam _ x).mp (mem_ofFamily.mpr ⟨hx, by rw [fwdFamily, hfwd]; rfl⟩)
      obtain ⟨ip, hip, -⟩ := fwdAfi_eq_some_iff.mp hx.2
      exact ⟨ip, by simpa [hfwd] using hip⟩
    · cases hafi : fwdAfi rlocs x.addr with
      | none => rfl
      | some afi =>
        have hmem := (hfam (afi = .INET) x).mpr ⟨hx, by cases afi <;> simp [hafi]⟩
        exact absurd (mem_ofFamily.mp hmem).1 hnot
  · rintro ⟨hpaths, hlists, hkinds⟩
    have hip : ∀ x ∈ addressedLocators m, ∀ ip,
        fbLispAddrGetFwdIpAddr rlocs x.addr = .ok (some ip) → ∃ a, ip = .ip a := by
      intro x hx ip hfwd
      cases haddr : x.addr with
      | elp nodes => exact fbLispAddrGetFwdIpAddr_elp (by rw [haddr]; rfl) hfwd
      | rle nodes =>
        rw [haddr, fbLispAddrGetFwdIpAddr] at hfwd
        exact hlists x hx nodes haddr ip (Except.ok.inj hfwd)
      | ip a =>
        rw [haddr, fbLispAddrGetFwdIpAddr] at hfwd
        exact ⟨a, (Option.some.inj (Except.ok.inj hfwd)).symm⟩
      | _ => simp [haddr, fbLispAddrGetFwdIpAddr] at hfwd
    refine ⟨_, _, fbLocatorsClassifyIn46_ok.mpr ⟨fun x hx => ?_, rfl⟩, fun x => ?_⟩
    · obtain ⟨o, ho⟩ := hpaths x hx
      exact ⟨_, by rw [fwdFamily, ho]; rfl⟩
    · have hfam : ∀ v4, x ∈ ofFamily rlocs v4 (addressedLocators m) ↔
          x ∈ m.locators ∧ fwdAfi rlocs x.addr = some (if v4 then .INET else .INET6) := by
        intro v4
        rw [mem_ofFamily]
        refine ⟨fun h => ⟨mem_addressedLocators h.1, (fwdFamily_iff (hip x h.1)).mp h.2⟩, ?_⟩
        rintro ⟨hx, hf⟩
        have hx' : x ∈ addressedLocators m := not_not.mp fun hnot => by
          simp [hkinds x hx hnot] at hf
        exact ⟨hx', (fwdFamily_iff (hip x hx')).mpr hf⟩
      exact ⟨hfam true, hfam false⟩

/-- A replication list whose only node has no address counts as IPv6. -/
def labRle : Locator := ⟨0, .rle [.mk 0 .noAddr], .UP, 1, 100, 255, 0⟩

theorem sorted_by_family_rle :
    ¬ SortedByFamily [] { mappingNewInit (.ippref (.v4 0x0a000000#32) 8) with
      locatorsLists := [[labRle]], locatorCount := 1 } := by
  rintro ⟨l4, l6, hclass, hmem⟩
  cases hclass
  have hafi := ((hmem labRle).2.mp (mem_singleton_self _)).2
  exact absurd hafi (by decide)

/-! ## The vectors of a mapping -/

/-- The locators of a family, as the vectors are computed from them: the last one first. -/
def familyLocators (afi : Af) (m : Mapping) : List Locator :=
  (m.locators.filter fun x => lispAddrIpAfi x.addr = some afi).reverse

/-- The locators have IPv4 or IPv6 addresses or none, those without are in lists of their own, and
at most 32 have an address. -/
@[mk_iff]
structure FewLocators (m : Mapping) : Prop where
  plain : ∀ x ∈ m.locators, x.addr = .noAddr ∨ lispAddrLafi x.addr = .IP
  kinds : ∀ l ∈ m.locatorsLists, ∀ x ∈ l, ∀ y ∈ l, x.addr = .noAddr → y.addr = .noAddr
  few : (m.locators.filter (·.addr ≠ .noAddr)).length ≤ MAX_BALANCED_LOCATORS

instance (m : Mapping) : Decidable (FewLocators m) :=
  decidable_of_iff _ (fewLocators_iff m).symm

theorem FewLocators.cases (h : FewLocators m) (hx : x ∈ m.locators) :
    x.addr = .noAddr ∨ ∃ a, x.addr = .ip a :=
  (h.plain x hx).imp_right lispAddrLafi_eq_ip_iff.mp

theorem FewLocators.addressed (h : FewLocators m) :
    addressedLocators m = m.locators.filter (·.addr ≠ .noAddr) := by
  rw [addressedLocators, Mapping.locators, filter_flatten, flatMap]
  refine congrArg flatten (map_congr_left fun l hl => ?_)
  have hlafi : ∀ addr : LispAddr, lispAddrLafi addr = .NO_ADDR ↔ addr = .noAddr := by
    rintro (_ | _) <;> simp [lispAddrLafi]
  cases l with
  | nil => rfl
  | cons x l =>
    simp only [head?_cons, Option.all_some, decide_eq_true_iff, hlafi]
    split_ifs with hx
    · exact (filter_eq_nil_iff.mpr fun y hy => by
        simp [h.kinds _ hl x mem_cons_self y hy hx]).symm
    · exact (filter_eq_self.mpr fun y hy => by
        simpa using fun hy0 => hx (h.kinds _ hl y hy x mem_cons_self hy0)).symm

theorem FewLocators.classify (h : FewLocators m) (rlocs : List LispAddr) :
    fbLocatorsClassifyIn46 m rlocs = .ok (familyLocators .INET m, familyLocators .INET6 m) := by
  have hfam : ∀ {x}, x ∈ m.locators → fwdFamily rlocs x.addr =
      .ok ((lispAddrIpAfi x.addr).map (· = .INET)) := by
    intro x hx
    rcases h.cases hx with haddr | ⟨a, haddr⟩ <;>
      simp [haddr, fwdFamily, fbLispAddrGetFwdIpAddr, lispAddrIpAfi, Except.map]
  have hlist : ∀ v4 : Bool, ofFamily rlocs v4 (addressedLocators m) =
      familyLocators (if v4 then .INET else .INET6) m := by
    intro v4
    rw [ofFamily, familyLocators, h.addressed, filter_filter]
    refine congrArg reverse (filter_congr fun x hx => ?_)
    rcases h.cases hx with haddr | ⟨a, haddr⟩
    · simp [haddr, lispAddrIpAfi]
    · rw [hfam hx]
      cases v4 <;> cases hafi : ipAddrAfi a <;> simp [haddr, lispAddrIpAfi, Except.toOption, hafi]
  refine fbLocatorsClassifyIn46_ok.mpr ⟨fun x hx => ⟨_, hfam (mem_addressedLocators hx)⟩, ?_⟩
  rw [hlist, hlist]
  rfl

theorem FitsArrays.of_length (h : l4.length + l6.length ≤ MAX_BALANCED_LOCATORS) :
    FitsArrays l4 l6 := by
  have hone : ∀ l : List Locator, l.length ≤ MAX_BALANCED_LOCATORS → FitsArray l := fun l hl n =>
    ((length_filter_le _ _).trans (length_take_le' n l)).trans hl
  refine ⟨hone l4 (by omega), hone l6 (by omega), (length_filter_le _ _).trans ?_⟩
  rwa [length_append]

theorem ofFamily_length_le (rlocs : List LispAddr) : ∀ l : List Locator,
    (ofFamily rlocs true l).length + (ofFamily rlocs false l).length ≤ l.length
  | [] => Nat.le_refl 0
  | x :: l => by
    have ih := ofFamily_length_le rlocs l
    simp only [ofFamily, length_reverse, filter_cons, length_cons] at ih ⊢
    split_ifs with h4 h6 h6
    · exact absurd ((of_decide_eq_true h4).symm.trans (of_decide_eq_true h6)) (by simp)
    · rw [length_cons]
      omega
    · rw [length_cons]
      omega
    · omega

theorem FewLocators.vectors (h : FewLocators m) (rlocs : List LispAddr) :
    balancingVectorsCalculate rlocs m =
      .ok (vectorsOf (familyLocators .INET m) (familyLocators .INET6 m)) := by
  have hclass := h.classify rlocs
  have hlen := ofFamily_length_le rlocs (addressedLocators m)
  obtain ⟨h4, h6⟩ := Prod.mk.inj (fbLocatorsClassifyIn46_ok.mp hclass).2
  rw [← h4, ← h6, h.addressed] at hlen
  rcases balancingVectorsCalculate_cases hclass with ⟨-, hv⟩ | ⟨hnot, -⟩
  · exact hv
  · exact absurd (.of_length (hlen.trans h.few)) hnot

theorem isSome_vectorOf_iff_usable : (vectorOf l).isSome ↔ ∃ x ∈ l, x.usable := by
  rw [isSome_vectorOf_iff, ne_eq, bestLocators_eq_nil_iff]
  constructor
  · intro h
    obtain ⟨x, hx, hu, -⟩ := exists_of_bestPriority h
    exact ⟨x, hx, hu⟩
  · rintro ⟨x, hx, hu⟩ heq
    have hle := bestPriority_le_of_mem hx hu
    have hne := (of_decide_eq_true hu).2
    have hlt := x.priority.toNat_lt
    simp only [UNUSED_RLOC_PRIORITY] at heq hne
    omega

theorem isSome_vectorOf_append {a : List Locator} (b : List Locator) (h : (vectorOf a).isSome) :
    (vectorOf (a ++ b)).isSome := by
  obtain ⟨x, hx, hu⟩ := isSome_vectorOf_iff_usable.mp h
  exact isSome_vectorOf_iff_usable.mpr ⟨x, mem_append_left b hx, hu⟩

/-- The vector of a family. -/
def BalancingLocatorsVecs.ofAfi (v : BalancingLocatorsVecs) : Af → Option (List Nat)
  | .INET => v.v4BalancingLocatorsVec
  | .INET6 => v.v6BalancingLocatorsVec

theorem vectorsOf_ofAfi (m : Mapping) (afi : Af) :
    (vectorsOf (familyLocators .INET m) (familyLocators .INET6 m)).ofAfi afi =
      vectorOf (familyLocators afi m) := by
  cases afi <;> rfl

theorem mem_familyLocators :
    x ∈ familyLocators afi m ↔ x ∈ m.locators ∧ lispAddrIpAfi x.addr = some afi := by
  simp [familyLocators]

/-- The mapping has a usable locator of the family. -/
def UsableIn (afi : Af) (m : Mapping) : Prop :=
  ∃ x ∈ m.locators, lispAddrIpAfi x.addr = some afi ∧ x.usable

theorem isSome_vectorOf_family : (vectorOf (familyLocators afi m)).isSome ↔ UsableIn afi m := by
  simp only [isSome_vectorOf_iff_usable, mem_familyLocators, UsableIn, and_assoc]

/-- The vectors of such a mapping are filled without a fault. The one of a family is over its best
locators, and absent when it has no usable one; the combined one is over the best locators of both
families, and absent when one of the others is. -/
theorem vectors_calculated (h : FewLocators m) (rlocs : List LispAddr) :
    ∃ v, balancingVectorsCalculate rlocs m = .ok v ∧
      (∀ afi, (v.ofAfi afi = none ↔ ¬ UsableIn afi m) ∧
        ∀ vec, v.ofAfi afi = some vec → vec = spread (bestLocators (familyLocators afi m))) ∧
      (v.balancingLocatorsVec = none ↔ ∃ afi, v.ofAfi afi = none) ∧
      ∀ vec, v.balancingLocatorsVec = some vec →
        vec = spread (bestLocators (familyLocators .INET m ++ familyLocators .INET6 m)) := by
  have hvec : ∀ {l vec}, vectorOf l = some vec → vec = spread (bestLocators l) := by
    intro l vec hvec
    unfold vectorOf at hvec
    split_ifs at hvec
    exact (Option.some.inj hvec).symm
  refine ⟨_, h.vectors rlocs, fun afi => ⟨?_, fun vec => ?_⟩, ?_, fun vec => ?_⟩
  · rw [vectorsOf_ofAfi, ← isSome_vectorOf_family, Option.not_isSome_iff_eq_none]
  · rw [vectorsOf_ofAfi]
    exact hvec
  · simp only [vectorsOf_ofAfi]
    rw [vectorsOf]
    split_ifs with hboth
    · have hsome := isSome_vectorOf_append (familyLocators .INET6 m) hboth.1
      refine iff_of_false (by simp [Option.isSome_iff_ne_none.mp hsome]) ?_
      rintro ⟨_ | _, hnone⟩ <;> simp [hnone] at hboth
    · refine iff_of_true rfl
        (not_and_or.mp hboth |>.elim (fun h => ⟨.INET, ?_⟩) fun h => ⟨.INET6, ?_⟩)
      · exact Option.not_isSome_iff_eq_none.mp h
      · exact Option.not_isSome_iff_eq_none.mp h
  · simp only [vectorsOf]
    split_ifs
    · exact hvec
    · simp

/-- Two IPv4 locators with the weights 2 and 4, an IPv6 locator, and one that is down. -/
def labBalanced : Mapping :=
  { mappingNewInit (.ippref (.v4 0x0a000000#32) 8) with
    locatorsLists := [[⟨0, .ip (.v4 1), .UP, 1, 2, 255, 0⟩, ⟨1, .ip (.v4 2), .UP, 1, 4, 255, 0⟩,
      ⟨2, .ip (.v4 3), .DOWN, 0, 1, 255, 0⟩], [⟨3, .ip (.v6 1), .UP, 1, 2, 255, 0⟩]]
    locatorCount := 4 }

theorem vectors_calculated_four : ∃ v, balancingVectorsCalculate [] labBalanced = .ok v ∧
    v.balancingLocatorsVec = some [1, 1, 0, 3] ∧ [1, 1, 0, 3] = spread (bestLocators
      (familyLocators .INET labBalanced ++ familyLocators .INET6 labBalanced)) := by
  have hrun : ∃ v, balancingVectorsCalculate [] labBalanced = .ok v ∧
      v.balancingLocatorsVec = some [1, 1, 0, 3] := by decide +kernel
  obtain ⟨v, hv, hvec⟩ := hrun
  obtain ⟨v', hv', -, -, hboth⟩ := vectors_calculated (m := labBalanced) (by decide) []
  rw [hv] at hv'
  cases hv'
  exact ⟨v, hv, hvec, hboth _ hvec⟩

/-- All locators that are selected are taken into account, and none is written past an array. -/
def ArraysInBounds (rlocs : List LispAddr) (m : Mapping) : Prop :=
  ∀ l4 l6, fbLocatorsClassifyIn46 m rlocs = .ok (l4, l6) →
    balancingVectorsCalculate rlocs m = .ok (vectorsOf l4 l6)

theorem arrays_in_bounds_iff (rlocs : List LispAddr) (m : Mapping) : ArraysInBounds rlocs m ↔
    ∀ l4 l6, fbLocatorsClassifyIn46 m rlocs = .ok (l4, l6) → FitsArrays l4 l6 := by
  refine forall_congr' fun l4 => forall_congr' fun l6 => imp_congr_right fun hclass => ?_
  obtain ⟨hfits, hv⟩ | ⟨hnot, hv⟩ := balancingVectorsCalculate_cases hclass
  · simp [hfits, hv]
  · simp [hnot, hv]

/-- A record with 33 locators of one priority. -/
def labManyRecord : RawRecord :=
  .wellFormed ⟨10, 0, 0, .ip (.v4 0x0a000000#32), 8,
    (List.range 33).map fun i =>
      ⟨.ip (.v4 (BitVec.ofNat 32 i)), true, false, false, 1, 100, 255, 0⟩⟩

theorem arrays_overflow : ∃ p, lispMsgParseMappingRecord 0 .null labManyRecord = .ok p ∧
    p.ret = .GOOD ∧ ¬ ArraysInBounds [] p.m := by
  have hrun : ∃ p, lispMsgParseMappingRecord 0 .null labManyRecord = .ok p ∧ p.ret = .GOOD ∧
      balancingVectorsCalculate [] p.m = .error .outOfRange ∧
        ∃ l4 l6, fbLocatorsClassifyIn46 p.m [] = .ok (l4, l6) ∧ l4.length = 33 := by
    decide +kernel
  obtain ⟨p, hp, hret, hv, l4, l6, hclass, -⟩ := hrun
  refine ⟨p, hp, hret, fun h => ?_⟩
  rw [h l4 l6 hclass] at hv
  cases hv

/-! ## The RLOCs of a packet -/

/-- The vector of the source: over both families when both mappings have locators of both, else the
one of a family both have. -/
theorem srcLocVec_vectorsOf (s4 s6 d4 d6 : List Locator) :
    srcLocVec (vectorsOf s4 s6) (vectorsOf d4 d6) =
      if ((vectorOf s4).isSome ∧ (vectorOf d4).isSome) ∧ (vectorOf s6).isSome ∧
        (vectorOf d6).isSome then
        vectorOf (s4 ++ s6)
      else if (vectorOf s6).isSome ∧ (vectorOf d6).isSome then vectorOf s6
      else if (vectorOf s4).isSome ∧ (vectorOf d4).isSome then vectorOf s4 else none := by
  have hs := @isSome_vectorOf_append s4 s6
  have hd := @isSome_vectorOf_append d4 d6
  unfold srcLocVec vectorsOf
  cases h1 : vectorOf s4 <;> cases h2 : vectorOf s6 <;> cases h3 : vectorOf d4 <;>
    cases h₄ : vectorOf d6 <;> cases h5 : vectorOf (s4 ++ s6) <;> cases h₆ : vectorOf (d4 ++ d6) <;>
    simp_all

/-- A vector of a mapping at the position of the hash. -/
theorem pickedAddr_vectorOf (rlocs : List LispAddr) {vec : List Nat} {f : Nat → Option Locator}
    (hvec : vectorOf l = some vec) (hf : ∀ x ∈ l, f x.ptr = some x ∧ lispAddrLafi x.addr = .IP)
    (hash : UInt32) : ∃ x ∈ l, vec[hash.toNat % vec.length]? = some x.ptr ∧
      pickedAddr rlocs f hash (some vec) = .ok (some x.addr) := by
  have hne : vec ≠ [] := by
    unfold vectorOf at hvec
    split_ifs at hvec with hnil
    cases hvec
    exact spread_ne_nil hnil
  have hlt := Nat.mod_lt hash.toNat (length_pos_iff.mpr hne)
  obtain ⟨x, hx, hptr⟩ := mem_vectorOf hvec _ (getElem_mem hlt)
  have hpos : vec[hash.toNat % vec.length]? = some x.ptr := by rw [getElem?_eq_getElem hlt, hptr]
  have hx := (mem_filter.mp hx).1
  obtain ⟨hfx, hip⟩ := hf x hx
  obtain ⟨a, ha⟩ := lispAddrLafi_eq_ip_iff.mp hip
  exact ⟨x, hx, hpos, by simp [pickedAddr, hpos, hfx, ha, fbLispAddrGetFwdIpAddr]⟩

/-- The vector of the source, when some family is usable in both mappings. -/
theorem srcLocVec_usable (src dst : Mapping) :
    let vec := srcLocVec (vectorsOf (familyLocators .INET src) (familyLocators .INET6 src))
      (vectorsOf (familyLocators .INET dst) (familyLocators .INET6 dst))
    (vec = none ∧ ¬ ∃ afi, UsableIn afi src ∧ UsableIn afi dst) ∨
      (∃ afi, UsableIn afi src ∧ UsableIn afi dst) ∧ ∃ l, vec = vectorOf l ∧ (vectorOf l).isSome ∧
        ∀ x ∈ l, x ∈ src.locators ∧ ∃ afi, lispAddrIpAfi x.addr = some afi ∧ UsableIn afi dst := by
  have hmem : ∀ {afi}, UsableIn afi dst → ∀ x ∈ familyLocators afi src,
      x ∈ src.locators ∧ ∃ afi, lispAddrIpAfi x.addr = some afi ∧ UsableIn afi dst := fun h x hx =>
    ⟨(mem_familyLocators.mp hx).1, _, (mem_familyLocators.mp hx).2, h⟩
  rw [srcLocVec_vectorsOf]
  split_ifs with hboth h6 h4 <;> simp only [isSome_vectorOf_family] at *
  · refine .inr ⟨⟨.INET, hboth.1⟩, _, rfl, ?_, fun x hx => ?_⟩
    · exact isSome_vectorOf_append _ (isSome_vectorOf_family.mpr hboth.1.1)
    · exact (mem_append.mp hx).elim (hmem hboth.1.2 x) (hmem hboth.2.2 x)
  · exact .inr ⟨⟨.INET6, h6⟩, _, rfl, isSome_vectorOf_family.mpr h6.1, hmem h6.2⟩
  · exact .inr ⟨⟨.INET, h4⟩, _, rfl, isSome_vectorOf_family.mpr h4.1, hmem h4.2⟩
  · refine .inl ⟨trivial, ?_⟩
    rintro ⟨_ | _, h⟩
    · exact h4 h
    · exact h6 h

/-- `fb_get_fw_entry` on the vectors of two mappings finds RLOCs exactly when some family is usable
in both, at the position of the hash in the vector of the source and in the one of the destination
for the same family. -/
theorem fw_entry_iff (hash : PacketTuple → UInt32) (tuple : PacketTuple) {locs : LocatorsAt}
    {vs vd : BalancingLocatorsVecs} (hsrc : FewLocators src) (hdst : FewLocators dst)
    (hloc : ∀ x ∈ src.locators, locs.loc x.ptr = some x)
    (hrmt : ∀ x ∈ dst.locators, locs.rmt x.ptr = some x)
    (hvs : balancingVectorsCalculate rlocs src = .ok vs)
    (hvd : balancingVectorsCalculate rlocs dst = .ok vd) :
    ∃ o, fbGetFwEntry hash rlocs locs (some vs) (some vd) tuple = .ok o ∧
      (o ≠ none ↔ ∃ afi, UsableIn afi src ∧ UsableIn afi dst) ∧
      ∀ e, o = some e → ∃ x ∈ src.locators, ∃ y ∈ dst.locators, ∃ afi vec dvec,
        srcLocVec vs vd = some vec ∧ vec[(hash tuple).toNat % vec.length]? = some x.ptr ∧
        lispAddrIpAfi x.addr = some afi ∧ vd.ofAfi afi = some dvec ∧
        dvec[(hash tuple).toNat % dvec.length]? = some y.ptr ∧ e = ⟨x.addr, y.addr⟩ := by
  rw [hsrc.vectors] at hvs
  rw [hdst.vectors] at hvd
  cases hvs
  cases hvd
  have hip : ∀ {m : Mapping} {x : Locator}, FewLocators m → x ∈ m.locators → ∀ {afi},
      lispAddrIpAfi x.addr = some afi → lispAddrLafi x.addr = .IP := by
    intro m x h hx afi hafi
    refine (h.plain x hx).resolve_left fun haddr => ?_
    rw [haddr] at hafi
    cases hafi
  rcases srcLocVec_usable src dst with ⟨hnone, hnot⟩ | ⟨huse, l, hvec, hsome, hl⟩
  · exact ⟨none, by simp [fbGetFwEntry, hnone, pure, Except.pure], by simpa using hnot, nofun⟩
  · obtain ⟨vec, hv⟩ := Option.isSome_iff_exists.mp hsome
    obtain ⟨x, hx, hpos, hpick⟩ := pickedAddr_vectorOf rlocs hv (fun x hx => by
      obtain ⟨hx, afi, hafi, -⟩ := hl x hx
      exact ⟨hloc x hx, hip hsrc hx hafi⟩) (hash tuple)
    obtain ⟨hxs, afi, hafi, hdst'⟩ := hl x hx
    obtain ⟨dvec, hdv⟩ := Option.isSome_iff_exists.mp (isSome_vectorOf_family.mpr hdst')
    obtain ⟨y, hy, hdpos, hdpick⟩ := pickedAddr_vectorOf rlocs hdv (fun y hy => by
      obtain ⟨hy, hafi⟩ := mem_familyLocators.mp hy
      exact ⟨hrmt y hy, hip hdst hy hafi⟩) (hash tuple)
    refine ⟨some ⟨x.addr, y.addr⟩, ?_, by simpa using huse, ?_⟩
    · rw [← vectorsOf_ofAfi] at hdv
      cases afi <;>
        simp_all [fbGetFwEntry, BalancingLocatorsVecs.ofAfi, bind, Except.bind, pure, Except.pure]
    · rintro e ⟨⟩
      exact ⟨x, hxs, y, (mem_familyLocators.mp hy).1, afi, vec, dvec, hvec.trans hv, hpos, hafi,
        (vectorsOf_ofAfi dst afi).trans hdv, hdpos, rfl⟩

/-- The locators of `labBalanced`, for a source and a destination. -/
def labLocatorsAt : LocatorsAt :=
  ⟨fun p => labBalanced.locators.find? (·.ptr = p), fun p => labBalanced.locators.find? (·.ptr = p)⟩

theorem fw_entry_five : ∃ v o, balancingVectorsCalculate [] labBalanced = .ok v ∧
    fbGetFwEntry (fun _ => 5) [] labLocatorsAt (some v) (some v) ⟨.v4 1, .v4 2, 1, 1, 6⟩ = .ok o ∧
      (o ≠ none ↔ ∃ afi, UsableIn afi labBalanced ∧ UsableIn afi labBalanced) ∧
      o = some ⟨.ip (.v4 2), .ip (.v4 1)⟩ := by
  have hrun : ∃ v, balancingVectorsCalculate [] labBalanced = .ok v ∧ ∃ o,
      fbGetFwEntry (fun _ => 5) [] labLocatorsAt (some v) (some v) ⟨.v4 1, .v4 2, 1, 1, 6⟩ = .ok o ∧
        o = some ⟨.ip (.v4 2), .ip (.v4 1)⟩ := by decide +kernel
  obtain ⟨v, hv, o, ho, heq⟩ := hrun
  have hfew : FewLocators labBalanced := by decide
  obtain ⟨o', ho', huse, -⟩ := fw_entry_iff (fun _ => 5) ⟨.v4 1, .v4 2, 1, 1, 6⟩ hfew hfew
    (show ∀ x ∈ labBalanced.locators, labLocatorsAt.loc x.ptr = some x by decide)
    (show ∀ x ∈ labBalanced.locators, labLocatorsAt.rmt x.ptr = some x by decide) hv hv
  rw [ho] at ho'
  cases ho'
  exact ⟨v, o, hv, ho, huse, heq⟩

end Lispmob
