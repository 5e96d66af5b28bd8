import Lispmob.FlowBalancing
import Lispmob.MapServer
import Lispmob.XtrRecv

/-!
# Map-Requests at the Map-Server

`ms_recv_map_request`: every requested EID is looked up among the site prefixes and among the
registered sites, and answered by a negative Map-Reply, by a Map-Reply for the registered mapping,
or by passing the request on to a locator of the site. The lookups are longest matches, so the
length of the requested prefix plays no part.

The variable for the reply is not reset between EIDs. The branch that passes the request on
releases it, also when it still refers to the reply for an earlier EID.
-/

namespace Lispmob

/-- What the server sends for a requested EID. -/
inductive MsSent where
  | negative (eid : LispAddr) (ttl : Nat)
  /-- The request itself, to the address of a locator. -/
  | forwarded (dst : LispAddr)
  | reply (records : List ReplyRecord) (dst : LispAddr)

/-- The inner loop of `get_locator_with_afi`. -/
def locatorWithAfi (afi : Af) : List Locator → Except Fault (Option LispAddr)
  | [] => .ok none
  | loct :: rest =>
    if loct.state = .DOWN then locatorWithAfi afi rest
    else
      match lispAddrGetIpAddr loct.addr with
      | none => .error .missingAddress
      | some addr =>
        if lispAddrIpAfi addr = some afi then .ok (some addr) else locatorWithAfi afi rest

/-- `get_locator_with_afi`, as the IP address of the locator. Lists of the other family and locators
without an address are skipped. -/
def getLocatorWithAfi (afi : Af) : List (List Locator) → Except Fault (Option LispAddr)
  | [] => .ok none
  | loctList :: rest => do
    let skip := loctList.head?.all fun l => lispAddrLafi l.addr = .NO_ADDR ∨
      (lispAddrLafi l.addr = .IP ∧ lispAddrIpAfi l.addr ≠ some afi)
    if skip then getLocatorWithAfi afi rest
    else
      match ← locatorWithAfi afi loctList with
      | some addr => return some addr
      | none => getLocatorWithAfi afi rest

/-- `forward_mreq`: IPv4 first. Nothing is sent when no locator can be used. -/
def forwardMreq (env : CtrlEnv) (m : Mapping) : Except Fault (List MsSent) := do
  let v4 ← (if env.ipv4Support then getLocatorWithAfi .INET m.locatorsLists else .ok none)
  match v4 with
  | some addr => return [.forwarded addr]
  | none =>
    let v6 ← (if env.ipv6Support then getLocatorWithAfi .INET6 m.locatorsLists else .ok none)
    return (v6.map .forwarded).toList

/-- The reply for a registered mapping, to the first ITR-RLOC of the family of the local address or
back to the sender. The authoritative bit is cleared in a record that may not have been written. -/
def proxyReply (m : Mapping) (itrRlocs : List LispAddr) (la ra : LispAddr) :
    Except Fault (List MsSent) := do
  match ← lispMsgPutMapping m none with
  | [] => throw .nullDeref
  | records =>
    return [.reply records ((itrRlocs.find? fun r =>
      lispAddrIpAfi r = lispAddrIpAfi la ∧ (lispAddrIpAfi r).isSome).getD ra)]

/-- How a requested EID is answered, and whether the variable for the reply then refers to a message
that is released. `stale` says that it does already. -/
def answerRequest (env : CtrlEnv) (msg : MapRequestMsg) (la ra : LispAddr) (stale : Bool)
    (deid : LispAddr) : MsM (List MsSent × Bool) := do
  let s ← get
  let site ← Prog.lift (mdbLookupEntry s.lispSitesDb deid)
  let rsite ← Prog.lift (mdbLookupEntry s.regSitesDb deid)
  match site, rsite with
  | none, none => return ([.negative deid 15], true)
  | some _, none => return ([.negative deid 1], true)
  | none, some rsite =>
    let rs ← derefRsite rsite
    let sent ← Prog.lift (proxyReply rs.siteMap msg.itrRlocs la ra)
    return (sent, true)
  | some sp, some rsite =>
    let rs ← derefRsite rsite
    let site ← derefSite sp
    if site.proxyReply then
      let sent ← Prog.lift (proxyReply rs.siteMap msg.itrRlocs la ra)
      return (sent, true)
    else
      let sent ← Prog.lift (forwardMreq env rs.siteMap)
      if stale then throw .badRelease else return (sent, false)

/-- The loop of `ms_recv_map_request` over the requested EIDs. -/
def answerRequests (env : CtrlEnv) (msg : MapRequestMsg) (la ra : LispAddr) (stale : Bool) :
    List LispAddr → MsM (List MsSent)
  | [] => return []
  | deid :: rest => do
    let (sent, stale') ← answerRequest env msg la ra stale deid
    let more ← answerRequests env msg la ra stale' rest
    return sent ++ more

/-- `ms_recv_map_request`, with what it sends. Probes and SMRs are discarded. -/
def msRecvMapRequest (env : CtrlEnv) (msg : MapRequestMsg) (la ra : LispAddr) :
    MsM (Ret × List MsSent) := do
  if msg.rlocProbe || msg.smr then return (.BAD, [])
  else
    let sent ← answerRequests env msg la ra false msg.eids
    return (.GOOD, sent)

end Lispmob
