import NpsSdk.CoreCarriage
import NpsSdk.NdpRegistry

/-! The registry of protocol version 0.12: which announcements it admits, and what it answers from the ones
it holds. An announcement is a map; its signature was checked before. The entries and the highest sequence
numbers are Go maps; a loop over the entries meets them in an order of its own, which is a parameter. -/

open NpsSdk.Core

namespace NpsSdk.Ndp

open GoDict GoString

inductive NdpRegistryDecision where
  | accepted | duplicate | refreshed | removed | rejected
  deriving DecidableEq

structure NdpRegistryAdmission where
  decision : NdpRegistryDecision
  errorCode : GoString := []
  deriving DecidableEq

structure NdpClusterSelection where
  nid : GoString := []
  epoch : UInt64 := 0
  errorCode : GoString := []
  deriving DecidableEq

/-- An announcement the registry holds, with the digest of what was signed. -/
structure ProfileEntry (T : Type) where
  frame : GoDict T
  signedDigest : GoString
  expiresAt : Time

structure NdpRegistryProfile (T : Type) where
  securityProfile : GoString
  entries : GoString → Option (ProfileEntry T)
  sequences : GoString → Option UInt64

def localDev : GoString := "local-dev"

def newNdpRegistryProfile (T : Type) (securityProfile : GoString) : NdpRegistryProfile T :=
  { securityProfile := if securityProfile = [] then localDev else securityProfile
    entries := fun _ => none
    sequences := fun _ => none }

def errAnnounceProfileViolation : GoString := "NDP-ANNOUNCE-PROFILE-VIOLATION"
def errAnnounceConflict : GoString := "NDP-ANNOUNCE-CONFLICT"
def errAnnounceStale : GoString := "NDP-ANNOUNCE-STALE"
def errGraphSeqRollback : GoString := "NDP-GRAPH-SEQ-ROLLBACK"
def errClusterSplit : GoString := "NDP-CLUSTER-SPLIT"

section

variable {T : Type} (P : Platform T)

/-! ### Members of an announcement -/

/-- A number that is not negative and has no fraction. -/
def uintValue : GoAny T → Option UInt64
  | .int .uint64 n => some (UInt64.ofInt n.1)
  | .int .int n => if 0 ≤ n.1 then some (UInt64.ofInt n.1) else none
  | .int .int64 n => if 0 ≤ n.1 then some (UInt64.ofInt n.1) else none
  | .float64 x =>
    -- a number too large for the type is taken for some other one
    if (!x.isNegative || x.isZero) && x.isWhole then some (P.uint64OfFloat x) else none
  | .number text => (parseInt text).bind fun n => if 0 ≤ n.toInt then some (UInt64.ofInt n.toInt) else none
  | _ => none

variable (frame : GoDict T)

def stringsField (field : String) : List GoString :=
  (get frame field).stringSlice.getD []

def timeValue (field : String) : Option Time :=
  let value := str frame field
  if value = [] then none else GoTime.parse GoTime.rfc3339 value

def protocolTexts : GoAny T → Option (List GoString)
  | .slice items => items.mapM fun v => v.asString.filter fun text => trimSpace text ≠ []
  | .nilOf .slice => some []
  | .strings items => if items.all fun text => trimSpace text ≠ [] then some items else none
  | .nilOf .strings => some []
  | _ => none

/-- Whether a list of protocols is there, and what it holds; none if it is not valid. -/
def protocolList (field : String) : Option (Bool × List GoString) :=
  match frame[field]? with
  | none => some (false, [])
  | some value => (protocolTexts value).map (true, ·)

def isBridge : Bool :=
  (stringsField frame "node_roles").contains "bridge" || str frame "node_type" = "bridge"

/-- A bridge names a protocol; other nodes have no list of them. -/
def bridgeShapeIsValid : Bool :=
  match protocolList frame "bridge_protocols", protocolList frame "bridge_inbound_protocols" with
  | some (outboundPresent, outbound), some (inboundPresent, inbound) =>
    if isBridge frame then 0 < outbound.length + inbound.length else !outboundPresent && !inboundPresent
  | _, _ => false

def sameLiveness (left right : GoDict T) : Bool :=
  str left "health" = str right "health" &&
    str left "last_seen" = str right "last_seen"

/-- The lifetime counts from when the node was last seen, or else from the announcement. -/
def freshnessDeadline : Option Time :=
  match (timeValue frame "last_seen").or (timeValue frame "timestamp") with
  | none => none
  | some source => some (source + lifetime ((uintValue P (get frame "ttl")).getD 0))

def cloneMap : GoDict T := ((withoutNulls (.ofMap frame)).asMap).getD ∅

/-! ### Admission -/

/-- What is kept of an announcement that passed the checks. -/
structure Announced where
  nid : GoString
  sequence : UInt64
  ttl : UInt64
  digest : GoString

def hexString (bs : Bytes) : GoString :=
  ofChars (bs.flatMap fun b => [Nat.digitChar (b.toNat / 16), Nat.digitChar (b.toNat % 16)])

variable (sha256 : Bytes → Bytes)

def checkAnnounce (securityProfile : GoString) (frame : GoDict T) (signatureValid : Bool) (receivedAt : Time) :
    Except GoString Announced :=
  if !signatureValid then .error errAnnounceSignatureInvalid
  else
    let nid := str frame "nid"
    match timeValue frame "timestamp" with
    | none => .error errAnnounceProfileViolation
    | some timestamp =>
      let sequencePresent := frame["graph_seq"]?.isSome
      let sequence := uintValue P (get frame "graph_seq")
      if nid = [] then .error errAnnounceProfileViolation
      else if (sequencePresent ∧ sequence = none) ∨ (¬ sequencePresent ∧ securityProfile ≠ localDev) then
        .error errAnnounceProfileViolation
      else
        match uintValue P (get frame "ttl") with
        | none => .error errAnnounceProfileViolation
        | some ttl =>
          if 2 ^ 32 - 1 < ttl.toNat then .error errAnnounceProfileViolation
          else if !bridgeShapeIsValid frame then .error errAnnounceProfileViolation
          else if securityProfile ≠ localDev ∧
              5 * GoTime.minute < GoTime.abs (GoTime.sub receivedAt timestamp) then
            .error errAnnounceSignatureInvalid
          else
            match canonicalAnnounceJSON P frame with
            | none => .error errAnnounceProfileViolation
            | some canonical =>
              .ok { nid := nid, sequence := sequence.getD 0, ttl := ttl,
                    digest := hexString (sha256 canonical) }

end

def rejectAdmission (errorCode : GoString) : NdpRegistryAdmission :=
  { decision := .rejected, errorCode := errorCode }

def topEpoch (members : List (GoString × UInt64)) : UInt64 :=
  members.foldl (fun top candidate => if top < candidate.2 then candidate.2 else top) 0

def onlyText : List GoString → Option GoString
  | [text] => some text
  | _ => none

/-- The member with the highest epoch leads; if two have it, none does. -/
def selectLeader (members : List (GoString × UInt64)) : NdpClusterSelection :=
  if members = [] then {}
  else
    let top := topEpoch members
    match onlyText (sort ((members.filter fun candidate => candidate.2 = top).map (·.1))) with
    | some leader => { nid := leader, epoch := top }
    | none => { errorCode := errClusterSplit }

namespace NdpRegistryProfile

variable {T : Type} (P : Platform T) (sha256 : Bytes → Bytes) (r : NdpRegistryProfile T)

/-- The registry with the sequence number of an announcement, and an entry for its NID or none. -/
def put (a : Announced) (entry : Option (ProfileEntry T)) : NdpRegistryProfile T :=
  { r with
    entries := Function.update r.entries a.nid entry
    sequences := Function.update r.sequences a.nid (some a.sequence) }

variable (frame : GoDict T)

/-- An announcement that has run out already is stale. -/
def store (a : Announced) (receivedAt : Time) (decision : NdpRegistryDecision) :
    NdpRegistryProfile T × NdpRegistryAdmission :=
  match freshnessDeadline P frame with
  | none => (r, rejectAdmission errAnnounceStale)
  | some expiresAt =>
    if receivedAt < expiresAt then
      (r.put a (some ⟨cloneMap frame, a.digest, expiresAt⟩), { decision := decision })
    else (r, rejectAdmission errAnnounceStale)

/-- An announcement that is newer than all the registry knows of its NID. -/
def admitNewer (a : Announced) (receivedAt : Time) : NdpRegistryProfile T × NdpRegistryAdmission :=
  if a.ttl = 0 then (r.put a none, { decision := .removed })
  else r.store P frame a receivedAt .accepted

/-- An announcement with the highest sequence number the registry knows. -/
def admitSame (a : Announced) (receivedAt : Time) : NdpRegistryProfile T × NdpRegistryAdmission :=
  match r.entries a.nid with
  | none => (r, { decision := .duplicate })
  | some current =>
    if current.signedDigest ≠ a.digest then (r, rejectAdmission errAnnounceConflict)
    else if sameLiveness current.frame frame then (r, { decision := .duplicate })
    -- the sequence number is the one the registry has
    else r.store P frame a receivedAt .refreshed

def applyAnnounce (signatureValid : Bool) (receivedAt : Time) : NdpRegistryProfile T × NdpRegistryAdmission :=
  match checkAnnounce P sha256 r.securityProfile frame signatureValid receivedAt with
  | .error errorCode => (r, rejectAdmission errorCode)
  | .ok a =>
    match r.sequences a.nid with
    | none => r.admitNewer P frame a receivedAt
    | some highest =>
      if a.sequence < highest then (r, rejectAdmission errGraphSeqRollback)
      else if a.sequence = highest then r.admitSame P frame a receivedAt
      else r.admitNewer P frame a receivedAt

/-! ### Answers -/

def live (now : Time) (nid : GoString) : Option (ProfileEntry T) :=
  (r.entries nid).filter fun e => now < e.expiresAt

variable (order : List GoString)

/-- An order in which a loop can meet the entries. -/
def Lists : Prop := order.Nodup ∧ ∀ nid, nid ∈ order ↔ r.entries nid ≠ none

def liveNIDs (now : Time) : List GoString :=
  sort (order.filter fun nid => (r.live now nid).isSome)

def clusterMembers (clusterAnchor : GoString) (now : Time) : List (GoString × UInt64) :=
  order.filterMap fun nid =>
    (r.live now nid).bind fun e =>
      if str e.frame "cluster_anchor" = clusterAnchor ∧
          (stringsField e.frame "node_roles").contains "anchor" then
        some (nid, (uintValue P (get e.frame "cluster_epoch")).getD 1)
      else none

def resolveCluster (clusterAnchor : GoString) (now : Time) : NdpClusterSelection :=
  selectLeader (r.clusterMembers P order clusterAnchor now)

def discoverBridges (direction protocol : GoString) (now : Time) : Except GoString (List GoString) :=
  let discover (field : String) :=
    sort (order.filter fun nid =>
      (r.live now nid).any fun e =>
        str e.frame "health" ≠ "draining" && isBridge e.frame &&
          (stringsField e.frame field).contains protocol)
  if direction = "inbound" then .ok (discover "bridge_inbound_protocols")
  else if direction = "outbound" then .ok (discover "bridge_protocols")
  else .error "bridge direction must be inbound or outbound"

end NdpRegistryProfile

end NpsSdk.Ndp
