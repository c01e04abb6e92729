import NpsSdk.GoTime
import NpsSdk.NdpFrames
import NpsSdk.NipIdentity

/-! What is done with an announcement: the in-memory registry stores it until it expires and resolves
addresses from it, and its signature is on a text without null members. The store is a Go map; a loop over it
meets the entries in an order of its own, which is a parameter. The lock is held for the whole of each call. -/

open NpsSdk.Core

namespace NpsSdk.Ndp

/-! ### Registry -/

structure ResolveResult where
  host : GoString
  port : UInt64
  protocol : GoString
  certFingerprint : GoString
  deriving DecidableEq

structure RegistryEntry (T : Type) where
  frame : AnnounceFrame T
  expires : Time

structure InMemoryNdpRegistry (T : Type) where
  store : GoString → Option (RegistryEntry T)

def newInMemoryNdpRegistry (T : Type) : InMemoryNdpRegistry T := ⟨fun _ => none⟩

def cutStart (start s : GoString) : Option GoString :=
  if start.isPrefixOf s then some (s.drop start.length) else none

def nwpTargetMatchesNID (nid target : GoString) : Bool :=
  match nid.splitOn (.char ':') with
  | urn :: nps :: node :: nidHost :: part :: parts =>
    if urn = "urn" ∧ nps = "nps" ∧ node = "node" then
      let nidPath := GoString.join "/" (part :: parts)
      match cutStart "nwp://" target with
      | none => false
      | some rest =>
        if .char '/' ∉ rest then false
        else
          let authority := rest.takeWhile (· ≠ .char '/')
          let path := (rest.dropWhile (· ≠ .char '/')).tail
          if authority ≠ nidHost then false
          else path = nidPath || (nidPath ++ ("/" : GoString)).isPrefixOf path
    else false
  | _ => false

/-- `time.Duration(ttl) * time.Second`, an `int64`. -/
def lifetime (ttl : UInt64) : Int := (ttl.toInt64.toInt * GoTime.second).bmod (2 ^ 64)

theorem lifetime_of_lt {ttl : UInt64} (h : ttl.toNat * 10 ^ 9 < 2 ^ 63) : lifetime ttl = ttl.toNat * GoTime.second := by
  have hsigned : ttl.toInt64.toInt = (ttl.toNat : Int).bmod (2 ^ 64) := BitVec.toInt_eq_toNat_bmod _
  rw [lifetime, hsigned, Int.bmod_mul_bmod]
  rw [GoTime.second]
  exact Int.bmod_eq_of_le (by omega) (by omega)

section

variable {T : Type} (P : Platform T)

namespace InMemoryNdpRegistry

variable (r : InMemoryNdpRegistry T)

/-- A lifetime of zero takes the entry away. -/
def announce (now : Time) (frame : AnnounceFrame T) : InMemoryNdpRegistry T :=
  if frame.ttl = 0 then ⟨Function.update r.store frame.nid none⟩
  else ⟨Function.update r.store frame.nid (some ⟨frame, now + lifetime frame.ttl⟩)⟩

def live (now : Time) (nid : GoString) : Option (RegistryEntry T) :=
  (r.store nid).filter fun e => now < e.expires

def getByNID (now : Time) (nid : GoString) : Option (AnnounceFrame T) := (r.live now nid).map (·.frame)

end InMemoryNdpRegistry

/-- What the first address of a frame says. A nil map has no entries. -/
def AnnounceFrame.resolution (f : AnnounceFrame T) : Option ResolveResult :=
  match f.addresses with
  | some (addr :: _) =>
    let addr := addr.getD ∅
    some
      { host := GoDict.str addr "host"
        port := toUint64 P (GoDict.get addr "port")
        protocol := GoDict.str addr "protocol"
        certFingerprint := [] }
  | _ => none

namespace InMemoryNdpRegistry

variable (r : InMemoryNdpRegistry T)

/-- The first entry that matches, in the order of the loop over the map. -/
def resolve (order : List GoString) (now : Time) (target : GoString) : Option ResolveResult :=
  order.findSome? fun nid =>
    (r.live now nid).bind fun e =>
      if nwpTargetMatchesNID e.frame.nid target then e.frame.resolution P else none

end InMemoryNdpRegistry

end

/-! ### The text that is signed -/

section

variable {T : Type} (P : Platform T)

def documentText (d : FrameDict T) : Option Bytes :=
  (toJson P (.ofMap d)).map fun v => GoString.bytes (GoString.ofChars (JsonValue.marshal jsonNumber v))

def isNil : GoAny T → Bool
  | .nil => true
  | _ => false

mutual

/-- Maps lose their nil members at every depth; lists keep theirs. -/
def withoutNulls : GoAny T → GoAny T
  | .map fields => .ofMap ((GoMap.ofList (withoutNullsFields fields)).filter fun _ v => !isNil v)
  | .slice items => .slice (withoutNullsItems items)
  -- nil maps and slices are copied into empty ones
  | .nilOf .map => .map []
  | .nilOf .slice => .slice []
  | v => v

def withoutNullsItems : List (GoAny T) → List (GoAny T)
  | [] => []
  | v :: items => withoutNulls v :: withoutNullsItems items

def withoutNullsFields : List (String × GoAny T) → List (String × GoAny T)
  | [] => []
  | (key, v) :: fields => (key, withoutNulls v) :: withoutNullsFields fields

end

theorem withoutNullsFields_eq_map (fields : List (String × GoAny T)) :
    withoutNullsFields fields = fields.map fun field => (field.1, withoutNulls field.2) :=
  eq_map_of_cons rfl (fun _ _ => rfl) fields

/-- The entries of a map that are not nil, each without its own. -/
def strippedDict (m : GoDict T) : GoDict T :=
  (m.map fun _ v => withoutNulls v).filter fun _ v => !isNil v

theorem withoutNulls_map (fields : List (String × GoAny T)) :
    withoutNulls (.map fields) = .ofMap (strippedDict (GoMap.ofList fields)) := by
  rw [withoutNulls, withoutNullsFields_eq_map, GoMap.ofList_map, strippedDict]

theorem withoutNulls_ofMap (m : GoDict T) : withoutNulls (.ofMap m) = .ofMap (strippedDict m) := by
  rw [GoAny.ofMap, withoutNulls_map, GoMap.ofList_toList]

theorem getElem?_strippedDict (m : GoDict T) (key : String) :
    (strippedDict m)[key]? = (m[key]?.map withoutNulls).filter fun v => !isNil v := by
  rw [strippedDict, GoMap.getElem?_filter, Std.ExtTreeMap.getElem?_map]

/-- Members that are not signed. -/
def unsignedMembers : List String := ["frame", "signature", "health", "last_seen"]

def canonicalAnnounceRoot (frame : FrameDict T) : FrameDict T :=
  let root := (frame.filter fun key v => !unsignedMembers.contains key && !isNil v).map
    fun _ v => withoutNulls v
  match root["heartbeat_interval_ms"]? with
  | some _ => root
  | none => root.insert "heartbeat_interval_ms" (goInt 60000)

def canonicalAnnounceJSON (frame : FrameDict T) : Option Bytes :=
  documentText P (canonicalAnnounceRoot frame)

def errAnnounceSignatureInvalid : GoString := "NDP-ANNOUNCE-SIGNATURE-INVALID"

end

end NpsSdk.Ndp
