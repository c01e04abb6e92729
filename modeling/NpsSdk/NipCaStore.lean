import NpsSdk.GoTime
import NpsSdk.NipFrames

/-! Certificate records and the two stores of the CA: a list in memory, which revokes the latest
certificate of a name, and a table of a database, which revokes all of them. The database keeps
texts; a row is a record only as far as its texts can be read. -/

namespace NpsSdk.Nip

open GoString GoTime

structure NipCertRecord where
  nid : GoString
  entityType : GoString
  serial : GoString
  pubKey : GoString
  capabilities : Option (List GoString) := none
  scopeJson : GoString := []
  issuedBy : GoString := []
  issuedAt : Time
  expiresAt : Time
  revokedAt : Option Time := none
  revokeReason : Option GoString := none
  metadataJson : Option GoString := none
  nidRole : Option GoString := none
  parentNid : Option GoString := none
  lineageJson : Option GoString := none
  deriving DecidableEq

namespace NipCertRecord

def markRevoked (reason : GoString) (revokedAt : Time) (r : NipCertRecord) : NipCertRecord :=
  { r with revokedAt := some revokedAt, revokeReason := some reason }

def live (nid : GoString) (r : NipCertRecord) : Bool := r.nid = nid && r.revokedAt.isNone

end NipCertRecord

/-- The operations of a store whose contents are a `σ`. A query for several records may fail after some
of them. -/
structure NipCaStore (σ : Type) where
  save : σ → NipCertRecord → Except GoString σ
  getByNid : σ → GoString → Except GoString (Option NipCertRecord)
  getBySerial : σ → GoString → Except GoString (Option NipCertRecord)
  revoke : σ → GoString → GoString → Time → Except GoString (Bool × σ)
  nextSerial : σ → Except GoString (GoString × σ)
  list : σ → List NipCertRecord × Option GoString
  getRevoked : σ → List NipCertRecord × Option GoString
  getByParentNid : σ → GoString → List NipCertRecord × Option GoString

def NipCaStore.lookup {σ : Type} (store : NipCaStore σ) (s : σ) (nid : GoString) : Option NipCertRecord :=
  match store.getByNid s nid with
  | .ok record => record
  | .error _ => none

/-- `0x%X`. -/
def serialText (n : Nat) : GoString :=
  ofChars ('0' :: 'x' :: (Nat.toDigits 16 n).map Char.toUpper)

/-! ### In memory -/

structure InMemoryNipCaStore where
  records : List NipCertRecord := []
  serial : Nat := 0

/-- The list with the last element that passes the test changed. -/
def modifyLast {α : Type} (p : α → Bool) (f : α → α) : List α → Option (List α)
  | [] => none
  | x :: xs =>
    match modifyLast p f xs with
    | some ys => some (x :: ys)
    | none => if p x then some (f x :: xs) else none

namespace InMemoryNipCaStore

variable (s : InMemoryNipCaStore)

def save (record : NipCertRecord) : Except GoString InMemoryNipCaStore :=
  if s.records.any (·.serial = record.serial) then .error ("serial already exists: " ++ record.serial)
  else .ok { s with records := s.records ++ [record] }

def getByNid (nid : GoString) : Option NipCertRecord :=
  s.records.reverse.find? (·.nid = nid)

def getBySerial (serial : GoString) : Option NipCertRecord :=
  s.records.find? (·.serial = serial)

/-- Revokes the latest record of a name that is not revoked. -/
def revoke (nid reason : GoString) (revokedAt : Time) : Bool × InMemoryNipCaStore :=
  match modifyLast (·.live nid) (·.markRevoked reason revokedAt) s.records with
  | some records => (true, { s with records := records })
  | none => (false, s)

def nextSerial : GoString × InMemoryNipCaStore :=
  (serialText (s.serial + 1), { s with serial := s.serial + 1 })

def getRevoked : List NipCertRecord := s.records.filter (·.revokedAt.isSome)

def getByParentNid (parentNid : GoString) : List NipCertRecord :=
  s.records.filter (·.parentNid = some parentNid)

end InMemoryNipCaStore

def inMemoryStore : NipCaStore InMemoryNipCaStore where
  save := InMemoryNipCaStore.save
  getByNid s nid := .ok (s.getByNid nid)
  getBySerial s serial := .ok (s.getBySerial serial)
  revoke s nid reason revokedAt := .ok (s.revoke nid reason revokedAt)
  nextSerial s := .ok s.nextSerial
  list s := (s.records, none)
  getRevoked s := (s.getRevoked, none)
  getByParentNid s parentNid := (s.getByParentNid parentNid, none)

/-! ### In a database -/

/-- A row of `nip_certs`, its columns in order. -/
structure CertRow where
  nid : GoString
  entityType : GoString
  serial : GoString
  pubKey : GoString
  capJSON : GoString
  scopeJSON : GoString
  issuedBy : GoString
  issuedAt : GoString
  expiresAt : GoString
  revokedAt : Option GoString
  revokeReason : Option GoString
  metadataJSON : Option GoString
  nidRole : Option GoString
  parentNid : Option GoString
  lineageJSON : Option GoString

structure SqlNipCaStore where
  rows : List CertRow := []
  seq : Nat := 0

/-- The parts of a database that the statements leave open: the order of rows that agree in the column
they are ordered by, and the text of a violated constraint. -/
structure SqlEngine where
  orderDesc : (CertRow → GoString) → List CertRow → List CertRow
  perm : ∀ column rows, (orderDesc column rows).Perm rows
  sorted : ∀ column rows,
    (orderDesc column rows).Pairwise fun a b =>
      ¬ List.Lex (· < ·) (bytes (column a)) (bytes (column b))
  uniqueError : GoString → GoString

instance : Inhabited SqlEngine where
  default :=
    { orderDesc := fun column rows =>
        rows.insertionSort fun a b =>
          ¬ List.Lex (· < ·) (bytes (column a)) (bytes (column b))
      perm := fun _ rows => List.perm_insertionSort _ rows
      sorted := by
        intro column rows
        have : Std.Total fun a b : CertRow =>
            ¬ List.Lex (· < ·) (bytes (column a)) (bytes (column b)) :=
          ⟨fun a b => List.le_total (bytes (column b)) (bytes (column a))⟩
        have : IsTrans CertRow fun a b =>
            ¬ List.Lex (· < ·) (bytes (column a)) (bytes (column b)) :=
          ⟨fun a b c hab hbc => List.le_trans hbc hab⟩
        exact List.pairwise_insertionSort _ rows
      uniqueError := fun _ => "UNIQUE constraint failed: nip_certs.serial" }

namespace SqlNipCaStore

section

variable {N : Type} (pf : Platform N)

def capabilitiesText (capabilities : Option (List GoString)) : GoString :=
  match capabilities with
  | some caps => ofChars (JsonValue.marshal pf.fmt (strings caps))
  | none => ofChars (JsonValue.marshal pf.fmt .null)

def rowOf (record : NipCertRecord) : CertRow where
  nid := record.nid
  entityType := record.entityType
  serial := record.serial
  pubKey := record.pubKey
  capJSON := capabilitiesText pf record.capabilities
  scopeJSON := record.scopeJson
  issuedBy := record.issuedBy
  issuedAt := isoTime record.issuedAt
  expiresAt := isoTime record.expiresAt
  revokedAt := none
  revokeReason := none
  metadataJSON := record.metadataJson
  nidRole := record.nidRole
  parentNid := record.parentNid
  lineageJSON := record.lineageJson

def readCapabilities (text : GoString) : Except GoString (Option (List GoString)) :=
  if text = [] then .ok none
  else
    match (JsonValue.unmarshal pf.fmt text).bind JsonValue.decodeStrings with
    | some caps => .ok caps
    | none => .error (pf.jsonError text)

def readTime (text : GoString) : Except GoString Time :=
  match parse rfc3339 text with
  | some t => .ok t
  | none => .error (pf.timeError text)

def mapRow (row : CertRow) : Except GoString NipCertRecord := do
  let caps ← readCapabilities pf row.capJSON
  let issued ← readTime pf row.issuedAt
  let expires ← readTime pf row.expiresAt
  return { nid := row.nid, entityType := row.entityType, serial := row.serial, pubKey := row.pubKey,
           capabilities := caps, scopeJson := row.scopeJSON, issuedBy := row.issuedBy,
           issuedAt := issued, expiresAt := expires,
           revokedAt := row.revokedAt.bind (parse rfc3339)
           revokeReason := row.revokeReason, metadataJson := row.metadataJSON,
           nidRole := row.nidRole, parentNid := row.parentNid, lineageJson := row.lineageJSON }

def queryFirst (rows : List CertRow) : Except GoString (Option NipCertRecord) :=
  match rows with
  | [] => .ok none
  | row :: _ => (mapRow pf row).map some

def queryMany : List CertRow → List NipCertRecord × Option GoString
  | [] => ([], none)
  | row :: rows =>
    match mapRow pf row with
    | .error err => ([], some err)
    | .ok record =>
      let (records, err) := queryMany rows
      (record :: records, err)

variable (db : SqlEngine)

def save (s : SqlNipCaStore) (record : NipCertRecord) : Except GoString SqlNipCaStore :=
  if s.rows.any (·.serial = record.serial) then .error (db.uniqueError record.serial)
  else .ok { s with rows := s.rows ++ [rowOf pf record] }

def getByNid (s : SqlNipCaStore) (nid : GoString) : Except GoString (Option NipCertRecord) :=
  queryFirst pf (db.orderDesc (·.issuedAt) (s.rows.filter (·.nid = nid)))

def getBySerial (s : SqlNipCaStore) (serial : GoString) : Except GoString (Option NipCertRecord) :=
  queryFirst pf (s.rows.filter (·.serial = serial))

def unrevoked (nid : GoString) (row : CertRow) : Bool := row.nid = nid && row.revokedAt.isNone

/-- Revokes every record of a name that is not revoked. -/
def revoke (s : SqlNipCaStore) (nid reason : GoString) (revokedAt : Time) : Bool × SqlNipCaStore :=
  (s.rows.any (unrevoked nid),
    { s with rows := s.rows.map fun row =>
        if unrevoked nid row then
          { row with revokedAt := some (isoTime revokedAt), revokeReason := some reason }
        else row })

def nextSerial (s : SqlNipCaStore) : GoString × SqlNipCaStore :=
  (serialText (s.seq + 1), { s with seq := s.seq + 1 })

end

end SqlNipCaStore

def sqlStore {N : Type} (pf : Platform N) (db : SqlEngine) : NipCaStore SqlNipCaStore where
  save := SqlNipCaStore.save pf db
  getByNid := SqlNipCaStore.getByNid pf db
  getBySerial := SqlNipCaStore.getBySerial pf
  revoke s nid reason revokedAt := .ok (s.revoke nid reason revokedAt)
  nextSerial s := .ok s.nextSerial
  list s := SqlNipCaStore.queryMany pf (db.orderDesc (·.issuedAt) s.rows)
  getRevoked s := SqlNipCaStore.queryMany pf
    (db.orderDesc (fun row => row.revokedAt.getD []) (s.rows.filter (·.revokedAt.isSome)))
  getByParentNid s parentNid := SqlNipCaStore.queryMany pf
    (db.orderDesc (·.issuedAt) (s.rows.filter (·.parentNid = some parentNid)))

end NpsSdk.Nip
