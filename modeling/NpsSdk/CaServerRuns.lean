import NpsSdk.CaServerIssue
import NpsSdk.Transition

/-! The table of the standalone CA server and the handlers over it. The next serial is read off the serials
already in the table, as decimal numbers, while serials are printed in hexadecimal; the table is unlocked
between the lookup of a request, the draw of its serial and the insertion of its row, and a row that is
refused is not noticed by the handler. A run interleaves these three steps of all requests. -/

namespace NpsSdk.CaServer

open NpsSdk.Nip Transition
open JsonValue
open List hiding rec

/-! ### The table -/

structure CertRow where
  nid : GoString
  entityType : GoString
  serial : GoString
  pubKey : GoString
  capabilities : GoString
  scopeJson : GoString
  issuedBy : GoString
  issuedAt : GoString
  expiresAt : GoString
  revokedAt : Option GoString := none
  revokeReason : Option GoString := none
  metadataJson : Option GoString := none

/-- `ORDER BY column DESC`; the order of rows that agree in the column is left open. -/
structure RowOrder where
  orderDesc : (CertRow → GoString) → List CertRow → List CertRow
  perm : ∀ column rows, (orderDesc column rows).Perm rows
  sorted : ∀ column rows,
    (orderDesc column rows).Pairwise fun a b => GoString.LexLe (column b) (column a)

structure CertRecord (N : Type) where
  nid : GoString
  entityType : GoString
  serial : GoString
  pubKey : GoString
  capabilities : Option (List GoString)
  scope : Option (FrameDict N)
  issuedBy : GoString
  issuedAt : GoString
  expiresAt : GoString
  revokedAt : Option GoString
  revokeReason : Option GoString
  metadata : Option (FrameDict N)

structure InsertRec (N : Type) where
  nid : GoString
  entityType : GoString
  serial : GoString
  pubKey : GoString
  capabilities : Option (List GoString)
  scope : Option (FrameDict N)
  issuedBy : GoString
  issuedAt : GoString
  expiresAt : GoString
  metadata : Option (FrameDict N)

/-- `0x%06X`. -/
def formatSerial (n : Nat) : GoString :=
  GoString.ofChars ('0' :: 'x' :: ((Nat.toDigits 16 n).map Char.toUpper).leftpad 6 '0')

/-- `REPLACE(serial,'0x','')`. -/
def withoutMark : List Char → List Char
  | '0' :: 'x' :: text => withoutMark text
  | c :: text => c :: withoutMark text
  | [] => []

/-- `CAST(text AS INTEGER)`: the decimal digits the text begins with. -/
def castInteger (text : List Char) : Nat :=
  (text.takeWhile Char.isDigit).foldl (fun n c => 10 * n + (c.toNat - 48)) 0

def serialNumber (serial : GoString) : Nat := castInteger (withoutMark (GoString.toChars serial))

def serialAfter (serials : List GoString) : GoString :=
  formatSerial ((serials.map serialNumber).foldl max 0 + 1)

def nextSerial (rows : List CertRow) : GoString := serialAfter (rows.map (·.serial))

section

variable {N : Type} (fmt : NumberFormat N)

def jsonText (value : JsonValue N) : GoString := GoString.ofChars (marshal fmt value)

/-- A nil slice or map is written as `null`. -/
def orNull : Option (JsonValue N) → JsonValue N
  | some value => value
  | none => .null

def rowOf (rec : InsertRec N) : CertRow where
  nid := rec.nid
  entityType := rec.entityType
  serial := rec.serial
  pubKey := rec.pubKey
  capabilities := jsonText fmt (orNull (rec.capabilities.map strings))
  scopeJson := jsonText fmt (orNull (rec.scope.map .ofMap))
  issuedBy := rec.issuedBy
  issuedAt := rec.issuedAt
  expiresAt := rec.expiresAt
  metadataJson := rec.metadata.map fun metadata => jsonText fmt (.ofMap metadata)

def entityTypes : List GoString := ["agent", "node", "operator"]

/-- A row is refused if its serial is in the table or its entity type is none of the three. -/
def insert (rows : List CertRow) (rec : InsertRec N) : Option (List CertRow) :=
  if rec.entityType ∉ entityTypes ∨ rows.any (·.serial = rec.serial) then none
  else some (rows ++ [rowOf fmt rec])

/-- Texts that cannot be read leave the field empty. -/
def scanRecord (row : CertRow) : CertRecord N where
  nid := row.nid
  entityType := row.entityType
  serial := row.serial
  pubKey := row.pubKey
  capabilities := ((unmarshal fmt row.capabilities).bind decodeStrings).getD none
  scope := ((unmarshal fmt row.scopeJson).bind decodeMap).getD none
  issuedBy := row.issuedBy
  issuedAt := row.issuedAt
  expiresAt := row.expiresAt
  revokedAt := row.revokedAt
  revokeReason := row.revokeReason
  metadata :=
    (row.metadataJson.bind fun text => (unmarshal fmt text).bind decodeMap).getD none

def unrevoked (nid : GoString) (row : CertRow) : Bool := row.nid = nid && row.revokedAt.isNone

variable (order : RowOrder)

def getActive (rows : List CertRow) (nid : GoString) : Option (CertRecord N) :=
  (order.orderDesc (·.issuedAt) (rows.filter (unrevoked nid))).head?.map (scanRecord fmt)

/-- Revokes every certificate of a name that is not revoked. -/
def revoke (rows : List CertRow) (nid reason : GoString) (now : Time) : Bool × List CertRow :=
  (rows.any (unrevoked nid),
    rows.map fun row =>
      if unrevoked nid row then { row with revokedAt := some (rfc3339 now), revokeReason := some reason }
      else row)

structure CrlEntry where
  serial : GoString
  nid : GoString
  revokedAt : GoString
  revokeReason : Option GoString

def crlEntry (row : CertRow) : CrlEntry where
  serial := row.serial
  nid := row.nid
  revokedAt := row.revokedAt.getD []
  revokeReason := row.revokeReason

def crl (rows : List CertRow) : List CrlEntry :=
  (order.orderDesc (fun row => row.revokedAt.getD []) (rows.filter (·.revokedAt.isSome))).map crlEntry

end

/-! ### The handlers -/

section Handlers

variable {N : Type}

/-- What the server is started with; the days left of a certificate go through a division of floating-point
numbers. -/
structure Server (pf : Platform N) where
  sk : pf.ed.PrivateKey
  order : RowOrder
  caNID : GoString
  agentDays : Int
  nodeDays : Int
  renewalDays : Int
  daysLeft : Duration → Int

inductive EntityRoute where
  | agents
  | nodes
  deriving DecidableEq

def EntityRoute.entityType : EntityRoute → GoString
  | .agents => "agent"
  | .nodes => "node"

structure RegisterReq (N : Type) where
  nid : Option GoString
  pubKey : GoString
  capabilities : Option (List GoString)
  scope : Option (FrameDict N)
  metadata : Option (FrameDict N)

structure Accepted (N : Type) where
  /-- Created for a registration, OK for a renewal. -/
  status : Nat
  nid : GoString
  entityType : GoString
  pubKey : GoString
  capabilities : Option (List GoString)
  scope : Option (FrameDict N)
  metadata : Option (FrameDict N)

structure Response (N : Type) where
  status : Nat
  nid : GoString
  serial : GoString
  issuedAt : GoString
  expiresAt : GoString
  identFrame : FrameDict N

/-- The table, the requests between their lookup and their draw, those between their draw and their
insertion, and the certificates handed out so far. -/
structure State (N : Type) where
  rows : List CertRow := []
  accepted : List (Accepted N) := []
  drawn : List (Accepted N × GoString) := []
  responses : List (Response N) := []

/-- What happens next; the random bytes of a generated name and the readings of the clock come with it. A
body that cannot be read is a request without content. -/
inductive Event (N : Type) where
  | register (route : EntityRoute) (body : Option (RegisterReq N)) (uid : Bytes)
  | renew (nid : GoString) (now : Time)
  | draw (i : Nat)
  | finish (i : Nat) (now : Time)
  | revoke (nid : GoString) (reason : Option GoString) (now : Time)

def caDomain (caNID : GoString) : GoString :=
  let parts := caNID.splitOn (.char ':')
  if 5 ≤ parts.length then parts.getD (parts.length - 2) [] else "ca.local"

def generateNID (domain entityType : GoString) (uid : Bytes) : GoString :=
  "urn:nps:" ++ entityType ++ ":" ++ domain ++ ":" ++ hexEncode uid

variable {pf : Platform N} (server : Server pf)

def validityDays (entityType : GoString) : Int :=
  if entityType = "node" then server.nodeDays else server.agentDays

variable (s : State N)

/-- The lookup of a registration; an error leaves everything as it is. -/
def register (route : EntityRoute) (body : Option (RegisterReq N)) (uid : Bytes) : State N :=
  match body with
  | none => s
  | some req =>
    let nid := req.nid.getD (generateNID (caDomain server.caNID) route.entityType uid)
    match getActive pf.fmt server.order s.rows nid with
    | some _ => s
    | none =>
      { s with accepted := s.accepted ++
          [{ status := 201, nid := nid, entityType := route.entityType, pubKey := req.pubKey,
             capabilities := req.capabilities, scope := req.scope, metadata := req.metadata }] }

/-- A certificate can be renewed near its expiry; a time that cannot be read is no obstacle. -/
def renewalOpen (expiresAt : GoString) (now : Time) : Bool :=
  match GoTime.parse GoTime.rfc3339 expiresAt with
  | some exp => decide (server.daysLeft (GoTime.sub exp now) ≤ server.renewalDays)
  | none => true

def renew (nid : GoString) (now : Time) : State N :=
  match getActive pf.fmt server.order s.rows nid with
  | none => s
  | some rec =>
    if renewalOpen server rec.expiresAt now then
      { s with accepted := s.accepted ++
          [{ status := 200, nid := nid, entityType := rec.entityType, pubKey := rec.pubKey,
             capabilities := rec.capabilities, scope := rec.scope, metadata := rec.metadata }] }
    else s

/-- The certificate is issued, its row inserted if the table takes it, and the response sent. -/
def finish (request : Accepted N) (serial : GoString) (now : Time) : State N :=
  let days := validityDays server request.entityType
  let cert := issueCert pf server.sk server.caNID request.nid request.pubKey request.capabilities
    request.scope days serial request.metadata now
  let issuedAt := str cert "issued_at"
  let expiresAt := str cert "expires_at"
  { s with
    rows := (insert pf.fmt s.rows
      { nid := request.nid, entityType := request.entityType, serial := serial, pubKey := request.pubKey,
        capabilities := request.capabilities, scope := request.scope, issuedBy := server.caNID,
        issuedAt := issuedAt, expiresAt := expiresAt, metadata := request.metadata }).getD s.rows
    responses := s.responses ++
      [{ status := request.status, nid := request.nid, serial := serial, issuedAt := issuedAt,
         expiresAt := expiresAt, identFrame := cert }] }

def step : Event N → Option (State N)
  | .register route body uid => some (register server s route body uid)
  | .renew nid now => some (renew server s nid now)
  | .draw i =>
    s.accepted[i]?.map fun request =>
      { s with
        accepted := s.accepted.eraseIdx i
        drawn := s.drawn ++ [(request, nextSerial s.rows)] }
  | .finish i now =>
    s.drawn[i]?.map fun (request, serial) =>
      finish server { s with drawn := s.drawn.eraseIdx i } request serial now
  | .revoke nid reason now =>
    some { s with rows := (revoke s.rows nid (reason.getD "cessation_of_operation") now).2 }

/-! ### Certificates and rows -/

/-- The serials handed out are distinct, and every certificate handed out has a row, so that its serial is
listed once its name is revoked. -/
def Accounted : Prop :=
  (s.responses.map (·.serial)).Nodup ∧
    ∀ response ∈ s.responses,
      (∃ row ∈ s.rows, row.nid = response.nid ∧ row.serial = response.serial) ∧
        ∀ reason now, response.serial ∈
          (crl server.order (revoke s.rows response.nid reason now).2).map (·.serial)

/-- A serial is drawn from a table of fewer than ten rows, with no other request between its draw and its
insertion. -/
def Undisturbed : Event N → Prop
  | .draw _ => s.rows.length < 10 ∧ s.drawn = []
  | _ => True

instance (s : State N) (event : Event N) : Decidable (Undisturbed s event) :=
  match event with
  | .draw _ => inferInstanceAs (Decidable (s.rows.length < 10 ∧ s.drawn = []))
  | .register .. | .renew .. | .finish .. | .revoke .. => isTrue trivial

def firstSerials (count : Nat) : List GoString := (List.range count).map fun i => formatSerial (i + 1)

/-- Up to nine serials have the same digits in decimal. -/
theorem serialAfter_firstSerials : ∀ count < 10, serialAfter (firstSerials count) = formatSerial (count + 1) := by
  decide +kernel

theorem nodup_firstSerials : (firstSerials 10).Nodup := by
  decide +kernel

theorem firstSerials_succ (count : Nat) :
    firstSerials (count + 1) = firstSerials count ++ [formatSerial (count + 1)] := by
  rw [firstSerials, range_succ, map_append]
  rfl

variable {count : Nat} {rows : List CertRow} {s : State N} {request : Accepted N}

theorem firstSerials_sublist (h : count ≤ 10) : (firstSerials count).Sublist (firstSerials 10) :=
  (range_sublist.mpr h).map _

theorem nodup_firstSerials_of_le (h : count ≤ 10) : (firstSerials count).Nodup :=
  nodup_firstSerials.sublist (firstSerials_sublist h)

theorem formatSerial_not_mem (h : count < 10) : formatSerial (count + 1) ∉ firstSerials count := by
  have hnodup := nodup_firstSerials_of_le (Nat.succ_le_of_lt h)
  rw [firstSerials_succ, nodup_append] at hnodup
  exact fun hmem => hnodup.2.2 _ hmem _ mem_cons_self rfl

/-- Rows and certificates correspond, the rows have the first serials, and a serial that was drawn is the
next one. -/
structure Sequential (s : State N) : Prop where
  serials : s.rows.map (·.serial) = firstSerials s.rows.length
  few : s.rows.length ≤ 10
  handed : s.responses.map (fun r => (r.nid, r.serial)) = s.rows.map fun row => (row.nid, row.serial)
  drawn : s.drawn = [] ∨
    ∃ request, s.drawn = [(request, formatSerial (s.rows.length + 1))] ∧ s.rows.length < 10 ∧
      request.entityType ∈ entityTypes
  entity : ∀ request ∈ s.accepted, request.entityType ∈ entityTypes
  rowEntity : ∀ row ∈ s.rows, row.entityType ∈ entityTypes

/-- What a revocation leaves as it is. -/
theorem map_revoke {α : Type} {f : CertRow → α} (rows : List CertRow) (nid reason : GoString) (now : Time)
    (hf : ∀ row : CertRow, f { row with revokedAt := some (rfc3339 now), revokeReason := some reason } = f row) :
    (revoke rows nid reason now).2.map f = rows.map f := by
  rw [revoke, map_map]
  refine map_congr_left fun row _ => ?_
  rw [Function.comp_apply]
  split_ifs
  · exact hf row
  · rfl

theorem serial_mem_crl (order : RowOrder) {row : CertRow} (hrow : row ∈ rows) (reason : GoString) (now : Time) :
    row.serial ∈ (crl order (revoke rows row.nid reason now).2).map (·.serial) := by
  have hrevoked : ∃ row' ∈ (revoke rows row.nid reason now).2,
      row'.serial = row.serial ∧ row'.revokedAt.isSome = true := by
    refine ⟨_, mem_map_of_mem hrow, ?_⟩
    split_ifs with hlive
    · exact ⟨rfl, rfl⟩
    · simpa [unrevoked, Option.isSome_iff_ne_none] using hlive
  obtain ⟨row', hmem, hserial, hsome⟩ := hrevoked
  rw [crl, map_map, ← hserial]
  have hfilter := mem_filter (p := fun row : CertRow => row.revokedAt.isSome).mpr ⟨hmem, hsome⟩
  exact mem_map_of_mem (f := (·.serial) ∘ crlEntry)
    ((order.perm (fun row => row.revokedAt.getD []) _).mem_iff.mpr hfilter)

theorem Sequential.accounted (h : Sequential s) : Accounted server s := by
  have hserials : s.responses.map (·.serial) = s.rows.map (·.serial) := by
    have hsnd := congrArg (List.map Prod.snd) h.handed
    rwa [map_map, map_map] at hsnd
  refine ⟨?_, fun response hresponse => ?_⟩
  · rw [hserials, h.serials]
    exact nodup_firstSerials_of_le h.few
  · have hpair : (response.nid, response.serial) ∈ s.rows.map fun row => (row.nid, row.serial) := by
      rw [← h.handed]
      exact mem_map_of_mem (f := fun r : Response N => (r.nid, r.serial)) hresponse
    obtain ⟨row, hrow, heq⟩ := mem_map.mp hpair
    obtain ⟨hnid, hserial⟩ := Prod.mk.inj heq
    refine ⟨⟨row, hrow, hnid, hserial⟩, fun reason now => ?_⟩
    rw [← hnid, ← hserial]
    exact serial_mem_crl server.order hrow reason now

/-! ### Steps -/

theorem insert_eq (fmt : NumberFormat N) {rec : InsertRec N} (hentity : rec.entityType ∈ entityTypes)
    (hfresh : rec.serial ∉ rows.map (·.serial)) : insert fmt rows rec = some (rows ++ [rowOf fmt rec]) := by
  rw [insert, if_neg]
  rw [not_or, not_not]
  refine ⟨hentity, fun hany => hfresh ?_⟩
  obtain ⟨row, hrow, hserial⟩ := any_eq_true.mp hany
  rw [← of_decide_eq_true hserial]
  exact mem_map_of_mem hrow

theorem exists_row_of_getActive {fmt : NumberFormat N} {order : RowOrder} {nid : GoString} {rec : CertRecord N}
    (h : getActive fmt order rows nid = some rec) : ∃ row ∈ rows, rec = scanRecord fmt row := by
  obtain ⟨row, hrow, rfl⟩ := Option.map_eq_some_iff.mp h
  have hmem := (order.perm _ _).mem_iff.mp (mem_of_mem_head? hrow)
  exact ⟨row, mem_of_mem_filter hmem, rfl⟩

section

variable (h : Sequential s)
include h

/-- A request that was looked up changes nothing but the list it joins. -/
theorem Sequential.accept (hentity : request.entityType ∈ entityTypes) :
    Sequential { s with accepted := s.accepted ++ [request] } where
  __ := h
  entity := by
    rw [forall_mem_append, forall_mem_singleton]
    exact ⟨h.entity, hentity⟩

theorem Sequential.register (route : EntityRoute) (body : Option (RegisterReq N)) (uid : Bytes) :
    Sequential (register server s route body uid) := by
  unfold CaServer.register
  split
  · exact h
  dsimp only
  split
  · exact h
  · exact h.accept (show route.entityType ∈ entityTypes by cases route <;> decide)

theorem Sequential.renew (nid : GoString) (now : Time) : Sequential (renew server s nid now) := by
  rw [CaServer.renew]
  split
  · exact h
  rename_i rec hactive
  obtain ⟨row, hrow, rfl⟩ := exists_row_of_getActive hactive
  split_ifs
  · exact h.accept (h.rowEntity row hrow)
  · exact h

theorem Sequential.draw {i : Nat} (hrequest : s.accepted[i]? = some request)
    (hfew : s.rows.length < 10) (hdrawn : s.drawn = []) : Sequential { s with
      accepted := s.accepted.eraseIdx i
      drawn := s.drawn ++ [(request, nextSerial s.rows)] } where
  __ := h
  drawn := by
    refine Or.inr ⟨request, ?_, hfew, h.entity _ (mem_of_getElem? hrequest)⟩
    rw [nextSerial, h.serials, serialAfter_firstSerials _ hfew, hdrawn, nil_append]
  entity request' hmem := h.entity request' (mem_of_mem_eraseIdx hmem)

/-- The serial is the next one, so the table takes the row. -/
theorem Sequential.finish {i : Nat} {serial : GoString}
    (hdrawn : s.drawn[i]? = some (request, serial)) (now : Time) :
    Sequential (finish server { s with drawn := s.drawn.eraseIdx i } request serial now) := by
  rcases h.drawn with hnone | ⟨request', hone, hfew, hentity⟩
  · rw [hnone] at hdrawn
    cases hdrawn
  rw [hone, getElem?_singleton] at hdrawn
  split_ifs at hdrawn with hi
  obtain ⟨rfl, rfl⟩ := Prod.mk.inj (Option.some.inj hdrawn)
  subst hi
  have hfresh : formatSerial (s.rows.length + 1) ∉ s.rows.map (·.serial) := by
    rw [h.serials]
    exact formatSerial_not_mem hfew
  unfold CaServer.finish
  dsimp only
  rw [insert_eq pf.fmt hentity hfresh, Option.getD_some]
  exact
    { serials := by
        rw [map_append, h.serials, length_append, length_singleton, firstSerials_succ]
        rfl
      few := by
        rw [length_append]
        exact hfew
      handed := by
        rw [map_append, map_append, h.handed]
        rfl
      drawn := by
        rw [hone]
        exact Or.inl rfl
      entity := h.entity
      rowEntity := by
        rw [forall_mem_append, forall_mem_singleton]
        exact ⟨h.rowEntity, hentity⟩ }

theorem Sequential.revoke (nid reason : GoString) (now : Time) :
    Sequential { s with rows := (revoke s.rows nid reason now).2 } := by
  have hlength : (CaServer.revoke s.rows nid reason now).2.length = s.rows.length := length_map _
  exact
    { serials := by
        rw [hlength, ← h.serials]
        exact map_revoke s.rows nid reason now fun _ => rfl
      few := by
        rw [hlength]
        exact h.few
      handed := by
        rw [h.handed]
        exact (map_revoke s.rows nid reason now fun _ => rfl).symm
      drawn := by
        rw [hlength]
        exact h.drawn
      entity := h.entity
      rowEntity := by
        intro row hrow
        have hentity := mem_map_of_mem (f := CertRow.entityType) hrow
        rw [map_revoke s.rows nid reason now fun _ => rfl] at hentity
        obtain ⟨row', hrow', heq⟩ := mem_map.mp hentity
        rw [← heq]
        exact h.rowEntity row' hrow' }

end

theorem Sequential.step {s s' : State N} {event : Event N} (h : Sequential s)
    (hevent : Undisturbed s event) (hstep : step server s event = some s') : Sequential s' := by
  cases event with
  | register route body uid =>
    cases hstep
    exact h.register server route body uid
  | renew nid now =>
    cases hstep
    exact h.renew server nid now
  | draw i =>
    obtain ⟨request, hrequest, rfl⟩ := Option.map_eq_some_iff.mp hstep
    exact h.draw hrequest hevent.1 hevent.2
  | finish i now =>
    obtain ⟨⟨request, serial⟩, hdrawn, rfl⟩ := Option.map_eq_some_iff.mp hstep
    exact h.finish server hdrawn now
  | revoke nid reason now =>
    cases hstep
    exact h.revoke nid _ now

theorem sequential_init : Sequential ({} : State N) where
  serials := rfl
  few := Nat.zero_le _
  handed := rfl
  drawn := Or.inl rfl
  entity := forall_mem_nil _
  rowEntity := forall_mem_nil _

/-- In every run of a new server in which each serial is drawn undisturbed, the certificates handed out are
accounted for. -/
theorem certificates_accounted {events : List (Event N)} {s : State N}
    (hrun : run (step server) {} events = some s)
    (hsteps : ∀ p ∈ steps (step server) {} events, Undisturbed p.1 p.2) : Accounted server s := by
  have hsequential : Sequential s :=
    run_invariant_of_steps (step server)
      (fun _ _ _ h hevent hstep => h.step server hevent hstep) hrun sequential_init hsteps
  exact hsequential.accounted server

end Handlers

/-! ### A server -/

theorem lexLe_column (column : CertRow → GoString) (rows : List CertRow) :
    (rows.insertionSort fun a b => GoString.LexLe (column b) (column a)).Pairwise
      fun a b => GoString.LexLe (column b) (column a) := by
  exact pairwise_insertionSort _ rows

def stableOrder : RowOrder where
  orderDesc column rows := rows.insertionSort fun a b => GoString.LexLe (column b) (column a)
  perm _ rows := perm_insertionSort _ rows
  sorted := lexLe_column

def localServer : Server (plainPlatform anySignature) where
  sk := ()
  order := stableOrder
  caNID := localCa
  agentDays := 30
  nodeDays := 90
  renewalDays := 7
  daysLeft d := d / GoTime.day

def agentNID (i : Nat) : GoString :=
  "urn:nps:agent:ca.local:a" ++ GoString.ofChars (Nat.toDigits 10 i)

def registration (i : Nat) : List (Event JsonNumber) :=
  [.register .agents
      (some { nid := some (agentNID i), pubKey := "ed25519:k", capabilities := none, scope := none,
              metadata := none }) [],
    .draw 0, .finish 0 0]

def twoAgents : List (Event JsonNumber) :=
  registration 0 ++ .revoke (agentNID 0) none 0 :: registration 1

def afterTwoAgents : Option (State JsonNumber) := run (step localServer) {} twoAgents

theorem twoAgents_accounted : ∃ s, afterTwoAgents = some s ∧ s.responses.length = 2 ∧ Accounted localServer s := by
  have hlength : afterTwoAgents.map (·.responses.length) = some 2 := by decide +kernel
  obtain ⟨s, hs, hresponses⟩ := Option.map_eq_some_iff.mp hlength
  exact ⟨s, hs, hresponses, certificates_accounted localServer hs (by decide +kernel)⟩

def tenthSerial : GoString := "0x00000A"

def elevenAgents : List (Event JsonNumber) := (List.range 11).flatMap registration

def afterElevenAgents : Option (State JsonNumber) := run (step localServer) {} elevenAgents

/-- The eleventh certificate has the serial of the tenth and no row, and the revocation of its name lists
nothing. -/
theorem eleventh_without_row : ∃ s, afterElevenAgents = some s ∧
    (s.responses.map fun r => (r.status, r.nid, r.serial)).drop 9 =
      [(201, agentNID 9, tenthSerial), (201, agentNID 10, tenthSerial)] ∧
    (∀ row ∈ s.rows, row.nid ≠ agentNID 10) ∧
    (crl stableOrder (revoke s.rows (agentNID 10) "key_compromise" 0).2).length = 0 := by
  have heval : afterElevenAgents.any (fun s =>
      ((s.responses.map fun r => (r.status, r.nid, r.serial)).drop 9 =
        [(201, agentNID 9, tenthSerial), (201, agentNID 10, tenthSerial)]) ∧
      (∀ row ∈ s.rows, row.nid ≠ agentNID 10) ∧
      (crl stableOrder (revoke s.rows (agentNID 10) "key_compromise" 0).2).length = 0) = true := by
    decide +kernel
  obtain ⟨s, hs, hfacts⟩ := (Option.any_eq_true _ _).mp heval
  exact ⟨s, hs, of_decide_eq_true hfacts⟩

end NpsSdk.CaServer
