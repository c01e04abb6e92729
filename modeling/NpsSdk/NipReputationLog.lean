import NpsSdk.Merkle
import NpsSdk.NipIdentity

/-! The reputation log: what an entry is hashed as, and the check of an inclusion proof. SHA-256 is an
arbitrary function. The check takes the side of each sibling from a bit of the leaf index and looks
neither at the size of the tree nor at the length of the path. -/

namespace NpsSdk.Nip

open Merkle List Option GoString UInt64
open JsonValue List

structure ObservationWindow where
  start : GoString
  stop : GoString

structure ReputationLogEntry where
  v : Int
  logID : GoString
  seq : UInt64
  timestamp : GoString
  subjectNid : GoString
  incident : GoString
  severity : Int
  window : Option ObservationWindow
  /-- Raw JSON; empty if there is none. -/
  observation : GoString
  evidenceRef : GoString
  evidenceSha256 : GoString
  issuerNid : GoString
  signature : GoString

structure SignedTreeHead where
  logID : GoString
  treeSize : UInt64
  timestamp : GoString
  sha256RootHash : GoString
  signature : GoString

structure InclusionProof where
  seq : UInt64
  leafIndex : UInt64
  treeSize : UInt64
  leafHash : GoString
  auditPath : List GoString

/-! ### The canonical form of an entry -/

/-- The wire string of a severity; marshalling any other value fails. -/
def severityWire (severity : Int) : Option String :=
  if severity = 0 then some "info"
  else if severity = 1 then some "minor"
  else if severity = 2 then some "moderate"
  else if severity = 3 then some "major"
  else if severity = 4 then some "critical"
  else none

def decimal (z : Int) : List Char :=
  if z < 0 then '-' :: Nat.toDigits 10 z.natAbs else Nat.toDigits 10 z.natAbs

section Entries

variable {N : Type} (fmt : NumberFormat N)

/-- An integer after it was written and read again as a number. -/
def jsonInt (z : Int) : Option (JsonValue N) := (fmt.parse (decimal z)).map .number

/-- A string after it was written and read again. -/
def jsonString (s : GoString) : JsonValue N := .string (ofChars (toChars s))

def insertNonEmpty (key : String) (s : GoString) (m : FrameDict N) : FrameDict N :=
  if s = [] then m else m.insert key (jsonString s)

/-- `none` if the observation is not JSON. It is nested once in the entry. -/
def insertObservation (raw : GoString) (m : FrameDict N) : Option (FrameDict N) :=
  if raw = [] then some m
  else
    (parseDocument fmt (maxNestingDepth - 1) (toChars raw)).map
      (m.insert "observation")

/-- The entry marshalled and read again; `none` if it cannot be marshalled. -/
def entryToMap (entry : ReputationLogEntry) : Option (FrameDict N) := do
  let v ← jsonInt fmt entry.v
  let seq ← jsonInt fmt entry.seq.toNat
  let severity ← severityWire entry.severity
  let required : FrameDict N := toMap [
    ("v", v), ("log_id", jsonString entry.logID), ("seq", seq),
    ("timestamp", jsonString entry.timestamp), ("subject_nid", jsonString entry.subjectNid),
    ("incident", jsonString entry.incident), ("severity", jsonString severity),
    ("issuer_nid", jsonString entry.issuerNid), ("signature", jsonString entry.signature)]
  let windowed := match entry.window with
    | none => required
    | some window => required.insert "window" (ofMap (toMap [
        ("start", jsonString window.start), ("end", jsonString window.stop)]))
  let referenced := insertNonEmpty "evidence_sha256" entry.evidenceSha256
    (insertNonEmpty "evidence_ref" entry.evidenceRef windowed)
  insertObservation fmt entry.observation referenced

/-- An entry that can be part of a log. -/
abbrev LogEntry := { entry : ReputationLogEntry // (entryToMap fmt entry).isSome = true }

def LogEntry.canonical {fmt : NumberFormat N} (e : LogEntry fmt) : Bytes :=
  canonicalJSON fmt ((entryToMap fmt e.1).get e.2)

theorem LogEntry.canonical_eq {fmt : NumberFormat N} {e : LogEntry fmt} {m : FrameDict N}
    (h : entryToMap fmt e.1 = some m) : e.canonical = canonicalJSON fmt m := by
  simp only [LogEntry.canonical, h, get_some]

/-! ### The check -/

abbrev Digest := { bs : Bytes // bs.length = 32 }

/-- `copy(buf[offset:], src)`. -/
def copyAt (buf : Bytes) (offset : Nat) (src : Bytes) : Bytes :=
  buf.take offset ++ src.take (buf.length - offset) ++ buf.drop (offset + src.length)

/-- The buffer of an inner node before the two digests are copied into it. -/
def nodeBuffer : Bytes := 1 :: replicate 64 0

section

variable (sha256 : Bytes → Digest)

def auditLoop (leafIndex : UInt64) : Nat → Digest → List GoString → Option Digest
  | _, nodeHash, [] => some nodeHash
  | i, nodeHash, step :: steps =>
    match rawURLDecode step with
    | none => none
    | some sibling =>
      let buf :=
        if leafIndex.toNat.testBit i then copyAt (copyAt nodeBuffer 1 sibling) 33 nodeHash.1
        else copyAt (copyAt nodeBuffer 1 nodeHash.1) 33 sibling
      auditLoop leafIndex (i + 1) (sha256 buf) steps

def verifyInclusion (proof : InclusionProof) (sth : SignedTreeHead) (entry : ReputationLogEntry) : Bool :=
  match entryToMap fmt entry with
  | none => false
  | some m =>
    let nodeHash := sha256 (0 :: canonicalJSON fmt m)
    match rawURLDecode proof.leafHash with
    | none => false
    | some expectedLeaf =>
      if nodeHash.1 ≠ expectedLeaf then false
      else match auditLoop sha256 proof.leafIndex 0 nodeHash proof.auditPath with
      | none => false
      | some nodeHash =>
        match rawURLDecode sth.sha256RootHash with
        | none => false
        | some rootHash => nodeHash.1 = rootHash

/-! ### The tree of a log -/

def joinDigests (a b : Digest) : Digest := sha256 (1 :: (a.1 ++ b.1))

variable {fmt} (log : List (LogEntry fmt))

/-- What the leaf at a position is the hash of; past the end it does not matter. -/
def leafInput (i : Nat) : Bytes :=
  match log[i]? with
  | some e => 0 :: e.canonical
  | none => []

def leafDigest (i : Nat) : Digest := sha256 (leafInput log i)

def treeHash : Digest :=
  if log = [] then sha256 [] else root (joinDigests sha256) (shape log.length) (leafDigest sha256 log)

structure Honest (log : List (LogEntry fmt)) (i : UInt64) (proof : InclusionProof)
    (sth : SignedTreeHead) : Prop where
  leafIndex : proof.leafIndex = i
  treeSize : proof.treeSize.toNat = log.length ∧ sth.treeSize.toNat = log.length
  leafHash : proof.leafHash = rawURLEncode (leafDigest sha256 log i.toNat).1
  auditPath : proof.auditPath =
    (Merkle.auditPath (joinDigests sha256) (shape log.length) i.toNat (leafDigest sha256 log)).map
      fun digest => rawURLEncode digest.1
  rootHash : sth.sha256RootHash = rawURLEncode (treeHash sha256 log).1

/-! ### The loop as a climb -/

/-- The 32 bytes that are copied from a sibling of any length. -/
def padDigest (bs : Bytes) : Digest :=
  ⟨bs.take 32 ++ replicate (32 - bs.length) 0, by
    rw [length_append, length_take, length_replicate]
    omega⟩

theorem copyAt_nodeBuffer (src : Bytes) :
    copyAt nodeBuffer 1 src = 1 :: (src.take 64 ++ replicate (64 - src.length) 0) := by
  rw [copyAt, nodeBuffer, Nat.add_comm 1, drop_succ_cons, drop_replicate, length_cons, length_replicate]
  rfl

theorem copyAt_right (d : Digest) (sibling : Bytes) :
    copyAt (copyAt nodeBuffer 1 d.1) 33 sibling = 1 :: (d.1 ++ (padDigest sibling).1) := by
  have htake : d.1.take 64 = d.1 := take_of_length_le (by rw [d.2]; decide)
  have hdrop : 33 + sibling.length = d.1.length + sibling.length + 1 := by
    omega
  rw [copyAt_nodeBuffer, htake, d.2, copyAt, take_succ_cons, take_left' d.2, hdrop,
    drop_succ_cons, drop_append, drop_eq_nil_of_le (Nat.le_add_right _ _),
    Nat.add_sub_cancel_left, drop_replicate, length_cons, length_append, d.2,
    length_replicate, padDigest, nil_append, append_assoc, cons_append]

theorem copyAt_left (d : Digest) (sibling : Bytes) :
    copyAt (copyAt nodeBuffer 1 sibling) 33 d.1 = 1 :: ((padDigest sibling).1 ++ d.1) := by
  have hlength : (1 :: (sibling.take 64 ++ replicate (64 - sibling.length) (0 : UInt8))).length = 65 := by
    rw [length_cons, length_append, length_take, length_replicate]
    omega
  have hpad : (sibling.take 64 ++ replicate (64 - sibling.length) (0 : UInt8)).take 32 =
      (padDigest sibling).1 := by
    rw [take_append, take_take, take_replicate, length_take]
    congr 2
    omega
  rw [copyAt_nodeBuffer, copyAt, take_succ_cons, hpad, hlength, take_of_length_le (by rw [d.2]),
    drop_eq_nil_of_le (by rw [hlength, d.2]), append_nil, cons_append]

/-- One round of the loop joins the two digests in the order the index bit asks for. -/
theorem auditLoop_cons (leafIndex : UInt64) (i : Nat) (nodeHash : Digest) {step : GoString}
    {sibling : Bytes} (hstep : rawURLDecode step = some sibling) (steps : List GoString) :
    auditLoop sha256 leafIndex i nodeHash (step :: steps) = auditLoop sha256 leafIndex (i + 1)
        (if leafIndex.toNat.testBit i then joinDigests sha256 (padDigest sibling) nodeHash
          else joinDigests sha256 nodeHash (padDigest sibling)) steps := by
  rw [auditLoop, hstep]
  dsimp only
  split_ifs
  · rw [copyAt_left, joinDigests]
  · rw [copyAt_right, joinDigests]

def bitsFrom (leafIndex i len : Nat) : List Bool := (range' i len).map leafIndex.testBit

theorem bitsFrom_zero (leafIndex len : Nat) : bitsFrom leafIndex 0 len = bits leafIndex len := by
  rw [bitsFrom, bits, range_eq_range']

/-- Whatever the steps hold, the loop climbs with as many digests. -/
theorem climb_of_auditLoop {leafIndex : UInt64} {i : Nat} {nodeHash result : Digest}
    {path : List GoString} (h : auditLoop sha256 leafIndex i nodeHash path = some result) :
    ∃ siblings : List Digest, siblings.length = path.length ∧
      result = climb (joinDigests sha256) nodeHash ((bitsFrom leafIndex.toNat i path.length).zip siblings) := by
  induction path generalizing i nodeHash with
  | nil =>
    cases h
    exact ⟨[], rfl, rfl⟩
  | cons step path ih =>
    cases hstep : rawURLDecode step with
    | none =>
      rw [auditLoop, hstep] at h
      cases h
    | some sibling =>
      rw [auditLoop_cons sha256 leafIndex i nodeHash hstep] at h
      obtain ⟨siblings, hlength, hresult⟩ := ih h
      refine ⟨padDigest sibling :: siblings, by rw [length_cons, hlength]; rfl, ?_⟩
      rw [hresult]
      rfl

theorem padDigest_val (d : Digest) : padDigest d.1 = d := by
  apply Subtype.ext
  change d.1.take 32 ++ replicate (32 - d.1.length) 0 = d.1
  rw [d.2, take_of_length_le (by rw [d.2])]
  exact append_nil _

theorem auditLoop_encoded (leafIndex : UInt64) (i : Nat) (nodeHash : Digest) (siblings : List Digest) :
    auditLoop sha256 leafIndex i nodeHash (siblings.map fun digest => rawURLEncode digest.1) =
      some (climb (joinDigests sha256) nodeHash ((bitsFrom leafIndex.toNat i siblings.length).zip siblings)) := by
  induction siblings generalizing i nodeHash with
  | nil => rfl
  | cons sibling siblings ih =>
    rw [map_cons, auditLoop_cons sha256 leafIndex i nodeHash (rawURLDecode_rawURLEncode _), ih, padDigest_val]
    rfl

/-! ### Completeness -/

theorem entryToMap_logEntry (e : LogEntry fmt) :
    entryToMap fmt e.1 = some ((entryToMap fmt e.1).get e.2) := (some_get e.2).symm

variable {log : List (LogEntry fmt)}

theorem leafDigest_of_getElem? {i : Nat} {e : LogEntry fmt} (he : log[i]? = some e) :
    leafDigest sha256 log i = sha256 (0 :: e.canonical) := by
  rw [leafDigest, leafInput, he]

theorem treeHash_of_ne_nil (h : log ≠ []) : treeHash sha256 log =
      root (joinDigests sha256) (shape log.length) (leafDigest sha256 log) := if_neg h

/-- The check of the path of a leaf compares the climb along the bits of the index with the root. -/
theorem verifyInclusion_of_path {i : Nat} {proof : InclusionProof} {sth : SignedTreeHead} {e : LogEntry fmt}
    (he : log[i]? = some e) (hleaf : proof.leafHash = rawURLEncode (leafDigest sha256 log i).1)
    (hpath : proof.auditPath = (Merkle.auditPath (joinDigests sha256) (shape log.length) i (leafDigest sha256 log)).map
      fun digest => rawURLEncode digest.1) (hroot : rawURLDecode sth.sha256RootHash = some (treeHash sha256 log).1) :
    verifyInclusion fmt sha256 proof sth e.1 = true ↔ climb (joinDigests sha256) (leafDigest sha256 log i)
        ((bits proof.leafIndex.toNat ((shape log.length).sides i).length).zip
          (Merkle.auditPath (joinDigests sha256) (shape log.length) i (leafDigest sha256 log))) =
        treeHash sha256 log := by
  rw [verifyInclusion, entryToMap_logEntry e]
  dsimp only
  rw [← LogEntry.canonical, ← leafDigest_of_getElem? sha256 he, hleaf, rawURLDecode_rawURLEncode, hpath,
    auditLoop_encoded, hroot, length_auditPath, bitsFrom_zero]
  simp only [ne_eq, not_true_eq_false, if_false, decide_eq_true_eq]
  exact Subtype.ext_iff.symm

theorem verifyInclusion_honest {i : UInt64} {proof : InclusionProof} {sth : SignedTreeHead}
    (h : Honest sha256 log i proof sth) {e : LogEntry fmt} (he : log[i.toNat]? = some e) :
    verifyInclusion fmt sha256 proof sth e.1 = true ↔ climb (joinDigests sha256) (leafDigest sha256 log i.toNat)
        ((bits i.toNat ((shape log.length).sides i.toNat).length).zip
          (Merkle.auditPath (joinDigests sha256) (shape log.length) i.toNat (leafDigest sha256 log))) =
        treeHash sha256 log := by
  have hroot : rawURLDecode sth.sha256RootHash = some (treeHash sha256 log).1 := by
    rw [h.rootHash, rawURLDecode_rawURLEncode]
  rw [verifyInclusion_of_path sha256 he h.leafHash h.auditPath hroot, h.leafIndex]

end

/-! ### A hash that tells sides apart -/

def mark (c : Nat) : Digest := ⟨UInt8.ofNat c :: replicate 31 0, rfl⟩

def markOf (bs : Bytes) : Nat := (bs.head?.map UInt8.toNat).getD 0

variable (sides : List Bool)

/-- Counts the steps of one leaf as long as they stand on the given sides; everything else is 0. -/
def countJoin (a b : Nat) : Nat :=
  if 0 < a ∧ sides[a - 1]? = some false then a + 1
  else if 0 < b ∧ sides[b - 1]? = some true then b + 1
  else 0

def sideHash (leaf input : Bytes) : Digest :=
  if input = 0 :: leaf then mark 1
  else if input.head? = some 1 then
    mark (countJoin sides (markOf (input.drop 1)) (markOf (input.drop 33)))
  else mark 0

theorem markOf_mark {c : Nat} (hc : c < 256) (rest : Bytes) : markOf ((mark c).1 ++ rest) = c := by
  exact Nat.mod_eq_of_lt hc

theorem mark_injective {a b : Nat} (ha : a < 256) (hb : b < 256) (h : mark a = mark b) : a = b := by
  rw [← markOf_mark ha [], h, markOf_mark hb]

theorem joinDigests_mark (leaf : Bytes) {a b : Nat} (ha : a < 256) (hb : b < 256) :
    joinDigests (sideHash sides leaf) (mark a) (mark b) = mark (countJoin sides a b) := by
  have hfirst : markOf ((1 :: ((mark a).1 ++ (mark b).1)).drop 1) = a := markOf_mark ha _
  have hsecond : markOf ((1 :: ((mark a).1 ++ (mark b).1)).drop 33) = b := by
    rw [drop_succ_cons, drop_left' (mark a).2, ← append_nil (mark b).1, markOf_mark hb]
  rw [joinDigests, sideHash, if_neg (by simp), if_pos (by rfl), hfirst, hsecond]

theorem climb_mark_zero (leaf : Bytes) {steps : List (Bool × Digest)}
    (hsteps : ∀ step ∈ steps, step.2 = mark 0) : climb (joinDigests (sideHash sides leaf)) (mark 0) steps = mark 0 := by
  induction steps with
  | nil => rfl
  | cons step steps ih =>
    have hzero : joinDigests (sideHash sides leaf) (mark 0) (mark 0) = mark 0 :=
      joinDigests_mark sides leaf (by decide) (by decide)
    rw [climb, foldl_cons, hsteps step mem_cons_self, hzero, ite_self]
    exact ih fun step' hstep' => hsteps step' (mem_cons_of_mem _ hstep')

/-- A climb past digests that count for nothing counts to the end exactly on the given sides. -/
theorem climb_mark {sides : List Bool} (hsides : sides.length < 255) (leaf : Bytes)
    {turns : List Bool} {siblings : List Digest} {c : Nat} (hturns : turns.length = siblings.length)
    (hsiblings : ∀ sibling ∈ siblings, sibling = mark 0) (hc : c + turns.length = sides.length) :
    climb (joinDigests (sideHash sides leaf)) (mark (c + 1)) (turns.zip siblings) =
      if turns = sides.drop c then mark (sides.length + 1) else mark 0 := by
  induction turns generalizing siblings c with
  | nil =>
    rw [length_nil, Nat.add_zero] at hc
    rw [hc, drop_length]
    rfl
  | cons turn turns ih =>
    cases siblings with
    | nil => cases hturns
    | cons sibling siblings =>
      rw [length_cons] at hc
      have hlt : c < sides.length := by omega
      have hzero := hsiblings sibling mem_cons_self
      have htail : ∀ s ∈ siblings, s = mark 0 :=
        fun s hs => hsiblings s (mem_cons_of_mem _ hs)
      have hget : sides[c]? = some sides[c] := getElem?_eq_getElem hlt
      have hjoin : (if turn then joinDigests (sideHash sides leaf) (mark 0) (mark (c + 1))
          else joinDigests (sideHash sides leaf) (mark (c + 1)) (mark 0)) =
          if turn = sides[c] then mark (c + 2) else mark 0 := by
        rw [joinDigests_mark sides leaf (by decide) (by omega),
          joinDigests_mark sides leaf (by omega) (by decide), countJoin, countJoin,
          Nat.add_sub_cancel, hget]
        cases turn <;> cases sides[c] <;> simp
      rw [zip_cons_cons, climb, foldl_cons, hzero, hjoin, drop_eq_getElem_cons hlt]
      by_cases hturn : turn = sides[c]
      · rw [if_pos hturn, hturn]
        have hrest := ih (Nat.succ.inj hturns) htail (c := c + 1) (by omega)
        rw [climb] at hrest
        rw [hrest]
        simp only [cons.injEq, true_and]
      · rw [if_neg hturn, if_neg fun heq => hturn (cons.inj heq).1]
        refine climb_mark_zero sides leaf fun step hstep => htail step.2 ?_
        exact (of_mem_zip hstep).2

def namedEntry (logID : GoString) : ReputationLogEntry where
  v := 0
  logID := logID
  seq := 0
  timestamp := []
  subjectNid := []
  incident := []
  severity := 0
  window := none
  observation := []
  evidenceRef := []
  evidenceSha256 := []
  issuerNid := []
  signature := []

theorem entryToMap_namedEntry (logID : GoString) :
    ∃ m, entryToMap fmt (namedEntry logID) = some m ∧ m["log_id"]? = some (jsonString logID) := by
  obtain ⟨zero, hzero⟩ := isSome_iff_exists.mp (fmt.parse_nat 0 (by decide))
  have hint : jsonInt fmt 0 = some (.number zero) := by
    rw [jsonInt, decimal, if_neg (by decide), Int.natAbs_zero, hzero, map_some]
  have hseq : jsonInt fmt ((0 : UInt64).toNat : Int) = some (.number zero) := hint
  refine ⟨_, by simp only [entryToMap, namedEntry, hint, hseq]; rfl, ?_⟩
  simp only [toMap, foldl_cons, foldl_nil, insertNonEmpty, if_true,
    GoMap.getElem?_insert, String.reduceEq, if_false]

def namedLogEntry (logID : GoString) : LogEntry fmt :=
  ⟨namedEntry logID, by
    obtain ⟨m, hm, -⟩ := entryToMap_namedEntry fmt logID
    rw [hm]
    rfl⟩

theorem canonical_namedLogEntry_ne (logID logID' : GoString) (h : toChars logID ≠ toChars logID') :
    (namedLogEntry fmt logID).canonical ≠ (namedLogEntry fmt logID').canonical := by
  intro heq
  obtain ⟨m, hm, hkey⟩ := entryToMap_namedEntry fmt logID
  obtain ⟨m', hm', hkey'⟩ := entryToMap_namedEntry fmt logID'
  have hcanonical : canonicalJSON fmt m = canonicalJSON fmt m' := by
    rw [← LogEntry.canonical_eq (e := namedLogEntry fmt logID) hm, heq,
      LogEntry.canonical_eq (e := namedLogEntry fmt logID') hm']
  have hnormal := map_normal_eq_of_marshal_eq fmt (canonicalText_of_canonicalJSON_eq fmt hcanonical) "log_id"
  rw [hkey, hkey'] at hnormal
  simp only [jsonString, map_some, normal, toChars_ofChars,
    some.injEq, string.injEq] at hnormal
  exact h (ofChars_injective hnormal)

def oddLog (n i : Nat) : List (LogEntry fmt) :=
  (range n).map fun j => namedLogEntry fmt (if j = i then "odd" else [])

theorem getElem?_oddLog {n j : Nat} (i : Nat) (hj : j < n) :
    (oddLog fmt n i)[j]? = some (namedLogEntry fmt (if j = i then "odd" else [])) := by
  rw [oddLog, getElem?_map, getElem?_range hj, map_some]

theorem length_oddLog (n i : Nat) : (oddLog fmt n i).length = n := by
  rw [oddLog, length_map, length_range]

def oddHash : Bytes → Digest := sideHash sides (namedLogEntry fmt "odd").canonical

theorem leafDigest_oddLog {n i j : Nat} (hj : j < n) :
    leafDigest (oddHash fmt sides) (oddLog fmt n i) j = if j = i then mark 1 else mark 0 := by
  rw [leafDigest_of_getElem? _ (getElem?_oddLog fmt i hj), oddHash, sideHash]
  by_cases hodd : j = i
  · rw [if_pos hodd, if_pos rfl, if_pos hodd]
  have hne := canonical_namedLogEntry_ne fmt [] "odd" (by decide)
  have hhead : ¬ (0 :: (namedLogEntry fmt []).canonical).head? = some 1 := by
    rw [head?_cons]
    decide
  rw [if_neg hodd, if_neg hodd, if_neg fun heq => hne (cons.inj heq).2, if_neg hhead]

/-- Along the audit path of the odd entry, turns count to the end exactly if they are its sides. -/
theorem climb_oddLog {n i : Nat} (hi : i < n) (hn : n < 2 ^ 64) {turns : List Bool}
    (hturns : turns.length = ((shape n).sides i).length) : climb (joinDigests (oddHash fmt ((shape n).sides i)))
        (leafDigest (oddHash fmt ((shape n).sides i)) (oddLog fmt n i) i)
        (turns.zip (auditPath (joinDigests (oddHash fmt ((shape n).sides i))) (shape n) i
          (leafDigest (oddHash fmt ((shape n).sides i)) (oddLog fmt n i)))) =
      if turns = (shape n).sides i then mark (((shape n).sides i).length + 1) else mark 0 := by
  have hdepth : ((shape n).sides i).length < 255 := by
    have hle := length_sides_le hi
    have hclog : Nat.clog 2 n ≤ 64 := Nat.clog_le_of_le_pow (Nat.le_of_lt hn)
    omega
  have hsize : (shape n).size = n := size_shape (Nat.zero_lt_of_lt hi)
  rw [leafDigest_oddLog fmt _ hi, if_pos rfl]
  refine climb_mark hdepth _ (c := 0) ?_ ?_ ?_
  · rw [length_auditPath, hturns]
  · intro sibling hsibling
    refine eq_of_mem_auditPath _ (joinDigests_mark _ _ (by decide) (by decide)) (shape n)
      (by rw [hsize]; exact hi) ?_ hsibling
    intro j hj hne
    rw [hsize] at hj
    exact (leafDigest_oddLog fmt _ hj).trans (if_neg hne)
  · rw [Nat.zero_add, hturns]

def honestProof (sha256 : Bytes → Digest) (log : List (LogEntry fmt)) (i : UInt64) : InclusionProof where
  seq := 0
  leafIndex := i
  treeSize := ofNat log.length
  leafHash := rawURLEncode (leafDigest sha256 log i.toNat).1
  auditPath :=
    (Merkle.auditPath (joinDigests sha256) (shape log.length) i.toNat (leafDigest sha256 log)).map
      fun digest => rawURLEncode digest.1

def honestHead (sha256 : Bytes → Digest) (log : List (LogEntry fmt)) : SignedTreeHead where
  logID := []
  treeSize := ofNat log.length
  timestamp := []
  sha256RootHash := rawURLEncode (treeHash sha256 log).1
  signature := []

/-- A leaf on the deepest level of the tree: no level is skipped on its way to the root. -/
def OnDeepestLevel (n i : Nat) : Prop := ((shape n).sides i).length = Nat.clog 2 n

/-- For any other leaf some hash tells the climb along the bits from the one along the sides. -/
theorem exists_rejected {n i : UInt64} (hi : i < n) (h : ¬ OnDeepestLevel n.toNat i.toNat) :
    ∃ (sha256 : Bytes → Digest) (log : List (LogEntry fmt)) (e : LogEntry fmt)
      (proof : InclusionProof) (sth : SignedTreeHead),
      log.length = n.toNat ∧ log[i.toNat]? = some e ∧ Honest sha256 log i proof sth ∧
      verifyInclusion fmt sha256 proof sth e.1 = false := by
  have hin : i.toNat < n.toNat := lt_iff_toNat_lt.mp hi
  have hn : n.toNat < 2 ^ 64 := n.toNat_lt
  have hlength := length_oddLog fmt n.toNat i.toNat
  have hsize : (ofNat (oddLog fmt n.toNat i.toNat).length).toNat =
      (oddLog fmt n.toNat i.toNat).length := by
    rw [hlength]
    exact Nat.mod_eq_of_lt hn
  have he := getElem?_oddLog fmt i.toNat hin
  have hhonest : ∀ sha256 : Bytes → Digest, Honest sha256 (oddLog fmt n.toNat i.toNat) i
      (honestProof fmt sha256 (oddLog fmt n.toNat i.toNat) i)
      (honestHead fmt sha256 (oddLog fmt n.toNat i.toNat)) := fun sha256 =>
    { leafIndex := rfl, treeSize := ⟨hsize, hsize⟩, leafHash := rfl, auditPath := rfl, rootHash := rfl }
  refine ⟨oddHash fmt ((shape n.toNat).sides i.toNat), _, _, _, _, hlength, he, hhonest _, ?_⟩
  rw [Bool.eq_false_iff, ne_eq, verifyInclusion_honest _ (hhonest _) he]
  -- the root is where the climb along the sides ends, and the bits are not the sides
  have hroot := climb_auditPath (joinDigests (oddHash fmt ((shape n.toNat).sides i.toNat)))
    (shape n.toNat) (by rw [size_shape (Nat.zero_lt_of_lt hin)]; exact hin)
    (leafDigest (oddHash fmt ((shape n.toNat).sides i.toNat)) (oddLog fmt n.toNat i.toNat))
  rw [climb_oddLog fmt hin hn rfl, if_pos rfl] at hroot
  have hne : oddLog fmt n.toNat i.toNat ≠ [] :=
    ne_nil_of_length_pos (by rw [hlength]; exact Nat.zero_lt_of_lt hin)
  rw [treeHash_of_ne_nil _ hne, hlength, ← hroot, climb_oddLog fmt hin hn (length_bits _ _),
    if_neg fun hbits => h ((sides_eq_bits_iff hin).mp hbits.symm)]
  intro hmark
  have hdepth := length_sides_le hin
  have hclog : Nat.clog 2 n.toNat ≤ 64 := Nat.clog_le_of_le_pow (Nat.le_of_lt hn)
  exact absurd (mark_injective (by decide) (by omega) hmark) (Nat.succ_ne_zero _).symm

/-- Every honest proof for a position of a log of given size is accepted, whatever SHA-256 is. -/
def InclusionComplete (n i : UInt64) : Prop :=
  ∀ (sha256 : Bytes → Digest) (log : List (LogEntry fmt)) (e : LogEntry fmt)
    (proof : InclusionProof) (sth : SignedTreeHead), log.length = n.toNat →
    log[i.toNat]? = some e → Honest sha256 log i proof sth →
    verifyInclusion fmt sha256 proof sth e.1 = true

theorem inclusionComplete_iff (n i : UInt64) (hi : i < n) :
    InclusionComplete fmt n i ↔ OnDeepestLevel n.toNat i.toNat := by
  have hin : i.toNat < n.toNat := lt_iff_toNat_lt.mp hi
  refine ⟨?_, ?_⟩
  · intro hcomplete
    by_contra hlevel
    obtain ⟨sha256, log, e, proof, sth, hlength, he, hhonest, hrejected⟩ :=
      exists_rejected fmt hi hlevel
    rw [hcomplete sha256 log e proof sth hlength he hhonest] at hrejected
    cases hrejected
  · intro hlevel sha256 log e proof sth hlength he hhonest
    have hne : log ≠ [] := ne_nil_of_length_pos (by omega)
    rw [verifyInclusion_honest sha256 hhonest he, treeHash_of_ne_nil sha256 hne, hlength,
      ← (sides_eq_bits_iff hin).mpr hlevel]
    exact climb_auditPath _ _ (by rw [size_shape (Nat.zero_lt_of_lt hin)]; exact hin) _

/-- A proof for a leaf that lies on the deepest level. -/
theorem second_of_two_complete : (1 : UInt64) < 2 ∧ (InclusionComplete jsonNumber 2 1 ↔ OnDeepestLevel 2 1) :=
  ⟨by decide, inclusionComplete_iff jsonNumber 2 1 (by decide)⟩

theorem third_of_three_not_deepest : ¬ OnDeepestLevel 3 2 := by
  have hsplit : split 3 = 2 := by rw [split]; rfl
  rw [OnDeepestLevel, sides_of_le (by decide) (by rw [hsplit]), shape_of_lt (by decide)]
  decide

/-- In a tree of three leaves the last has no sibling on its own level: its path has one entry, which
stands on the left, and the lowest bit of its index says right. -/
theorem third_of_three_rejected :
    ∃ (sha256 : Bytes → Digest) (log : List (LogEntry jsonNumber)) (e : LogEntry jsonNumber)
      (proof : InclusionProof) (sth : SignedTreeHead),
      log.length = 3 ∧ log[2]? = some e ∧ Honest sha256 log 2 proof sth ∧
      verifyInclusion jsonNumber sha256 proof sth e.1 = false :=
  exists_rejected jsonNumber (n := 3) (i := 2) (by decide) third_of_three_not_deepest

/-! ### Soundness -/

section

variable (sha256 : Bytes → Digest)

def nodeInputs : Shape → (Nat → Digest) → List Bytes
  | .leaf, _ => []
  | .node left right, d =>
    (1 :: ((root (joinDigests sha256) left d).1 ++
      (root (joinDigests sha256) right fun i => d (left.size + i)).1)) ::
    (nodeInputs left d ++ nodeInputs right fun i => d (left.size + i))

variable {fmt}

def treeInputs (log : List (LogEntry fmt)) : List Bytes :=
  if log = [] then [[]]
  else
    (range log.length).map (leafInput log) ++
      nodeInputs sha256 (shape log.length) (leafDigest sha256 log)

/-- Nothing else has the hash of a part of the tree. -/
def CollisionFree (log : List (LogEntry fmt)) : Prop :=
  ∀ x ∈ treeInputs sha256 log, ∀ y, sha256 y = sha256 x → y = x

theorem binding_of_unique {x : Digest} {content : Bytes} (hx : x = sha256 (0 :: content)) {t : Shape} {d : Nat → Digest}
    (hleaf : ∀ j < t.size, ∃ c, ∀ y, sha256 y = d j → y = 0 :: c)
    (hnode : ∀ z ∈ nodeInputs sha256 t d, ∀ y, sha256 y = sha256 z → y = z) : Binding (joinDigests sha256) x t d := by
  induction t generalizing d with
  | leaf =>
    intro a b hjoin
    obtain ⟨c, hc⟩ := hleaf 0 Nat.one_pos
    exact absurd (cons.inj (hc _ hjoin)).1 (by decide)
  | node left right ihl ihr =>
    rw [nodeInputs, forall_mem_cons] at hnode
    obtain ⟨htop, hrest⟩ := hnode
    rw [forall_mem_append] at hrest
    refine ⟨?_, ?_, ihl ?_ hrest.1, ihr ?_ hrest.2⟩
    · intro a b hjoin
      have hparts := append_inj (cons.inj (htop _ hjoin)).2
        (a.2.trans (root (joinDigests sha256) left d).2.symm)
      exact ⟨Subtype.ext hparts.1, Subtype.ext hparts.2⟩
    · intro hclaim
      exact absurd (cons.inj (htop _ (hx.symm.trans hclaim))).1 (by decide)
    · exact fun j hj => hleaf j (Nat.lt_add_right _ hj)
    · exact fun j hj => hleaf _ (Nat.add_lt_add_left hj _)

variable {log : List (LogEntry fmt)} {proof : InclusionProof} {sth : SignedTreeHead} {entry : ReputationLogEntry}

theorem CollisionFree.leaf (h : CollisionFree sha256 log) {j : Nat} {e : LogEntry fmt} (he : log[j]? = some e)
    {y : Bytes} (hy : sha256 y = leafDigest sha256 log j) : y = 0 :: e.canonical := by
  have hj : j < log.length := (List.getElem?_eq_some_iff.mp he).1
  have hne : log ≠ [] := ne_nil_of_length_pos (Nat.zero_lt_of_lt hj)
  have hinput : leafInput log j = 0 :: e.canonical := by rw [leafInput, he]
  rw [← hinput]
  refine h _ ?_ y hy
  rw [treeInputs, if_neg hne, mem_append]
  exact Or.inl (mem_map.mpr ⟨j, mem_range.mpr hj, rfl⟩)

theorem CollisionFree.binding (h : CollisionFree sha256 log) (hne : log ≠ []) {x : Digest} {content : Bytes}
    (hx : x = sha256 (0 :: content)) : Binding (joinDigests sha256) x (shape log.length) (leafDigest sha256 log) := by
  refine binding_of_unique sha256 hx ?_ ?_
  · intro j hj
    rw [size_shape (length_pos_iff.mpr hne)] at hj
    exact ⟨log[j].canonical, fun y hy => h.leaf sha256 (getElem?_eq_getElem hj) hy⟩
  · intro z hz
    refine h z ?_
    rw [treeInputs, if_neg hne, mem_append]
    exact Or.inr hz

theorem verifyInclusion_accepted (h : verifyInclusion fmt sha256 proof sth entry = true) :
    ∃ m siblings, entryToMap fmt entry = some m ∧ siblings.length = proof.auditPath.length ∧
      rawURLDecode sth.sha256RootHash = some (climb (joinDigests sha256) (sha256 (0 :: canonicalJSON fmt m))
        ((bits proof.leafIndex.toNat proof.auditPath.length).zip siblings)).1 := by
  rw [verifyInclusion] at h
  cases hm : entryToMap fmt entry with
  | none =>
    rw [hm] at h
    cases h
  | some m =>
    rw [hm] at h
    dsimp only at h
    split at h
    · cases h
    split_ifs at h
    split at h
    · cases h
    rename_i result hloop
    obtain ⟨siblings, hlength, hresult⟩ := climb_of_auditLoop sha256 hloop
    split at h
    · cases h
    rename_i rootHash hroot
    refine ⟨m, siblings, rfl, hlength, ?_⟩
    rw [hroot, ← of_decide_eq_true h, hresult, bitsFrom_zero]

/-- The entry at a position of the log has the canonical form of the given one. -/
def HoldsAt (log : List (LogEntry fmt)) (i : Nat) (entry : ReputationLogEntry) : Prop :=
  ∃ e, log[i]? = some e ∧ (entryToMap fmt entry).map (canonicalJSON fmt) = some e.canonical

/-- The leaf that as many bits of the index lead to as the path has entries. -/
def turnsTo (n : Nat) (proof : InclusionProof) : Option Nat :=
  (shape n).locate (bits proof.leafIndex.toNat proof.auditPath.length).reverse

/-- A climb ends with the hash of a leaf or of an inner node. -/
theorem climb_eq_hash (content : Bytes) (steps : List (Bool × Digest)) :
    ∃ tag rest, climb (joinDigests sha256) (sha256 (0 :: content)) steps = sha256 (tag :: rest) := by
  rcases eq_nil_or_concat' steps with rfl | ⟨init, ⟨side, sibling⟩, rfl⟩
  · exact ⟨0, content, rfl⟩
  · rw [climb_append]
    cases side <;> exact ⟨1, _, rfl⟩

/-- An accepted entry is the one that the bits of the index lead to. -/
theorem holdsAt_turnsTo (hfree : CollisionFree sha256 log)
    (hroot : rawURLDecode sth.sha256RootHash = some (treeHash sha256 log).1)
    (haccepted : verifyInclusion fmt sha256 proof sth entry = true) :
    ∃ p, turnsTo log.length proof = some p ∧ HoldsAt log p entry := by
  obtain ⟨m, siblings, hm, hlength, hclimb⟩ := verifyInclusion_accepted sha256 haccepted
  rw [hroot, some.injEq] at hclimb
  have htree := (Subtype.ext hclimb).symm
  by_cases hne : log = []
  · obtain ⟨tag, rest, hhash⟩ :=
      climb_eq_hash sha256 (canonicalJSON fmt m) ((bits _ proof.auditPath.length).zip siblings)
    rw [hhash, treeHash, if_pos hne] at htree
    have hempty := hfree [] (by rw [treeInputs, if_pos hne]; exact mem_singleton_self _) _ htree
    cases hempty
  · rw [treeHash_of_ne_nil sha256 hne] at htree
    obtain ⟨p, hp, hleaf⟩ := locate_of_climb _ _ (hfree.binding sha256 hne rfl) htree
    rw [map_fst_zip (by rw [length_bits, hlength])] at hp
    have hlt := Shape.locate_lt _ hp
    rw [size_shape (length_pos_iff.mpr hne)] at hlt
    refine ⟨p, hp, log[p], getElem?_eq_getElem hlt, ?_⟩
    have hinput := hfree.leaf sha256 (getElem?_eq_getElem hlt) hleaf
    rw [hm, map_some, (cons.inj hinput).2]

/-- The leaf that the bits lead to is the one the index names, or holds the same. -/
def LeadsHome (log : List (LogEntry fmt)) (proof : InclusionProof) : Prop :=
  ∀ p, turnsTo log.length proof = some p →
    ∃ e e', log[proof.leafIndex.toNat]? = some e ∧ log[p]? = some e' ∧ e.canonical = e'.canonical

theorem inclusion_sound_iff (log : List (LogEntry fmt)) (proof : InclusionProof)
    (sth : SignedTreeHead) (entry : ReputationLogEntry) (hfree : CollisionFree sha256 log)
    (hsize : sth.treeSize.toNat = log.length) (hroot : rawURLDecode sth.sha256RootHash = some (treeHash sha256 log).1)
    (haccepted : verifyInclusion fmt sha256 proof sth entry = true) :
    (proof.leafIndex < sth.treeSize ∧ HoldsAt log proof.leafIndex.toNat entry) ↔ LeadsHome log proof := by
  obtain ⟨p, hp, e', he', hentry⟩ := holdsAt_turnsTo sha256 hfree hroot haccepted
  refine ⟨?_, ?_⟩
  · rintro ⟨-, e, he, hsame⟩ q hq
    rw [hp, some.injEq] at hq
    subst hq
    rw [hentry, some.injEq] at hsame
    exact ⟨e, e', he, he', hsame.symm⟩
  · intro hhome
    obtain ⟨e, e'', he, he'', hsame⟩ := hhome p hp
    rw [he', some.injEq] at he''
    subst he''
    refine ⟨?_, e, he, by rw [hentry, hsame]⟩
    rw [lt_iff_toNat_lt, hsize]
    exact (List.getElem?_eq_some_iff.mp he).1

end

/-! ### A log of three entries -/

def tripleLog : List (LogEntry jsonNumber) :=
  [namedLogEntry jsonNumber "a", namedLogEntry jsonNumber "b", namedLogEntry jsonNumber "c"]

/-- What the digests of the tree are the hashes of: its leaves and then, upwards, its inner nodes. -/
def tripleInputs : List Bytes :=
  [0 :: (namedLogEntry jsonNumber "a").canonical, 0 :: (namedLogEntry jsonNumber "b").canonical,
    0 :: (namedLogEntry jsonNumber "c").canonical, 1 :: ((mark 0).1 ++ (mark 1).1), 1 :: ((mark 3).1 ++ (mark 2).1)]

def tripleHash (input : Bytes) : Digest := mark (tripleInputs.idxOf input)

theorem nodup_tripleInputs : tripleInputs.Nodup := by
  have hab := canonical_namedLogEntry_ne jsonNumber "a" "b" (by decide)
  have hac := canonical_namedLogEntry_ne jsonNumber "a" "c" (by decide)
  have hbc := canonical_namedLogEntry_ne jsonNumber "b" "c" (by decide)
  have htag : ¬(0 : UInt8) = 1 := by decide
  have hnodes : ¬(mark 0).1 ++ (mark 1).1 = (mark 3).1 ++ (mark 2).1 := by decide
  simp only [tripleInputs, nodup_cons, mem_cons, not_mem_nil, cons.injEq, hab, hac, hbc, htag, hnodes, and_false,
    false_and, or_false, not_false_eq_true, nodup_nil, and_self]

theorem tripleHash_of_getElem? {i : Nat} {input : Bytes} (h : tripleInputs[i]? = some input) :
    tripleHash input = mark i := by
  obtain ⟨hi, rfl⟩ := List.getElem?_eq_some_iff.mp h
  rw [tripleHash, nodup_tripleInputs.idxOf_getElem]

theorem tripleHash_injective {x y : Bytes} (hx : x ∈ tripleInputs) (h : tripleHash y = tripleHash x) : y = x := by
  have hbound : ∀ input, tripleInputs.idxOf input < 256 := fun input =>
    Nat.lt_of_le_of_lt idxOf_le_length (by decide)
  exact ((idxOf_inj hx).mp (mark_injective (hbound x) (hbound y) h.symm)).symm

theorem tripleLog_ne_nil : tripleLog ≠ [] := cons_ne_nil _ _

theorem shape_tripleLog : shape tripleLog.length = .node (.node .leaf .leaf) .leaf := by
  have hthree : split 3 = 2 := by rw [split]; rfl
  have htwo : split 2 = 1 := by rw [split]; rfl
  change shape 3 = _
  rw [shape_of_le (by decide), hthree, shape_of_le (by decide), htwo, shape_of_lt (by decide)]

theorem nodeInputs_tripleLog : nodeInputs tripleHash (shape tripleLog.length) (leafDigest tripleHash tripleLog) =
    (tripleInputs.drop 3).reverse := by
  have hfirst : leafDigest tripleHash tripleLog 0 = mark 0 := tripleHash_of_getElem? rfl
  have hsecond : leafDigest tripleHash tripleLog 1 = mark 1 := tripleHash_of_getElem? rfl
  have hthird : leafDigest tripleHash tripleLog 2 = mark 2 := tripleHash_of_getElem? rfl
  have hpair : joinDigests tripleHash (mark 0) (mark 1) = mark 3 := tripleHash_of_getElem? rfl
  rw [shape_tripleLog]
  change [1 :: ((joinDigests tripleHash (leafDigest tripleHash tripleLog 0) (leafDigest tripleHash tripleLog 1)).1 ++
      (leafDigest tripleHash tripleLog 2).1),
    1 :: ((leafDigest tripleHash tripleLog 0).1 ++ (leafDigest tripleHash tripleLog 1).1)] = _
  rw [hfirst, hsecond, hthird, hpair]
  rfl

theorem collisionFree_tripleHash : CollisionFree tripleHash tripleLog := by
  intro x hx y hy
  refine tripleHash_injective ?_ hy
  rw [treeInputs, if_neg tripleLog_ne_nil, nodeInputs_tripleLog] at hx
  rcases mem_append.mp hx with hleaf | hnode
  · exact mem_of_mem_take (show x ∈ tripleInputs.take 3 from hleaf)
  · exact mem_of_mem_drop (mem_reverse.mp hnode)

/-- The path of the second entry, under any index. -/
def secondProof (leafIndex : UInt64) : InclusionProof :=
  { honestProof jsonNumber tripleHash tripleLog 1 with leafIndex := leafIndex }

def tripleHead : SignedTreeHead := honestHead jsonNumber tripleHash tripleLog

theorem tripleHead_root : rawURLDecode tripleHead.sha256RootHash = some (treeHash tripleHash tripleLog).1 :=
  rawURLDecode_rawURLEncode _

theorem secondProof_accepted {leafIndex : UInt64} (h : bits leafIndex.toNat 2 = [true, false]) :
    verifyInclusion jsonNumber tripleHash (secondProof leafIndex) tripleHead (namedLogEntry jsonNumber "b").1 =
      true := by
  rw [verifyInclusion_of_path tripleHash (i := 1) rfl rfl rfl tripleHead_root]
  have hsides : (shape tripleLog.length).sides 1 = [true, false] := by
    rw [shape_tripleLog]
    rfl
  rw [treeHash_of_ne_nil tripleHash tripleLog_ne_nil, ← climb_auditPath (joinDigests tripleHash)
    (shape tripleLog.length) (i := 1) (by rw [shape_tripleLog]; decide), hsides]
  change climb _ _ ((bits leafIndex.toNat 2).zip _) = _
  rw [h]

/-- The second of three entries is accepted under its own index, and is the one there. -/
theorem second_of_three_sound :
    verifyInclusion jsonNumber tripleHash (secondProof 1) tripleHead (namedLogEntry jsonNumber "b").1 = true ∧
      (1 < tripleHead.treeSize ∧ HoldsAt tripleLog 1 (namedLogEntry jsonNumber "b").1) := by
  have haccepted := @secondProof_accepted 1 (by decide)
  have hhome : LeadsHome tripleLog (secondProof 1) := by
    intro p hp
    have hturns : turnsTo tripleLog.length (secondProof 1) = some 1 := by
      rw [turnsTo, shape_tripleLog, secondProof, honestProof, shape_tripleLog]
      rfl
    cases hturns.symm.trans hp
    exact ⟨_, _, rfl, rfl, rfl⟩
  exact ⟨haccepted, (inclusion_sound_iff tripleHash tripleLog (secondProof 1) _ _ collisionFree_tripleHash rfl
    tripleHead_root haccepted).mpr hhome⟩

/-- The index 5 has the lower bits of 1, so it is accepted for the second of three entries. -/
theorem index_past_end_accepted : CollisionFree tripleHash tripleLog ∧ tripleHead.treeSize.toNat = tripleLog.length ∧
    rawURLDecode tripleHead.sha256RootHash = some (treeHash tripleHash tripleLog).1 ∧
    verifyInclusion jsonNumber tripleHash (secondProof 5) tripleHead (namedLogEntry jsonNumber "b").1 = true ∧
    ¬ (secondProof 5).leafIndex < tripleHead.treeSize :=
  ⟨collisionFree_tripleHash, rfl, tripleHead_root, secondProof_accepted (by decide), by decide⟩

end Entries

end NpsSdk.Nip
