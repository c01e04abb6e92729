import NpsSdk.NdpRegistryProfile

/-! Sequences of announcements at a registry. The highest sequence number of a NID only grows and is that
of the entry stored for it; a NID that was removed comes back only with a higher one. An entry lives as
long as its announcement says from the time it names last, and only one of the two times it may name is
compared with the clock. A heartbeat replaces the deadline of the one before it, also by an earlier one. -/

open NpsSdk.Core

namespace NpsSdk.Ndp

open GoTime Option
open GoDict List

section

variable {T : Type} (P : Platform T) (frame : GoDict T)

/-- The sequence number of an announcement; one without has zero. -/
def frameSequence : UInt64 := (uintValue P (GoDict.get frame "graph_seq")).getD 0

theorem uintValue_withoutNulls (v : GoAny T) : uintValue P (withoutNulls v) = uintValue P v := by
  cases v with
  | map => rw [withoutNulls_map]; rfl
  | nilOf kind => cases kind <;> rfl
  | _ => rfl

theorem cloneMap_eq : cloneMap frame = strippedDict frame := by
  rw [cloneMap, withoutNulls_ofMap, GoAny.asMap_ofMap]
  rfl

theorem asString_withoutNulls (v : GoAny T) : (withoutNulls v).asString = v.asString := by
  cases v with
  | map => rw [withoutNulls_map]; rfl
  | nilOf kind => cases kind <;> rfl
  | _ => rfl

theorem get_cloneMap (key : String) : GoDict.get (cloneMap frame) key = withoutNulls (GoDict.get frame key) := by
  rw [cloneMap_eq, GoDict.get, GoDict.get, getElem?_strippedDict]
  cases frame[key]? with
  | none => rfl
  | some v =>
    rw [map_some, getD_some]
    cases withoutNulls v <;> rfl

theorem str_cloneMap (key : String) : str (cloneMap frame) key = str frame key := by
  rw [str, optStr, get_cloneMap, asString_withoutNulls]
  rfl

variable {P} {sha256 : Bytes → Bytes} {securityProfile : GoString} {frame : GoDict T} {signatureValid : Bool}
  {receivedAt : Time} {a : Announced}

/-- What an announcement that passes the checks on itself is like. -/
structure Checked (P : Platform T) (securityProfile : GoString) (frame : GoDict T) (receivedAt : Time)
    (a : Announced) : Prop where
  nid : a.nid = str frame "nid"
  nid_ne : a.nid ≠ []
  sequence : a.sequence = frameSequence P frame
  sequence_read : frame["graph_seq"]?.isSome → uintValue P (GoDict.get frame "graph_seq") = some a.sequence
  ttl : uintValue P (GoDict.get frame "ttl") = some a.ttl
  ttl_lt : a.ttl.toNat < 2 ^ 32
  skew : securityProfile ≠ localDev →
    ∃ timestamp, timeValue frame "timestamp" = some timestamp ∧ |receivedAt - timestamp| ≤ 5 * minute

theorem checked_of_checkAnnounce (h : checkAnnounce P sha256 securityProfile frame signatureValid receivedAt = .ok a) :
    Checked P securityProfile frame receivedAt a := by
  rw [checkAnnounce] at h
  split at h
  · cases h
  dsimp only at h
  split at h
  · cases h
  rename_i timestamp htimestamp
  split at h
  · cases h
  rename_i hnid
  split at h
  · cases h
  rename_i hsequence
  split at h
  · cases h
  rename_i ttl httl
  split_ifs at h with hlong hshape hskew
  split at h
  · cases h
  cases h
  refine ⟨rfl, hnid, rfl, fun hpresent => ?_, httl, Nat.lt_of_le_pred (by decide) (Nat.not_lt.mp hlong),
    fun hprofile => ⟨timestamp, htimestamp, ?_⟩⟩
  · have hread := fun hnone => hsequence (.inl ⟨hpresent, hnone⟩)
    obtain ⟨sequence, hread⟩ := ne_none_iff_exists'.mp hread
    rw [hread]
    rfl
  have hnear := not_lt.mp fun hfar => hskew ⟨hprofile, hfar⟩
  rw [← not_lt, ← lt_abs_sub_iff (by decide) (by decide), not_lt]
  exact hnear

end

namespace NdpRegistryProfile

variable {T : Type} {P : Platform T} {sha256 : Bytes → Bytes} {r : NdpRegistryProfile T} {frame : GoDict T}
  {signatureValid : Bool} {receivedAt : Time}

/-! ### One announcement -/

/-- The registry knows no sequence number of the announcement's NID that is as high. -/
def IsNewer (r : NdpRegistryProfile T) (a : Announced) : Prop :=
  ∀ highest, r.sequences a.nid = some highest → highest < a.sequence

inductive Outcome (P : Platform T) (r : NdpRegistryProfile T) (frame : GoDict T) (receivedAt : Time) :
    NdpRegistryProfile T × NdpRegistryAdmission → Prop where
  | rejected (errorCode : GoString) : Outcome P r frame receivedAt (r, rejectAdmission errorCode)
  | duplicate : Outcome P r frame receivedAt (r, { decision := .duplicate })
  | removed (a : Announced) (checked : Checked P r.securityProfile frame receivedAt a) (newer : r.IsNewer a) :
      Outcome P r frame receivedAt (r.put a none, { decision := .removed })
  | accepted (a : Announced) (expiresAt : Time) (checked : Checked P r.securityProfile frame receivedAt a)
      (newer : r.IsNewer a) (deadline : freshnessDeadline P frame = some expiresAt)
      (fresh : receivedAt < expiresAt) :
      Outcome P r frame receivedAt
        (r.put a (some ⟨cloneMap frame, a.digest, expiresAt⟩), { decision := .accepted })
  | refreshed (a : Announced) (expiresAt : Time) (current : ProfileEntry T)
      (checked : Checked P r.securityProfile frame receivedAt a)
      (highest : r.sequences a.nid = some a.sequence) (stored : r.entries a.nid = some current)
      (deadline : freshnessDeadline P frame = some expiresAt) :
      Outcome P r frame receivedAt
        (r.put a (some ⟨cloneMap frame, a.digest, expiresAt⟩), { decision := .refreshed })

variable {a : Announced} {sequence : UInt64} {nid : GoString}

section

variable (hchecked : Checked P r.securityProfile frame receivedAt a)
include hchecked

theorem outcome_admitNewer (hnewer : r.IsNewer a) :
    Outcome P r frame receivedAt (r.admitNewer P frame a receivedAt) := by
  rw [admitNewer]
  split_ifs
  · exact .removed a hchecked hnewer
  rw [store]
  split
  · exact .rejected _
  rename_i expiresAt hdeadline
  split_ifs with hfresh
  · exact .accepted a expiresAt hchecked hnewer hdeadline hfresh
  · exact .rejected _

theorem outcome_admitSame
    (hhighest : r.sequences a.nid = some a.sequence) :
    Outcome P r frame receivedAt (r.admitSame P frame a receivedAt) := by
  rw [admitSame]
  split
  · exact .duplicate
  rename_i current hstored
  split_ifs
  · exact .rejected _
  · exact .duplicate
  rw [store]
  split
  · exact .rejected _
  rename_i expiresAt hdeadline
  split_ifs
  · exact .refreshed a expiresAt current hchecked hhighest hstored hdeadline
  · exact .rejected _

end

theorem outcome_applyAnnounce (P : Platform T) (sha256 : Bytes → Bytes) (r : NdpRegistryProfile T)
    (frame : GoDict T) (signatureValid : Bool) (receivedAt : Time) :
    Outcome P r frame receivedAt (r.applyAnnounce P sha256 frame signatureValid receivedAt) := by
  rw [applyAnnounce]
  split
  · exact .rejected _
  rename_i a hcheck
  have hchecked := checked_of_checkAnnounce hcheck
  split
  · rename_i hnone
    exact outcome_admitNewer hchecked fun highest h => by rw [hnone] at h; cases h
  rename_i highest hhighest
  split_ifs with hlt heq
  · exact .rejected _
  · exact outcome_admitSame hchecked (heq ▸ hhighest)
  refine outcome_admitNewer hchecked fun highest' h => ?_
  rw [hhighest] at h
  cases h
  exact UInt64.lt_of_le_of_ne (UInt64.not_lt.mp hlt) (Ne.symm heq)

/-! ### Sequences of announcements -/

structure Call (T : Type) where
  frame : GoDict T
  signatureValid : Bool
  receivedAt : Time

section

variable (P sha256)

def call (r : NdpRegistryProfile T) (c : Call T) : NdpRegistryProfile T × NdpRegistryAdmission :=
  r.applyAnnounce P sha256 c.frame c.signatureValid c.receivedAt

def calls (r : NdpRegistryProfile T) (cs : List (Call T)) : NdpRegistryProfile T :=
  cs.foldl (fun r c => (r.call P sha256 c).1) r

end

variable (P sha256) in
theorem outcome_call (r : NdpRegistryProfile T) (c : Call T) : Outcome P r c.frame c.receivedAt (r.call P sha256 c) :=
  outcome_applyAnnounce P sha256 r c.frame c.signatureValid c.receivedAt

theorem calls_invariant {I : NdpRegistryProfile T → Prop} (hstep : ∀ r c, I r → I (r.call P sha256 c).1)
    (cs : List (Call T)) (hr : I r) : I (r.calls P sha256 cs) := by
  induction cs generalizing r with
  | nil => exact hr
  | cons c cs ih => exact ih (hstep r c hr)

theorem sequences_put (a : Announced) (entry : Option (ProfileEntry T)) (nid : GoString) :
    (r.put a entry).sequences nid = if nid = a.nid then some a.sequence else r.sequences nid :=
  Function.update_apply _ _ _ _

theorem entries_put (a : Announced) (entry : Option (ProfileEntry T)) (nid : GoString) :
    (r.put a entry).entries nid = if nid = a.nid then entry else r.entries nid :=
  Function.update_apply _ _ _ _

/-- The registry knows a sequence number of the NID at least as high as the given one. -/
def KnowsUpTo (nid : GoString) (sequence : UInt64) (r : NdpRegistryProfile T) : Prop :=
  ∃ highest, r.sequences nid = some highest ∧ sequence ≤ highest

theorem knowsUpTo_put (h : KnowsUpTo nid sequence r)
    (hle : ∀ highest, r.sequences a.nid = some highest → highest ≤ a.sequence) (entry : Option (ProfileEntry T)) :
    KnowsUpTo nid sequence (r.put a entry) := by
  obtain ⟨highest, hhighest, hsequence⟩ := h
  rw [KnowsUpTo, sequences_put]
  split_ifs with hnid
  · subst hnid
    exact ⟨_, rfl, UInt64.le_trans hsequence (hle highest hhighest)⟩
  · exact ⟨highest, hhighest, hsequence⟩

theorem knowsUpTo_call (r : NdpRegistryProfile T) (c : Call T) (h : KnowsUpTo nid sequence r) :
    KnowsUpTo nid sequence (r.call P sha256 c).1 := by
  have houtcome := outcome_call P sha256 r c
  generalize r.call P sha256 c = result at houtcome ⊢
  cases houtcome with
  | rejected | duplicate => exact h
  | removed a checked newer
  | accepted a expiresAt checked newer => exact knowsUpTo_put h (fun _ hh => UInt64.le_of_lt (newer _ hh)) _
  | refreshed a expiresAt current checked highest =>
    exact knowsUpTo_put h (fun _ hh => UInt64.le_of_eq (some.inj (hh.symm.trans highest))) _

/-- The entry of a NID has the highest sequence number of the NID. -/
def EntriesHighest (P : Platform T) (r : NdpRegistryProfile T) : Prop :=
  ∀ nid e, r.entries nid = some e → r.sequences nid = some (frameSequence P e.frame)

theorem entriesHighest_put (h : EntriesHighest P r) {entry : Option (ProfileEntry T)}
    (hentry : ∀ e, entry = some e → a.sequence = frameSequence P e.frame) : EntriesHighest P (r.put a entry) := by
  intro nid e he
  rw [entries_put] at he
  rw [sequences_put]
  split_ifs at he ⊢ with hnid
  · rw [hentry e he]
  · exact h nid e he

theorem entriesHighest_call (r : NdpRegistryProfile T) (c : Call T) (h : EntriesHighest P r) :
    EntriesHighest P (r.call P sha256 c).1 := by
  have hstored : ∀ {a : Announced}, Checked P r.securityProfile c.frame c.receivedAt a →
      a.sequence = frameSequence P (cloneMap c.frame) := fun checked => by
    rw [checked.sequence, frameSequence, frameSequence, get_cloneMap, uintValue_withoutNulls]
  have houtcome := outcome_call P sha256 r c
  generalize r.call P sha256 c = result at houtcome ⊢
  cases houtcome with
  | rejected | duplicate => exact h
  | removed => exact entriesHighest_put h fun _ he => by cases he
  | accepted a expiresAt checked | refreshed a expiresAt current checked =>
    exact entriesHighest_put h fun e he => by cases he; exact hstored checked

theorem entries_nil_call (r : NdpRegistryProfile T) (c : Call T) (h : r.entries [] = none) :
    (r.call P sha256 c).1.entries [] = none := by
  have hput : ∀ {a : Announced} (entry : Option (ProfileEntry T)),
      Checked P r.securityProfile c.frame c.receivedAt a → (r.put a entry).entries [] = none := by
    intro a entry checked
    rw [entries_put, if_neg checked.nid_ne.symm]
    exact h
  have houtcome := outcome_call P sha256 r c
  generalize r.call P sha256 c = result at houtcome ⊢
  cases houtcome with
  | rejected | duplicate => exact h
  | removed a checked | accepted a expiresAt checked
  | refreshed a expiresAt current checked => exact hput _ checked

variable (P sha256) in
def Reached (r : NdpRegistryProfile T) : Prop :=
  ∃ securityProfile cs, r = (newNdpRegistryProfile T securityProfile).calls P sha256 cs

/-- Nothing is stored without a NID. -/
theorem Reached.entries_nil (h : Reached P sha256 r) : r.entries [] = none := by
  obtain ⟨securityProfile, cs, rfl⟩ := h
  exact calls_invariant entries_nil_call cs rfl

/-- The NID was removed at the given sequence number; nothing is stored for it under that number. -/
def RemovedAt (nid : GoString) (sequence : UInt64) (r : NdpRegistryProfile T) : Prop :=
  ∃ highest, r.sequences nid = some highest ∧
    (sequence < highest ∨ (sequence = highest ∧ r.entries nid = none))

theorem removedAt_put_of_lt (h : RemovedAt nid sequence r) (hlt : a.nid = nid → sequence < a.sequence)
    (entry : Option (ProfileEntry T)) : RemovedAt nid sequence (r.put a entry) := by
  rw [RemovedAt, sequences_put, entries_put]
  split_ifs with hnid
  · exact ⟨_, rfl, .inl (hlt hnid.symm)⟩
  · exact h

theorem RemovedAt.lt_of_newer (h : RemovedAt nid sequence r) (hnewer : r.IsNewer a) (hnid : a.nid = nid) :
    sequence < a.sequence := by
  obtain ⟨highest, hhighest, hlt | ⟨rfl, -⟩⟩ := h
  · exact UInt64.lt_trans hlt (hnewer highest (hnid ▸ hhighest))
  · exact hnewer _ (hnid ▸ hhighest)

/-- An entry that is still there after a removal came later. -/
theorem RemovedAt.lt_of_stored {sequence highest : UInt64} (h : RemovedAt nid sequence r)
    (hhighest : r.sequences nid = some highest) {current : ProfileEntry T} (hstored : r.entries nid = some current) :
    sequence < highest := by
  obtain ⟨highest', hhighest', hlt | ⟨-, hnone⟩⟩ := h
  · rw [hhighest] at hhighest'
    cases hhighest'
    exact hlt
  · rw [hstored] at hnone
    cases hnone

theorem removedAt_call (r : NdpRegistryProfile T) (c : Call T) (h : RemovedAt nid sequence r) :
    RemovedAt nid sequence (r.call P sha256 c).1 := by
  have houtcome := outcome_call P sha256 r c
  generalize r.call P sha256 c = result at houtcome ⊢
  cases houtcome with
  | rejected | duplicate => exact h
  | removed a checked newer
  | accepted a expiresAt checked newer => exact removedAt_put_of_lt h (h.lt_of_newer newer) _
  | refreshed a expiresAt current checked highest stored =>
    exact removedAt_put_of_lt h (fun hnid => h.lt_of_stored (hnid ▸ highest) (hnid ▸ stored)) _

/-- After a removal an announcement without a higher sequence number changes nothing. -/
theorem call_of_removedAt {c : Call T} (h : RemovedAt (str c.frame "nid") sequence r)
    (hle : frameSequence P c.frame ≤ sequence) : (r.call P sha256 c).1 = r := by
  have hnot : ∀ {a : Announced}, Checked P r.securityProfile c.frame c.receivedAt a →
      ¬ sequence < a.sequence := fun checked hlt =>
    UInt64.lt_irrefl _ (UInt64.lt_of_le_of_lt (checked.sequence ▸ hle) hlt)
  have houtcome := outcome_call P sha256 r c
  generalize r.call P sha256 c = result at houtcome ⊢
  cases houtcome with
  | rejected | duplicate => rfl
  | removed a checked newer
  | accepted a expiresAt checked newer => exact absurd (h.lt_of_newer newer checked.nid) (hnot checked)
  | refreshed a expiresAt current checked highest stored =>
    exact absurd (h.lt_of_stored (checked.nid ▸ highest) (checked.nid ▸ stored)) (hnot checked)

theorem call_of_rejected_or_duplicate (r : NdpRegistryProfile T) (c : Call T)
    (h : (r.call P sha256 c).2.decision = .rejected ∨ (r.call P sha256 c).2.decision = .duplicate) :
    (r.call P sha256 c).1 = r := by
  have houtcome := outcome_call P sha256 r c
  generalize r.call P sha256 c = result at houtcome h ⊢
  cases houtcome with
  | rejected | duplicate => rfl
  | removed | accepted | refreshed => rcases h with h | h <;> cases h

theorem removedAt_of_removed (r : NdpRegistryProfile T) (c : Call T) (h : (r.call P sha256 c).2.decision = .removed) :
    (r.call P sha256 c).1.entries (str c.frame "nid") = none ∧
      RemovedAt (str c.frame "nid") (frameSequence P c.frame) (r.call P sha256 c).1 := by
  have houtcome := outcome_call P sha256 r c
  generalize r.call P sha256 c = result at houtcome h ⊢
  cases houtcome with
  | removed a checked newer =>
    have hnone : (r.put a none).entries (str c.frame "nid") = none := by
      rw [entries_put, if_pos checked.nid.symm]
    refine ⟨hnone, a.sequence, ?_, .inr ⟨checked.sequence.symm, hnone⟩⟩
    rw [sequences_put, if_pos checked.nid.symm]
  | rejected | duplicate | accepted | refreshed => cases h

variable (P sha256) in
/-- What is stored never goes back to an earlier announcement, whatever is announced in whatever order. -/
theorem no_rollback (securityProfile : GoString) (cs : List (Call T)) :
    let r := (newNdpRegistryProfile T securityProfile).calls P sha256 cs
    (∀ later nid highest, r.sequences nid = some highest →
        ∃ highest', (r.calls P sha256 later).sequences nid = some highest' ∧ highest ≤ highest') ∧
      (∀ nid e, r.entries nid = some e → r.sequences nid = some (frameSequence P e.frame)) ∧
      (∀ c, (r.call P sha256 c).2.decision = .rejected ∨ (r.call P sha256 c).2.decision = .duplicate →
        (r.call P sha256 c).1 = r) ∧
      ∀ c, (r.call P sha256 c).2.decision = .removed →
        (r.call P sha256 c).1.entries (str c.frame "nid") = none ∧
          ∀ later c', str c'.frame "nid" = str c.frame "nid" →
            frameSequence P c'.frame ≤ frameSequence P c.frame →
              let r' := (r.call P sha256 c).1.calls P sha256 later
              (r'.call P sha256 c').1 = r' := by
  intro r
  refine ⟨fun later nid highest hhighest => ?_, ?_, call_of_rejected_or_duplicate r, fun c hremoved => ?_⟩
  · exact calls_invariant knowsUpTo_call later ⟨highest, hhighest, UInt64.le_refl _⟩
  · exact calls_invariant (I := EntriesHighest P) entriesHighest_call cs fun _ _ he => by cases he
  · obtain ⟨hnone, hgone⟩ := removedAt_of_removed r c hremoved
    refine ⟨hnone, fun later c' hnid hle => ?_⟩
    have hlater : RemovedAt _ _ ((r.call P sha256 c).1.calls P sha256 later) :=
      calls_invariant removedAt_call later hgone
    exact call_of_removedAt (hnid ▸ hlater) hle

def beat (lastSeen : GoString) (ttl sequence : UInt64) : GoDict Empty :=
  GoMap.ofList [("nid", .string ("urn:nps:node:ca:a" : GoString)),
    ("timestamp", .string ("2026-01-01T00:00:00Z" : GoString)), ("last_seen", .string lastSeen),
    ("ttl", .uint64 ttl), ("graph_seq", .uint64 sequence)]

def beatCall (lastSeen : GoString) (ttl sequence : UInt64) : Call Empty :=
  { frame := beat lastSeen ttl sequence, signatureValid := true, receivedAt := 63902822400 * second }

def publicRegistry : NdpRegistryProfile Empty := newNdpRegistryProfile Empty "public"

/-- A node that left does not come back with its first announcement. -/
theorem beat_not_rolled_back : let r := publicRegistry.calls plainPlatform id [beatCall [] 60 1]
    let r' := (r.call plainPlatform id (beatCall [] 0 2)).1
    (r.call plainPlatform id (beatCall [] 0 2)).2.decision = .removed ∧
      (r'.call plainPlatform id (beatCall [] 60 1)).1 = r' := by
  have hremoved : ((publicRegistry.calls plainPlatform id [beatCall [] 60 1]).call plainPlatform id
      (beatCall [] 0 2)).2.decision = .removed := by decide +kernel
  obtain ⟨-, -, -, hremove⟩ := no_rollback plainPlatform id "public" [beatCall [] 60 1]
  exact ⟨hremoved, (hremove _ hremoved).2 [] _ (by decide +kernel) (by decide +kernel)⟩

/-! ### How long an entry lives -/

theorem call_of_accepted (r : NdpRegistryProfile T) (c : Call T) (h : (r.call P sha256 c).2.decision = .accepted) :
    ∃ a expiresAt, a.nid = str c.frame "nid" ∧ c.receivedAt < expiresAt ∧
      (r.call P sha256 c).1 = r.put a (some ⟨cloneMap c.frame, a.digest, expiresAt⟩) := by
  have houtcome := outcome_call P sha256 r c
  generalize r.call P sha256 c = result at houtcome h ⊢
  cases houtcome with
  | accepted a expiresAt checked newer deadline fresh => exact ⟨a, expiresAt, checked.nid, fresh, rfl⟩
  | rejected | duplicate | removed | refreshed => cases h

theorem stored_of_live (r : NdpRegistryProfile T) (c : Call T)
    (h : (r.call P sha256 c).2.decision = .accepted ∨ (r.call P sha256 c).2.decision = .refreshed) :
    ∃ a e, Checked P r.securityProfile c.frame c.receivedAt a ∧
      (r.call P sha256 c).1.entries (str c.frame "nid") = some e ∧
      freshnessDeadline P c.frame = some e.expiresAt := by
  have houtcome := outcome_call P sha256 r c
  generalize r.call P sha256 c = result at houtcome h ⊢
  cases houtcome with
  | accepted a expiresAt checked newer deadline
  | refreshed a expiresAt current checked highest stored deadline =>
    refine ⟨a, ⟨cloneMap c.frame, a.digest, expiresAt⟩, checked, ?_, deadline⟩
    rw [entries_put, if_pos checked.nid.symm]
  | rejected | duplicate | removed => rcases h with h | h <;> cases h

/-- An entry lives no longer than its announcement may be early and its time to live exactly if the
announcement was not last seen later than that. -/
theorem freshness_bound_iff (r : NdpRegistryProfile T) (c : Call T) (hprofile : r.securityProfile ≠ localDev)
    (h : (r.call P sha256 c).2.decision = .accepted ∨ (r.call P sha256 c).2.decision = .refreshed) :
    ∃ e ttl, (r.call P sha256 c).1.entries (str c.frame "nid") = some e ∧
      uintValue P (GoDict.get c.frame "ttl") = some ttl ∧
      (e.expiresAt ≤ c.receivedAt + 5 * minute + ttl.toNat * second ↔
        ∀ seen, timeValue c.frame "last_seen" = some seen → seen ≤ c.receivedAt + 5 * minute) := by
  obtain ⟨a, e, hchecked, hstored, hdeadline⟩ := stored_of_live r c h
  refine ⟨e, a.ttl, hstored, hchecked.ttl, ?_⟩
  obtain ⟨timestamp, htimestamp, hskew⟩ := hchecked.skew hprofile
  have hearly : timestamp ≤ c.receivedAt + 5 * minute := by
    have := (abs_le.mp hskew).1
    linarith
  have hshort : a.ttl.toNat * 10 ^ 9 < 2 ^ 63 := by
    have hlt := hchecked.ttl_lt
    omega
  rw [freshnessDeadline, hchecked.ttl, htimestamp, getD_some, lifetime_of_lt hshort] at hdeadline
  cases hseen : timeValue c.frame "last_seen" with
  | none =>
    rw [hseen] at hdeadline
    rw [← some.inj hdeadline]
    exact ⟨fun _ => nofun, fun _ => add_le_add_left hearly _⟩
  | some seen =>
    rw [hseen] at hdeadline
    rw [← some.inj hdeadline]
    refine ⟨fun hle seen' hseen' => ?_, fun hle => add_le_add_left (hle seen rfl) _⟩
    cases hseen'
    exact le_of_add_le_add_right hle

theorem beat_expires_in_time : (publicRegistry.call plainPlatform id (beatCall [] 60 1)).2.decision = .accepted ∧
      ∃ e, (publicRegistry.call plainPlatform id (beatCall [] 60 1)).1.entries "urn:nps:node:ca:a" = some e ∧
        e.expiresAt ≤ (beatCall [] 60 1).receivedAt + 5 * minute + 60 * second := by
  have haccepted : (publicRegistry.call plainPlatform id (beatCall [] 60 1)).2.decision = .accepted := by
    decide +kernel
  have hnid : str (beatCall [] 60 1).frame "nid" = ("urn:nps:node:ca:a" : GoString) := by
    decide +kernel
  have httl : uintValue plainPlatform (GoDict.get (beatCall [] 60 1).frame "ttl") = some 60 := by
    decide +kernel
  have hunseen : timeValue (beatCall [] 60 1).frame "last_seen" = none := by decide +kernel
  obtain ⟨e, ttl, hstored, hread, hiff⟩ := freshness_bound_iff (P := plainPlatform) publicRegistry
    (beatCall [] 60 1) (by decide) (.inl haccepted)
  rw [httl] at hread
  cases hread
  refine ⟨haccepted, e, hnid ▸ hstored, hiff.mpr fun seen hseen => ?_⟩
  rw [hunseen] at hseen
  cases hseen

def relayedCall : Call Empty := beatCall "2099-01-01T00:00:00Z" 60 1

/-- A relay that changes only what is not signed keeps an announcement of a minute for decades. -/
theorem relayed_beat_outlives : let r := (publicRegistry.call plainPlatform id (beatCall [] 60 1)).1
    canonicalAnnounceJSON plainPlatform relayedCall.frame =
        canonicalAnnounceJSON plainPlatform (beatCall [] 60 1).frame ∧
      (r.call plainPlatform id relayedCall).2.decision = .refreshed ∧
      ∃ e, (r.call plainPlatform id relayedCall).1.entries "urn:nps:node:ca:a" = some e ∧
        relayedCall.receivedAt + 5 * minute + 60 * second < e.expiresAt := by
  intro r
  have hlong : ((r.call plainPlatform id relayedCall).1.entries "urn:nps:node:ca:a").any (fun e =>
      relayedCall.receivedAt + 5 * minute + 60 * second < e.expiresAt) = true := by
    decide +kernel
  obtain ⟨e, he, hlt⟩ := (any_eq_true _ _).mp hlong
  exact ⟨by decide +kernel, by decide +kernel, e, he, of_decide_eq_true hlt⟩

/-! ### The order of heartbeats -/

section

variable (P sha256)

def Stores (r : NdpRegistryProfile T) (c : Call T) : Prop :=
  (r.call P sha256 c).2.decision = .accepted ∨ (r.call P sha256 c).2.decision = .refreshed

instance (r : NdpRegistryProfile T) (c : Call T) : Decidable (Stores P sha256 r c) :=
  inferInstanceAs (Decidable (_ ∨ _))

def deadlines (r : NdpRegistryProfile T) : List (Call T) → List Time
  | [] => []
  | c :: cs =>
    (if Stores P sha256 r c then (freshnessDeadline P c.frame).toList else []) ++
      deadlines (r.call P sha256 c).1 cs

theorem deadlines_append (r : NdpRegistryProfile T) (cs cs' : List (Call T)) : deadlines P sha256 r (cs ++ cs') =
      deadlines P sha256 r cs ++ deadlines P sha256 (r.calls P sha256 cs) cs' := by
  induction cs generalizing r with
  | nil => rfl
  | cons c cs ih =>
    rw [cons_append, deadlines, ih, ← append_assoc]
    rfl

variable {P sha256}

theorem deadlines_singleton {c : Call T} {t : Time} (h : Stores P sha256 r c)
    (hdeadline : freshnessDeadline P c.frame = some t) : deadlines P sha256 r [c] = [t] := by
  rw [deadlines, if_pos h, hdeadline]
  rfl

/-- Of the announcements of one NID, each that is stored replaces the deadline by its own. The deadline is the
latest of all that were stored so far, after every one of them, exactly if they came in the order of their
deadlines. -/
theorem latest_deadline_iff (r : NdpRegistryProfile T) (cs : List (Call T))
    (hnid : ∀ c ∈ cs, str c.frame "nid" = nid) :
    (∀ before c, before ++ [c] <+: cs → Stores P sha256 (r.calls P sha256 before) c →
        ∃ e, (r.calls P sha256 (before ++ [c])).entries nid = some e ∧
          freshnessDeadline P c.frame = some e.expiresAt) ∧
      ((∀ before c, before ++ [c] <+: cs → Stores P sha256 (r.calls P sha256 before) c →
          ∃ e, (r.calls P sha256 (before ++ [c])).entries nid = some e ∧
            ∀ t ∈ deadlines P sha256 r (before ++ [c]), t ≤ e.expiresAt) ↔
        (deadlines P sha256 r cs).Pairwise (· ≤ ·)) := by
  have hown : ∀ before c, before ++ [c] <+: cs → Stores P sha256 (r.calls P sha256 before) c →
      ∃ e, (r.calls P sha256 (before ++ [c])).entries nid = some e ∧
        freshnessDeadline P c.frame = some e.expiresAt := by
    intro before c hbegin hstores
    obtain ⟨a, e, -, hstored, hdeadline⟩ := stored_of_live _ c hstores
    rw [hnid c (hbegin.subset mem_concat_self)] at hstored
    rw [calls, foldl_concat]
    exact ⟨e, hstored, hdeadline⟩
  refine ⟨hown, fun hlatest => ?_, fun hsorted before c hbegin hstores => ?_⟩
  · suffices h : ∀ before, before <+: cs → (deadlines P sha256 r before).Pairwise (· ≤ ·) from h cs cs.prefix_refl
    intro before
    induction before using List.reverseRecOn with
    | nil => exact fun _ => .nil
    | append_singleton before c ih =>
      intro hbegin
      rw [deadlines_append, pairwise_append]
      refine ⟨ih ((prefix_append _ _).trans hbegin), ?_⟩
      by_cases hstores : Stores P sha256 (r.calls P sha256 before) c
      · obtain ⟨e, hentry, hdeadline⟩ := hown before c hbegin hstores
        obtain ⟨e', hentry', hle⟩ := hlatest before c hbegin hstores
        cases hentry.symm.trans hentry'
        rw [deadlines_append] at hle
        rw [deadlines_singleton hstores hdeadline] at hle ⊢
        refine ⟨pairwise_singleton _ _, fun t ht t' ht' => ?_⟩
        rw [mem_singleton.mp ht']
        exact hle t (mem_append_left _ ht)
      · rw [deadlines, if_neg hstores]
        exact ⟨.nil, fun _ _ _ ht => by cases ht⟩
  · obtain ⟨e, hentry, hdeadline⟩ := hown before c hbegin hstores
    refine ⟨e, hentry, fun t ht => ?_⟩
    obtain ⟨after, rfl⟩ := hbegin
    rw [deadlines_append] at hsorted
    have hbefore := (pairwise_append.mp hsorted).1
    rw [deadlines_append, deadlines_singleton hstores hdeadline] at hbefore ht
    rcases mem_append.mp ht with ht | ht
    · exact (pairwise_append.mp hbefore).2.2 t ht _ (mem_singleton_self _)
    · exact (mem_singleton.mp ht).le

/-- Two heartbeats that come in order keep the deadline of the second. -/
theorem beats_in_order : let cs := [beatCall "2026-01-01T00:01:00Z" 60 1, beatCall "2026-01-01T00:02:00Z" 60 1]
    ∃ e, (publicRegistry.calls plainPlatform id cs).entries "urn:nps:node:ca:a" = some e ∧
      ∀ t ∈ deadlines plainPlatform id publicRegistry cs, t ≤ e.expiresAt :=
  (latest_deadline_iff publicRegistry [beatCall "2026-01-01T00:01:00Z" 60 1, beatCall "2026-01-01T00:02:00Z" 60 1]
    (by decide +kernel)).2.mpr (by decide +kernel) [_] _ (prefix_refl _) (by decide +kernel)

/-- The older heartbeat of a node comes after the newer one, and shortens what the newer one said. -/
theorem late_beat_shortens : let newer := beatCall "2026-01-01T00:02:00Z" 60 1
    let older := beatCall "2026-01-01T00:01:00Z" 60 1
    let r := (publicRegistry.call plainPlatform id newer).1
    canonicalAnnounceJSON plainPlatform older.frame = canonicalAnnounceJSON plainPlatform newer.frame ∧
      (publicRegistry.call plainPlatform id newer).2.decision = .accepted ∧
      (r.call plainPlatform id older).2.decision = .refreshed ∧
      ((r.call plainPlatform id older).1.entries "urn:nps:node:ca:a").map (·.expiresAt) =
        some (newer.receivedAt + 2 * minute) ∧
      (r.entries "urn:nps:node:ca:a").map (·.expiresAt) = some (newer.receivedAt + 3 * minute) :=
  ⟨by decide +kernel, by decide +kernel, by decide +kernel, by decide +kernel, by decide +kernel⟩

end

end NdpRegistryProfile

end NpsSdk.Ndp
