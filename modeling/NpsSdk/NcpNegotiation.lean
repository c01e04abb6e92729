import NpsSdk.NcpHandshake

/-! What the handshake negotiates, in its own terms. Versions are ordered lexicographically, and each side
speaks a range of them; the session speaks the greatest version of both ranges. -/

open NpsSdk.Core

namespace NpsSdk.Ncp

open List

/-! ### The order of versions -/

namespace ProtocolVersion

def toPair (v : ProtocolVersion) : ℕ ×ₗ ℕ := toLex (v.major.toNat, v.minor.toNat)

theorem toPair_injective : Function.Injective toPair := by
  intro v w h
  obtain ⟨hmajor, hminor⟩ := Prod.mk.inj (toLex.injective h)
  exact congrArg₂ ProtocolVersion.mk (UInt64.toNat_inj.mp hmajor) (UInt64.toNat_inj.mp hminor)

instance : LinearOrder ProtocolVersion := LinearOrder.lift' toPair toPair_injective

theorem lt_iff {v w : ProtocolVersion} : v < w ↔ v.major < w.major ∨ (v.major = w.major ∧ v.minor < w.minor) := by
  change v.toPair < w.toPair ↔ _
  rw [toPair, toPair, Prod.Lex.toLex_lt_toLex, UInt64.lt_iff_toNat_lt, UInt64.lt_iff_toNat_lt, UInt64.toNat_inj]

variable (v w : ProtocolVersion)

theorem compare_pos_iff : v.compare w > 0 ↔ w < v := by
  rw [compare]
  split
  case isTrue hlt => exact iff_of_false (by decide) (lt_iff.mpr hlt).asymm
  case isFalse hnot =>
    rw [← lt_iff] at hnot
    split
    case isTrue heq => exact iff_of_false (by decide) (heq ▸ lt_irrefl v)
    case isFalse hne => exact iff_of_true (by decide) (lt_of_le_of_ne (not_lt.mp hnot) (Ne.symm hne))

theorem compare_eq_zero_iff : v.compare w = 0 ↔ v = w := by
  rw [compare]
  split
  case isTrue hlt => exact iff_of_false (by decide) (lt_iff.mpr hlt).ne
  case isFalse => split <;> simp_all

theorem min_eq : v.min w = Min.min v w := by
  rw [ProtocolVersion.min]
  split
  case isTrue h => exact (min_eq_left (not_lt.mp fun hlt => Int.not_lt.mpr h ((compare_pos_iff v w).mpr hlt))).symm
  case isFalse h => exact (min_eq_right ((compare_pos_iff v w).mp (Int.not_le.mp h)).le).symm

theorem max_eq : v.max w = Max.max v w := by
  rw [ProtocolVersion.max]
  split
  case isTrue h =>
    rcases Int.lt_or_eq_of_le h with hpos | hzero
    · exact (max_eq_left ((compare_pos_iff v w).mp hpos).le).symm
    · rw [(compare_eq_zero_iff v w).mp hzero.symm, max_self]
  case isFalse h =>
    refine (max_eq_right (not_lt.mp fun hlt => h ?_)).symm
    exact Int.le_of_lt ((compare_pos_iff v w).mpr hlt)

end ProtocolVersion

/-! ### What is common -/

/-- The versions one side speaks, as it writes them. -/
structure SpeaksRange (lowest highest : GoString) (low high : ProtocolVersion) : Prop where
  low_parses : parseProtocolVersion lowest = some low
  high_parses : parseProtocolVersion highest = some high
  nonempty : low ≤ high

/-- A range of versions for each side, with one in both. -/
structure CommonVersions (server : NcpHandshakeProfile) (client : HelloFrame)
    (serverMin serverMax clientMin clientMax : ProtocolVersion) : Prop where
  server_range : SpeaksRange server.minVersion server.npsVersion serverMin serverMax
  client_range : SpeaksRange (client.minVersion.getD client.npsVersion) client.npsVersion clientMin clientMax
  overlap : (Set.Icc serverMin serverMax ∩ Set.Icc clientMin clientMax).Nonempty

def IsStable (token : GoString) : Prop := token = "msgpack" ∨ token = "json"

def clientEncodings (client : HelloFrame) : List GoString := client.supportedEncodings.getD []

def clientProtocols (client : HelloFrame) : List GoString := client.supportedProtocols.getD []

variable {server : NcpHandshakeProfile} {client : HelloFrame}

theorem overlapMax_eq_some_iff {version : ProtocolVersion} : overlapMax server client = some version ↔
      ∃ serverMin serverMax clientMin clientMax, CommonVersions server client serverMin serverMax clientMin clientMax ∧
        version = min serverMax clientMax := by
  constructor
  · intro h
    obtain ⟨serverMin, hserverMin, h⟩ := Option.bind_eq_some_iff.mp h
    obtain ⟨serverMax, hserverMax, h⟩ := Option.bind_eq_some_iff.mp h
    obtain ⟨clientMin, hclientMin, h⟩ := Option.bind_eq_some_iff.mp h
    obtain ⟨clientMax, hclientMax, h⟩ := Option.bind_eq_some_iff.mp h
    rw [ProtocolVersion.min_eq, ProtocolVersion.max_eq] at h
    split_ifs at h with hempty hapart
    rw [ProtocolVersion.compare_pos_iff, ProtocolVersion.compare_pos_iff, not_or, not_lt, not_lt] at hempty
    rw [ProtocolVersion.compare_pos_iff] at hapart
    refine ⟨serverMin, serverMax, clientMin, clientMax, ⟨⟨hserverMin, hserverMax, hempty.1⟩,
      ⟨hclientMin, hclientMax, hempty.2⟩, ?_⟩, (Option.some.inj h).symm⟩
    rw [Set.Icc_inter_Icc, Set.nonempty_Icc]
    exact not_lt.mp hapart
  · rintro ⟨serverMin, serverMax, clientMin, clientMax, h, rfl⟩
    have hoverlap := h.overlap
    rw [Set.Icc_inter_Icc, Set.nonempty_Icc] at hoverlap
    rw [overlapMax, h.server_range.low_parses, h.server_range.high_parses, h.client_range.low_parses,
      h.client_range.high_parses]
    simp only [Option.bind_eq_bind, Option.bind_some, ProtocolVersion.compare_pos_iff, ProtocolVersion.min_eq,
      ProtocolVersion.max_eq, not_lt.mpr h.server_range.nonempty, not_lt.mpr h.client_range.nonempty, or_self,
      if_false]
    rw [if_neg (not_lt.mpr hoverlap)]

/-- Of the versions in both ranges the smaller upper end is the greatest. -/
theorem CommonVersions.isGreatest {serverMin serverMax clientMin clientMax : ProtocolVersion}
    (h : CommonVersions server client serverMin serverMax clientMin clientMax) :
    IsGreatest (Set.Icc serverMin serverMax ∩ Set.Icc clientMin clientMax) (min serverMax clientMax) := by
  have hoverlap := h.overlap
  rw [Set.Icc_inter_Icc] at hoverlap ⊢
  exact isGreatest_Icc (Set.nonempty_Icc.mp hoverlap)

/-! ### Encodings and protocols -/

section

variable {server : NcpHandshakeProfile} {client : HelloFrame}

theorem stableEncoding_eq_some_iff {stable : GoString} : stableEncoding server client = some stable ↔
      IsStable stable ∧ stable ∈ server.supportedEncodings ∧ ∃ before after,
        clientEncodings client = before ++ stable :: after ∧
          ∀ token ∈ before, ¬ (IsStable token ∧ token ∈ server.supportedEncodings) := by
  have htest : ∀ token : GoString,
      ((token = "msgpack" || token = "json") && decide (token ∈ server.supportedEncodings)) = true ↔
        IsStable token ∧ token ∈ server.supportedEncodings := fun token => by
    simp only [Bool.and_eq_true, Bool.or_eq_true, decide_eq_true_eq, IsStable]
  rw [stableEncoding, find?_eq_some_iff_append, htest, and_assoc]
  simp only [Bool.not_eq_true', ← Bool.not_eq_true, htest, clientEncodings]

theorem firstMentions_spec {α : Type} [BEq α] [LawfulBEq α] (p : α → Prop) [DecidablePred p] (items : List α) :
    let kept := items.foldl (fun seen x => if p x ∧ x ∉ seen then seen ++ [x] else seen) []
    kept.Pairwise (fun a b => items.idxOf a < items.idxOf b) ∧ ∀ x, x ∈ kept ↔ x ∈ items ∧ p x := by
  induction items using List.reverseRecOn with
  | nil => exact ⟨.nil, fun x => ⟨fun h => absurd h not_mem_nil, fun h => absurd h.1 not_mem_nil⟩⟩
  | append_singleton items y ih =>
    obtain ⟨hordered, hmem⟩ := ih
    rw [foldl_append, foldl_cons, foldl_nil]
    generalize items.foldl (fun seen x => if p x ∧ x ∉ seen then seen ++ [x] else seen) [] = kept at hordered hmem ⊢
    have hordered' : kept.Pairwise (fun a b => (items ++ [y]).idxOf a < (items ++ [y]).idxOf b) := by
      refine hordered.imp_of_mem fun {a b} ha hb hlt => ?_
      rwa [idxOf_append_of_mem ((hmem a).mp ha).1, idxOf_append_of_mem ((hmem b).mp hb).1]
    split
    case isTrue hnew =>
      have hfresh : y ∉ items := fun hy => hnew.2 ((hmem y).mpr ⟨hy, hnew.1⟩)
      refine ⟨pairwise_append.mpr ⟨hordered', pairwise_singleton _ _, ?_⟩, fun x => ?_⟩
      · intro a ha b hb
        obtain rfl := mem_singleton.mp hb
        have ha' := ((hmem a).mp ha).1
        rw [idxOf_append_of_mem ha', idxOf_append_of_notMem hfresh]
        exact Nat.lt_of_lt_of_le (idxOf_lt_length_of_mem ha') (Nat.le_add_right _ _)
      · rw [mem_append, mem_append, mem_singleton, hmem]
        constructor
        · rintro (h | rfl)
          · exact ⟨.inl h.1, h.2⟩
          · exact ⟨.inr rfl, hnew.1⟩
        · rintro ⟨h | rfl, hp⟩
          · exact .inl ⟨h, hp⟩
          · exact .inr rfl
    case isFalse hold =>
      refine ⟨hordered', fun x => ?_⟩
      rw [mem_append, mem_singleton, hmem]
      constructor
      · exact fun h => ⟨.inl h.1, h.2⟩
      · rintro ⟨h | rfl, hp⟩
        · exact ⟨h, hp⟩
        · refine (hmem x).mp (not_not.mp fun hx => hold ⟨hp, hx⟩)

theorem commonProtocols_spec : (commonProtocols server client).Pairwise
        (fun a b => (clientProtocols client).idxOf a < (clientProtocols client).idxOf b) ∧
      ∀ token, token ∈ commonProtocols server client ↔
        token ∈ clientProtocols client ∧ token ∈ server.supportedProtocols :=
  firstMentions_spec (· ∈ server.supportedProtocols) (clientProtocols client)

end

/-! ### The decision -/

structure Compatible (server : NcpHandshakeProfile) (client : HelloFrame) : Prop where
  versions : ∃ serverMin serverMax clientMin clientMax,
    CommonVersions server client serverMin serverMax clientMin clientMax
  encoding : ∃ token ∈ clientEncodings client, IsStable token ∧ token ∈ server.supportedEncodings
  ncp : ("ncp" : GoString) ∈ clientProtocols client ∧ ("ncp" : GoString) ∈ server.supportedProtocols
  client_payload : client.maxFramePayload ≠ 0
  server_payload : server.maxFramePayload ≠ 0
  client_streams : client.maxConcurrentStreams ≠ 0
  server_streams : server.maxConcurrentStreams ≠ 0

/-- The parameters both sides would settle on. -/
structure Settled (server : NcpHandshakeProfile) (client : HelloFrame) (p : NcpHandshakeAcceptance) : Prop where
  version : ∃ serverMin serverMax clientMin clientMax version,
    CommonVersions server client serverMin serverMax clientMin clientMax ∧
      IsGreatest (Set.Icc serverMin serverMax ∩ Set.Icc clientMin clientMax) version ∧
      p.sessionVersion = version.text
  encoding : IsStable p.negotiatedEncoding ∧ p.negotiatedEncoding ∈ server.supportedEncodings ∧
    ∃ before after, clientEncodings client = before ++ p.negotiatedEncoding :: after ∧
      ∀ token ∈ before, ¬ (IsStable token ∧ token ∈ server.supportedEncodings)
  protocols : ∀ token, token ∈ p.supportedProtocols ↔
    token ∈ clientProtocols client ∧ token ∈ server.supportedProtocols
  protocols_order : p.supportedProtocols.Pairwise
    (fun a b => (clientProtocols client).idxOf a < (clientProtocols client).idxOf b)
  payload : p.maxFramePayload = min client.maxFramePayload server.maxFramePayload
  streams : p.maxConcurrentStreams = min client.maxConcurrentStreams server.maxConcurrentStreams
  ext : p.extSupport = (client.extSupport && server.extSupport)

theorem settled_of_accept {p : NcpHandshakeAcceptance} (h : negotiateHandshake server client = .accept p) :
    Compatible server client ∧ Settled server client p := by
  rw [negotiateHandshake] at h
  split at h
  · cases h
  rename_i version hversion
  split at h
  · cases h
  rename_i stable hstable
  dsimp only at h
  split_ifs at h with hclosed
  · cases h
  cases h
  obtain ⟨serverMin, serverMax, clientMin, clientMax, hcommon, rfl⟩ := overlapMax_eq_some_iff.mp hversion
  have hencoding := stableEncoding_eq_some_iff.mp hstable
  obtain ⟨hordered, hmem⟩ := @commonProtocols_spec server client
  simp only [not_or, not_not] at hclosed
  obtain ⟨hncp, hclientPayload, hserverPayload, hclientStreams, hserverStreams⟩ := hclosed
  refine ⟨⟨⟨_, _, _, _, hcommon⟩, ?_, (hmem _).mp hncp, hclientPayload, hserverPayload, hclientStreams,
    hserverStreams⟩, ⟨_, _, _, _, _, hcommon, hcommon.isGreatest, rfl⟩, hencoding, hmem, hordered, rfl, rfl, rfl⟩
  obtain ⟨hstable, hserver, before, after, hlist, -⟩ := hencoding
  refine ⟨stable, ?_, hstable, hserver⟩
  rw [hlist]
  exact mem_append_right _ mem_cons_self

theorem exists_accept (h : Compatible server client) : ∃ p, negotiateHandshake server client = .accept p := by
  obtain ⟨serverMin, serverMax, clientMin, clientMax, hcommon⟩ := h.versions
  have hversion := overlapMax_eq_some_iff.mpr ⟨_, _, _, _, hcommon, rfl⟩
  obtain ⟨stable, hstable⟩ : ∃ stable, stableEncoding server client = some stable := by
    obtain ⟨token, htoken, hok, hserver⟩ := h.encoding
    rw [← Option.isSome_iff_exists, stableEncoding, find?_isSome]
    refine ⟨token, htoken, ?_⟩
    simpa only [Bool.and_eq_true, Bool.or_eq_true, decide_eq_true_eq] using ⟨hok, hserver⟩
  have hncp := (commonProtocols_spec.2 _).mpr h.ncp
  rw [negotiateHandshake, hversion, hstable]
  dsimp only
  rw [if_neg]
  · exact ⟨_, rfl⟩
  · simp only [not_or, not_not]
    exact ⟨hncp, h.client_payload, h.server_payload, h.client_streams, h.server_streams⟩

/-- A hello is accepted if and only if it is compatible with the profile, and on the parameters both sides
would settle on. -/
theorem negotiateHandshake_exact (server : NcpHandshakeProfile) (client : HelloFrame) :
    ((∃ p, negotiateHandshake server client = .accept p) ↔ Compatible server client) ∧
      ∀ p, negotiateHandshake server client = .accept p → Settled server client p :=
  ⟨⟨fun ⟨_, h⟩ => (settled_of_accept h).1, exists_accept⟩, fun _ h => (settled_of_accept h).2⟩

/-- The hello of a client that has JSON only, at the profile a server has by default. -/
theorem jsonHello_settled : ∃ p, negotiateHandshake defaultNcpHandshakeProfile jsonHello = .accept p ∧
    Settled defaultNcpHandshakeProfile jsonHello p :=
  ⟨_, rfl, (negotiateHandshake_exact defaultNcpHandshakeProfile jsonHello).2 _ rfl⟩

end NpsSdk.Ncp
