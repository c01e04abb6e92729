import NpsSdk.GoString

/-! Announcements between registries. Each registry that forwards one adds its NID to a header; it does not
forward an announcement whose header names it or is full. -/

namespace NpsSdk.Ndp

open List GoString

def maxFederationHops : Nat := 3

def errFederationLoop : GoString := "NDP-FEDERATION-LOOP"

def parseForwardedBy (header : GoString) : List GoString :=
  if header = [] then []
  else ((header.splitOn (.char ',')).map trimSpace).filter (· ≠ [])

structure Forwarding where
  nextHeader : GoString := []
  shouldForward : Bool := false
  err : Option GoString := none
  deriving DecidableEq

def appendForwardedBy (ownNID header : GoString) : Forwarding :=
  let hops := parseForwardedBy header
  if ownNID ∈ hops then
    { err := some (errFederationLoop ++ ": own NID already appears in ndp-forwarded-by") }
  else if maxFederationHops ≤ hops.length then {}
  else { nextHeader := join ", " (hops ++ [ownNID]), shouldForward := true }

theorem appendForwardedBy_spec {ownNID header : GoString} (h : (appendForwardedBy ownNID header).shouldForward = true) :
    ownNID ∉ parseForwardedBy header ∧ (parseForwardedBy header).length < maxFederationHops ∧
      (appendForwardedBy ownNID header).nextHeader = join ", " (parseForwardedBy header ++ [ownNID]) := by
  rw [appendForwardedBy] at h ⊢
  split_ifs at h ⊢ with hloop hfull
  exact ⟨hloop, Nat.not_le.mp hfull, rfl⟩

/-! ### The header -/

/-- A NID that stays itself in a header. -/
structure HeaderNID (nid : GoString) : Prop where
  nonempty : nid ≠ []
  noComma : .char ',' ∉ nid
  trimmed : trimSpace nid = nid

theorem trimSpace_blank (s : GoString) : trimSpace (.char ' ' :: s) = trimSpace s := by
  rfl

theorem intercalate_blank (separator s : GoString) (rest : List GoString) :
    separator.intercalate ((.char ' ' :: s) :: rest) = .char ' ' :: separator.intercalate (s :: rest) := by
  cases rest with
  | nil => rfl
  | cons => rw [intercalate_cons_cons, intercalate_cons_cons]; rfl

/-- The separator of the header is a comma, and a blank that belongs to the next entry. -/
theorem join_eq_intercalate (nid : GoString) (nids : List GoString) : join ", " (nid :: nids) =
      [.char ','].intercalate (nid :: nids.map (.char ' ' :: ·)) := by
  induction nids generalizing nid with
  | nil => exact (append_nil nid).symm
  | cons next nids ih =>
    rw [join, ih next, map_cons, intercalate_cons_cons, intercalate_blank, append_assoc, append_assoc]
    · rfl
    · nofun

/-- The entries of a header are the NIDs it was made of. -/
theorem parseForwardedBy_join {nids : List GoString} (h : ∀ nid ∈ nids, HeaderNID nid) :
    parseForwardedBy (join ", " nids) = nids := by
  cases nids with
  | nil => rfl
  | cons nid nids =>
    have hfirst := h nid mem_cons_self
    have hparts : (join ", " (nid :: nids)).splitOn (.char ',') = nid :: nids.map (.char ' ' :: ·) := by
      rw [join_eq_intercalate]
      refine splitOn_intercalate _ (fun part hpart => ?_) (cons_ne_nil _ _)
      rcases mem_cons.mp hpart with rfl | hpart
      · exact hfirst.noComma
      · obtain ⟨other, hother, rfl⟩ := mem_map.mp hpart
        exact not_mem_cons_of_ne_of_not_mem (by decide) (h other (mem_cons_of_mem _ hother)).noComma
    have htrimmed : (nid :: nids.map (.char ' ' :: ·)).map trimSpace = nid :: nids := by
      rw [map_cons, hfirst.trimmed, map_map]
      refine congrArg (nid :: ·) ((map_congr_left fun other hother => ?_).trans (map_id nids))
      exact (trimSpace_blank other).trans (h other (mem_cons_of_mem _ hother)).trimmed
    have hheader : join ", " (nid :: nids) ≠ [] := by
      intro hempty
      rw [hempty, splitOn_nil, List.cons.injEq] at hparts
      exact hfirst.nonempty hparts.1.symm
    rw [parseForwardedBy, if_neg hheader, hparts, htrimmed, filter_eq_self]
    exact fun other hother => decide_eq_true (h other hother).nonempty

/-! ### Paths -/

structure Network (Registry : Type) where
  nid : Registry → GoString
  distinct : Function.Injective nid
  headerNID : ∀ r, HeaderNID (nid r)
  sends : Registry → Registry → Prop

variable {Registry : Type}

/-- The registries that forwarded an announcement, one after the other, and the header it has then. The
first of them received it without a header. -/
inductive Path (N : Network Registry) : List Registry → GoString → Prop where
  | origin : Path N [] []
  | forward {rs : List Registry} {header : GoString} {r : Registry} (path : Path N rs header)
      (hsends : ∀ last ∈ rs.getLast?, N.sends last r)
      (htold : (appendForwardedBy (N.nid r) header).shouldForward = true) :
      Path N (rs ++ [r]) (appendForwardedBy (N.nid r) header).nextHeader

theorem Path.parse_header {N : Network Registry} {rs : List Registry} {header : GoString} (path : Path N rs header) :
    parseForwardedBy header = rs.map N.nid := by
  induction path with
  | origin => rfl
  | forward path hsends htold ih =>
    rw [(appendForwardedBy_spec htold).2.2, parseForwardedBy_join, ih, map_append]
    · rfl
    · intro nid hnid
      rw [ih] at hnid
      rcases mem_append.mp hnid with hnid | hnid
      · obtain ⟨r', -, rfl⟩ := mem_map.mp hnid
        exact N.headerNID r'
      · rw [mem_singleton.mp hnid]
        exact N.headerNID _

/-- A path has no loop and few hops, and the header names the registries on it. -/
theorem forwarded_once {N : Network Registry} {rs : List Registry} {header : GoString} (path : Path N rs header) :
    rs.Nodup ∧ rs.length ≤ maxFederationHops ∧ parseForwardedBy header = rs.map N.nid := by
  refine ⟨?_, ?_, path.parse_header⟩
  · induction path with
    | origin => exact nodup_nil
    | forward path hsends htold ih =>
      have hloop := (appendForwardedBy_spec htold).1
      rw [path.parse_header, mem_map_of_injective N.distinct] at hloop
      rw [← concat_eq_append]
      exact ih.concat hloop
  · cases path with
    | origin => exact Nat.zero_le _
    | forward path hsends htold =>
      have hroom := (appendForwardedBy_spec htold).2.1
      rw [path.parse_header, length_map] at hroom
      rw [length_append]
      exact hroom

def rowOfThree : Network (Fin 3) where
  nid := ![("a" : GoString), ("b" : GoString), ("c" : GoString)]
  distinct := by decide
  headerNID := by
    intro r
    fin_cases r
    · exact ⟨by decide, by decide, by decide⟩
    · exact ⟨by decide, by decide, by decide⟩
    · exact ⟨by decide, by decide, by decide⟩
  sends r r' := r'.val = r.val + 1

theorem row_forwards_once : Path rowOfThree [0, 1, 2] "a, b, c" ∧ [(0 : Fin 3), 1, 2].Nodup ∧
    [(0 : Fin 3), 1, 2].length ≤ maxFederationHops ∧
    parseForwardedBy "a, b, c" = [0, 1, 2].map rowOfThree.nid := by
  have first : Path rowOfThree [0] "a" := .forward .origin nofun (by decide)
  have second : Path rowOfThree [0, 1] "a, b" := .forward first (fun _ h => by cases h; rfl) (by decide)
  have third : Path rowOfThree [0, 1, 2] "a, b, c" :=
    .forward second (fun _ h => by cases h; rfl) (by decide)
  exact ⟨third, forwarded_once third⟩

end NpsSdk.Ndp
