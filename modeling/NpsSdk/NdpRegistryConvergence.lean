import NpsSdk.NdpRegistryRuns

/-! The order in which announcements arrive does not matter. Two announcements of one node with different sequence
numbers lead to the same registry in either order: the higher one, once admitted, shuts out the other, and what it is
replaced by does not depend on what was there. -/

open NpsSdk.Core

namespace NpsSdk.Ndp.NdpRegistryProfile

open GoString List

variable {T : Type} {P : Platform T} {sha256 : Bytes → Bytes} {r : NdpRegistryProfile T} {c d : Call T}
  {a b : Announced}

/-! ### Two announcements -/

theorem put_put (h : a.nid = b.nid) (e e' : Option (ProfileEntry T)) : (r.put a e).put b e' = r.put b e' := by
  simp only [put, h, Function.update_idem]

theorem put_comm (h : a.nid ≠ b.nid) (e e' : Option (ProfileEntry T)) :
    (r.put a e).put b e' = (r.put b e').put a e := by
  simp only [put, Function.update_comm h]

def Passes (P : Platform T) (sha256 : Bytes → Bytes) (r : NdpRegistryProfile T) (c : Call T) (a : Announced) :
    Prop :=
  checkAnnounce P sha256 r.securityProfile c.frame c.signatureValid c.receivedAt = .ok a

theorem call_of_error {errorCode : GoString}
    (h : checkAnnounce P sha256 r.securityProfile c.frame c.signatureValid c.receivedAt = .error errorCode) :
    (r.call P sha256 c).1 = r := by
  rw [call, applyAnnounce, h]

theorem call_of_lt (hc : Passes P sha256 r c a) {highest : UInt64} (h : r.sequences a.nid = some highest)
    (hlt : a.sequence < highest) : (r.call P sha256 c).1 = r := by
  rw [call, applyAnnounce, show checkAnnounce _ _ _ _ _ _ = _ from hc]
  dsimp only
  rw [h]
  dsimp only
  rw [if_pos hlt]

/-- The entry a new announcement leads to, and none where it has expired. -/
def newEntry (P : Platform T) (c : Call T) (a : Announced) : Option (Option (ProfileEntry T)) :=
  if a.ttl = 0 then some none
  else
    ((freshnessDeadline P c.frame).filter fun expiresAt => c.receivedAt < expiresAt).map
      fun expiresAt => some ⟨cloneMap c.frame, a.digest, expiresAt⟩

theorem admitNewer_eq (r : NdpRegistryProfile T) : (r.admitNewer P c.frame a c.receivedAt).1 =
      match newEntry P c a with
      | none => r
      | some e => r.put a e := by
  rw [admitNewer, newEntry]
  split_ifs
  · rfl
  rw [store]
  cases freshnessDeadline P c.frame with
  | none => rfl
  | some expiresAt =>
    rw [Option.filter_some]
    dsimp only
    by_cases hfresh : c.receivedAt < expiresAt
    · rw [if_pos hfresh, if_pos (decide_eq_true hfresh)]
      rfl
    · rw [if_neg hfresh, if_neg (by simpa using hfresh)]
      rfl

theorem call_of_newer (hc : Passes P sha256 r c a) (hnewer : r.IsNewer a) : (r.call P sha256 c).1 =
      match newEntry P c a with
      | none => r
      | some e => r.put a e := by
  rw [← admitNewer_eq, call, applyAnnounce, show checkAnnounce _ _ _ _ _ _ = _ from hc]
  dsimp only
  cases hhighest : r.sequences a.nid with
  | none => rfl
  | some highest =>
    have hlt := hnewer highest hhighest
    dsimp only
    rw [if_neg (UInt64.lt_asymm hlt), if_neg (UInt64.ne_of_lt hlt).symm]

theorem admitSame_eq_or_put (r : NdpRegistryProfile T) (a : Announced) :
    (r.admitSame P c.frame a c.receivedAt).1 = r ∨ ∃ e, (r.admitSame P c.frame a c.receivedAt).1 = r.put a e := by
  rw [admitSame]
  split
  · exact .inl rfl
  split_ifs
  · exact .inl rfl
  · exact .inl rfl
  rw [store]
  split
  · exact .inl rfl
  split_ifs
  · exact .inr ⟨_, rfl⟩
  · exact .inl rfl

section

variable (hc : Passes P sha256 r c a)
include hc

theorem call_eq_or_put :
    (r.call P sha256 c).1 = r ∨ ∃ e, (r.call P sha256 c).1 = r.put a e := by
  by_cases hnewer : r.IsNewer a
  · rw [call_of_newer hc hnewer]
    cases newEntry P c a with
    | none => exact .inl rfl
    | some e => exact .inr ⟨e, rfl⟩
  · rw [IsNewer, not_forall] at hnewer
    obtain ⟨highest, hhighest⟩ := hnewer
    rw [Classical.not_imp, UInt64.not_lt] at hhighest
    by_cases heq : a.sequence = highest
    · rw [call, applyAnnounce, show checkAnnounce _ _ _ _ _ _ = _ from hc]
      dsimp only
      rw [hhighest.1]
      dsimp only
      rw [if_neg (heq ▸ UInt64.lt_irrefl _), if_pos heq]
      exact admitSame_eq_or_put r a
    · exact .inl (call_of_lt hc hhighest.1 (UInt64.lt_of_le_of_ne hhighest.2 heq))

/-- A registry with another node's entry changed admits the announcement in the same way. -/
theorem call_put_of_ne (hne : a.nid ≠ b.nid) (e : Option (ProfileEntry T)) :
    ((r.put b e).call P sha256 c).1 = ((r.call P sha256 c).1).put b e := by
  have hsequences : (r.put b e).sequences a.nid = r.sequences a.nid := by rw [sequences_put, if_neg hne]
  have hentries : (r.put b e).entries a.nid = r.entries a.nid := by rw [entries_put, if_neg hne]
  have hstore : ∀ decision, ((r.put b e).store P c.frame a c.receivedAt decision).1 =
      (r.store P c.frame a c.receivedAt decision).1.put b e := by
    intro decision
    rw [store, store]
    split
    · rfl
    split_ifs
    · exact put_comm hne.symm _ _
    · rfl
  have hnewer : ((r.put b e).admitNewer P c.frame a c.receivedAt).1 =
      (r.admitNewer P c.frame a c.receivedAt).1.put b e := by
    rw [admitNewer, admitNewer]
    split_ifs
    · exact put_comm hne.symm _ _
    · exact hstore _
  have hsame : ((r.put b e).admitSame P c.frame a c.receivedAt).1 =
      (r.admitSame P c.frame a c.receivedAt).1.put b e := by
    rw [admitSame, admitSame, hentries]
    split
    · rfl
    split_ifs
    · rfl
    · rfl
    · exact hstore _
  have hc' : Passes P sha256 (r.put b e) c a := hc
  rw [call, call, applyAnnounce, applyAnnounce, show checkAnnounce _ _ _ _ _ _ = _ from hc,
    show checkAnnounce _ _ (r.put b e).securityProfile _ _ _ = _ from hc']
  dsimp only
  rw [hsequences]
  split
  · exact hnewer
  split_ifs
  · rfl
  · exact hsame
  · exact hnewer

/-- The announcement with the higher sequence number decides. -/
theorem call_comm_of_lt (hd : Passes P sha256 r d b) (hnid : a.nid = b.nid)
    (hlt : a.sequence < b.sequence) :
    ((r.call P sha256 c).1.call P sha256 d).1 = ((r.call P sha256 d).1.call P sha256 c).1 := by
  by_cases hnewer : r.IsNewer b
  · have hafter : ((r.call P sha256 c).1.call P sha256 d).1 = match newEntry P d b with
        | none => (r.call P sha256 c).1
        | some e => r.put b e := by
      rcases call_eq_or_put hc with heq | ⟨e, heq⟩
      · rw [heq, call_of_newer hd hnewer]
      have hput : (r.put a e).IsNewer b := by
        intro highest hhighest
        rw [sequences_put, if_pos hnid.symm] at hhighest
        cases hhighest
        exact hlt
      rw [heq, call_of_newer (r := r.put a e) hd hput]
      cases newEntry P d b with
      | none => rfl
      | some e' => exact put_put hnid _ _
    rw [hafter, call_of_newer hd hnewer]
    cases newEntry P d b with
    | none => rfl
    | some e =>
      refine (call_of_lt (r := r.put b e) hc ?_ hlt).symm
      rw [sequences_put, if_pos hnid]
  · rw [IsNewer, not_forall] at hnewer
    obtain ⟨highest, hhighest⟩ := hnewer
    rw [Classical.not_imp, UInt64.not_lt] at hhighest
    have hbelow := UInt64.lt_of_lt_of_le hlt hhighest.2
    rw [call_of_lt hc (hnid ▸ hhighest.1) hbelow]
    rcases call_eq_or_put hd with heq | ⟨e, heq⟩
    · rw [heq, call_of_lt hc (hnid ▸ hhighest.1) hbelow]
    rw [heq]
    refine (call_of_lt (r := r.put b e) hc ?_ hlt).symm
    rw [sequences_put, if_pos hnid]

theorem call_comm_of_ne (hd : Passes P sha256 r d b) (hne : a.nid ≠ b.nid) :
    ((r.call P sha256 c).1.call P sha256 d).1 = ((r.call P sha256 d).1.call P sha256 c).1 := by
  rcases call_eq_or_put hd with heq | ⟨e, heq⟩
  · rcases call_eq_or_put hc with heq' | ⟨e', heq'⟩
    · rw [heq, heq', heq]
    · rw [heq, heq', call_put_of_ne hd hne.symm, heq]
  · rw [heq, call_put_of_ne hc hne]
    rcases call_eq_or_put hc with heq' | ⟨e', heq'⟩
    · rw [heq', heq]
    · rw [heq', call_put_of_ne hd hne.symm, heq, put_comm hne.symm]

end

/-- The call's announcement has no sequence number another one of the same node has. -/
def SequencesDiffer (P : Platform T) (frame frame' : GoDict T) : Prop :=
  GoDict.str frame "nid" = GoDict.str frame' "nid" →
    ∀ sequence, uintValue P (GoDict.get frame "graph_seq") = some sequence →
      uintValue P (GoDict.get frame' "graph_seq") ≠ some sequence

instance : Std.Symm (SequencesDiffer P) :=
  ⟨fun _ _ h hnid sequence hs hs' => h hnid.symm sequence hs' hs⟩

theorem call_comm (r : NdpRegistryProfile T) (hdiffer : SequencesDiffer P c.frame d.frame)
    (hc : c.frame["graph_seq"]?.isSome) (hd : d.frame["graph_seq"]?.isSome) :
    ((r.call P sha256 c).1.call P sha256 d).1 = ((r.call P sha256 d).1.call P sha256 c).1 := by
  have hprofile : ∀ c : Call T, (r.call P sha256 c).1.securityProfile = r.securityProfile := by
    intro c
    cases hcheck : checkAnnounce P sha256 r.securityProfile c.frame c.signatureValid c.receivedAt with
    | error => rw [call_of_error hcheck]
    | ok a =>
      rcases call_eq_or_put hcheck with heq | ⟨e, heq⟩
      · rw [heq]
      · rw [heq]
        rfl
  cases hcheck : checkAnnounce P sha256 r.securityProfile c.frame c.signatureValid c.receivedAt with
  | error =>
    have hafter := call_of_error (r := (r.call P sha256 d).1) ((hprofile d).symm ▸ hcheck)
    rw [call_of_error hcheck, hafter]
  | ok a =>
    cases hcheck' : checkAnnounce P sha256 r.securityProfile d.frame d.signatureValid d.receivedAt with
    | error =>
      have hafter := call_of_error (r := (r.call P sha256 c).1) ((hprofile c).symm ▸ hcheck')
      rw [call_of_error hcheck', hafter]
    | ok b =>
      have hchecked := checked_of_checkAnnounce hcheck
      have hchecked' := checked_of_checkAnnounce hcheck'
      by_cases heq : a.nid = b.nid
      · have hne : a.sequence ≠ b.sequence := by
          intro hsequence
          refine hdiffer (by rw [← hchecked.nid, ← hchecked'.nid, heq]) _ (hchecked.sequence_read hc) ?_
          rw [hchecked'.sequence_read hd, hsequence]
        rcases UInt64.lt_or_lt_of_ne hne with hlt | hlt
        · exact call_comm_of_lt hcheck hcheck' heq hlt
        · exact (call_comm_of_lt hcheck' hcheck heq.symm hlt).symm
      · exact call_comm_of_ne hcheck hcheck' heq

/-! ### Answers -/

variable {order order' : List GoString}

theorem Lists.perm (h : r.Lists order) (h' : r.Lists order') : order.Perm order' :=
  (perm_ext_iff_of_nodup h.1 h'.1).mpr fun nid => (h.2 nid).trans (h'.2 nid).symm

theorem onlyText_congr {ss ss' : List GoString} (h : ss.Perm ss') : onlyText ss = onlyText ss' := by
  match ss with
  | [] => rw [nil_perm.mp h]
  | [s] => rw [singleton_perm.mp h]
  | x :: y :: rest =>
    match ss', h.length_eq with
    | _ :: _ :: _, _ => rfl

theorem onlyText_sort (ss : List GoString) : onlyText (sort ss) = onlyText ss :=
  onlyText_congr (sort_perm ss)

/-- The greater of two numbers, as the loop over the candidates finds it. -/
theorem greater_comm (x y z : UInt64) : (if (if z < x then x else z) < y then y else if z < x then x else z) =
      if (if z < y then y else z) < x then x else if z < y then y else z := by
  simp only [UInt64.lt_iff_toNat_lt]
  apply UInt64.toNat.inj
  split_ifs <;> omega

theorem selectLeader_congr {members members' : List (GoString × UInt64)} (h : members.Perm members') :
    selectLeader members = selectLeader members' := by
  have hempty : members = [] ↔ members' = [] := by
    rw [← length_eq_zero_iff, h.length_eq, length_eq_zero_iff]
  have htop : topEpoch members = topEpoch members' :=
    h.foldl_eq' (fun x _ y _ z => greater_comm x.2 y.2 z) 0
  rw [selectLeader, selectLeader, htop]
  simp only [hempty]
  split_ifs
  · rfl
  · rw [onlyText_sort, onlyText_sort, onlyText_congr ((h.filter _).map _)]

theorem discoverBridges_congr (h : order.Perm order') (direction protocol : GoString) (now : Time) :
    (r.discoverBridges order direction protocol now).map (map bytes) =
      (r.discoverBridges order' direction protocol now).map (map bytes) := by
  rw [discoverBridges, discoverBridges]
  split_ifs
  · exact congrArg Except.ok (map_bytes_sort_congr (h.filter _))
  · exact congrArg Except.ok (map_bytes_sort_congr (h.filter _))
  · rfl

def arrival (receivedAt : Time) (frame : GoDict T) : Call T :=
  { frame := frame, signatureValid := true, receivedAt := receivedAt }

/-- The same announcements lead to the same registry and the same answers in any order. -/
theorem registry_converges (r : NdpRegistryProfile T) (receivedAt : Time) {frames frames' : List (GoDict T)}
    (hperm : frames.Perm frames') (hpresent : ∀ frame ∈ frames, frame["graph_seq"]?.isSome)
    (hdiffer : frames.Pairwise (SequencesDiffer P)) : let s := r.calls P sha256 (frames.map (arrival receivedAt))
    let s' := r.calls P sha256 (frames'.map (arrival receivedAt))
    s = s' ∧ ∀ order order', s.Lists order → s'.Lists order' → ∀ now,
      (s.liveNIDs order now).map bytes = (s'.liveNIDs order' now).map bytes ∧
      (∀ clusterAnchor, s.resolveCluster P order clusterAnchor now =
        s'.resolveCluster P order' clusterAnchor now) ∧
      ∀ direction protocol, (s.discoverBridges order direction protocol now).map (map bytes) =
        (s'.discoverBridges order' direction protocol now).map (map bytes) := by
  intro s s'
  have hsame : s = s' := by
    refine List.Perm.foldl_eq' (hperm.map _) (fun c hc d hd t => ?_) r
    obtain ⟨frame, hframe, rfl⟩ := mem_map.mp hc
    obtain ⟨frame', hframe', rfl⟩ := mem_map.mp hd
    by_cases heq : frame = frame'
    · rw [heq]
    · exact call_comm t (hdiffer.forall hframe hframe' heq) (hpresent frame hframe) (hpresent frame' hframe')
  refine ⟨hsame, fun order order' horder horder' now => ?_⟩
  rw [← hsame] at horder' ⊢
  have horders := horder.perm horder'
  exact ⟨map_bytes_sort_congr (horders.filter _), fun _ => selectLeader_congr (horders.filterMap _), fun _ _ =>
    discoverBridges_congr horders _ _ now⟩

/-- Two announcements of one node. -/
theorem beats_converge :
    publicRegistry.calls plainPlatform id ([beat [] 60 1, beat [] 60 2].map (arrival (63902822400 * GoTime.second))) =
      publicRegistry.calls plainPlatform id
        ([beat [] 60 2, beat [] 60 1].map (arrival (63902822400 * GoTime.second))) := by
  refine (registry_converges publicRegistry _ (List.Perm.swap _ _ _) ?_ ?_).1
  · decide +kernel
  · refine pairwise_pair.mpr fun _ sequence hs hs' => ?_
    have hfirst : uintValue plainPlatform (GoDict.get (beat [] 60 1) "graph_seq") = some 1 := by decide +kernel
    have hsecond : uintValue plainPlatform (GoDict.get (beat [] 60 2) "graph_seq") = some 2 := by decide +kernel
    rw [hfirst] at hs
    rw [hsecond, ← hs] at hs'
    cases hs'

end NpsSdk.Ndp.NdpRegistryProfile
