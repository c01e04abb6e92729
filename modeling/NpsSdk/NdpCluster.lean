import NpsSdk.Ledger
import NpsSdk.NdpRegistryConvergence

/-! Who owns a cluster. The election over listed frames lets every live frame that names the cluster take
part; the registry of version 0.12 has an election of its own, over the maps it holds, in which only frames
with the role of an anchor take part. -/

open NpsSdk.Core

namespace NpsSdk.Ndp

open AnnounceFrame List NdpRegistryProfile NdpClusterSelection

variable {T : Type}

/-! ### The election over frames -/

def defaultClusterEpoch : UInt64 := 1

def AnnounceFrame.clusterEpochOrDefault (f : AnnounceFrame T) : UInt64 :=
  f.clusterEpoch.getD defaultClusterEpoch

structure ClusterSplitError where
  clusterAnchor : GoString
  epoch : UInt64

def ClusterSplitError.errorCode (_ : ClusterSplitError) : GoString := errClusterSplit

/-- The lister may be nil, and so may the frames it lists. -/
def resolveCluster (registry : Option (List (Option (AnnounceFrame T)))) (clusterAnchor : GoString) :
    Except ClusterSplitError (Option (AnnounceFrame T)) :=
  match registry with
  | none => .ok none
  | some getAll =>
    if clusterAnchor = [] then .ok none
    else
      match getAll.filterMap fun f => f.filter fun f => f.clusterAnchor = clusterAnchor with
      | [] => .ok none
      | first :: rest =>
        let top := rest.foldl
          (fun top f => if top < f.clusterEpochOrDefault then f.clusterEpochOrDefault else top)
          first.clusterEpochOrDefault
        let leaders := (first :: rest).filter fun f => f.clusterEpochOrDefault = top
        if 1 < leaders.length then .error { clusterAnchor := clusterAnchor, epoch := top }
        else .ok leaders.head?

/-- The answer in the words of the other election. -/
def selectionOf : Except ClusterSplitError (Option (AnnounceFrame T)) → NdpClusterSelection
  | .ok none => {}
  | .ok (some f) => { nid := f.nid, epoch := f.clusterEpochOrDefault }
  | .error e => { errorCode := e.errorCode }

/-! ### Leaders -/

def AnnounceFrame.candidate (f : AnnounceFrame T) : GoString × UInt64 := (f.nid, f.clusterEpochOrDefault)

def Leads (fs : List (AnnounceFrame T)) (f : AnnounceFrame T) : Prop :=
  f ∈ fs ∧ ∀ g ∈ fs, g.clusterEpochOrDefault ≤ f.clusterEpochOrDefault

def LeadsAlone (fs : List (AnnounceFrame T)) (f : AnnounceFrame T) : Prop :=
  Leads fs f ∧ ∀ g, Leads fs g → g.nid = f.nid

def Tied (fs : List (AnnounceFrame T)) : Prop := ∃ f g, Leads fs f ∧ Leads fs g ∧ f.nid ≠ g.nid

variable {fs : List (AnnounceFrame T)} {f : AnnounceFrame T} {named : List (AnnounceFrame T)}

theorem exists_leads (h : fs ≠ []) : ∃ f, Leads fs f := by
  induction fs with
  | nil => exact absurd rfl h
  | cons f fs ih =>
    cases fs with
    | nil =>
      refine ⟨f, mem_cons_self, fun g hg => ?_⟩
      rw [mem_singleton.mp hg]
      exact UInt64.le_refl _
    | cons f' fs =>
      obtain ⟨g, hg, hle⟩ := ih (cons_ne_nil _ _)
      rcases UInt64.le_total f.clusterEpochOrDefault g.clusterEpochOrDefault with hfg | hgf
      · exact ⟨g, mem_cons_of_mem _ hg, forall_mem_cons.mpr ⟨hfg, hle⟩⟩
      · exact ⟨f, mem_cons_self, forall_mem_cons.mpr ⟨UInt64.le_refl _, fun g' hg' =>
          UInt64.le_trans (hle g' hg') hgf⟩⟩

theorem empty_or_leadsAlone_or_tied (fs : List (AnnounceFrame T)) : fs = [] ∨ (∃ f, LeadsAlone fs f) ∨ Tied fs := by
  by_cases hempty : fs = []
  · exact .inl hempty
  obtain ⟨f, hf⟩ := exists_leads hempty
  by_cases hties : ∃ g, Leads fs g ∧ f.nid ≠ g.nid
  · obtain ⟨g, hg, hne⟩ := hties
    exact .inr (.inr ⟨f, g, hf, hg, hne⟩)
  refine .inr (.inl ⟨f, hf, fun g hg => ?_⟩)
  by_contra hne
  exact hties ⟨g, hg, fun heq => hne heq.symm⟩

/-- The loop over the candidates finds the highest epoch. -/
theorem foldl_greater_eq {cs : List (GoString × UInt64)} {start bound : UInt64} (hstart : start ≤ bound)
    (hbound : ∀ c ∈ cs, c.2 ≤ bound) (hattained : start = bound ∨ ∃ c ∈ cs, c.2 = bound) :
    cs.foldl (fun top candidate => if top < candidate.2 then candidate.2 else top) start = bound := by
  induction cs generalizing start with
  | nil =>
    rcases hattained with heq | ⟨c, hc, -⟩
    · exact heq
    · cases hc
  | cons c cs ih =>
    rw [forall_mem_cons] at hbound
    rw [foldl_cons]
    split_ifs with hlt
    · refine ih hbound.1 hbound.2 ?_
      rcases hattained with rfl | ⟨c', hc', heq⟩
      · exact absurd (UInt64.lt_of_lt_of_le hlt hbound.1) (UInt64.lt_irrefl _)
      rcases mem_cons.mp hc' with rfl | hc'
      · exact .inl heq
      · exact .inr ⟨c', hc', heq⟩
    · refine ih hstart hbound.2 ?_
      rcases hattained with heq | ⟨c', hc', heq⟩
      · exact .inl heq
      rcases mem_cons.mp hc' with rfl | hc'
      · exact .inl (UInt64.le_antisymm hstart (heq ▸ UInt64.not_lt.mp hlt))
      · exact .inr ⟨c', hc', heq⟩

theorem Leads.topEpoch_eq (h : Leads fs f) : topEpoch (fs.map candidate) = f.clusterEpochOrDefault := by
  refine foldl_greater_eq UInt64.zero_le (fun c hc => ?_) (.inr ⟨_, mem_map_of_mem h.1, rfl⟩)
  obtain ⟨g, hg, rfl⟩ := mem_map.mp hc
  exact h.2 g hg

theorem Leads.top_eq {first : AnnounceFrame T} {rest : List (AnnounceFrame T)} (h : Leads (first :: rest) f) :
    rest.foldl (fun top f => if top < f.clusterEpochOrDefault then f.clusterEpochOrDefault else top)
      first.clusterEpochOrDefault = f.clusterEpochOrDefault := by
  have hfold : (rest.map candidate).foldl
      (fun top candidate => if top < candidate.2 then candidate.2 else top) first.clusterEpochOrDefault =
        f.clusterEpochOrDefault := by
    refine foldl_greater_eq (h.2 first mem_cons_self) (fun c hc => ?_) ?_
    · obtain ⟨g, hg, rfl⟩ := mem_map.mp hc
      exact h.2 g (mem_cons_of_mem _ hg)
    · rcases mem_cons.mp h.1 with rfl | hf
      · exact .inl rfl
      · exact .inr ⟨_, mem_map_of_mem hf, rfl⟩
  rw [foldl_map] at hfold
  exact hfold

theorem Leads.mem_filter_iff {f g : AnnounceFrame T} (h : Leads fs f) :
    g ∈ (fs.filter fun g => g.clusterEpochOrDefault = f.clusterEpochOrDefault) ↔ Leads fs g := by
  rw [mem_filter, decide_eq_true_eq]
  refine and_congr_right fun hg => ⟨fun heq => heq ▸ h.2, fun hg' => ?_⟩
  exact UInt64.le_antisymm (h.2 g hg) (hg' f h.1)

theorem onlyText_eq_some {ss : List GoString} {s : GoString} (hnodup : ss.Nodup) (hs : s ∈ ss)
    (honly : ∀ t ∈ ss, t = s) : onlyText ss = some s := by
  match ss with
  | [] => cases hs
  | [t] => rw [honly t mem_cons_self]; rfl
  | t :: t' :: rest =>
    have heq : t = t' := (honly t mem_cons_self).trans (honly t' (mem_cons_of_mem _ mem_cons_self)).symm
    exact absurd (heq ▸ mem_cons_self) (nodup_cons.mp hnodup).1

theorem onlyText_eq_none {ss : List GoString} {s t : GoString} (hs : s ∈ ss) (ht : t ∈ ss) (hne : s ≠ t) :
    onlyText ss = none := by
  match ss with
  | [] => cases hs
  | [u] => exact absurd ((mem_singleton.mp hs).trans (mem_singleton.mp ht).symm) hne
  | _ :: _ :: _ => rfl

theorem selectLeader_candidates (h : Leads fs f) : selectLeader (fs.map candidate) =
      match onlyText ((fs.filter fun g => g.clusterEpochOrDefault = f.clusterEpochOrDefault).map (·.nid)) with
      | some leader => { nid := leader, epoch := f.clusterEpochOrDefault }
      | none => { errorCode := errClusterSplit } := by
  have hne : fs.map candidate ≠ [] := ne_nil_of_mem (mem_map_of_mem h.1)
  rw [selectLeader, if_neg hne, h.topEpoch_eq]
  dsimp only
  rw [onlyText_sort, filter_map, map_map]
  rfl

theorem LeadsAlone.selectLeader_eq (hnodup : (fs.map (·.nid)).Nodup) (h : LeadsAlone fs f) :
    selectLeader (fs.map candidate) = { nid := f.nid, epoch := f.clusterEpochOrDefault } := by
  rw [selectLeader_candidates h.1, onlyText_eq_some (s := f.nid)]
  · exact hnodup.sublist (List.filter_sublist.map _)
  · exact mem_map_of_mem (h.1.mem_filter_iff.mpr h.1)
  · intro nid hnid
    obtain ⟨g, hg, rfl⟩ := mem_map.mp hnid
    exact h.2 g (h.1.mem_filter_iff.mp hg)

theorem Tied.selectLeader_eq (h : Tied fs) :
    selectLeader (fs.map candidate) = { errorCode := errClusterSplit } := by
  obtain ⟨f, g, hf, hg, hne⟩ := h
  rw [selectLeader_candidates hf, onlyText_eq_none (mem_map_of_mem (hf.mem_filter_iff.mpr hf))
    (mem_map_of_mem (hf.mem_filter_iff.mpr hg)) hne]

theorem selectionOf_resolveCluster {getAll : List (Option (AnnounceFrame T))} {clusterAnchor : GoString}
    (hanchor : clusterAnchor ≠ []) (hnodup : ((getAll.filterMap id).map (·.nid)).Nodup) :
    selectionOf (resolveCluster (some getAll) clusterAnchor) =
      selectLeader (((getAll.filterMap id).filter fun f => f.clusterAnchor = clusterAnchor).map candidate) := by
  have hmembers : (getAll.filterMap fun f => f.filter fun f => f.clusterAnchor = clusterAnchor) =
      (getAll.filterMap id).filter fun f => f.clusterAnchor = clusterAnchor := by
    rw [filter_filterMap]
    rfl
  rw [resolveCluster, if_neg hanchor, hmembers]
  have hnames : (((getAll.filterMap id).filter fun f => f.clusterAnchor = clusterAnchor).map (·.nid)).Nodup :=
    hnodup.sublist (List.filter_sublist.map _)
  generalize (getAll.filterMap id).filter (fun f => f.clusterAnchor = clusterAnchor) = members at hnames ⊢
  cases members with
  | nil => rfl
  | cons first rest =>
    obtain ⟨f, hf⟩ := exists_leads (cons_ne_nil first rest)
    dsimp only
    rw [hf.top_eq, selectLeader_candidates hf]
    have hleader : f ∈ (first :: rest).filter fun g => g.clusterEpochOrDefault = f.clusterEpochOrDefault :=
      hf.mem_filter_iff.mpr hf
    have hepoch : ∀ g ∈ (first :: rest).filter fun g => g.clusterEpochOrDefault = f.clusterEpochOrDefault,
        g.clusterEpochOrDefault = f.clusterEpochOrDefault := fun g hg => by
      simpa using (mem_filter.mp hg).2
    generalize (first :: rest).filter (fun g => g.clusterEpochOrDefault = f.clusterEpochOrDefault) = leaders
      at hleader hepoch ⊢
    match leaders with
    | [] => cases hleader
    | [g] => exact congrArg (mk g.nid · []) (hepoch g mem_cons_self)
    | _ :: _ :: _ => rfl

/-! ### The election of the registry -/

def AnnounceFrame.IsAnchor (f : AnnounceFrame T) : Prop := ("anchor" : GoString) ∈ f.nodeRoles.getD []

instance : DecidablePred (AnnounceFrame.IsAnchor (T := T)) := fun _ => inferInstanceAs (Decidable (_ ∈ _))

section

variable (f : AnnounceFrame T)

/-- What the election reads of an announcement that was sent. -/
theorem toDict_entries : f.toDict["nid"]? = some (.string f.nid) ∧
    f.toDict["node_roles"]? = nonEmptyStrings f.nodeRoles ∧
    f.toDict["cluster_anchor"]? = nonEmpty f.clusterAnchor ∧
    f.toDict["cluster_epoch"]? = f.clusterEpoch.map .uint64 := by
  refine ⟨?_, ?_, ?_, ?_⟩ <;>
    simp only [toDict, unsignedDict, setOptional, sortedDict_eq, GoDict.getElem?_setIf, GoMap.ofList, foldl_cons,
      foldl_nil, GoMap.getElem?_insert, String.reduceEq, if_true, if_false, Std.ExtTreeMap.getElem?_empty,
      Option.or_none, Option.or_self]

theorem clusterAnchor_cloneMap : GoDict.str (cloneMap f.toDict) "cluster_anchor" = f.clusterAnchor := by
  rw [str_cloneMap, GoDict.str, GoDict.optStr, GoDict.get, (toDict_entries f).2.2.1, nonEmpty]
  split_ifs with hempty
  · exact hempty.symm
  · rfl

theorem nodeRoles_cloneMap : stringsField (cloneMap f.toDict) "node_roles" = f.nodeRoles.getD [] := by
  rw [stringsField, get_cloneMap, GoDict.get, (toDict_entries f).2.1, nonEmptyStrings]
  split_ifs with hempty
  · exact hempty.symm
  cases hroles : f.nodeRoles with
  | none =>
    rw [hroles] at hempty
    exact absurd rfl hempty
  | some roles => rfl

theorem clusterEpoch_cloneMap (P : Platform T) :
    (uintValue P (GoDict.get (cloneMap f.toDict) "cluster_epoch")).getD 1 = f.clusterEpochOrDefault := by
  rw [get_cloneMap, GoDict.get, (toDict_entries f).2.2.2, clusterEpochOrDefault]
  cases f.clusterEpoch with
  | none => rfl
  | some epoch =>
    exact ofInt_toNat epoch

end

/-- The lister lists the frames the registry holds at the given time, one for each node. -/
structure SameLive (getAll : List (Option (AnnounceFrame T))) (r : NdpRegistryProfile T) (now : Time) : Prop where
  nodup : ((getAll.filterMap id).map (·.nid)).Nodup
  live : ∀ nid, (r.live now nid).map (·.frame) =
    ((getAll.filterMap id).find? (·.nid = nid)).map fun f => cloneMap f.toDict

namespace SameLive

variable {getAll : List (Option (AnnounceFrame T))} {r : NdpRegistryProfile T} {now : Time}
  {order : List GoString} (h : SameLive getAll r now)

include h

theorem live_frame {f : AnnounceFrame T} (hf : f ∈ getAll.filterMap id) :
    ∃ e, r.live now f.nid = some e ∧ e.frame = cloneMap f.toDict := by
  have hlive := h.live f.nid
  rw [Ledger.find?_key h.nodup hf, Option.map_some, Option.map_eq_some_iff] at hlive
  exact hlive

theorem live_isSome_iff (nid : GoString) :
    (r.live now nid).isSome = true ↔ nid ∈ (getAll.filterMap id).map (·.nid) := by
  constructor
  · intro hsome
    have hfound := congrArg Option.isSome (h.live nid)
    rw [Option.isSome_map, hsome, Option.isSome_map] at hfound
    obtain ⟨f, hf⟩ := Option.isSome_iff_exists.mp hfound.symm
    have hnid : f.nid = nid := by simpa using find?_some hf
    exact hnid ▸ mem_map_of_mem (mem_of_find?_eq_some hf)
  · intro hmem
    obtain ⟨f, hf, rfl⟩ := mem_map.mp hmem
    obtain ⟨e, he, -⟩ := h.live_frame hf
    rw [he]
    rfl

/-- The live nodes are those of the frames. -/
theorem order_perm (horder : r.Lists order) :
    (order.filter fun nid => (r.live now nid).isSome).Perm ((getAll.filterMap id).map (·.nid)) := by
  refine (perm_ext_iff_of_nodup (horder.1.filter _) h.nodup).mpr fun nid => ?_
  rw [mem_filter, h.live_isSome_iff]
  refine and_iff_right_of_imp fun hmem => (horder.2 nid).mpr fun hnone => ?_
  have hlive := (h.live_isSome_iff nid).mpr hmem
  rw [NdpRegistryProfile.live, hnone] at hlive
  cases hlive

theorem clusterMembers_perm (P : Platform T) (horder : r.Lists order) (clusterAnchor : GoString) :
    (r.clusterMembers P order clusterAnchor now).Perm
      ((((getAll.filterMap id).filter fun f => f.clusterAnchor = clusterAnchor).filter fun f => f.IsAnchor).map
        candidate) := by
  have hread : ∀ f ∈ getAll.filterMap id, ((r.live now f.nid).bind fun e =>
        if GoDict.str e.frame "cluster_anchor" = clusterAnchor ∧
            (stringsField e.frame "node_roles").contains "anchor" then
          some (f.nid, (uintValue P (GoDict.get e.frame "cluster_epoch")).getD 1)
        else none) =
      if f.clusterAnchor = clusterAnchor ∧ f.IsAnchor then some f.candidate else none := by
    intro f hf
    obtain ⟨e, he, hframe⟩ := h.live_frame hf
    rw [he, Option.bind_some, hframe, clusterAnchor_cloneMap, nodeRoles_cloneMap, clusterEpoch_cloneMap]
    exact if_congr (and_congr_right fun _ => contains_iff_mem) rfl rfl
  have hlive : r.clusterMembers P order clusterAnchor now =
      r.clusterMembers P (order.filter fun nid => (r.live now nid).isSome) clusterAnchor now := by
    rw [clusterMembers, clusterMembers, filterMap_filter]
    refine filterMap_congr fun nid _ => ?_
    cases r.live now nid <;> rfl
  have hframes : r.clusterMembers P ((getAll.filterMap id).map (·.nid)) clusterAnchor now =
      (((getAll.filterMap id).filter fun f => f.clusterAnchor = clusterAnchor).filter fun f => f.IsAnchor).map
        candidate := by
    rw [clusterMembers, filterMap_map, filter_filter, ← filterMap_eq_map, filterMap_filter]
    refine filterMap_congr fun f hf => (hread f hf).trans ?_
    simp only [Bool.and_eq_true, decide_eq_true_eq, and_comm]
    rfl
  rw [hlive, ← hframes]
  exact (h.order_perm horder).filterMap _

end SameLive

/-- What the roles of the frames that name a cluster must be like for the two elections to agree. -/
def RolesDecide (clusterAnchor : GoString) (named : List (AnnounceFrame T)) : Prop :=
  if clusterAnchor = [] then ∀ f ∈ named, ¬ f.IsAnchor
  else (∀ f, LeadsAlone named f → f.IsAnchor) ∧ (Tied named → Tied (named.filter fun f => f.IsAnchor))

theorem leadsAlone_filter (h : LeadsAlone named f) (hanchor : f.IsAnchor) :
    LeadsAlone (named.filter fun f => f.IsAnchor) f := by
  have hmem : f ∈ named.filter fun f => f.IsAnchor := mem_filter.mpr ⟨h.1.1, decide_eq_true hanchor⟩
  refine ⟨⟨hmem, fun g hg => h.1.2 g (mem_of_mem_filter hg)⟩, fun g hg => ?_⟩
  refine h.2 g ⟨mem_of_mem_filter hg.1, fun g' hg' => ?_⟩
  exact UInt64.le_trans (h.1.2 g' hg') (hg.2 f hmem)

theorem LeadsAlone.not_tied (h : LeadsAlone fs f) : ¬ Tied fs := by
  rintro ⟨g, g', hg, hg', hne⟩
  exact hne ((h.2 g hg).trans (h.2 g' hg').symm)

theorem split_ne (nid : GoString) (epoch : UInt64) :
    ({ nid := nid, epoch := epoch } : NdpClusterSelection) ≠ { errorCode := errClusterSplit } := by
  intro h
  cases congrArg errorCode h

/-- Leaving frames out changes the outcome unless the one that leads alone stays, or two lead again. -/
theorem selectLeader_filter_iff (hnodup : (named.map (·.nid)).Nodup) (hnids : ∀ f ∈ named, f.nid ≠ []) :
    selectLeader (named.map candidate) = selectLeader ((named.filter fun f => f.IsAnchor).map candidate) ↔
      (∀ f, LeadsAlone named f → f.IsAnchor) ∧ (Tied named → Tied (named.filter fun f => f.IsAnchor)) := by
  have hanchors : ((named.filter fun f => f.IsAnchor).map (·.nid)).Nodup :=
    hnodup.sublist (List.filter_sublist.map _)
  have hsame : ∀ {f g}, f ∈ named → g ∈ named → f.nid = g.nid → f = g :=
    fun hf hg => inj_on_of_nodup_map hnodup hf hg
  rcases empty_or_leadsAlone_or_tied named with rfl | ⟨f, hf⟩ | htied
  · exact ⟨fun _ => ⟨fun f hf => (nomatch hf.1.1), fun ⟨f, _, hf, _⟩ => (nomatch hf.1)⟩, fun _ => rfl⟩
  · rw [hf.selectLeader_eq hnodup]
    constructor
    · intro hagree
      refine ⟨fun g hg => ?_, fun htied => absurd htied hf.not_tied⟩
      rcases empty_or_leadsAlone_or_tied (named.filter fun f => f.IsAnchor) with hempty | ⟨g', hg'⟩ | htied
      · rw [hempty] at hagree
        exact absurd (congrArg NdpClusterSelection.nid hagree) (hnids f hf.1.1)
      · rw [hg'.selectLeader_eq hanchors] at hagree
        have hmem := mem_filter.mp hg'.1.1
        have hgf : g = f := hsame hg.1.1 hf.1.1 (hf.2 g hg.1)
        have hgf' : f = g' := hsame hf.1.1 hmem.1 (congrArg NdpClusterSelection.nid hagree)
        rw [hgf, hgf']
        exact of_decide_eq_true hmem.2
      · rw [htied.selectLeader_eq] at hagree
        exact absurd hagree (split_ne _ _)
    · intro hroles
      rw [(leadsAlone_filter hf (hroles.1 f hf)).selectLeader_eq hanchors]
  · rw [htied.selectLeader_eq]
    constructor
    · intro hagree
      refine ⟨fun g hg => absurd htied hg.not_tied, fun _ => ?_⟩
      rcases empty_or_leadsAlone_or_tied (named.filter fun f => f.IsAnchor) with hempty | ⟨g, hg⟩ | htied
      · rw [hempty] at hagree
        exact absurd hagree.symm (split_ne _ _)
      · rw [hg.selectLeader_eq hanchors] at hagree
        exact absurd hagree.symm (split_ne _ _)
      · exact htied
    · intro hroles
      rw [(hroles.2 htied).selectLeader_eq]

theorem selectLeader_eq_empty_iff (hnodup : (fs.map (·.nid)).Nodup) (hnids : ∀ f ∈ fs, f.nid ≠ []) :
    {} = selectLeader (fs.map candidate) ↔ fs = [] := by
  refine ⟨fun h => ?_, fun h => by rw [h]; rfl⟩
  rcases empty_or_leadsAlone_or_tied fs with hempty | ⟨f, hf⟩ | htied
  · exact hempty
  · rw [hf.selectLeader_eq hnodup] at h
    exact absurd (congrArg NdpClusterSelection.nid h).symm (hnids f hf.1.1)
  · rw [htied.selectLeader_eq] at h
    exact absurd h (split_ne _ _)

/-- The election over the frames of a lister and that of a registry which holds the same frames agree
exactly if the roles decide. -/
theorem elections_agree_iff {P : Platform T} {sha256 : Bytes → Bytes} {getAll : List (Option (AnnounceFrame T))}
    {r : NdpRegistryProfile T} {now : Time} {order : List GoString} (hreached : r.Reached P sha256)
    (hsame : SameLive getAll r now) (horder : r.Lists order) (clusterAnchor : GoString) :
    selectionOf (resolveCluster (some getAll) clusterAnchor) = r.resolveCluster P order clusterAnchor now ↔
      RolesDecide clusterAnchor ((getAll.filterMap id).filter fun f => f.clusterAnchor = clusterAnchor) := by
  have hnids : ∀ f ∈ (getAll.filterMap id).filter fun f => f.clusterAnchor = clusterAnchor, f.nid ≠ [] := by
    intro f hf hnil
    obtain ⟨e, he, -⟩ := hsame.live_frame (mem_of_mem_filter hf)
    rw [hnil, live, hreached.entries_nil] at he
    cases he
  have hnodup : (((getAll.filterMap id).filter fun f => f.clusterAnchor = clusterAnchor).map (·.nid)).Nodup :=
    hsame.nodup.sublist (List.filter_sublist.map _)
  rw [NdpRegistryProfile.resolveCluster,
    NdpRegistryProfile.selectLeader_congr (hsame.clusterMembers_perm P horder clusterAnchor), RolesDecide]
  split_ifs with hanchor
  · have hnone : selectionOf (resolveCluster (some getAll) clusterAnchor) = {} := by
      rw [resolveCluster, if_pos hanchor]
      rfl
    rw [hnone, selectLeader_eq_empty_iff (hnodup.sublist (List.filter_sublist.map _)) fun f hf =>
      hnids f (mem_of_mem_filter hf), filter_eq_nil_iff]
    simp only [decide_eq_true_eq]
  · rw [selectionOf_resolveCluster hanchor hsame.nodup]
    exact selectLeader_filter_iff hnodup hnids

/-! ### Small clusters -/

open NdpRegistryProfile

theorem sameLive_new (securityProfile : GoString) (now : Time) :
    SameLive [] (newNdpRegistryProfile T securityProfile) now ∧ (newNdpRegistryProfile T securityProfile).Lists [] :=
  ⟨⟨nodup_nil, fun _ => rfl⟩, nodup_nil, fun _ => ⟨fun hnid => absurd hnid not_mem_nil, fun hne => absurd rfl hne⟩⟩

/-- A registry that accepts the announcement of a new node holds what it says besides what it held. -/
theorem sameLive_accept {P : Platform T} {sha256 : Bytes → Bytes} {getAll : List (Option (AnnounceFrame T))}
    {r : NdpRegistryProfile T} {now : Time} {order : List GoString} (h : SameLive getAll r now ∧ r.Lists order)
    (hnew : f.nid ∉ order) (haccepted : (r.call P sha256 (arrival now f.toDict)).2.decision = .accepted) :
    SameLive (some f :: getAll) (r.call P sha256 (arrival now f.toDict)).1 now ∧
      (r.call P sha256 (arrival now f.toDict)).1.Lists (f.nid :: order) := by
  obtain ⟨hsame, horder⟩ := h
  obtain ⟨a, expiresAt, hnid, hfresh, hput⟩ := call_of_accepted _ _ haccepted
  change now < expiresAt at hfresh
  have hnid' : a.nid = f.nid := by
    rw [hnid, arrival, GoDict.str, GoDict.optStr, GoDict.get, (toDict_entries f).1]
    rfl
  have hentries : ∀ nid, (r.call P sha256 (arrival now f.toDict)).1.entries nid =
      if nid = f.nid then some ⟨cloneMap f.toDict, a.digest, expiresAt⟩ else r.entries nid := by
    intro nid
    rw [hput, entries_put, hnid']
    rfl
  have hlisted : f.nid ∉ (getAll.filterMap id).map (·.nid) := by
    intro hmem
    have hlive := (hsame.live_isSome_iff f.nid).mpr hmem
    rw [live, of_not_not fun hne => hnew ((horder.2 f.nid).mpr hne)] at hlive
    cases hlive
  refine ⟨⟨nodup_cons.mpr ⟨hlisted, hsame.nodup⟩, fun nid => ?_⟩, nodup_cons.mpr ⟨hnew, horder.1⟩, fun nid => ?_⟩
  · change _ = Option.map _ (List.find? _ (f :: getAll.filterMap id))
    by_cases heq : nid = f.nid
    · rw [live, hentries nid, if_pos heq, Option.filter_some, find?_cons_of_pos (by simp [heq])]
      simp only [hfresh]
      rfl
    · rw [live, hentries nid, if_neg heq, find?_cons_of_neg (by simpa using fun heq' => heq heq'.symm)]
      exact hsame.live nid
  · rw [mem_cons, hentries nid, horder.2 nid]
    by_cases heq : nid = f.nid
    · rw [if_pos heq]
      exact iff_of_true (.inl heq) (fun hnone => by cases hnone)
    · rw [if_neg heq, or_iff_right heq]

def memberAnnounce (roles : List GoString) : AnnounceFrame Empty :=
  { nid := "urn:nps:node:ca:a", addresses := none, caps := none, ttl := 60
    timestamp := "2026-01-01T00:00:00Z", signature := [], nodeType := none, nodeRoles := some roles
    clusterAnchor := "main", spawnSpecRef := [], bridgeProtocols := none, bridgeInboundProtocols := none
    activationMode := [], activationEndpoint := none, heartbeatIntervalMs := 60000, clusterEpoch := none
    health := [], lastSeen := [], graphSeq := some 1 }

def memberTime : Time := 63902822400 * GoTime.second

def memberRegistry (roles : List GoString) : NdpRegistryProfile Empty :=
  publicRegistry.calls plainPlatform id [arrival memberTime (memberAnnounce roles).toDict]

/-- A member of a later epoch. -/
def laterAnnounce : AnnounceFrame Empty :=
  { memberAnnounce ["anchor"] with nid := "urn:nps:node:ca:b", clusterEpoch := some 2 }

def twoMemberRegistry : NdpRegistryProfile Empty :=
  publicRegistry.calls plainPlatform id
    [arrival memberTime (memberAnnounce ["memory"]).toDict, arrival memberTime laterAnnounce.toDict]

theorem later_anchor_elected :
    selectionOf (resolveCluster (some [some laterAnnounce, some (memberAnnounce ["memory"])]) "main") =
        twoMemberRegistry.resolveCluster plainPlatform ["urn:nps:node:ca:b", "urn:nps:node:ca:a"] "main" memberTime ∧
      twoMemberRegistry.resolveCluster plainPlatform ["urn:nps:node:ca:b", "urn:nps:node:ca:a"] "main" memberTime =
        { nid := "urn:nps:node:ca:b", epoch := 2 } := by
  have hfirst : (publicRegistry.call plainPlatform id
      (arrival memberTime (memberAnnounce ["memory"]).toDict)).2.decision = .accepted := by decide +kernel
  have hsecond : ((memberRegistry ["memory"]).call plainPlatform id
      (arrival memberTime laterAnnounce.toDict)).2.decision = .accepted := by decide +kernel
  have hone := sameLive_accept (sameLive_new "public" memberTime) (by decide) hfirst
  obtain ⟨hsame, horder⟩ := sameLive_accept hone (by decide) hsecond
  have hreached : twoMemberRegistry.Reached plainPlatform id := ⟨_, _, rfl⟩
  refine ⟨(elections_agree_iff hreached hsame horder "main").mpr ?_, by decide +kernel⟩
  have honly : ∀ g, Leads [laterAnnounce, memberAnnounce ["memory"]] g → g = laterAnnounce := by
    intro g hg
    rcases mem_pair.mp hg.1 with rfl | rfl
    · rfl
    · exact absurd (hg.2 laterAnnounce mem_cons_self) (by decide)
  refine ⟨fun f hf => ?_, fun ⟨f, g, hf, hg, hne⟩ => ?_⟩
  · rw [honly f hf.1]
    decide
  · rw [honly f hf, honly g hg] at hne
    exact absurd rfl hne

/-- A member without the role owns the cluster by the one election, and by the other nobody does. -/
theorem member_elected_once : SameLive [some (memberAnnounce ["memory"])] (memberRegistry ["memory"]) memberTime ∧
      (memberRegistry ["memory"]).Lists ["urn:nps:node:ca:a"] ∧
      selectionOf (resolveCluster (some [some (memberAnnounce ["memory"])]) "main") =
        { nid := "urn:nps:node:ca:a", epoch := 1 } ∧
      (memberRegistry ["memory"]).resolveCluster plainPlatform ["urn:nps:node:ca:a"] "main" memberTime = {} := by
  have haccepted : (publicRegistry.call plainPlatform id
      (arrival memberTime (memberAnnounce ["memory"]).toDict)).2.decision = .accepted := by decide +kernel
  obtain ⟨hsame, horder⟩ := sameLive_accept (sameLive_new "public" memberTime) (by decide) haccepted
  exact ⟨hsame, horder, by decide +kernel, by decide +kernel⟩

end NpsSdk.Ndp
