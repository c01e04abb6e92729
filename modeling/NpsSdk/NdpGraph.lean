import NpsSdk.CorePortable
import NpsSdk.NdpFrames

/-! Topology snapshots on the wire. The nodes and edges are slices of structs, which JSON writes by the names
of their tags and MessagePack by the names of their Go fields, and they are read by the names of the
tags. -/

open NpsSdk.Core

namespace NpsSdk.Ndp

open GoMap NdpGraphEdge GoString
open GoDict
open JsonValue List

variable {T : Type}

/-! ### Validity -/

def maxGraphNodes : Nat := 256
def maxGraphEdges : Nat := 1024

def errGraphInvalid : GoString := "NDP-GRAPH-INVALID"
def errGraphTooLarge : GoString := "NDP-GRAPH-TOO-LARGE"

def edgeError (nodeIDs : List GoString) (edge : NdpGraphEdge) : Option GoString :=
  if edge.fromNID = [] ∨ edge.toNID = [] then
    some (errGraphInvalid ++ ": graph edges require from_nid and to_nid")
  else if edge.fromNID = edge.toNID then some (errGraphInvalid ++ ": graph self-edges are forbidden")
  else if edge.fromNID ∉ nodeIDs then
    some (errGraphInvalid ++ ": graph edge endpoints must appear in nodes")
  else if edge.toNID ∉ nodeIDs then some (errGraphInvalid ++ ": graph edge endpoints must appear in nodes")
  else none

def GraphFrame.validate (f : GraphFrame T) : Option GoString :=
  let nodes := f.nodes.getD []
  let edges := f.edges.getD []
  if maxGraphNodes < nodes.length then
    some (errGraphTooLarge ++ ": nodes length exceeds " ++ natText maxGraphNodes)
  else if maxGraphEdges < edges.length then
    some (errGraphTooLarge ++ ": edges length exceeds " ++ natText maxGraphEdges)
  else if nodes.any (·.nid = []) then some (errGraphInvalid ++ ": graph nodes require nid")
  else edges.findSome? (edgeError (nodes.map (·.nid)))

theorem GraphFrame.validate_congr {f f' : GraphFrame T} (hnodes : f'.nodes = f.nodes)
    (hedges : f'.edges = f.edges) : f'.validate = f.validate := by
  rw [validate, validate, hnodes, hedges]

theorem GraphFrame.nid_ne_of_valid {f : GraphFrame T} (h : f.validate = none) {nodes : List GraphNode}
    (hnodes : f.nodes = some nodes) {node : GraphNode} (hnode : node ∈ nodes) : node.nid ≠ [] := by
  rw [validate, hnodes] at h
  split_ifs at h with _ _ hany
  intro hnid
  exact hany (any_eq_true.mpr ⟨node, hnode, decide_eq_true hnid⟩)

theorem GraphFrame.edges_of_valid {f : GraphFrame T} (h : f.validate = none) (hnodes : f.nodes = none)
    {edges : List NdpGraphEdge} (hedges : f.edges = some edges) : edges = [] := by
  cases edges with
  | nil => rfl
  | cons edge edges =>
    rw [validate, hnodes, hedges] at h
    split_ifs at h
    have hedge := findSome?_eq_none_iff.mp h edge mem_cons_self
    rw [edgeError] at hedge
    split_ifs at hedge with _ _ hfrom
    exact absurd hfrom not_mem_nil

/-! ### Structs on the wire -/

def omitEmpty (name : String) (s : GoString) : List (String × JsonValue JsonNumber) :=
  if s = [] then [] else [(name, .string s)]

def GraphNode.members (node : GraphNode) : List (String × JsonValue JsonNumber) :=
  ("nid", .string node.nid) :: (omitEmpty "cluster_anchor" node.clusterAnchor ++
    match node.nodeRoles with
    | some (role :: roles) => [("node_roles", .array ((role :: roles).map .string))]
    | _ => [])

def GraphNode.json (node : GraphNode) : JsonValue JsonNumber := .object node.members

def NdpGraphEdge.members (edge : NdpGraphEdge) : List (String × JsonValue JsonNumber) :=
  ("from_nid", .string edge.fromNID) :: ("to_nid", .string edge.toNID) ::
    ((edge.latencyMs.toList.map fun n => ("latency_ms", .number (intNumber n.toInt))) ++
      omitEmpty "protocol" edge.protocol)

def NdpGraphEdge.json (edge : NdpGraphEdge) : JsonValue JsonNumber := .object edge.members

/-- A slice of structs; the nil slice is `null`. -/
def structsJson {α : Type} (json : α → JsonValue JsonNumber) : Option (List α) → JsonValue JsonNumber
  | some items => .array (items.map json)
  | none => .null

def GraphNode.fields (node : GraphNode) : GoDict T :=
  ofList [("NID", .string node.nid), ("ClusterAnchor", .string node.clusterAnchor),
    ("NodeRoles", .ofStrings node.nodeRoles)]

def NdpGraphEdge.fields (edge : NdpGraphEdge) : GoDict T :=
  ofList [("FromNID", .string edge.fromNID), ("ToNID", .string edge.toNID),
    ("LatencyMs", (edge.latencyMs.map fun n => goInt n.toInt).getD .nil), ("Protocol", .string edge.protocol)]

def structsByField {α : Type} (fields : α → GoDict T) : Option (List α) → GoAny T
  | some items => .slice (items.map fun item => .ofMap (fields item))
  | none => .nilOf .slice

/-- What the encoders make of the slices of structs. -/
structure GraphStructs (P : Platform T) (M : MsgPack T) (ofNodes : Option (List GraphNode) → T)
    (ofEdges : Option (List NdpGraphEdge) → T) : Prop where
  jsonNodes : ∀ nodes, P.jsonOther (ofNodes nodes) = some (structsJson GraphNode.json nodes)
  jsonEdges : ∀ edges, P.jsonOther (ofEdges edges) = some (structsJson json edges)
  /-- MessagePack does not read the tags. -/
  msgpackNodes : ∀ nodes, M.other (ofNodes nodes) = msgpackImage M.other (structsByField GraphNode.fields nodes)
  msgpackEdges : ∀ edges,
    M.other (ofEdges edges) = msgpackImage M.other (structsByField fields edges)

/-! ### What is read from JSON -/

section

variable {P : Platform T}

theorem exists_ofJson_object {fields : List (String × JsonValue JsonNumber)}
    (h : ∀ field ∈ fields, ∃ v, ofJson P field.2.normal = some v) :
    ∃ d : GoDict T, ofJson P (object fields).normal = some (.ofMap d) ∧
      ∀ key : String, d[key]? = (ofList fields)[key]?.bind fun j => ofJson P j.normal := by
  have hmap : (object fields).normal = .ofMap ((ofList fields).map fun _ j => j.normal) := by
    rw [normal, normalFields_eq_map]
    exact congrArg ofMap (ofList_map normal fields)
  have hread : ∀ (key : String) (w : JsonValue JsonNumber),
      ((ofList fields).map fun _ j => j.normal)[key]? = some w → ∃ v, ofJson P w = some v := by
    intro key w hw
    rw [Std.ExtTreeMap.getElem?_map] at hw
    obtain ⟨j, hj, rfl⟩ := Option.map_eq_some_iff.mp hw
    exact h _ (mem_of_getElem?_ofList hj)
  obtain ⟨d, hd, hentries⟩ := exists_ofJson_ofMap hread
  refine ⟨d, by rw [hmap, hd], fun key => ?_⟩
  rw [hentries, Std.ExtTreeMap.getElem?_map]
  cases (ofList fields)[key]? <;> rfl

def jsonText (s : GoString) : GoString := ofChars (toChars s)

theorem jsonText_eq_iff {s : GoString} : jsonText s = s ↔ GoString.Valid s :=
  ofChars_toChars_eq_iff s

def readBack {α : Type} (read : α → α) (items : Option (List α)) : Option (List α) :=
  (items.filter fun items => !items.isEmpty).map (·.map read)

theorem readBack_eq_iff {α : Type} {read : α → α} {items : Option (List α)} :
    readBack read items = items ↔ items ≠ some [] ∧ ∀ l ∈ items, ∀ a ∈ l, read a = a := by
  cases items with
  | none => simp [readBack]
  | some l =>
    cases l with
    | nil => simp [readBack]
    | cons a l =>
      have hmap : l.map read = l ↔ ∀ b ∈ l, read b = b := by
        simpa only [map_id, id_eq] using map_inj_left (f := read) (g := id) (l := l)
      simp [readBack, hmap]

def GraphNode.viaJson (node : GraphNode) : GraphNode where
  nid := jsonText node.nid
  clusterAnchor := jsonText node.clusterAnchor
  nodeRoles := readBack jsonText node.nodeRoles

def NdpGraphEdge.viaJson (P : Platform T) (edge : NdpGraphEdge) : NdpGraphEdge where
  fromNID := jsonText edge.fromNID
  toNID := jsonText edge.toNID
  latencyMs := edge.latencyMs.map fun n => P.int64OfFloat (F64.ofInt n.toInt)
  protocol := jsonText edge.protocol

theorem ofJson_strings (items : List GoString) : ofJson P (array (items.map .string)).normal =
      some (.slice (items.map fun s => .string (jsonText s))) := by
  rw [normal, ofJson, ofJsonItems_strings]
  rfl

theorem stringSlice_map (items : List GoString) (f : GoString → GoString) :
    (GoAny.slice (items.map fun s => .string (f s)) : GoAny T).stringSlice = some (items.map f) := by
  change some ((items.map fun s => (.string (f s) : GoAny T)).filterMap GoAny.asString) = _
  rw [filterMap_map]
  exact congrArg some (congrFun filterMap_eq_map items)

theorem exists_ofJson_omitEmpty {name : String} {s : GoString} {field : String × JsonValue JsonNumber}
    (h : field ∈ omitEmpty name s) : ∃ v : GoAny T, ofJson P field.2.normal = some v := by
  rw [omitEmpty] at h
  split_ifs at h
  · cases h
  rw [mem_singleton] at h
  subst h
  exact ⟨_, rfl⟩

theorem GraphNode.ofList_members (node : GraphNode) : (ofList node.members)["nid"]? = some (.string node.nid) ∧
      (ofList node.members)["cluster_anchor"]? =
        (if node.clusterAnchor = [] then none else some (.string node.clusterAnchor)) ∧
      (ofList node.members)["node_roles"]? = match node.nodeRoles with
        | some (role :: roles) => some (.array ((role :: roles).map .string))
        | _ => none := by
  rw [members, omitEmpty]
  split_ifs
  · split <;> simp [ofList, Std.ExtTreeMap.getElem_insert]
  · split <;> simp [ofList, Std.ExtTreeMap.getElem_insert]

theorem NdpGraphEdge.ofList_members (edge : NdpGraphEdge) :
    (ofList edge.members)["from_nid"]? = some (.string edge.fromNID) ∧
      (ofList edge.members)["to_nid"]? = some (.string edge.toNID) ∧
      (ofList edge.members)["latency_ms"]? = edge.latencyMs.map (fun n => .number (intNumber n.toInt)) ∧
      (ofList edge.members)["protocol"]? = if edge.protocol = [] then none else some (.string edge.protocol) := by
  obtain ⟨fromNID, toNID, latencyMs, protocol⟩ := edge
  rw [members, omitEmpty]
  split_ifs
  · cases latencyMs <;> simp [ofList, Std.ExtTreeMap.getElem_insert]
  · cases latencyMs <;> simp [ofList, Std.ExtTreeMap.getElem_insert]

/-- An empty text reads the same whether it is written or left out. -/
theorem getD_omitEmpty (s : GoString) :
    ((((if s = [] then none else some (.string s) : Option (JsonValue JsonNumber)).bind
      fun j => ofJson P j.normal).getD .nil).asString).getD [] = jsonText s := by
  split_ifs with hempty
  · rw [hempty]
    rfl
  · rfl

theorem exists_ofJson_node (node : GraphNode) : ∃ d : GoDict T, ofJson P node.json.normal = some (.ofMap d) ∧
    graphNodeFromMap d = node.viaJson := by
  have hread : ∀ field ∈ node.members, ∃ v : GoAny T, ofJson P field.2.normal = some v := by
    intro field hfield
    rw [GraphNode.members, mem_cons, mem_append] at hfield
    rcases hfield with rfl | hfield | hfield
    · exact ⟨_, rfl⟩
    · exact exists_ofJson_omitEmpty hfield
    split at hfield
    · rw [mem_singleton] at hfield
      subst hfield
      exact ⟨_, ofJson_strings _⟩
    · cases hfield
  obtain ⟨d, hd, hentries⟩ := exists_ofJson_object hread
  obtain ⟨hnid, hanchor, hroles⟩ := node.ofList_members
  refine ⟨d, hd, ?_⟩
  simp only [graphNodeFromMap, GraphNode.viaJson, str, optStr, GoDict.get, hentries, hnid,
    hanchor, hroles, getD_omitEmpty, GraphNode.mk.injEq, true_and]
  refine ⟨rfl, ?_⟩
  split
  · rename_i role roles heq
    rw [heq, Option.bind_some, ofJson_strings, Option.getD_some, stringSlice_map]
    rfl
  · rename_i hroles
    rcases hempty : node.nodeRoles with _ | _ | ⟨role, roles⟩
    · rfl
    · rfl
    · exact absurd hempty (hroles role roles)

theorem exists_ofJson_edge (edge : NdpGraphEdge) : ∃ d : GoDict T, ofJson P edge.json.normal = some (.ofMap d) ∧
      ndpGraphEdgeFromMap P d = edge.viaJson P := by
  have hnumber : ∀ n : Int64, ofJson P (number (intNumber n.toInt)).normal =
      some (.float64 (F64.ofInt n.toInt)) := by
    intro n
    have hlower := n.le_toInt
    have hupper := n.toInt_lt
    change (P.parseFloat (intNumber n.toInt)).map GoAny.float64 = _
    rw [P.parseFloat_int n.toInt (by omega)]
    rfl
  have hread : ∀ field ∈ edge.members, ∃ v : GoAny T, ofJson P field.2.normal = some v := by
    intro field hfield
    rw [members, mem_cons, mem_cons, mem_append] at hfield
    rcases hfield with rfl | rfl | hfield | hfield
    · exact ⟨_, rfl⟩
    · exact ⟨_, rfl⟩
    · obtain ⟨n, -, rfl⟩ := mem_map.mp hfield
      exact ⟨_, hnumber n⟩
    · exact exists_ofJson_omitEmpty hfield
  obtain ⟨d, hd, hentries⟩ := exists_ofJson_object hread
  obtain ⟨hfrom, hto, hlatency, hprotocol⟩ := edge.ofList_members
  refine ⟨d, hd, ?_⟩
  simp only [ndpGraphEdgeFromMap, viaJson, str, optStr, GoDict.get, hentries, hfrom,
    hto, hlatency, hprotocol, getD_omitEmpty, mk.injEq, and_true]
  refine ⟨rfl, rfl, ?_⟩
  cases edge.latencyMs with
  | none => rfl
  | some n =>
    rw [Option.map_some, Option.bind_some, hnumber]
    rfl

theorem readItems_ofMaps {α : Type} (read : GoDict T → α) (ds : List (GoDict T)) :
    readItems read (.slice (ds.map .ofMap)) = if ds.isEmpty then none else some (ds.map read) := by
  have hmaps : (ds.map (.ofMap : GoDict T → GoAny T)).filterMap GoAny.asMap = ds := by
    rw [filterMap_map]
    have hsome : GoAny.asMap ∘ (.ofMap : GoDict T → GoAny T) = some := funext GoAny.asMap_ofMap
    rw [hsome, filterMap_some]
  rw [readItems, hmaps, isEmpty_map]

theorem exists_ofJson_structs {α : Type} {json : α → JsonValue JsonNumber} {read : GoDict T → α}
    {via : α → α} (h : ∀ a, ∃ d : GoDict T, ofJson P (json a).normal = some (.ofMap d) ∧ read d = via a)
    (items : Option (List α)) :
    ∃ v, ofJson P (structsJson json items).normal = some v ∧ readItems read v = readBack via items := by
  cases items with
  | none => exact ⟨.nil, rfl, rfl⟩
  | some l =>
    obtain ⟨ds, hds⟩ := exists_forall₂ (R := fun a d => ofJson P (json a).normal = some (.ofMap d) ∧
      read d = via a) (l := l) fun a _ => h a
    refine ⟨.slice (ds.map .ofMap), ?_, ?_⟩
    · rw [structsJson, normal, normalItems_eq_map, ofJson, ofJsonItems_eq_mapM, map_map, mapM_eq_some_iff.mpr]
      · rfl
      · rw [forall₂_map_left_iff, forall₂_map_right_iff]
        exact hds.imp fun _ _ h => h.1
    · have hread : ds.map read = l.map via := by
        induction hds with
        | nil => rfl
        | cons h _ ih => rw [map_cons, map_cons, h.2, ih]
      have hempty : ds.isEmpty = l.isEmpty := by
        rw [← isEmpty_map (f := read), hread, isEmpty_map]
      rw [readItems_ofMaps, hread, hempty]
      cases l with
      | nil => rfl
      | cons a l => rfl

end

/-! ### What is read from MessagePack -/

section

variable {P : Platform T} (other : T → GoAny T)

theorem readItems_structsByField {α : Type} {fields : α → GoDict T} {read : GoDict T → α} (items : Option (List α)) :
    readItems read (msgpackImage other (structsByField fields items)) =
      readBack (fun a => read (msgpackDict other (fields a))) items := by
  cases items with
  | none => rfl
  | some l =>
    have hmaps : msgpackImage other (structsByField fields (some l)) =
        .slice ((l.map fun a => msgpackDict other (fields a)).map .ofMap) := by
      rw [structsByField, msgpackImage, msgpackItems_eq_map, map_map, map_map]
      exact congrArg GoAny.slice (map_congr_left fun a _ => msgpackImage_ofMap other (fields a))
    rw [hmaps, readItems_ofMaps, readBack]
    cases l with
    | nil => rfl
    | cons a l => simp

/-- No field of the structs has the name of a tag. -/
theorem graphNodeFromMap_fields (node : GraphNode) :
    graphNodeFromMap (msgpackDict other node.fields) = ⟨[], [], none⟩ := by
  simp only [graphNodeFromMap, str, optStr, GoDict.get, getElem?_msgpackDict,
    GraphNode.fields, ofList, foldl_cons, foldl_nil, getElem?_insert, String.reduceEq]
  rfl

theorem ndpGraphEdgeFromMap_fields (edge : NdpGraphEdge) :
    ndpGraphEdgeFromMap P (msgpackDict other edge.fields) = ⟨[], [], none, []⟩ := by
  simp only [ndpGraphEdgeFromMap, str, optStr, GoDict.get, getElem?_msgpackDict,
    fields, ofList, foldl_cons, foldl_nil, getElem?_insert, String.reduceEq]
  rfl

end

/-! ### What is read of a snapshot -/

section Received

variable {P : Platform T} {M : MsgPack T} {tier : EncodingTier} {ofNodes : Option (List GraphNode) → T}
  {ofEdges : Option (List NdpGraphEdge) → T} {f : GraphFrame T} {d : FrameDict T}

def receivedNode (tier : EncodingTier) (node : GraphNode) : GraphNode :=
  if tier = encodingTierJSON then node.viaJson else ⟨[], [], none⟩

def receivedEdge (P : Platform T) (tier : EncodingTier) (edge : NdpGraphEdge) : NdpGraphEdge :=
  if tier = encodingTierJSON then edge.viaJson P else ⟨[], [], none, []⟩

/-- The numbers that are read as such; MessagePack writes most of them in fewer than 64 bits. -/
def receivedInt (P : Platform T) (tier : EncodingTier) (n : Int64) : Option Int64 :=
  if tier = encodingTierJSON then some (P.int64OfFloat (F64.ofInt n.toInt))
  else if n.toInt < -2 ^ 31 then some n
  else none

variable (ofNodes ofEdges) in
theorem GraphFrame.getElem?_toDict (f : GraphFrame T) :
    (f.toDict ofNodes ofEdges)["graph_id"]? = some (.string f.graphID) ∧
      (f.toDict ofNodes ofEdges)["nodes"]? = some (.other (ofNodes f.nodes)) ∧
      (f.toDict ofNodes ofEdges)["edges"]? = some (.other (ofEdges f.edges)) ∧
      (f.toDict ofNodes ofEdges)["ttl"]? = some (goInt f.ttl.toInt) ∧
      (f.toDict ofNodes ofEdges)["metadata"]? = f.metadata.map .ofMap := by
  simp only [GraphFrame.toDict, getElem?_setIf, ofList, foldl_cons, foldl_nil,
    getElem?_insert, String.reduceEq, if_true, if_false, Std.ExtTreeMap.getElem?_empty, Option.or_none,
    and_self]

theorem goInt_toInt (n : Int64) : (goInt n.toInt : GoAny T) = .int .int ⟨n.toInt, IntKind.holds_int_toInt n⟩ := by
  have hlower := n.le_toInt
  have hupper := n.toInt_lt
  have hbmod : n.toInt.bmod (2 ^ 64) = n.toInt := Int.bmod_eq_of_le (by omega) (by omega)
  rw [goInt]
  simp only [hbmod]

theorem intValue_int (kind : IntKind) (n : kind.Value) :
    intValue P (.int kind n) = if kind = .int ∨ kind = .int64 then some (Int64.ofInt n.1) else none := by
  cases kind <;> rfl

theorem compactKind_eq_int64 (n : Int) : (compactKind n = .int ∨ compactKind n = .int64) ↔ n < -2 ^ 31 := by
  rw [compactKind]
  split_ifs <;> simp <;> omega

variable (P M tier) in
theorem intValue_carried (n : Int64) : ∃ v, carried P M tier (goInt n.toInt) = some v ∧
    intValue P v = receivedInt P tier n := by
  rw [carried, receivedInt, goInt_toInt]
  split_ifs with htier hsmall
  · exact ⟨_, jsonImage_int _ _, rfl⟩
  · refine ⟨_, rfl, ?_⟩
    rw [msgpackImage, wireInt, intValue_int, if_pos ((compactKind_eq_int64 _).mpr hsmall), Int64.ofInt_toInt]
  · refine ⟨_, rfl, ?_⟩
    rw [msgpackImage, wireInt, intValue_int, if_neg fun h => hsmall ((compactKind_eq_int64 _).mp h)]

variable (tier) in
theorem carried_nodes (hstructs : GraphStructs P M ofNodes ofEdges) (nodes : Option (List GraphNode)) :
    ∃ v, carried P M tier (.other (ofNodes nodes)) = some v ∧
      readItems graphNodeFromMap v = readBack (receivedNode tier) nodes := by
  rw [carried]
  split_ifs with htier
  · have hread : receivedNode tier = GraphNode.viaJson := funext fun _ => if_pos htier
    rw [jsonImage, toJson, hstructs.jsonNodes, hread]
    exact exists_ofJson_structs exists_ofJson_node nodes
  · have hread : receivedNode tier = fun _ => ⟨[], [], none⟩ := funext fun _ => if_neg htier
    refine ⟨_, rfl, ?_⟩
    rw [msgpackImage, hstructs.msgpackNodes, readItems_structsByField, hread]
    exact congrArg (readBack · nodes) (funext fun node => graphNodeFromMap_fields M.other node)

variable (tier) in
theorem carried_edges (hstructs : GraphStructs P M ofNodes ofEdges) (edges : Option (List NdpGraphEdge)) :
    ∃ v, carried P M tier (.other (ofEdges edges)) = some v ∧
      readItems (ndpGraphEdgeFromMap P) v = readBack (receivedEdge P tier) edges := by
  rw [carried]
  split_ifs with htier
  · have hread : receivedEdge P tier = viaJson P := funext fun _ => if_pos htier
    rw [jsonImage, toJson, hstructs.jsonEdges, hread]
    exact exists_ofJson_structs exists_ofJson_edge edges
  · have hread : receivedEdge P tier = fun _ => ⟨[], [], none, []⟩ := funext fun _ => if_neg htier
    refine ⟨_, rfl, ?_⟩
    rw [msgpackImage, hstructs.msgpackEdges, readItems_structsByField, hread]
    exact congrArg (readBack · edges) (funext fun edge => ndpGraphEdgeFromMap_fields M.other edge)

def SameMetadata (P : Platform T) : Option (GoDict T) → Option (GoDict T) → Prop
  | none, none => True
  | some m, some m' => SameButNumbers P (.ofMap m) (.ofMap m')
  | _, _ => False

theorem exists_ofMap_of_carried {m : GoDict T} {w : GoAny T} (h : carried P M tier (.ofMap m) = some w) :
    ∃ m', w = .ofMap m' := by
  rw [carried] at h
  split_ifs at h
  · obtain ⟨m', hm', -⟩ := of_jsonImage_map h
    exact ⟨m', hm'⟩
  · cases h
    exact ⟨_, msgpackImage_ofMap M.other m⟩

theorem sameMetadata_iff {metadata : Option (GoDict T)} {v : Option (GoAny T)}
    (hv : v = (metadata.map .ofMap).bind (carried P M tier))
    (hwritten : ∀ m ∈ metadata, tier = encodingTierJSON → ∃ doc, toJson P (.ofMap m) = some doc) :
    SameMetadata P metadata (v.getD .nil).toMap ↔ ∀ m ∈ metadata, Portable P M tier (.ofMap m) := by
  subst hv
  cases metadata with
  | none => exact iff_of_true trivial nofun
  | some m =>
    rw [Option.map_some, Option.bind_some]
    have hportable := portable_iff (M := M) (hwritten m rfl)
    constructor
    · intro hsame m' hm'
      cases hm'
      cases hw : carried P M tier (.ofMap m) with
      | none =>
        rw [hw] at hsame
        exact hsame.elim
      | some w =>
        obtain ⟨m', rfl⟩ := exists_ofMap_of_carried hw
        rw [hw, Option.getD_some, GoAny.ofMap, GoAny.toMap, GoAny.toMap_ofMap] at hsame
        exact hportable.mp ⟨_, hw, hsame⟩
    · intro h
      obtain ⟨w, hw, hsame⟩ := hportable.mpr (h m rfl)
      obtain ⟨m', rfl⟩ := exists_ofMap_of_carried hw
      rw [hw, Option.getD_some, GoAny.ofMap, GoAny.toMap, GoAny.toMap_ofMap]
      exact hsame

/-- The snapshot that is read is the one that was sent, but for the types of numbers in the metadata. -/
structure Restored (P : Platform T) (f f' : GraphFrame T) : Prop where
  graphID : f'.graphID = f.graphID
  nodes : f'.nodes = f.nodes
  edges : f'.edges = f.edges
  ttl : f'.ttl = f.ttl
  metadata : SameMetadata P f.metadata f'.metadata

section

variable (hstructs : GraphStructs P M ofNodes ofEdges)
  (hcarried : CarriedDict P M tier (f.toDict ofNodes ofEdges) d)
include hstructs hcarried

theorem nodes_received : (graphFrameFromDict P d).nodes = readBack (receivedNode tier) f.nodes := by
  obtain ⟨v, hv, hread⟩ := carried_nodes tier hstructs f.nodes
  change readItems graphNodeFromMap (d["nodes"]?.getD .nil) = _
  rw [hcarried, (f.getElem?_toDict ofNodes ofEdges).2.1, Option.bind_some, hv]
  exact hread

theorem edges_received : (graphFrameFromDict P d).edges = readBack (receivedEdge P tier) f.edges := by
  obtain ⟨v, hv, hread⟩ := carried_edges tier hstructs f.edges
  change readItems (ndpGraphEdgeFromMap P) (d["edges"]?.getD .nil) = _
  rw [hcarried, (f.getElem?_toDict ofNodes ofEdges).2.2.1, Option.bind_some, hv]
  exact hread

theorem restored_iff
    (hwritten : ∀ m ∈ f.metadata, tier = encodingTierJSON → ∃ doc, toJson P (.ofMap m) = some doc) :
    Restored P f (graphFrameFromDict P d) ↔ carriedText tier f.graphID = f.graphID ∧
      readBack (receivedNode tier) f.nodes = f.nodes ∧ readBack (receivedEdge P tier) f.edges = f.edges ∧
      (receivedInt P tier f.ttl).getD 0 = f.ttl ∧ ∀ m ∈ f.metadata, Portable P M tier (.ofMap m) := by
  obtain ⟨hid, -, -, httl, hmetadata⟩ := f.getElem?_toDict ofNodes ofEdges
  have hid' : (graphFrameFromDict P d).graphID = carriedText tier f.graphID := by
    change ((d["graph_id"]?.getD .nil).asString).getD [] = _
    rw [hcarried.string hid]
    rfl
  have hnodes' := nodes_received hstructs hcarried
  have hedges' := edges_received hstructs hcarried
  have httl' : (graphFrameFromDict P d).ttl = (receivedInt P tier f.ttl).getD 0 := by
    obtain ⟨v, hv, hread⟩ := intValue_carried P M tier f.ttl
    change (intValue P (d["ttl"]?.getD .nil)).getD 0 = _
    rw [hcarried, httl, Option.bind_some, hv, Option.getD_some, hread]
  have hmetadata' : SameMetadata P f.metadata (graphFrameFromDict P d).metadata ↔
      ∀ m ∈ f.metadata, Portable P M tier (.ofMap m) :=
    sameMetadata_iff (by rw [hcarried, hmetadata]) hwritten
  constructor
  · intro h
    exact ⟨hid' ▸ h.graphID, hnodes' ▸ h.nodes, hedges' ▸ h.edges, httl' ▸ h.ttl, hmetadata'.mp h.metadata⟩
  · rintro ⟨hid, hnodes, hedges, httl, hmetadata⟩
    exact ⟨hid'.trans hid, hnodes'.trans hnodes, hedges'.trans hedges, httl'.trans httl, hmetadata'.mpr hmetadata⟩

end

/-! ### The round trip -/

/-- The number is the same after a `float64` held it, as every number of less than 53 bits is. -/
def KeptByFloat (P : Platform T) (n : Int64) : Prop := P.int64OfFloat (F64.ofInt n.toInt) = n

theorem keptByFloat_of_lt (P : Platform T) {n : Int64} (h : n.toInt.natAbs < 2 ^ 53) : KeptByFloat P n := by
  rw [KeptByFloat, Platform.int64OfFloat, F64.trunc_ofInt h, F64.isFinite_ofInt h,
    if_pos ⟨rfl, by omega, by omega⟩, Int64.ofInt_toInt]

structure GraphNode.KeptByJson (node : GraphNode) : Prop where
  nid : GoString.Valid node.nid
  clusterAnchor : GoString.Valid node.clusterAnchor
  nodeRoles : node.nodeRoles ≠ some [] ∧ ∀ roles ∈ node.nodeRoles, ∀ role ∈ roles, GoString.Valid role

structure NdpGraphEdge.KeptByJson (P : Platform T) (edge : NdpGraphEdge) : Prop where
  fromNID : GoString.Valid edge.fromNID
  toNID : GoString.Valid edge.toNID
  latencyMs : ∀ n ∈ edge.latencyMs, KeptByFloat P n
  protocol : GoString.Valid edge.protocol

/-- All texts are UTF-8, no slice is empty without being nil, the numbers are ones a `float64` holds, and the
metadata is portable and not nested too deep. -/
structure GraphFrame.KeptByJson (P : Platform T) (M : MsgPack T) (f : GraphFrame T) : Prop where
  graphID : GoString.Valid f.graphID
  nodes : f.nodes ≠ some [] ∧ ∀ nodes ∈ f.nodes, ∀ node ∈ nodes, node.KeptByJson
  edges : f.edges ≠ some [] ∧ ∀ edges ∈ f.edges, ∀ edge ∈ edges, edge.KeptByJson P
  ttl : KeptByFloat P f.ttl
  metadata : ∀ m ∈ f.metadata, Portable P M encodingTierJSON (.ofMap m) ∧ NestsWithin 9999 (.ofMap m)

/-- There are no nodes and no edges, and the time to live is zero or needs all of 64 bits. -/
structure GraphFrame.KeptByMsgPack (P : Platform T) (M : MsgPack T) (f : GraphFrame T) : Prop where
  nodes : f.nodes = none
  edges : f.edges = none
  ttl : f.ttl = 0 ∨ f.ttl.toInt < -2 ^ 31
  metadata : ∀ m ∈ f.metadata, Portable P M encodingTierMsgPack (.ofMap m)

theorem GraphNode.viaJson_eq_iff {node : GraphNode} : node.viaJson = node ↔ node.KeptByJson := by
  rw [viaJson, GraphNode.mk.injEq, jsonText_eq_iff, jsonText_eq_iff, readBack_eq_iff]
  constructor
  · rintro ⟨hnid, hanchor, hne, hroles⟩
    exact ⟨hnid, hanchor, hne, fun roles hmem role hrole => jsonText_eq_iff.mp (hroles roles hmem role hrole)⟩
  · rintro ⟨hnid, hanchor, hne, hroles⟩
    exact ⟨hnid, hanchor, hne, fun roles hmem role hrole => jsonText_eq_iff.mpr (hroles roles hmem role hrole)⟩

theorem NdpGraphEdge.viaJson_eq_iff {edge : NdpGraphEdge} : edge.viaJson P = edge ↔ edge.KeptByJson P := by
  obtain ⟨fromNID, toNID, latencyMs, protocol⟩ := edge
  have hlatency : (latencyMs.map fun n => P.int64OfFloat (F64.ofInt n.toInt)) = latencyMs ↔
      ∀ n ∈ latencyMs, KeptByFloat P n := by
    cases latencyMs with
    | none => simp
    | some n => simp [KeptByFloat]
  rw [viaJson, mk.injEq, jsonText_eq_iff, jsonText_eq_iff, jsonText_eq_iff, hlatency]
  constructor
  · rintro ⟨hfrom, hto, hkept, hprotocol⟩
    exact ⟨hfrom, hto, hkept, hprotocol⟩
  · rintro ⟨hfrom, hto, hkept, hprotocol⟩
    exact ⟨hfrom, hto, hkept, hprotocol⟩

theorem restored_json_iff : (carriedText encodingTierJSON f.graphID = f.graphID ∧
      readBack (receivedNode encodingTierJSON) f.nodes = f.nodes ∧
      readBack (receivedEdge P encodingTierJSON) f.edges = f.edges ∧
      (receivedInt P encodingTierJSON f.ttl).getD 0 = f.ttl) ↔ GoString.Valid f.graphID ∧
      (f.nodes ≠ some [] ∧ ∀ nodes ∈ f.nodes, ∀ node ∈ nodes, node.KeptByJson) ∧
      (f.edges ≠ some [] ∧ ∀ edges ∈ f.edges, ∀ edge ∈ edges, edge.KeptByJson P) ∧ KeptByFloat P f.ttl := by
  have hnode : ∀ node, receivedNode encodingTierJSON node = node ↔ node.KeptByJson := fun node => by
    rw [receivedNode, if_pos rfl, GraphNode.viaJson_eq_iff]
  have hedge : ∀ edge, receivedEdge P encodingTierJSON edge = edge ↔ edge.KeptByJson P := fun edge => by
    rw [receivedEdge, if_pos rfl, viaJson_eq_iff]
  simp [readBack_eq_iff, hnode, hedge, carriedText, receivedInt, ofChars_toChars_eq_iff, KeptByFloat]

/-- Through MessagePack every node comes back without its identifier. -/
theorem restored_msgpack_iff (hvalid : f.validate = none) :
    (readBack (receivedNode encodingTierMsgPack) f.nodes = f.nodes ∧
      readBack (receivedEdge P encodingTierMsgPack) f.edges = f.edges ∧
      (receivedInt P encodingTierMsgPack f.ttl).getD 0 = f.ttl) ↔
    f.nodes = none ∧ f.edges = none ∧ (f.ttl = 0 ∨ f.ttl.toInt < -2 ^ 31) := by
  have httl : (receivedInt P encodingTierMsgPack f.ttl).getD 0 = f.ttl ↔ f.ttl = 0 ∨ f.ttl.toInt < -2 ^ 31 := by
    rw [receivedInt, if_neg (by decide)]
    split_ifs with hsmall
    · exact iff_of_true rfl (.inr hsmall)
    constructor
    · exact fun h => .inl h.symm
    · rintro (h | h)
      · exact h.symm
      · exact absurd h hsmall
  rw [httl]
  constructor
  · rintro ⟨hnodes, hedges, hkept⟩
    have hnone : f.nodes = none := by
      cases hsome : f.nodes with
      | none => rfl
      | some nodes =>
        rw [readBack_eq_iff, hsome] at hnodes
        obtain ⟨hne, hsame⟩ := hnodes
        cases nodes with
        | nil => exact absurd rfl hne
        | cons node nodes =>
          have hnode : receivedNode encodingTierMsgPack node = node :=
            hsame _ rfl node mem_cons_self
          exact absurd (congrArg GraphNode.nid hnode).symm (f.nid_ne_of_valid hvalid hsome mem_cons_self)
    refine ⟨hnone, ?_, hkept⟩
    cases hsome : f.edges with
    | none => rfl
    | some edges =>
      rw [readBack_eq_iff, hsome, f.edges_of_valid hvalid hnone hsome] at hedges
      exact absurd rfl hedges.1
  · rintro ⟨hnodes, hedges, hkept⟩
    rw [hnodes, hedges]
    exact ⟨rfl, rfl, hkept⟩

variable (ofNodes ofEdges) in
theorem GraphFrame.of_getElem?_toDict {key : String} {v : GoAny T} (h : (f.toDict ofNodes ofEdges)[key]? = some v) :
    v = .string f.graphID ∨ v = .other (ofNodes f.nodes) ∨ v = .other (ofEdges f.edges) ∨
      v = goInt f.ttl.toInt ∨ ∃ m ∈ f.metadata, v = .ofMap m := by
  rw [GraphFrame.toDict, getElem?_setIf] at h
  have hbase : ∀ {v : GoAny T}, (ofList [("graph_id", .string f.graphID),
      ("nodes", .other (ofNodes f.nodes)), ("edges", .other (ofEdges f.edges)),
      ("ttl", goInt f.ttl.toInt)] : GoDict T)[key]? = some v → v = .string f.graphID ∨
        v = .other (ofNodes f.nodes) ∨ v = .other (ofEdges f.edges) ∨ v = goInt f.ttl.toInt := by
    intro v hv
    have hmem := mem_of_getElem?_ofList hv
    simp only [mem_cons, not_mem_nil, or_false] at hmem
    rcases hmem with ⟨-, rfl⟩ | ⟨-, rfl⟩ | ⟨-, rfl⟩ | ⟨-, rfl⟩
    · exact .inl rfl
    · exact .inr (.inl rfl)
    · exact .inr (.inr (.inl rfl))
    · exact .inr (.inr (.inr rfl))
  have hmore : ∀ {p q r t u : Prop}, p ∨ q ∨ r ∨ t → p ∨ q ∨ r ∨ t ∨ u := by
    tauto
  split_ifs at h
  · cases hmetadata : f.metadata with
    | none =>
      rw [hmetadata] at h
      exact hmore (hbase h)
    | some m =>
      rw [hmetadata] at h
      cases h
      exact .inr (.inr (.inr (.inr ⟨m, rfl, rfl⟩)))
  · exact hmore (hbase h)

theorem depth_omitEmpty {name : String} {s : GoString} {field : String × JsonValue JsonNumber}
    (h : field ∈ omitEmpty name s) : field.2.depth = 0 := by
  rw [omitEmpty] at h
  split_ifs at h
  · cases h
  rw [mem_singleton] at h
  rw [h]
  rfl

theorem depth_node (node : GraphNode) : node.json.depth ≤ 2 := by
  refine depth_object_le.mpr fun field hfield => ?_
  rw [GraphNode.members, mem_cons, mem_append] at hfield
  rcases hfield with rfl | hfield | hfield
  · exact Nat.zero_le _
  · rw [depth_omitEmpty hfield]
    exact Nat.zero_le _
  split at hfield
  · rw [mem_singleton] at hfield
    rw [hfield]
    refine depth_array_le.mpr fun role hrole => ?_
    obtain ⟨s, -, rfl⟩ := mem_map.mp hrole
    exact Nat.le_refl _
  · cases hfield

theorem depth_edge (edge : NdpGraphEdge) : edge.json.depth ≤ 2 := by
  refine depth_object_le.mpr fun field hfield => ?_
  rw [members, mem_cons, mem_cons, mem_append] at hfield
  rcases hfield with rfl | rfl | hfield | hfield
  · exact Nat.zero_le _
  · exact Nat.zero_le _
  · obtain ⟨n, -, rfl⟩ := mem_map.mp hfield
    exact Nat.zero_le _
  · rw [depth_omitEmpty hfield]
    exact Nat.zero_le _

theorem depth_structs {α : Type} {json : α → JsonValue JsonNumber} (h : ∀ a, (json a).depth ≤ 2)
    (items : Option (List α)) : (structsJson json items).depth ≤ 3 := by
  cases items with
  | none => exact Nat.zero_le _
  | some items =>
    refine depth_array_le.mpr fun j hj => ?_
    obtain ⟨a, -, rfl⟩ := mem_map.mp hj
    exact h a

/-- A snapshot is nested as deep as its metadata is, or less than five deep. -/
theorem depth_toDict (hstructs : GraphStructs P M ofNodes ofEdges) {doc : JsonValue JsonNumber}
    (hdoc : toJson P (.ofMap (f.toDict ofNodes ofEdges)) = some doc)
    (hmetadata : ∀ m ∈ f.metadata, Portable P M encodingTierJSON (.ofMap m) ∧ NestsWithin 9999 (.ofMap m)) :
    doc.depth ≤ maxNestingDepth := by
  obtain ⟨j, rfl, hentries⟩ := toJson_ofMap P hdoc
  refine depth_ofMap_le.mpr fun key x hx => ?_
  rw [hentries] at hx
  obtain ⟨v, hv, htoJson⟩ := Option.bind_eq_some_iff.mp hx
  rcases f.of_getElem?_toDict ofNodes ofEdges hv with rfl | rfl | rfl | rfl | ⟨m, hm, rfl⟩
  · cases htoJson
    exact Nat.zero_le _
  · rw [toJson, hstructs.jsonNodes] at htoJson
    cases htoJson
    exact (depth_structs depth_node f.nodes).trans (by decide)
  · rw [toJson, hstructs.jsonEdges] at htoJson
    cases htoJson
    exact (depth_structs depth_edge f.edges).trans (by decide)
  · cases htoJson
    exact Nat.zero_le _
  · exact depth_le_of_nestsWithin (hmetadata m hm).1 htoJson (hmetadata m hm).2

def graphCodec (P : Platform T) (M : MsgPack T) : NpsFrameCodec T := newNpsFrameCodec P M createFullRegistry

section

variable {isFinal : Bool} {wire : Bytes}

/-- Every member of a snapshot can be read if its metadata can. -/
theorem exists_decode_json (hstructs : GraphStructs P M ofNodes ofEdges)
    (hencode : (graphCodec P M).encode .graph (f.toDict ofNodes ofEdges) encodingTierJSON isFinal = .ok wire)
    (hmetadata : ∀ m ∈ f.metadata, Portable P M encodingTierJSON (.ofMap m) ∧ NestsWithin 9999 (.ofMap m)) :
    ∃ frame, (graphCodec P M).decode wire = .ok frame := by
  obtain ⟨payload, hpayload, hdecode⟩ := decode_of_encode createFullRegistry (.inl rfl) hencode
  have hmarshal : jsonMarshal P (f.toDict ofNodes ofEdges) = .ok payload := hpayload
  obtain ⟨doc, hdoc, htotal⟩ := exists_toJson_of_jsonMarshal hmarshal
  have hread : ∀ {key : String} {v : GoAny T}, (f.toDict ofNodes ofEdges)[key]? = some v →
      ∃ w, jsonImage P v = some w := by
    intro key v hv
    obtain ⟨j, hj⟩ := htotal hv
    rcases f.of_getElem?_toDict ofNodes ofEdges hv with rfl | rfl | rfl | rfl | ⟨m, hm, rfl⟩
    · exact ⟨_, rfl⟩
    · obtain ⟨w, hw, -⟩ := carried_nodes encodingTierJSON hstructs f.nodes
      exact ⟨w, hw⟩
    · obtain ⟨w, hw, -⟩ := carried_edges encodingTierJSON hstructs f.edges
      exact ⟨w, hw⟩
    · obtain ⟨w, hw, -⟩ := intValue_carried P M encodingTierJSON f.ttl
      exact ⟨w, hw⟩
    · obtain ⟨w, hw, -⟩ := (hmetadata m hm).1.exists_jsonImage rfl hj
      exact ⟨w, hw⟩
  obtain ⟨d, hd⟩ := exists_jsonUnmarshal hdoc (depth_toDict hstructs hdoc hmetadata) hread hmarshal
  refine ⟨(.graph, d), hdecode.trans ?_⟩
  change ((jsonUnmarshal P payload).mapError GoError.codec).map _ = _
  rw [hd]
  rfl

theorem nestsWithin_of_decode {frame : FrameType × FrameDict T}
    (hencode : (graphCodec P M).encode .graph (f.toDict ofNodes ofEdges) encodingTierJSON isFinal = .ok wire)
    (hdecode : (graphCodec P M).decode wire = .ok frame) {m : GoDict T} (hm : f.metadata = some m)
    (hportable : Portable P M encodingTierJSON (.ofMap m)) : NestsWithin 9999 (.ofMap m) := by
  obtain ⟨payload, hpayload, heq⟩ := decode_of_encode createFullRegistry (.inl rfl) hencode
  have hmarshal : jsonMarshal P (f.toDict ofNodes ofEdges) = .ok payload := hpayload
  obtain ⟨doc, hdoc, htotal⟩ := exists_toJson_of_jsonMarshal hmarshal
  have hentry : (f.toDict ofNodes ofEdges)["metadata"]? = some (.ofMap m) := by
    rw [(f.getElem?_toDict ofNodes ofEdges).2.2.2.2, hm]
    rfl
  obtain ⟨x, hx⟩ := htotal hentry
  have hread : ∃ d, jsonUnmarshal P payload = .ok d := by
    have hdecoded : ((jsonUnmarshal P payload).mapError GoError.codec).map (FrameType.graph, ·) = .ok frame :=
      heq.symm.trans hdecode
    cases hresult : jsonUnmarshal P payload with
    | error e =>
      rw [hresult] at hdecoded
      cases hdecoded
    | ok d => exact ⟨d, rfl⟩
  obtain ⟨d, hd⟩ := hread
  have hdepth := depth_of_jsonUnmarshal hdoc hmarshal hd
  obtain ⟨j, rfl, hentries⟩ := toJson_ofMap P hdoc
  rw [normal_ofMap] at hdepth
  refine nestsWithin_of_depth_normal hportable hx (depth_ofMap_le.mp hdepth "metadata" x.normal ?_)
  rw [Std.ExtTreeMap.getElem?_map, hentries, hentry, Option.bind_some, hx]
  rfl

theorem exists_decode_msgpack
    (hencode : (graphCodec P M).encode .graph (f.toDict ofNodes ofEdges) encodingTierMsgPack isFinal = .ok wire) :
    ∃ frame, (graphCodec P M).decode wire = .ok frame := by
  obtain ⟨payload, hpayload, hdecode⟩ := decode_of_encode createFullRegistry (.inr rfl) hencode
  have hmarshal : (M.marshal (f.toDict ofNodes ofEdges)).mapError GoError.encoder = .ok payload := hpayload
  cases hresult : M.marshal (f.toDict ofNodes ofEdges) with
  | error e =>
    rw [hresult] at hmarshal
    cases hmarshal
  | ok bytes =>
    rw [hresult] at hmarshal
    cases hmarshal
    refine ⟨(.graph, msgpackDict M.other (f.toDict ofNodes ofEdges)), hdecode.trans ?_⟩
    change ((M.unmarshal payload).mapError GoError.codec).map _ = _
    rw [M.unmarshal_marshal hresult]
    rfl

/-- The frame is decoded, and read as the snapshot that was sent, which is valid again. -/
def RoundTrips (P : Platform T) (M : MsgPack T) (f : GraphFrame T) (wire : Bytes) : Prop :=
  ∃ frame, (graphCodec P M).decode wire = .ok frame ∧ Restored P f (graphFrameFromDict P frame.2) ∧
    (graphFrameFromDict P frame.2).validate = none

def GraphFrame.Kept (P : Platform T) (M : MsgPack T) (tier : EncodingTier) (f : GraphFrame T) : Prop :=
  if tier = encodingTierJSON then f.KeptByJson P M else f.KeptByMsgPack P M

theorem metadata_written (htier : StableTier tier)
    (hencode : (graphCodec P M).encode .graph (f.toDict ofNodes ofEdges) tier isFinal = .ok wire) :
    ∀ m ∈ f.metadata, tier = encodingTierJSON → ∃ doc, toJson P (.ofMap m) = some doc := by
  rintro m hm rfl
  obtain ⟨payload, hpayload, -⟩ := decode_of_encode createFullRegistry htier hencode
  have hmarshal : jsonMarshal P (f.toDict ofNodes ofEdges) = .ok payload := hpayload
  obtain ⟨-, -, htotal⟩ := exists_toJson_of_jsonMarshal hmarshal
  have hentry : (f.toDict ofNodes ofEdges)["metadata"]? = some (.ofMap m) := by
    rw [(f.getElem?_toDict ofNodes ofEdges).2.2.2.2, hm]
    rfl
  exact htotal hentry

theorem graph_round_trip_iff (hstructs : GraphStructs P M ofNodes ofEdges) (hvalid : f.validate = none)
    (htier : StableTier tier)
    (hencode : (graphCodec P M).encode .graph (f.toDict ofNodes ofEdges) tier isFinal = .ok wire) :
    RoundTrips P M f wire ↔ f.Kept P M tier := by
  have hwritten := metadata_written htier hencode
  constructor
  · rintro ⟨frame, hdecode, hrestored, -⟩
    have hcarried := carriedDict_of_decode htier hencode hdecode
    obtain ⟨hid, hnodes, hedges, httl, hmetadata⟩ := (restored_iff hstructs hcarried hwritten).mp hrestored
    rcases htier with rfl | rfl
    · obtain ⟨hid, hnodes, hedges, httl⟩ := restored_json_iff.mp ⟨hid, hnodes, hedges, httl⟩
      exact ⟨hid, hnodes, hedges, httl, fun m hm =>
        ⟨hmetadata m hm, nestsWithin_of_decode hencode hdecode hm (hmetadata m hm)⟩⟩
    · obtain ⟨hnodes, hedges, httl⟩ := (restored_msgpack_iff hvalid).mp ⟨hnodes, hedges, httl⟩
      exact ⟨hnodes, hedges, httl, hmetadata⟩
  · intro hkept
    have hrestored : ∀ {frame}, (graphCodec P M).decode wire = .ok frame →
        (carriedText tier f.graphID = f.graphID ∧ readBack (receivedNode tier) f.nodes = f.nodes ∧
          readBack (receivedEdge P tier) f.edges = f.edges ∧ (receivedInt P tier f.ttl).getD 0 = f.ttl ∧
          ∀ m ∈ f.metadata, Portable P M tier (.ofMap m)) → RoundTrips P M f wire := by
      intro frame hdecode hparts
      have h := (restored_iff hstructs (carriedDict_of_decode htier hencode hdecode) hwritten).mpr hparts
      exact ⟨frame, hdecode, h, (GraphFrame.validate_congr h.nodes h.edges).trans hvalid⟩
    rcases htier with rfl | rfl
    · obtain ⟨frame, hdecode⟩ := exists_decode_json hstructs hencode hkept.metadata
      obtain ⟨hid, hnodes, hedges, httl⟩ :=
        restored_json_iff.mpr ⟨hkept.graphID, hkept.nodes, hkept.edges, hkept.ttl⟩
      exact hrestored hdecode ⟨hid, hnodes, hedges, httl, fun m hm => (hkept.metadata m hm).1⟩
    · obtain ⟨frame, hdecode⟩ := exists_decode_msgpack hencode
      obtain ⟨hnodes, hedges, httl⟩ :=
        (restored_msgpack_iff hvalid).mpr ⟨hkept.nodes, hkept.edges, hkept.ttl⟩
      exact hrestored hdecode ⟨rfl, hnodes, hedges, httl, hkept.metadata⟩

end

end Received

/-! ### A snapshot of one node -/

/-- The slices of structs, and no other types. -/
inductive GraphSlice where
  | nodes (items : Option (List GraphNode))
  | edges (items : Option (List NdpGraphEdge))

def GraphSlice.json : GraphSlice → JsonValue JsonNumber
  | .nodes items => structsJson GraphNode.json items
  | .edges items => structsJson NdpGraphEdge.json items

def graphPlatform : Platform GraphSlice where
  toFloat32 := plainPlatform.toFloat32
  toFloat64 := plainPlatform.toFloat64
  uint64Beyond := plainPlatform.uint64Beyond
  uint32Beyond := plainPlatform.uint32Beyond
  int64Beyond := plainPlatform.int64Beyond
  formatFloat64 := plainPlatform.formatFloat64
  formatFloat32 := plainPlatform.formatFloat32
  parseFloat := plainPlatform.parseFloat
  jsonOther slice := some slice.json
  jsonMarshalError _ := []
  jsonError _ := []
  parseFloat_int := plainPlatform.parseFloat_int
  parseFloat_float64 := plainPlatform.parseFloat_float64
  formatFloat64_int := plainPlatform.formatFloat64_int

/-- No struct holds another slice of structs. -/
def GraphSlice.byField : GraphSlice → GoAny GraphSlice
  | .nodes items => msgpackImage (fun _ => .nil) (structsByField GraphNode.fields items)
  | .edges items => msgpackImage (fun _ => .nil) (structsByField fields items)

def oneNode : GraphFrame GraphSlice where
  graphID := "g"
  nodes := some [⟨"urn:nps:node:ca:a", [], none⟩]
  edges := none
  ttl := 300
  metadata := none

def oneNodeDict : FrameDict GraphSlice := oneNode.toDict .nodes .edges

open Classical in
noncomputable def graphPack : MsgPack GraphSlice where
  marshal d := if d = oneNodeDict then .ok [0] else .error []
  unmarshal payload := if payload = [0] then .ok (msgpackDict GraphSlice.byField oneNodeDict) else .error []
  other := GraphSlice.byField
  unmarshal_marshal {d payload} h := by
    split_ifs at h with heq
    cases h
    rw [if_pos rfl, heq]
  unmarshal_part {d payload part} h _ hne := by
    split_ifs at h
    cases h
    exact ⟨[], if_neg hne⟩

theorem msgpackDict_ofList (other : T → GoAny T) (fields : List (String × GoAny T)) :
    msgpackDict other (ofList fields) = ofList (msgpackFields other fields) := by
  rw [msgpackFields_eq_map, ofList_map, msgpackDict]

/-- The image of structs whose fields hold no values of other types. -/
theorem msgpackImage_structs {α : Type} {fields : α → GoDict T} {other other' : T → GoAny T}
    (h : ∀ a, msgpackDict other (fields a) = msgpackDict other' (fields a)) (items : Option (List α)) :
    msgpackImage other (structsByField fields items) = msgpackImage other' (structsByField fields items) := by
  cases items with
  | none => rfl
  | some items =>
    rw [structsByField, msgpackImage, msgpackImage, msgpackItems_eq_map, msgpackItems_eq_map, map_map, map_map]
    refine congrArg GoAny.slice (map_congr_left fun a _ => ?_)
    rw [Function.comp_apply, Function.comp_apply, msgpackImage_ofMap, msgpackImage_ofMap, h a]

theorem graphStructs : GraphStructs graphPlatform graphPack .nodes .edges where
  jsonNodes _ := rfl
  jsonEdges _ := rfl
  msgpackNodes nodes := by
    refine msgpackImage_structs (fun node => ?_) nodes
    rw [GraphNode.fields, msgpackDict_ofList, msgpackDict_ofList]
    cases node.nodeRoles <;> rfl
  msgpackEdges edges := by
    refine msgpackImage_structs (fun edge => ?_) edges
    rw [fields, msgpackDict_ofList, msgpackDict_ofList]
    cases edge.latencyMs <;> rfl

theorem exists_oneNode_msgpack : ∃ wire, (graphCodec graphPlatform graphPack).encode .graph
    (oneNode.toDict .nodes .edges) encodingTierMsgPack true = .ok wire := by
  have hmarshal : graphPack.marshal (oneNode.toDict .nodes .edges) = .ok [0] := if_pos rfl
  refine ⟨(newFrameHeader .graph encodingTierMsgPack true 1).toBytes ++ [0], ?_⟩
  rw [NpsFrameCodec.encode]
  have hpayload : (graphCodec graphPlatform graphPack).encodePayload (oneNode.toDict .nodes .edges)
      encodingTierMsgPack = .ok [0] := by
    change (graphPack.marshal (oneNode.toDict .nodes .edges)).mapError GoError.encoder = _
    rw [hmarshal]
    rfl
  rw [hpayload]
  rfl

theorem oneNode_json : ∃ wire, (graphCodec graphPlatform graphPack).encode .graph
    (oneNode.toDict .nodes .edges) encodingTierJSON true = .ok wire := ⟨_, rfl⟩

/-- Through JSON the snapshot of one node comes back. -/
theorem oneNode_kept : ∃ wire, (graphCodec graphPlatform graphPack).encode .graph
    (oneNode.toDict .nodes .edges) encodingTierJSON true = .ok wire ∧
    RoundTrips graphPlatform graphPack oneNode wire := by
  obtain ⟨wire, hwire⟩ := oneNode_json
  refine ⟨wire, hwire, (graph_round_trip_iff graphStructs (by decide) (.inl rfl) hwire).mpr ?_⟩
  refine ⟨valid_ofChars _, ⟨by simp [oneNode], ?_⟩, ⟨by simp [oneNode], nofun⟩,
    keptByFloat_of_lt _ (by decide), fun _ h => (by cases h)⟩
  rintro nodes ⟨⟩ node hnode
  rw [mem_singleton] at hnode
  subst hnode
  exact ⟨valid_ofChars _, valid_ofChars [], by simp, fun _ h => (by cases h)⟩

/-- Through MessagePack its node has lost its identifier, and the snapshot is no longer valid. -/
theorem oneNode_lost : GraphStructs graphPlatform graphPack .nodes .edges ∧ oneNode.validate = none ∧
    ∃ wire frame, (graphCodec graphPlatform graphPack).encode .graph (oneNode.toDict .nodes .edges)
        encodingTierMsgPack true = .ok wire ∧ (graphCodec graphPlatform graphPack).decode wire = .ok frame ∧
      ¬ Restored graphPlatform oneNode (graphFrameFromDict graphPlatform frame.2) ∧
      (graphFrameFromDict graphPlatform frame.2).validate = some (errGraphInvalid ++ ": graph nodes require nid") := by
  obtain ⟨wire, hwire⟩ := exists_oneNode_msgpack
  obtain ⟨frame, hframe⟩ := exists_decode_msgpack hwire
  have hcarried := carriedDict_of_decode (.inr rfl) hwire hframe
  have hnodes : (graphFrameFromDict graphPlatform frame.2).nodes = some [⟨[], [], none⟩] :=
    nodes_received graphStructs hcarried
  have hedges : (graphFrameFromDict graphPlatform frame.2).edges = none := edges_received graphStructs hcarried
  refine ⟨graphStructs, by decide, wire, frame, hwire, hframe, fun h => ?_, ?_⟩
  · have hsame := hnodes.symm.trans h.nodes
    cases hsame
  · rw [GraphFrame.validate, hnodes, hedges]
    rfl

end NpsSdk.Ndp

