import NpsSdk.NdpRegistryRuns

/-! What the in-memory registry answers: how long an announcement is served, and from which announcement a
target is resolved. The lifetime is a product of 64 bits, and a loop over the store takes the first entry it
meets. -/

open NpsSdk.Core

namespace NpsSdk.Ndp

open List Option

theorem lifetime_lt (ttl : UInt64) : lifetime ttl < 2 ^ 63 := Int.bmod_lt (by decide)

namespace InMemoryNdpRegistry

variable {T : Type} {P : Platform T} {r : InMemoryNdpRegistry T} {order : List GoString} {now : Time}
  {nid target : GoString}

/-- An order in which a loop may meet the entries. -/
def Lists (r : InMemoryNdpRegistry T) (order : List GoString) : Prop :=
  order.Nodup ∧ ∀ nid, nid ∈ order ↔ r.store nid ≠ none

def getAll (r : InMemoryNdpRegistry T) (order : List GoString) (now : Time) : List (AnnounceFrame T) :=
  order.filterMap fun nid => (r.live now nid).map (·.frame)

theorem mem_getAll_iff (h : r.Lists order) {f : AnnounceFrame T} :
    f ∈ r.getAll order now ↔ ∃ nid, r.getByNID now nid = some f := by
  rw [getAll, mem_filterMap]
  refine ⟨fun ⟨nid, _, hnid⟩ => ⟨nid, hnid⟩, fun ⟨nid, hnid⟩ => ⟨nid, (h.2 nid).mpr fun hnone => ?_, hnid⟩⟩
  rw [getByNID, live, hnone] at hnid
  cases hnid

/-! ### How long an announcement is served -/

def announces (history : List (Time × AnnounceFrame T)) : InMemoryNdpRegistry T :=
  history.foldl (fun r a => r.announce a.1 a.2) (newInMemoryNdpRegistry T)

def lastOf (nid : GoString) (history : List (Time × AnnounceFrame T)) : Option (Time × AnnounceFrame T) :=
  history.reverse.find? fun a => a.2.nid = nid

/-- The frame was announced last for the NID, and its time to live has begun and not ended. -/
def Serves (history : List (Time × AnnounceFrame T)) (now : Time) (nid : GoString) (f : AnnounceFrame T) : Prop :=
  ∃ t, lastOf nid history = some (t, f) ∧ 0 < f.ttl.toNat ∧ t ≤ now ∧ now < t + f.ttl.toNat * GoTime.second

variable {history : List (Time × AnnounceFrame T)}

theorem store_announces (nid : GoString) : (announces history).store nid =
    ((lastOf nid history).filter fun a => a.2.ttl ≠ 0).map fun a => ⟨a.2, a.1 + lifetime a.2.ttl⟩ := by
  induction history using List.reverseRecOn with
  | nil => rfl
  | append_singleton history a ih =>
      rw [announces, foldl_append, lastOf, reverse_append]
      change (announce (announces history) a.1 a.2).store nid = Option.map _ (Option.filter _ (List.find? _ (a :: _)))
      rw [find?_cons, announce]
      by_cases hnid : a.2.nid = nid
      · split_ifs with httl <;> simp [hnid, httl]
      · rw [decide_eq_false hnid]
        split_ifs <;> simpa [Function.update_of_ne (Ne.symm hnid), lastOf] using ih

theorem getByNID_announces {f : AnnounceFrame T} : (announces history).getByNID now nid = some f ↔
    ∃ t, lastOf nid history = some (t, f) ∧ f.ttl ≠ 0 ∧ now < t + lifetime f.ttl := by
  rw [getByNID, live, store_announces]
  simp only [map_eq_some_iff, filter_eq_some_iff, decide_eq_true_eq]
  constructor
  · rintro ⟨_, ⟨⟨a, ⟨hlast, httl⟩, rfl⟩, hlive⟩, rfl⟩
    exact ⟨a.1, hlast, httl, hlive⟩
  · rintro ⟨t, hlast, httl, hlive⟩
    exact ⟨_, ⟨⟨_, ⟨hlast, httl⟩, rfl⟩, hlive⟩, rfl⟩

/-- After every announcement of a history, the registry serves at each later time exactly the frames announced
last whose time to live has not ended, if and only if every time to live is a duration. -/
theorem lifetimes_exact_iff (hclock : history.Pairwise fun a b => a.1 ≤ b.1) :
    (∀ before, before <+: history → ∀ now, (∀ a ∈ before, a.1 ≤ now) →
      (∀ nid f, (announces before).getByNID now nid = some f ↔ Serves before now nid f) ∧
        ∀ order, (announces before).Lists order →
          ∀ f, f ∈ (announces before).getAll order now ↔ ∃ nid, Serves before now nid f) ↔
      ∀ a ∈ history, a.2.ttl.toNat * 10 ^ 9 < 2 ^ 63 := by
  constructor
  · intro h a ha
    by_contra hlong
    obtain ⟨front, back, rfl⟩ := append_of_mem ha
    have hbefore : ∀ b ∈ front ++ [a], b.1 ≤ a.1 + max (lifetime a.2.ttl) 0 := by
      intro b hb
      have hle : b.1 ≤ a.1 := by
        rcases mem_append.mp hb with hb | hb
        · exact (pairwise_append.mp hclock).2.2 b hb a mem_cons_self
        · rw [mem_singleton.mp hb]
      exact hle.trans (le_add_of_nonneg_right (le_max_right _ _))
    have hshort : max (lifetime a.2.ttl) 0 < a.2.ttl.toNat * GoTime.second := by
      have hlt := lifetime_lt a.2.ttl
      rw [GoTime.second]
      omega
    have hlast : lastOf a.2.nid (front ++ [a]) = some (a.1, a.2) := by simp [lastOf]
    have hserves : Serves (front ++ [a]) (a.1 + max (lifetime a.2.ttl) 0) a.2.nid a.2 :=
      ⟨a.1, hlast, by omega, le_add_of_nonneg_right (le_max_right _ _), Int.add_lt_add_left hshort _⟩
    have hbegin : front ++ [a] <+: front ++ a :: back := ⟨back, by rw [append_assoc, singleton_append]⟩
    have hfound := ((h _ hbegin _ hbefore).1 a.2.nid a.2).mpr hserves
    obtain ⟨t, ht, -, hlive⟩ := getByNID_announces.mp hfound
    cases ht.symm.trans hlast
    exact absurd hlive (not_lt_of_ge (Int.add_le_add_left (le_max_left _ _) _))
  · intro h before hbegin now hnow
    have hget : ∀ nid f, (announces before).getByNID now nid = some f ↔ Serves before now nid f := by
      intro nid f
      rw [getByNID_announces]
      refine exists_congr fun t => and_congr_right fun hlast => ?_
      have hmem : (t, f) ∈ before := mem_reverse.mp (mem_of_find?_eq_some hlast)
      rw [lifetime_of_lt (h _ (hbegin.subset hmem))]
      have hpos : f.ttl ≠ 0 ↔ 0 < f.ttl.toNat := by
        rw [Nat.pos_iff_ne_zero, ne_eq, ← UInt64.toNat_inj, UInt64.toNat_zero]
      rw [hpos, and_iff_right (hnow _ hmem)]
    exact ⟨hget, fun order horder f => (mem_getAll_iff horder).trans (exists_congr fun nid => hget nid f)⟩

def bareAnnounce (ttl : UInt64) : AnnounceFrame Empty :=
  { nid := "urn:nps:node:example:a", addresses := none, caps := none, ttl := ttl, timestamp := [],
    signature := [], nodeType := none, nodeRoles := none, clusterAnchor := [], spawnSpecRef := [],
    bridgeProtocols := none, bridgeInboundProtocols := none, activationMode := [],
    activationEndpoint := none, heartbeatIntervalMs := 60000, clusterEpoch := none, health := [],
    lastSeen := [], graphSeq := none }

/-- The first node announces itself for a minute and then for half of one, the second for five seconds. -/
def announceHistory : List (Time × AnnounceFrame Empty) :=
  [(0, bareAnnounce 60), (10 * GoTime.second, { bareAnnounce 5 with nid := "urn:nps:node:example:b" }),
    (20 * GoTime.second, bareAnnounce 30)]

/-- The second announcement of a node ends the first one, which alone would have lasted longer. -/
theorem announceHistory_served :
    (announces announceHistory).getByNID (49 * GoTime.second) (bareAnnounce 0).nid = some (bareAnnounce 30) ∧
      (announces announceHistory).getByNID (50 * GoTime.second) (bareAnnounce 0).nid = none := by
  have hclock : announceHistory.Pairwise fun a b => a.1 ≤ b.1 := by decide
  have hexact := fun now (hlate : ∀ a ∈ announceHistory, a.1 ≤ now) =>
    ((lifetimes_exact_iff hclock).mpr (by decide) _ (prefix_refl _) now hlate).1
  refine ⟨(hexact _ (by decide) _ _).mpr ⟨20 * GoTime.second, rfl, by decide, by decide, by decide⟩, ?_⟩
  rw [eq_none_iff_forall_ne_some]
  intro f hf
  obtain ⟨t, hlast, -, -, hlive⟩ := (hexact _ (by decide) _ f).mp hf
  cases hlast
  exact absurd hlive (by decide)

/-- An announcement of three centuries is never served. -/
theorem centuries_not_served : Serves [(0, bareAnnounce 9223372037)] 0 (bareAnnounce 0).nid (bareAnnounce 9223372037) ∧
      ∀ now, 0 ≤ now → (announces [(0, bareAnnounce 9223372037)]).getByNID now (bareAnnounce 0).nid = none := by
  refine ⟨⟨0, rfl, by decide, le_rfl, by decide⟩, fun now hnow => ?_⟩
  have hnegative : lifetime 9223372037 < 0 := by decide
  rw [eq_none_iff_forall_ne_some]
  intro f hf
  obtain ⟨t, hlast, -, hlive⟩ := getByNID_announces.mp hf
  cases hlast
  rw [zero_add] at hlive
  exact absurd (hlive.trans hnegative) (not_lt_of_ge hnow)

/-! ### Which announcement a target is resolved from -/

def offer (P : Platform T) (r : InMemoryNdpRegistry T) (now : Time) (target nid : GoString) : Option ResolveResult :=
  (r.live now nid).bind fun e => if nwpTargetMatchesNID e.frame.nid target then e.frame.resolution P else none

def nidPath (nid : GoString) : GoString := GoString.join "/" ((nid.splitOn (.char ':')).drop 4)

/-- The address of a NID with the longest path of all that offer one; none if no NID does. -/
def MostSpecific (P : Platform T) (r : InMemoryNdpRegistry T) (now : Time) (target : GoString) :
    Option ResolveResult → Prop
  | none => ∀ nid, r.offer P now target nid = none
  | some x => ∃ nid, r.offer P now target nid = some x ∧ ∀ nid', r.offer P now target nid' ≠ none →
      (nidPath nid').length ≤ (nidPath nid).length

section

variable (h : r.Lists order)
include h

theorem Lists.mem_of_offer (hoffer : r.offer P now target nid ≠ none) : nid ∈ order := by
  refine (h.2 nid).mpr fun hnone => hoffer ?_
  rw [offer, live, hnone]
  rfl

theorem Lists.resolve_eq_none_iff : r.resolve P order now target = none ↔
    ∀ nid, r.offer P now target nid = none := by
  refine findSome?_eq_none_iff.trans ⟨fun hnone nid => ?_, fun hnone nid _ => hnone nid⟩
  by_contra hoffer
  exact hoffer (hnone nid (h.mem_of_offer hoffer))

theorem Lists.of_perm {order' : List GoString} (hperm : order.Perm order') : r.Lists order' :=
  ⟨hperm.nodup_iff.mp h.1, fun nid => hperm.mem_iff.symm.trans (h.2 nid)⟩

/-- The loop may meet any entry first. -/
theorem Lists.exists_resolve {x : ResolveResult} (hoffer : r.offer P now target nid = some x) :
    ∃ order', r.Lists order' ∧ r.resolve P order' now target = some x := by
  have hmem : nid ∈ order := h.mem_of_offer (by rw [hoffer]; exact some_ne_none x)
  refine ⟨nid :: order.erase nid, h.of_perm (perm_cons_erase hmem), ?_⟩
  exact (findSome?_cons_of_isSome (f := r.offer P now target) (by rw [hoffer]; rfl)).trans hoffer

/-- The loop meets finitely many entries, so one of the longest paths is among them. -/
theorem Lists.exists_longest (hoffer : r.offer P now target nid ≠ none) :
    ∃ top, r.offer P now target top ≠ none ∧
      ∀ nid', r.offer P now target nid' ≠ none → (nidPath nid').length ≤ (nidPath top).length := by
  obtain ⟨top, htop, hmax⟩ := (order.toFinset.filter fun nid => r.offer P now target nid ≠ none).exists_max_image
    (fun nid => (nidPath nid).length) ⟨nid, by simpa using ⟨h.mem_of_offer hoffer, hoffer⟩⟩
  refine ⟨top, (Finset.mem_filter.mp htop).2, fun nid' hnid' => hmax nid' ?_⟩
  exact Finset.mem_filter.mpr ⟨mem_toFinset.mpr (h.mem_of_offer hnid'), hnid'⟩

end

/-- A target is resolved from an entry that matches it if there is one. It is resolved from one with the longest
path, whatever the order of the loop, exactly if all that match give the same address. -/
theorem resolve_first_match (h : r.Lists order) :
    (r.resolve P order now target = none ↔ ∀ nid, r.offer P now target nid = none) ∧
      (∀ x, r.resolve P order now target = some x → ∃ nid, r.offer P now target nid = some x) ∧
      ((∀ order', r.Lists order' → r.resolve P order' now target = r.resolve P order now target ∧
          r.MostSpecific P now target (r.resolve P order' now target)) ↔
        ∀ nid x nid' x', r.offer P now target nid = some x → r.offer P now target nid' = some x' → x = x') := by
  have hfound : ∀ {order x}, r.resolve P order now target = some x → ∃ nid, r.offer P now target nid = some x :=
    fun hx => (exists_of_findSome?_eq_some hx).imp fun _ h => h.2
  refine ⟨h.resolve_eq_none_iff, fun _ => hfound, fun hspecific nid x nid' x' hx hx' => ?_, fun hsame order' h' => ?_⟩
  · obtain ⟨order₁, h₁, hresolve⟩ := h.exists_resolve hx
    obtain ⟨order₂, h₂, hresolve'⟩ := h.exists_resolve hx'
    have heq := (hspecific order₁ h₁).1.trans (hspecific order₂ h₂).1.symm
    rw [hresolve, hresolve'] at heq
    exact some.inj heq
  · cases hresolve' : r.resolve P order' now target with
    | none =>
        have hnone := h'.resolve_eq_none_iff.mp hresolve'
        exact ⟨(h.resolve_eq_none_iff.mpr hnone).symm, hnone⟩
    | some x =>
        obtain ⟨nid, hnid⟩ := hfound hresolve'
        refine ⟨?_, ?_⟩
        · cases hresolve : r.resolve P order now target with
          | none =>
              rw [h.resolve_eq_none_iff.mp hresolve] at hnid
              cases hnid
          | some x' =>
              obtain ⟨nid', hnid'⟩ := hfound hresolve
              rw [hsame _ _ _ _ hnid hnid']
        · obtain ⟨top, htop, hlongest⟩ := h.exists_longest (hnid ▸ some_ne_none x)
          obtain ⟨x', hx'⟩ := ne_none_iff_exists'.mp htop
          exact ⟨top, hsame _ _ _ _ hx' hnid ▸ hx', hlongest⟩

def hostAnnounce (nid host : GoString) : AnnounceFrame Empty :=
  { bareAnnounce 60 with nid, addresses := some [some (GoMap.ofList [("host", .string host)])] }

def nested : InMemoryNdpRegistry Empty :=
  announces [(0, hostAnnounce "urn:nps:node:h:a" "outer"), (0, hostAnnounce "urn:nps:node:h:a:b" "inner")]

theorem nested_lists : nested.Lists ["urn:nps:node:h:a", "urn:nps:node:h:a:b"] := by
  refine ⟨by decide, fun nid => ?_⟩
  rw [nested, store_announces]
  by_cases hinner : nid = "urn:nps:node:h:a:b"
  · subst hinner
    decide +kernel
  by_cases houter : nid = "urn:nps:node:h:a"
  · subst houter
    decide +kernel
  · simp [lastOf, hostAnnounce, hinner, houter, Ne.symm hinner, Ne.symm houter]

/-- The two nodes give different addresses, so the one that is resolved depends on the order of the loop. -/
theorem nested_not_determined : ¬ ∀ order, nested.Lists order → nested.resolve plainPlatform order 0 "nwp://h/a/b" =
        nested.resolve plainPlatform ["urn:nps:node:h:a", "urn:nps:node:h:a:b"] 0 "nwp://h/a/b" ∧
      nested.MostSpecific plainPlatform 0 "nwp://h/a/b" (nested.resolve plainPlatform order 0 "nwp://h/a/b") := by
  intro hdetermined
  have houter : nested.offer plainPlatform 0 "nwp://h/a/b" "urn:nps:node:h:a" = some ⟨"outer", 0, [], []⟩ := by
    decide +kernel
  have hinner : nested.offer plainPlatform 0 "nwp://h/a/b" "urn:nps:node:h:a:b" = some ⟨"inner", 0, [], []⟩ := by
    decide +kernel
  have hsame := (resolve_first_match nested_lists).2.2.mp hdetermined _ _ _ _ houter hinner
  exact absurd hsame (by decide)

/-- The address of the longer path is offered, and met first the one of the shorter path is taken. -/
theorem nested_resolved_from_outer :
    nested.Lists ["urn:nps:node:h:a", "urn:nps:node:h:a:b"] ∧ nested.Lists ["urn:nps:node:h:a:b", "urn:nps:node:h:a"] ∧
      (nested.resolve plainPlatform ["urn:nps:node:h:a", "urn:nps:node:h:a:b"] 0 "nwp://h/a/b").map (·.host) =
        some "outer" ∧
      (nested.resolve plainPlatform ["urn:nps:node:h:a:b", "urn:nps:node:h:a"] 0 "nwp://h/a/b").map (·.host) =
        some "inner" :=
  ⟨nested_lists, nested_lists.of_perm (List.Perm.swap _ _ _), by decide +kernel, by decide +kernel⟩

end InMemoryNdpRegistry

end NpsSdk.Ndp
