import NpsSdk.CoreAnchor
import NpsSdk.GoTable
import NpsSdk.GoTime
import NpsSdk.Transition

/-! The cache of schemas by anchor id. An id is computed from a part of a schema only, so two schemas may share
one; a live entry keeps the JSON of its schema until it expires or is removed. A nil schema is `none`. -/

namespace NpsSdk.Core

open Transition GoTable

section

variable {T : Type} (P : Platform T) (sha256 : Bytes → Bytes)

def schemaJSON : Option (FrameDict T) → Option Bytes
  | none => some (GoString.bytes "null")
  | some d => (jsonMarshal P d).toOption

variable (schema : Option (FrameDict T))

/-- The bytes an anchor id is the hash of: the canonical form, or the JSON of a map that is never nil. -/
def anchorText : Bytes :=
  match canonicalFrameSchemaJSON (schema.getD ∅) with
  | some canonical => GoString.bytes (GoString.ofChars canonical)
  | none => (schemaJSON P (some (schema.getD ∅))).getD []

def computeAnchorID : GoString :=
  GoString.ofChars ("sha256:".toList ++ (sha256 (anchorText P schema)).flatMap fun b =>
    [JsonValue.hexDigit (b.toNat / 16), JsonValue.hexDigit (b.toNat % 16)])

def mapsEqual (a b : Option (FrameDict T)) : Bool :=
  (a.getD ∅).size == (b.getD ∅).size && (schemaJSON P a).getD [] == (schemaJSON P b).getD []

theorem schemaJSON_ne_nil : schemaJSON P schema ≠ some [] := by
  cases schema with
  | none => exact fun h => absurd (Option.some.inj h) (by decide)
  | some d =>
    rw [schemaJSON, jsonMarshal]
    split
    next v _ =>
      intro h
      obtain ⟨c, text, htext, -⟩ := JsonValue.marshal_head jsonNumber v
      have hnil : JsonValue.marshal jsonNumber v = [] := GoString.bytes_ofChars_injective (Option.some.inj h)
      rw [htext] at hnil
      cases hnil
    · exact fun h => by cases h

/-- Documents that could not be written count as empty, and no document is. -/
theorem schemaJSON_eq_of_mapsEqual {a b : Option (FrameDict T)} (h : mapsEqual P a b = true) :
    schemaJSON P a = schemaJSON P b := by
  have htext : (schemaJSON P a).getD [] = (schemaJSON P b).getD [] := eq_of_beq (Bool.and_eq_true_iff.mp h).2
  have ha := schemaJSON_ne_nil P a
  have hb := schemaJSON_ne_nil P b
  cases hja : schemaJSON P a <;> cases hjb : schemaJSON P b <;> simp_all

structure AnchorEntry (T : Type) where
  schema : Option (FrameDict T)
  expires : Time

structure AnchorFrameCache (T : Type) where
  store : GoTable (AnchorEntry T)
  clock : Time

structure ErrAnchorPoison where
  id : GoString

namespace AnchorFrameCache

def new (T : Type) (clock : Time) : AnchorFrameCache T := ⟨∅, clock⟩

variable (c : AnchorFrameCache T)

def set (schema : Option (FrameDict T)) (ttlSecs : Int) : Except ErrAnchorPoison GoString × AnchorFrameCache T :=
  let id := computeAnchorID P sha256 schema
  if c.store[id]?.any fun e => c.clock < e.expires && !mapsEqual P e.schema schema then (.error ⟨id⟩, c)
  else (.ok id, { c with store := c.store.insert id ⟨schema, c.clock + (ttlSecs * GoTime.second).bmod (2 ^ 64)⟩ })

def get (id : GoString) : Option (FrameDict T) :=
  match c.store[id]? with
  | some e => if c.clock < e.expires then e.schema else none
  | none => none

def invalidate (id : GoString) : AnchorFrameCache T :=
  { c with store := c.store.erase id }

inductive Event (T : Type) where
  | tick (elapsed : Nat)
  | set (schema : Option (FrameDict T)) (ttlSecs : Int)
  | invalidate (id : GoString)

def step : Event T → Option (AnchorFrameCache T)
  | .tick elapsed => some { c with clock := c.clock + elapsed }
  | .set schema ttlSecs => some (c.set P sha256 schema ttlSecs).2
  | .invalidate id => some (c.invalidate id)

variable {c c' : AnchorFrameCache T} {id : GoString}

/-- What a call of `Set` can do. -/
theorem set_cases (c : AnchorFrameCache T) (schema : Option (FrameDict T)) (ttlSecs : Int) :
    c.set P sha256 schema ttlSecs = (.error ⟨computeAnchorID P sha256 schema⟩, c) ∨
      (∀ e, c.store[computeAnchorID P sha256 schema]? = some e → c.clock < e.expires →
          schemaJSON P e.schema = schemaJSON P schema) ∧
        c.set P sha256 schema ttlSecs = (.ok (computeAnchorID P sha256 schema),
          ⟨c.store.insert (computeAnchorID P sha256 schema)
            ⟨schema, c.clock + (ttlSecs * GoTime.second).bmod (2 ^ 64)⟩, c.clock⟩) := by
  rw [set]
  split
  · exact .inl rfl
  next hfree =>
    refine .inr ⟨fun e he hlive => schemaJSON_eq_of_mapsEqual P ?_, rfl⟩
    simpa [he, hlive] using hfree

/-! ### What a run keeps -/

/-- Every entry is stored under the id of its schema. -/
def Addressed (P : Platform T) (sha256 : Bytes → Bytes) (c : AnchorFrameCache T) : Prop :=
  ∀ (id : GoString) e, c.store[id]? = some e → computeAnchorID P sha256 e.schema = id

variable {P sha256}

theorem Addressed.step {event : Event T} (h : Addressed P sha256 c) (hstep : c.step P sha256 event = some c') :
    Addressed P sha256 c' := by
  cases event with
  | tick =>
    cases hstep
    exact h
  | set schema ttlSecs =>
    cases hstep
    rcases set_cases P sha256 c schema ttlSecs with heq | ⟨-, heq⟩
    · rwa [heq]
    rw [heq]
    intro id e he
    rw [getElem?_insert] at he
    split at he
    next hid =>
      cases he
      exact hid
    · exact h id e he
  | invalidate =>
    cases hstep
    intro id e he
    rw [invalidate, getElem?_erase] at he
    split at he
    · cases he
    · exact h id e he

theorem addressed_new {start : Time} : Addressed P sha256 (new T start) := by
  intro id e he
  cases (getElem?_empty id).symm.trans he

/-- The event stores a schema under the id or removes what is stored there. -/
def Replaces (P : Platform T) (sha256 : Bytes → Bytes) (id : GoString) (c : AnchorFrameCache T) : Event T → Prop
  | .tick _ => False
  | .set schema ttlSecs => (c.set P sha256 schema ttlSecs).1 = .ok id
  | .invalidate removed => removed = id

theorem store_of_not_replaces {event : Event T} {e : AnchorEntry T} (he : c.store[id]? = some e)
    (hother : ¬ Replaces P sha256 id c event) (hstep : c.step P sha256 event = some c') : c'.store[id]? = some e := by
  cases event with
  | tick =>
    cases hstep
    exact he
  | set schema ttlSecs =>
    cases hstep
    rcases set_cases P sha256 c schema ttlSecs with heq | ⟨-, heq⟩
    · rwa [heq]
    rw [Replaces, heq] at hother
    rw [heq, getElem?_insert, if_neg fun hid => hother (by rw [hid])]
    exact he
  | invalidate =>
    cases hstep
    rw [invalidate, getElem?_erase, if_neg (by exact hother)]
    exact he

/-- A run from an empty cache. An id found stands for the schema it is found with; while it is live, a call of
`Set` binds it to no schema with other JSON; a poisoning call changes nothing; and what is set stays to be found
until its time is over, unless it is set or removed again. -/
theorem run_anchors {start : Time} {events : List (Event T)}
    (hrun : run (step P sha256) (new T start) events = some c) :
    (∀ id d, c.get id = some d → computeAnchorID P sha256 (some d) = id) ∧
    (∀ schema ttlSecs (id : GoString) e e', c.store[id]? = some e → c.clock < e.expires →
      (c.set P sha256 schema ttlSecs).2.store[id]? = some e' → schemaJSON P e'.schema = schemaJSON P e.schema) ∧
    (∀ schema ttlSecs err, (c.set P sha256 schema ttlSecs).1 = .error err →
      ∀ id now, get { (c.set P sha256 schema ttlSecs).2 with clock := now } id = get { c with clock := now } id) ∧
    (∀ schema ttlSecs id, 0 < ttlSecs → ttlSecs < 2 ^ 33 → (c.set P sha256 schema ttlSecs).1 = .ok id →
      ∀ after t, run (step P sha256) (c.set P sha256 schema ttlSecs).2 after = some t →
        (∀ p ∈ steps (step P sha256) (c.set P sha256 schema ttlSecs).2 after,
          ¬ Replaces P sha256 id p.1 p.2) →
        t.clock < c.clock + ttlSecs * GoTime.second → t.get id = schema) := by
  refine ⟨?_, ?_, ?_, ?_⟩
  · intro id d hget
    have haddressed : Addressed P sha256 c :=
      run_invariant _ (fun _ _ _ h hstep => h.step hstep) hrun addressed_new
    rw [get] at hget
    split at hget
    next e he =>
      split at hget
      · rw [← hget]
        exact haddressed id e he
      · cases hget
    · cases hget
  · intro schema ttlSecs id e e' he hlive he'
    rcases set_cases P sha256 c schema ttlSecs with heq | ⟨hsame, heq⟩
    · rw [heq, he] at he'
      cases he'
      rfl
    · rw [heq, getElem?_insert] at he'
      split at he'
      next hid =>
        cases he'
        subst hid
        exact (hsame e he hlive).symm
      · rw [he] at he'
        cases he'
        rfl
  · intro schema ttlSecs err herr id now
    rcases set_cases P sha256 c schema ttlSecs with heq | ⟨-, heq⟩
    · rw [heq]
    · rw [heq] at herr
      cases herr
  · intro schema ttlSecs id hpos hlt hset after t hafter hother hclock
    rcases set_cases P sha256 c schema ttlSecs with heq | ⟨-, heq⟩
    · rw [heq] at hset
      cases hset
    rw [heq] at hset hafter hother
    cases hset
    have hstored := run_invariant_of_steps _
      (fun _ _ _ he hother hstep => store_of_not_replaces he hother hstep) hafter
      (getElem?_insert_self _ _ _) hother
    have hexact : (ttlSecs * GoTime.second).bmod (2 ^ 64) = ttlSecs * GoTime.second := by
      rw [GoTime.second]
      exact Int.bmod_eq_of_le (by omega) (by omega)
    rw [get, hstored]
    exact if_pos (by rwa [hexact])

/-- A schema with the fields of `oneFieldSchema`, and so with its id. -/
def titledSchema : FrameDict Empty := (oneFieldSchema "a").insert "title" (.string "t")

theorem computeAnchorID_titledSchema : computeAnchorID plainPlatform List.reverse (some titledSchema) =
    computeAnchorID plainPlatform List.reverse (some (oneFieldSchema "a")) := by
  have hfields : fieldMaps titledSchema = fieldMaps (oneFieldSchema "a") := by
    rw [fieldMaps, fieldMaps, titledSchema, GoMap.getElem?_insert_ne _ _ _ _ (by decide)]
  have htext : canonicalFrameSchemaJSON titledSchema = some (jcsSchema [oneField "a"]) := by
    rw [← plain_name_canonical, canonicalFrameSchemaJSON, canonicalFrameSchemaJSON, hfields]
  simp only [computeAnchorID, anchorText, Option.getD_some, htext, plain_name_canonical]

def oneFieldID : GoString := computeAnchorID plainPlatform List.reverse (some (oneFieldSchema "a"))

/-- The cache at a time after the schema of one field was set for a minute. -/
def minuteCache (now : Time) : AnchorFrameCache Empty :=
  ⟨(∅ : GoTable (AnchorEntry Empty)).insert oneFieldID ⟨some (oneFieldSchema "a"), 60 * GoTime.second⟩, now⟩

theorem set_titledSchema {now : Time} (hlive : now < 60 * GoTime.second) (ttlSecs : Int) :
    (minuteCache now).set plainPlatform List.reverse (some titledSchema) ttlSecs =
      (.error ⟨oneFieldID⟩, minuteCache now) := by
  have hdiffer : mapsEqual plainPlatform (some (oneFieldSchema "a")) (some titledSchema) = false := by
    simp [mapsEqual, titledSchema, oneFieldSchema, Std.ExtTreeMap.size_insert]
  rw [set, computeAnchorID_titledSchema, ← oneFieldID, minuteCache, getElem?_insert_self]
  simp [hdiffer, hlive]

/-- While a schema set for a minute is live, another with its id is refused, and the first stays. -/
theorem titledSchema_refused :
    ((minuteCache 10000000000).set plainPlatform List.reverse (some titledSchema) 60).1 = .error ⟨oneFieldID⟩ ∧
      ∃ t, run (step plainPlatform List.reverse) (new Empty 0) [.set (some (oneFieldSchema "a")) 60,
          .tick 10000000000, .set (some titledSchema) 60, .tick 49000000000] = some t ∧
        t.get oneFieldID = some (oneFieldSchema "a") := by
  have hrefused := @set_titledSchema 10000000000 (by decide) 60
  have htick : step plainPlatform List.reverse (minuteCache 0) (.tick 10000000000) =
      some (minuteCache 10000000000) := rfl
  have hstep : step plainPlatform List.reverse (minuteCache 10000000000) (.set (some titledSchema) 60) =
      some (minuteCache 10000000000) := by rw [step, hrefused]
  have hfirst : (new Empty 0).set plainPlatform List.reverse (some (oneFieldSchema "a")) 60 =
      (.ok oneFieldID, minuteCache 0) := rfl
  have hkept := (run_anchors (show run (step plainPlatform List.reverse) (new Empty 0) [] = _ from rfl)).2.2.2
    (some (oneFieldSchema "a")) 60 oneFieldID (by decide) (by decide) rfl
    [.tick 10000000000, .set (some titledSchema) 60, .tick 49000000000]
  rw [hfirst, run, htick, Option.bind_some, run, hstep, Option.bind_some, steps, htick, Option.map_some,
    Option.getD_some, steps, hstep, Option.map_some, Option.getD_some] at hkept
  refine ⟨congrArg Prod.fst hrefused, _, ?_, hkept _ rfl ?_ (by decide)⟩
  · rw [run, step, hfirst, Option.bind_some, run, htick, Option.bind_some, run, hstep]
    rfl
  · refine List.forall_mem_cons.mpr ⟨id, List.forall_mem_cons.mpr ⟨?_, List.forall_mem_singleton.mpr id⟩⟩
    rw [Replaces, hrefused]
    exact fun h => by cases h

end AnchorFrameCache

end

end NpsSdk.Core
