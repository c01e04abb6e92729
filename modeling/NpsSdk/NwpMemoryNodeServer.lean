import NpsSdk.NwpFrames

/-! The query endpoint of a memory node: the frame that is read from the body, the answer of the provider,
and the budget it is trimmed to. -/

open NpsSdk.Core

namespace NpsSdk.Nwp

open List GoDict Nat

structure MemoryNodeOptions where
  defaultLimit : UInt64
  maxLimit : UInt64
  /-- The cap of the operator; zero is none. -/
  cgnLimit : UInt64

structure MemoryNodeQueryResult (T : Type) where
  rows : List (GoDict T)
  nextCursor : GoString

abbrev MemoryNodeProvider (T : Type) :=
  QueryFrame T → MemoryNodeOptions → Except GoString (MemoryNodeQueryResult T)

/-- A server, with the limits that are there when none was given. -/
structure MemoryNodeServer where
  opts : MemoryNodeOptions
  anchorID : GoString
  defaultLimit_pos : 0 < opts.defaultLimit
  maxLimit_pos : 0 < opts.maxLimit

def limitOrDefault (limit default : UInt64) : UInt64 := if limit = 0 then default else limit

theorem limitOrDefault_pos {limit default : UInt64} (h : 0 < default) : 0 < limitOrDefault limit default := by
  rw [limitOrDefault]
  split
  case isTrue => exact h
  case isFalse hne => exact UInt64.pos_iff_ne_zero.mpr hne

def newMemoryNodeServer (opts : MemoryNodeOptions) (anchorID : GoString) : MemoryNodeServer where
  opts := { opts with
    defaultLimit := limitOrDefault opts.defaultLimit 20
    maxLimit := limitOrDefault opts.maxLimit 1000 }
  anchorID := anchorID
  defaultLimit_pos := limitOrDefault_pos (by decide)
  maxLimit_pos := limitOrDefault_pos (by decide)

inductive QueryAnswer (T : Type) where
  | caps (anchorRef : GoString) (data : List (GoDict T)) (nextCursor : GoString) (tokenEst : Nat)
  /-- Rows that cannot be written leave the body empty. -/
  | empty
  | error (httpStatus : Nat) (status code message : GoString)

section

variable {T : Type} (P : Platform T)

def queryFrameFromJSON (d : GoDict T) (opts : MemoryNodeOptions) : QueryFrame T where
  anchorRef := str d "anchor_ref"
  filter := get d "filter"
  order := get d "order"
  fields := none
  vectorSearch := .nil
  cursor := none
  tokenBudget := none
  tokenizer := none
  requestID := none
  autoAnchor := none
  stream := none
  aggregate := .nil
  limit :=
    match get d "limit" with
    | .float64 x => some (P.uint64OfFloat (x.min (F64.ofInt opts.maxLimit.toNat)))
    | _ => some opts.defaultLimit
  offset :=
    match get d "offset" with
    | .float64 x => some (P.uint64OfFloat x)
    | _ => none
  depth := none

/-! ### Budgets -/

/-- `fmt.Sscanf(raw, "%d", &n)`: what is left of `n` if there is no number. -/
def parseBudget (raw : GoString) : Int :=
  let text := raw.dropWhile GoString.isSpace
  let (sign, rest) :=
    match text with
    | .char '+' :: rest => ([GoRune.char '+'], rest)
    | .char '-' :: rest => ([GoRune.char '-'], rest)
    | rest => ([], rest)
  let digits := rest.takeWhile fun
    | .char c => c.isDigit
    | .byte _ => false
  ((parseInt (sign ++ digits)).map Int64.toInt).getD 0

def effectiveBudget (agentBudget cgnLimit : Int) : Int :=
  if cgnLimit = 0 then agentBudget
  else if agentBudget = 0 then cgnLimit
  else if cgnLimit < agentBudget then cgnLimit
  else agentBudget

/-- The tokens of a document that was written; one that was not has no bytes. -/
def tokensOf (document : Option (JsonValue JsonNumber)) : Nat :=
  match document with
  | some v => ((GoString.bytes (GoString.ofChars (JsonValue.marshal jsonNumber v))).length + 3) / 4
  | none => 0

/-- No rows are written as `null`, which counts as much as an empty list. -/
def measureRows (rows : List (GoDict T)) : Nat := tokensOf (toJson P (.maps (rows.map .ofMap)))

def measureRow (row : GoDict T) : Nat := tokensOf (toJson P (.ofMap row))

/-- The rows before the first that does not fit, and what they come to. -/
def trimFrom (budget : Int) (acc : Nat) : List (GoDict T) → List (GoDict T) × Nat
  | [] => ([], acc)
  | row :: rows =>
    if budget < acc + measureRow P row then ([], acc)
    else
      let (trimmed, total) := trimFrom budget (acc + measureRow P row) rows
      (row :: trimmed, total)

def trimToBudget (rows : List (GoDict T)) (budget : Int) : List (GoDict T) × Nat := trimFrom P budget 0 rows

/-! ### The endpoint -/

variable (server : MemoryNodeServer) (provider : MemoryNodeProvider T) (budgetHeader : GoString)

def serverBudget : Int :=
  effectiveBudget (parseBudget budgetHeader) server.opts.cgnLimit.toInt64.toInt

def budgeted (rows : List (GoDict T)) : List (GoDict T) × Nat :=
  let budget := serverBudget server budgetHeader
  if 0 < budget ∧ budget < measureRows P rows then trimToBudget P rows budget else (rows, measureRows P rows)

def answerQuery (d : GoDict T) : QueryAnswer T :=
  match provider (queryFrameFromJSON P d server.opts) server.opts with
  | .error message => .error 500 "NPS-SERVER-INTERNAL" "NWP-NODE-UNAVAILABLE" message
  | .ok result =>
    let (rows, tokenEst) := budgeted P server budgetHeader result.rows
    match toJson P (.maps (rows.map .ofMap)) with
    | some _ => .caps server.anchorID rows result.nextCursor tokenEst
    | none => .empty

def handleQuery (body : Bytes) : QueryAnswer T :=
  match jsonUnmarshal P body with
  | .error _ => .error 400 "NPS-CLIENT-BAD-REQUEST" "NWP-QUERY-FILTER-INVALID" "Invalid QueryFrame JSON."
  | .ok d => answerQuery P server provider budgetHeader d

/-! ### Trimming -/

theorem toInt_toInt64 (n : UInt64) : n.toInt64.toInt = (n.toNat : Int).bmod (2 ^ 64) := by
  rw [← Int64.toInt_toBitVec, BitVec.toInt_eq_toNat_bmod]
  rfl

variable {P}

theorem trimFrom_eq_self_iff {budget : Int} {rows : List (GoDict T)} {acc : Nat} (hacc : acc ≤ budget) :
    (trimFrom P budget acc rows).1 = rows ↔ ((acc + (rows.map (measureRow P)).sum : Nat) : Int) ≤ budget := by
  induction rows generalizing acc with
  | nil => simpa [trimFrom] using hacc
  | cons row rows ih =>
    rw [trimFrom, map_cons, sum_cons, ← add_assoc]
    split
    case isTrue hover =>
      refine ⟨nofun, fun h => ?_⟩
      omega
    case isFalse hfits =>
      have hacc' : ((acc + measureRow P row : Nat) : Int) ≤ budget := by omega
      rw [← ih hacc']
      exact ⟨fun h => (List.cons.inj h).2, fun h => congrArg (row :: ·) h⟩

/-- Nothing is trimmed: there is no budget, or the rows fit into it, together or one by one. -/
def Fits (P : Platform T) (budget : Int) (rows : List (GoDict T)) : Prop :=
  budget ≤ 0 ∨ measureRows P rows ≤ budget ∨ ((rows.map (measureRow P)).sum : Nat) ≤ budget

theorem budgeted_eq_self_iff (rows : List (GoDict T)) :
    (budgeted P server budgetHeader rows).1 = rows ↔ Fits P (serverBudget server budgetHeader) rows := by
  rw [budgeted, Fits]
  split
  case isTrue h =>
    rw [trimToBudget, trimFrom_eq_self_iff (by omega)]
    omega
  case isFalse h =>
    refine iff_of_true rfl ?_
    omega

/-! ### The cursor -/

/-- The frame does not depend on the cursor of the request. -/
theorem queryFrameFromJSON_insert_cursor (d : GoDict T) (v : GoAny T) (opts : MemoryNodeOptions) :
    queryFrameFromJSON P (d.insert "cursor" v) opts = queryFrameFromJSON P d opts := by
  have hget : ∀ key : String, "cursor" ≠ key → get (d.insert "cursor" v) key = get d key := fun key hkey =>
    congrArg (·.getD .nil) (GoMap.getElem?_insert_ne d "cursor" key v hkey)
  have hanchor := hget "anchor_ref" (by decide)
  have hfilter := hget "filter" (by decide)
  have horder := hget "order" (by decide)
  have hlimit := hget "limit" (by decide)
  have hoffset := hget "offset" (by decide)
  rw [queryFrameFromJSON, queryFrameFromJSON, str, str, optStr, optStr, hanchor, hfilter, horder, hlimit, hoffset]

theorem answerQuery_insert_cursor (d : GoDict T) (v : GoAny T) :
    answerQuery P server provider budgetHeader (d.insert "cursor" v) =
      answerQuery P server provider budgetHeader d := by
  rw [answerQuery, answerQuery, queryFrameFromJSON_insert_cursor]

end

section

variable {T : Type} {P : Platform T} (server : MemoryNodeServer) (budgetHeader : GoString)

/-! ### The cap on an answer -/

/-- The length of a document as it is written. -/
def textLength (v : JsonValue JsonNumber) : Nat :=
  (GoString.bytes (GoString.ofChars (JsonValue.marshal jsonNumber v))).length

/-- A number of tokens is within the cap of the operator, and of the agent if that is a positive one. -/
def WithinCaps (tokens : Nat) : Prop :=
  tokens ≤ server.opts.cgnLimit.toNat ∧
    (0 < parseBudget budgetHeader → (tokens : Int) ≤ parseBudget budgetHeader)

instance (tokens : Nat) : Decidable (WithinCaps server budgetHeader tokens) := inferInstanceAs (Decidable (_ ∧ _))

/-- The tokens of the first rows, each counted for itself. -/
def rowTokens (P : Platform T) (rows : List (GoDict T)) (n : Nat) : Nat := ((rows.take n).map (measureRow P)).sum

def rowBytes (P : Platform T) (row : GoDict T) : Nat := ((toJson P (.ofMap row)).map textLength).getD 0

/-- The bytes by which the first rows are rounded up. -/
def padding (P : Platform T) (rows : List (GoDict T)) (n : Nat) : Nat :=
  ((rows.take n).map fun row => 4 * measureRow P row - rowBytes P row).sum

/-- The longest part of the rows that is within the caps, under the number of tokens it has. -/
structure BudgetKept (P : Platform T) (rows returned : List (GoDict T)) (tokenEst : Nat) : Prop where
  within : WithinCaps server budgetHeader (measureRows P returned)
  counted : tokenEst = measureRows P returned
  taken : returned <+: rows
  longest : ∀ longer, longer <+: rows → WithinCaps server budgetHeader (measureRows P longer) →
    longer.length ≤ returned.length

variable {server budgetHeader}

theorem rowTokens_mono (P : Platform T) (rows : List (GoDict T)) {n m : Nat} (h : n ≤ m) :
    rowTokens P rows n ≤ rowTokens P rows m :=
  (((take_prefix_take_left h).map _).sublist).sum_le_sum (fun _ _ => zero_le _)

/-- What is kept is as many rows as fit, counted one by one. -/
theorem trimFrom_spec (P : Platform T) {budget : Int} (rows : List (GoDict T)) {acc : Nat} (hacc : acc ≤ budget) :
    ∃ n, trimFrom P budget acc rows = (rows.take n, acc + rowTokens P rows n) ∧
      (acc + rowTokens P rows n : Nat) ≤ budget ∧
      (rows.length ≤ n ∨ budget < (acc + rowTokens P rows (n + 1) : Nat)) := by
  induction rows generalizing acc with
  | nil => exact ⟨0, rfl, hacc, .inl (le_refl _)⟩
  | cons row rows ih =>
    rw [trimFrom]
    split
    case isTrue hover =>
      refine ⟨0, rfl, hacc, .inr ?_⟩
      simpa [rowTokens] using hover
    case isFalse hfits =>
      obtain ⟨n, htrim, hle, hnext⟩ := ih (show ((acc + measureRow P row : Nat) : Int) ≤ budget by omega)
      have hsucc : ∀ n, rowTokens P (row :: rows) (n + 1) = measureRow P row + rowTokens P rows n := fun _ => rfl
      refine ⟨n + 1, ?_, ?_, ?_⟩
      · rw [htrim, hsucc, add_assoc]
        rfl
      · rwa [hsucc, ← add_assoc]
      · rwa [hsucc, ← add_assoc, length_cons, add_le_add_iff_right]

theorem measureRow_eq (P : Platform T) (row : GoDict T) : measureRow P row = (rowBytes P row + 3) / 4 := by
  rw [measureRow, rowBytes]
  cases toJson P (.ofMap row) with
  | none => rfl
  | some v => rfl

theorem padding_succ_le (P : Platform T) (rows : List (GoDict T)) (n : Nat) :
    padding P rows (n + 1) ≤ padding P rows n + 3 := by
  rw [padding, padding, take_add_one, map_append, sum_append_nat]
  cases rows[n]? with
  | none => simp
  | some row =>
    have hrow := measureRow_eq P row
    rw [Option.toList_some, map_singleton, sum_singleton]
    omega

/-! ### The bytes of an array -/

theorem length_bytes_ofChars_append (cs ds : List Char) : (GoString.bytes (GoString.ofChars (cs ++ ds))).length =
    (GoString.bytes (GoString.ofChars cs)).length + (GoString.bytes (GoString.ofChars ds)).length := by
  rw [GoString.bytes_ofChars, GoString.bytes_ofChars, GoString.bytes_ofChars, flatMap_append, length_append]

/-- After its opening bracket an array has its items and a comma or bracket behind each. -/
theorem length_marshalItems (items : List (JsonValue JsonNumber)) :
    (GoString.bytes (GoString.ofChars (JsonValue.marshalItems jsonNumber items))).length =
      (items.map textLength).sum + items.length + 1 := by
  induction items with
  | nil => rfl
  | cons v items ih =>
    have hcomma : (GoString.bytes (GoString.ofChars [','])).length = 1 := rfl
    rw [JsonValue.marshalItems, ← singleton_append, length_bytes_ofChars_append, length_bytes_ofChars_append, ih,
      hcomma, map_cons, sum_cons, length_cons, textLength]
    omega

/-- An array counts as its items with a byte for each and one more. -/
theorem tokensOf_array (items : List (JsonValue JsonNumber)) :
    tokensOf (some (.array items)) = ((items.map textLength).sum + items.length + 4) / 4 := by
  cases items with
  | nil => rfl
  | cons v items =>
    have hopen : (GoString.bytes (GoString.ofChars ['['])).length = 1 := rfl
    rw [tokensOf, JsonValue.marshal, ← singleton_append, length_bytes_ofChars_append, length_bytes_ofChars_append,
      length_marshalItems, hopen, map_cons, sum_cons, length_cons, textLength]
    congr 1
    omega

theorem map_textLength_of_toJsonItems {rows : List (GoDict T)} {items : List (JsonValue JsonNumber)}
    (h : toJsonItems P (rows.map .ofMap) = some items) : items.map textLength = rows.map (rowBytes P) := by
  induction rows generalizing items with
  | nil =>
    cases h
    rfl
  | cons row rows ih =>
    obtain ⟨v, hv, hrest⟩ := Option.bind_eq_some_iff.mp h
    obtain ⟨rest, htail, rfl⟩ := Option.map_eq_some_iff.mp hrest
    rw [map_cons, map_cons, ih htail, rowBytes, hv]
    rfl

theorem toJsonItems_take {rows : List (GoDict T)} {items : List (JsonValue JsonNumber)}
    (h : toJsonItems P (rows.map .ofMap) = some items) (n : Nat) :
    toJsonItems P ((rows.take n).map .ofMap) = some (items.take n) := by
  induction rows generalizing items n with
  | nil =>
    cases h
    rw [take_nil, take_nil]
    rfl
  | cons row rows ih =>
    obtain ⟨v, hv, hrest⟩ := Option.bind_eq_some_iff.mp h
    obtain ⟨rest, htail, rfl⟩ := Option.map_eq_some_iff.mp hrest
    cases n with
    | zero => rfl
    | succ n =>
      rw [take_succ_cons, take_succ_cons, map_cons, toJsonItems, hv, Option.bind_some, ih htail n]
      rfl

/-- Rows that count for something can all be written, and so can the first of them. -/
theorem measureRows_take {rows : List (GoDict T)} (h : 0 < measureRows P rows) {n : Nat} (hn : n ≤ rows.length) :
    measureRows P (rows.take n) = (((rows.take n).map (rowBytes P)).sum + n + 4) / 4 := by
  rw [measureRows, toJson] at h
  cases hitems : toJsonItems P (rows.map .ofMap) with
  | none =>
    rw [hitems] at h
    cases h
  | some items =>
    have htake := toJsonItems_take hitems n
    have hlengths := map_textLength_of_toJsonItems htake
    have hlength := congrArg length hlengths
    rw [length_map, length_map, length_take_of_le hn] at hlength
    rw [measureRows, toJson, htake, Option.map_some, tokensOf_array, hlengths, hlength]

/-- Rounded up, rows have their bytes and the padding. -/
theorem four_mul_rowTokens (P : Platform T) (rows : List (GoDict T)) (n : Nat) :
    4 * rowTokens P rows n = ((rows.take n).map (rowBytes P)).sum + padding P rows n := by
  rw [rowTokens, padding]
  induction rows.take n with
  | nil => rfl
  | cons row rows ih =>
    have hrow := measureRow_eq P row
    rw [map_cons, map_cons, map_cons, sum_cons, sum_cons, sum_cons, mul_add, ih]
    omega

/-- The limits are read as they are meant: none turns negative. -/
def SignedCaps (server : MemoryNodeServer) (budgetHeader : GoString) : Prop :=
  server.opts.cgnLimit.toNat < 2 ^ 63 ∧ 0 ≤ parseBudget budgetHeader

variable (budgetHeader) in
theorem serverBudget_spec (hcap : 0 < server.opts.cgnLimit) :
    (0 < serverBudget server budgetHeader ↔ SignedCaps server budgetHeader) ∧
      (SignedCaps server budgetHeader → ∀ tokens : Nat,
        WithinCaps server budgetHeader tokens ↔ tokens ≤ serverBudget server budgetHeader) := by
  have hpos : 0 < server.opts.cgnLimit.toNat := UInt64.lt_iff_toNat_lt.mp hcap
  have hlt := server.opts.cgnLimit.toNat_lt
  unfold SignedCaps WithinCaps
  rw [serverBudget, effectiveBudget, toInt_toInt64, Int.bmod_def]
  refine ⟨?_, fun hsigned tokens => ?_⟩
  · split_ifs <;> omega
  · split_ifs <;> omega

/-- The rows that are kept are the longest part within the caps, under the number of tokens it has. -/
theorem budgetKept_take_iff (hcap : 0 < server.opts.cgnLimit) (hsigned : SignedCaps server budgetHeader)
    {rows : List (GoDict T)} (hmeasure : 0 < measureRows P rows) {n : Nat} (hn : n < rows.length)
    (hfit : WithinCaps server budgetHeader (rowTokens P rows n))
    (hnext : ¬ WithinCaps server budgetHeader (rowTokens P rows (n + 1))) :
    BudgetKept server budgetHeader P rows (rows.take n) (rowTokens P rows n) ↔
      n + 1 ≤ padding P rows n ∧ padding P rows n ≤ n + 4 ∧
        (padding P rows (n + 1) ≤ n + 5 ∨ ¬ WithinCaps server budgetHeader (rowTokens P rows (n + 1) - 1)) := by
  have hwithin := (serverBudget_spec budgetHeader hcap).2 hsigned
  rw [hwithin] at hfit hnext ⊢
  have hkept := measureRows_take hmeasure (le_of_lt hn)
  have hlonger := measureRows_take hmeasure (n := n + 1) hn
  have hrounded := four_mul_rowTokens P rows n
  have hroundedNext := four_mul_rowTokens P rows (n + 1)
  have hpadding := padding_succ_le P rows n
  constructor
  · intro h
    have hcounted := h.counted
    have hlongest : ¬ WithinCaps server budgetHeader (measureRows P (rows.take (n + 1))) := fun hover => by
      have hlength := h.longest _ ( take_prefix (n + 1) rows) hover
      rw [length_take_of_le hn, length_take_of_le (le_of_lt hn)] at hlength
      omega
    rw [hwithin] at hlongest
    omega
  · rintro ⟨hlow, hhigh, hover⟩
    have hcounted : rowTokens P rows n = measureRows P (rows.take n) := by omega
    refine ⟨hcounted ▸ (hwithin _).mpr hfit, hcounted, take_prefix _ _, fun longer htaken hlongerfit => ?_⟩
    rw [length_take_of_le (le_of_lt hn)]
    by_contra hgt
    -- what is longer has the next row too
    have hbytes : ((rows.take (n + 1)).map (rowBytes P)).sum ≤ (longer.map (rowBytes P)).sum := by
      rw [prefix_iff_eq_take.mp htaken]
      exact (((take_prefix_take_left (by omega)).map _).sublist).sum_le_sum fun _ _ => zero_le _
    rw [hwithin, prefix_iff_eq_take.mp htaken, measureRows_take hmeasure htaken.length_le,
      ← prefix_iff_eq_take.mp htaken] at hlongerfit
    omega

/-- The caps are kept exactly if all rows are within them together, or the limits are read as they are
meant and, where the count of the single rows passes them, rounding the rows up has made room for the brackets and
commas of the array and for no token more. -/
theorem budget_kept_iff (hcap : 0 < server.opts.cgnLimit) (rows : List (GoDict T)) :
    let answer := budgeted P server budgetHeader rows
    BudgetKept server budgetHeader P rows answer.1 answer.2 ↔
      WithinCaps server budgetHeader (measureRows P rows) ∨
      SignedCaps server budgetHeader ∧ ∃ n < rows.length, WithinCaps server budgetHeader (rowTokens P rows n) ∧
        ¬ WithinCaps server budgetHeader (rowTokens P rows (n + 1)) ∧
        n + 1 ≤ padding P rows n ∧ padding P rows n ≤ n + 4 ∧
        (padding P rows (n + 1) ≤ n + 5 ∨ ¬ WithinCaps server budgetHeader (rowTokens P rows (n + 1) - 1)) := by
  intro answer
  obtain ⟨hpos, hwithin⟩ := serverBudget_spec budgetHeader hcap
  by_cases htrim : 0 < serverBudget server budgetHeader ∧ serverBudget server budgetHeader < measureRows P rows
  · have hsigned := hpos.mp htrim.1
    have hmeasure : 0 < measureRows P rows := by omega
    obtain ⟨n, hrows, hfit, hnext⟩ := trimFrom_spec P rows (show ((0 : Nat) : Int) ≤ _ from Int.le_of_lt htrim.1)
    have hanswer : answer = (rows.take n, rowTokens P rows n) := by
      change budgeted P server budgetHeader rows = _
      rw [budgeted, if_pos htrim, trimToBudget, hrows, zero_add]
    rw [zero_add] at hfit hnext
    have hover : ¬ WithinCaps server budgetHeader (measureRows P rows) := by
      rw [hwithin hsigned]
      omega
    rw [hanswer, or_iff_right hover, and_iff_right hsigned]
    constructor
    · intro hkept
      have hlt : n < rows.length := by
        by_contra hge
        have hall := hkept.within
        rw [take_of_length_le (not_lt.mp hge)] at hall
        exact hover hall
      have hkeptFit := (hwithin hsigned _).mpr hfit
      have hkeptNext : ¬ WithinCaps server budgetHeader (rowTokens P rows (n + 1)) := by
        rw [hwithin hsigned]
        omega
      exact ⟨n, hlt, hkeptFit, hkeptNext,
        (budgetKept_take_iff hcap hsigned hmeasure hlt hkeptFit hkeptNext).mp hkept⟩
    · rintro ⟨k, hk, hkfit, hkover, hpadding⟩
      have hkept := (budgetKept_take_iff hcap hsigned hmeasure hk hkfit hkover).mpr hpadding
      rw [hwithin hsigned] at hkfit hkover
      -- both numbers of rows are where the count passes the budget
      have hkn : k = n := by
        rcases lt_trichotomy k n with hlt | heq | hgt
        · have hmono := rowTokens_mono P rows (n := k + 1) hlt
          omega
        · exact heq
        · have hmono := rowTokens_mono P rows (n := n + 1) hgt
          omega
      exact hkn ▸ hkept
  · have hanswer : answer = (rows, measureRows P rows) := if_neg htrim
    rw [hanswer]
    constructor
    · exact fun hkept => .inl hkept.within
    · intro hcond
      have hall : WithinCaps server budgetHeader (measureRows P rows) := by
        rcases hcond with hall | ⟨hsigned, -⟩
        · exact hall
        rw [hwithin hsigned]
        have := hpos.mpr hsigned
        omega
      exact ⟨hall, rfl, prefix_refl _, fun _ hlonger _ => hlonger.length_le⟩

end

def nineByteRow : GoDict Empty := (∅ : GoDict Empty).insert "a" (.string "x")

def wideServer : MemoryNodeServer :=
  newMemoryNodeServer { defaultLimit := 0, maxLimit := 0, cgnLimit := 100 } []

/-- Of four rows of three tokens each an agent with seven gets two, which are six together and one by one. -/
theorem rows_within_budget : let answer := budgeted plainPlatform wideServer "7" (List.replicate 4 nineByteRow)
    answer.1.length = 2 ∧ answer.2 = 6 ∧
      BudgetKept wideServer "7" plainPlatform (List.replicate 4 nineByteRow) answer.1 answer.2 := by
  refine ⟨by decide +kernel, by decide +kernel, (budget_kept_iff (by decide) _).mpr (.inr ?_)⟩
  exact ⟨⟨by decide, by decide +kernel⟩, 2, by decide, by decide +kernel, by decide +kernel, by decide +kernel,
    by decide +kernel, .inr (by decide +kernel)⟩

def fourTokenServer : MemoryNodeServer :=
  newMemoryNodeServer { defaultLimit := 0, maxLimit := 0, cgnLimit := 4 } []

def emptyTextRow : GoDict Empty := (∅ : GoDict Empty).insert "a" (.string [])

/-- Rows of two tokens each: two of them pass as four tokens, and are five in the answer. -/
theorem rows_over_cap : let answer := budgeted plainPlatform fourTokenServer [] (List.replicate 3 emptyTextRow)
    answer.1.length = 2 ∧ answer.2 = 4 ∧ measureRows plainPlatform answer.1 = 5 := by
  decide +kernel

end NpsSdk.Nwp
