import NpsSdk.GoString

/-! The guard against callbacks to internal addresses, and the classifier of the portable profile. Both look at the
bytes of an address; the guard was written without the tests of `net.IP` for IPv6, and it takes a literal with a zone
for a name. The reader of literals is the one of the library, `net.ParseIP`. -/

namespace NpsSdk.Nop

open Bool

/-- A parsed address; one of IPv4 is kept in its mapped form. -/
abbrev IP := Vector UInt8 16

namespace IP

variable (ip : IP)

def to4 : Option (UInt8 × UInt8 × UInt8 × UInt8) :=
  if ip.toList.take 12 = List.replicate 10 0 ++ [255, 255] then some (ip[12], ip[13], ip[14], ip[15]) else none

/-- A test of the four bytes of an IPv4 address, and one of any other. -/
def byForm (v4 : UInt8 → UInt8 → UInt8 → UInt8 → Bool) (v6 : Bool) : Bool :=
  match ip.to4 with
  | some (a, b, c, d) => v4 a b c d
  | none => v6

def v6Unspecified : IP := Vector.replicate 16 0

def v6Loopback : IP := v6Unspecified.set 15 1

def isUnspecified : Bool := ip.byForm (fun a b c d => a = 0 && b = 0 && c = 0 && d = 0) (ip = v6Unspecified)

def isLoopback : Bool := ip.byForm (fun a _ _ _ => a = 127) (ip = v6Loopback)

def isPrivate : Bool :=
  ip.byForm (fun a b _ _ => a = 10 || (a = 172 && b &&& 0xf0 = 16) || (a = 192 && b = 168)) (ip[0] &&& 0xfe = 0xfc)

def isMulticast : Bool := ip.byForm (fun a _ _ _ => a &&& 0xf0 = 0xe0) (ip[0] = 0xff)

def isLinkLocalMulticast : Bool :=
  ip.byForm (fun a b c _ => a = 224 && b = 0 && c = 0) (ip[0] = 0xff && ip[1] &&& 0x0f = 0x02)

def isLinkLocalUnicast : Bool :=
  ip.byForm (fun a b _ _ => a = 169 && b = 254) (ip[0] = 0xfe && ip[1] &&& 0xc0 = 0x80)

end IP

open IP

def isPrivateIP (ip : IP) : Bool :=
  ip.byForm (fun a b _ _ => a = 127 || a = 10 || a = 0 || (a = 172 && 16 ≤ b && b ≤ 31) || (a = 192 && b = 168) ||
    (a = 169 && b = 254)) (ip.isLoopback || ip.isLinkLocalUnicast || ip.isLinkLocalMulticast)

def isPublicIP (ip : IP) : Bool :=
  if ip.isUnspecified || ip.isLoopback || ip.isPrivate || ip.isLinkLocalUnicast || ip.isLinkLocalMulticast ||
      ip.isMulticast then false
  else ip.byForm (fun a _ _ _ => a ≠ 0 && a < 224) true

/-- What the guard lets through and the profile does not: from 224.0.0.0 on, and in IPv6 the unspecified address, the
unique-local ones and those of multicast beyond the link. -/
def Missed (ip : IP) : Prop :=
  match ip.to4 with
  | some (a, _) => 224 ≤ a
  | none => ip.isUnspecified ∨ ip.isPrivate ∨ (ip.isMulticast ∧ ¬ip.isLinkLocalMulticast)

theorem forall_uint8 {p : UInt8 → Prop} (h : ∀ n : Fin 256, p (UInt8.ofNat n)) (b : UInt8) : p b := by
  have hb := h ⟨b.toNat, b.toNat_lt⟩
  rwa [UInt8.ofNat_toNat] at hb

theorem masked_byte (b : UInt8) : (b &&& 0xf0 = 16 ↔ 16 ≤ b ∧ b ≤ 31) ∧ (b &&& 0xf0 = 0xe0 → 224 ≤ b) ∧
    (b &&& 0xfe = 0xfc → b ≠ 0 ∧ b ≠ 0xfe ∧ b ≠ 0xff) := by
  revert b
  exact forall_uint8 (by decide +kernel)

theorem isPublicIP_of_not_private (ip : IP) : (isPrivateIP ip = false → isPublicIP ip = true) ↔ ¬Missed ip := by
  unfold isPrivateIP isPublicIP Missed isUnspecified isLoopback isPrivate isLinkLocalUnicast isLinkLocalMulticast
    isMulticast byForm
  cases ip.to4 with
  | some v4 =>
    obtain ⟨a, b, c, d⟩ := v4
    have hmulticast := (masked_byte a).2.1
    simp only [(masked_byte b).1, UInt8.le_iff_toNat_le, UInt8.lt_iff_toNat_lt, ← UInt8.toNat_inj, ne_eq,
      if_false_left, and_eq_true, not_eq_true', decide_eq_false_iff_not, or_eq_false_iff,
      or_eq_true, and_eq_false_iff, decide_eq_true_eq, UInt8.reduceToNat] at *
    omega
  | none =>
    have hunspecified : ip = v6Unspecified → ip[0] = 0 ∧ ¬ip = v6Loopback := by
      rintro rfl
      decide
    have hloopback : ip = v6Loopback → ip[0] = 0 := by
      rintro rfl
      rfl
    have hlocal := (masked_byte ip[0]).2.2
    simp only [or_eq_false_iff, and_eq_false_iff, decide_eq_false_iff_not, decide_eq_true_eq, or_eq_true,
      and_eq_true, if_false_left, not_eq_true'] at *
    generalize (ip = v6Unspecified) = unspecified, (ip = v6Loopback) = loopback, ip[0] = x, ip[1] = y at *
    grind

/-! ### Literals -/

def digitValue : GoRune → Option Nat
  | .char c => if c.isDigit then some (c.toNat - '0'.toNat) else none
  | .byte _ => none

def hexValue : GoRune → Option Nat
  | .char c =>
    if c.isDigit then some (c.toNat - '0'.toNat)
    else if 'a' ≤ c ∧ c ≤ 'f' then some (c.toNat - 'a'.toNat + 10)
    else if 'A' ≤ c ∧ c ≤ 'F' then some (c.toNat - 'A'.toNat + 10)
    else none
  | .byte _ => none

/-- A field of an IPv4 literal: at most 255, and no zero before another digit. -/
def parseOctet (field : GoString) : Option UInt8 :=
  if field = [] ∨ (field.head? = some (.char '0') ∧ field.length ≠ 1) then none
  else (field.mapM digitValue).bind fun digits =>
    let value := digits.foldl (fun value digit => value * 10 + digit) 0
    if value ≤ 255 then some (UInt8.ofNat value) else none

def parseIPv4Fields (s : GoString) : Option (List UInt8) :=
  let fields := s.splitOn (.char '.')
  if fields.length = 4 then fields.mapM parseOctet else none

/-- The loop over the groups of an IPv6 literal, with the bytes read before and the place of the ellipsis. -/
def parseGroups : Nat → List UInt8 → Option Nat → GoString → Option (List UInt8 × Option Nat)
  | 0, _, _, _ => none
  | groups + 1, ip, ellipsis, s =>
    let digits := (s.takeWhile fun r => (hexValue r).isSome).filterMap hexValue
    let value := digits.foldl (fun value digit => value * 16 + digit) 0
    let next := ip ++ [UInt8.ofNat (value / 256), UInt8.ofNat value]
    if digits = [] ∨ 4 < digits.length then none
    else match s.drop digits.length with
    | [] => some (next, ellipsis)
    -- the last two groups may be an IPv4 literal
    | .char '.' :: _ =>
      if (ellipsis = none ∧ ip.length ≠ 12) ∨ 12 < ip.length then none
      else (parseIPv4Fields s).map fun fields => (ip ++ fields, ellipsis)
    | .char ':' :: .char ':' :: rest =>
      if ellipsis.isSome then none
      else if rest = [] then some (next, some next.length)
      else parseGroups groups next (some next.length) rest
    | .char ':' :: rest => if rest = [] then none else parseGroups groups next ellipsis rest
    | _ => none

/-- An ellipsis stands for at least one group of zeros. -/
def expandEllipsis : List UInt8 × Option Nat → Option (List UInt8)
  | (ip, some k) => if ip.length < 16 then some (ip.take k ++ List.replicate (16 - ip.length) 0 ++ ip.drop k) else none
  | (ip, none) => some ip

def IP.ofBytes (bytes : List UInt8) : Option IP :=
  if h : bytes.toArray.size = 16 then some ⟨bytes.toArray, h⟩ else none

def parseIPv6 (s : GoString) : Option IP :=
  let groups := match s with
    | [.char ':', .char ':'] => some ([], some 0)
    | .char ':' :: .char ':' :: rest => parseGroups 8 [] (some 0) rest
    | _ => parseGroups 8 [] none s
  (groups.bind expandEllipsis).bind IP.ofBytes

/-- `netip.ParseAddr`: the address of a literal, and its zone. -/
def parseAddr (s : GoString) : Option (IP × GoString) :=
  match s.find? fun r => r = .char '.' ∨ r = .char ':' ∨ r = .char '%' with
  | some (.char '.') =>
    ((parseIPv4Fields s).bind fun v4 => IP.ofBytes (List.replicate 10 0 ++ [255, 255] ++ v4)).map (·, [])
  | some (.char ':') =>
    let zone := s.dropWhile (· ≠ .char '%')
    if zone = [.char '%'] then none else (parseIPv6 (s.takeWhile (· ≠ .char '%'))).map (·, zone.tail)
  | _ => none

/-- `net.ParseIP` knows no zones. -/
def parseIP (s : GoString) : Option IP :=
  match parseAddr s with
  | some (ip, []) => some ip
  | _ => none

/-! ### The guard on URLs -/

structure ParsedURL where
  scheme : GoString
  host : GoString
  hostname : GoString
  deriving DecidableEq

/-- `strings.EqualFold` with a text of the letters of ASCII other than `k`: of the other characters only the long s is
the same letter as one of them. -/
def equalFold (s t : GoString) : Bool :=
  s.toChars.map (fun c => if c = '\u017F' then 's' else c.toLower) = t.toChars

def stripBrackets (host : GoString) : GoString :=
  let front := if host.getLast? = some (.char ']') then host.dropLast else host
  if front.head? = some (.char '[') then front.tail else front

def isPrivateHost (host : GoString) : Bool :=
  if host = [] then true
  else if equalFold host "localhost" then true
  else match parseIP (stripBrackets host) with
  | some ip => isPrivateIP ip
  | none => false

section

variable (urlParse : GoString → Option ParsedURL)

/-- What is wrong with the URL; empty if nothing is. -/
def validateCallbackURL (callbackURL : GoString) : GoString :=
  if callbackURL.trimSpace = [] then "callback_url must not be empty."
  else match (urlParse callbackURL).filter fun u => u.scheme ≠ [] && u.host ≠ [] with
  | none => "callback_url '" ++ callbackURL ++ "' is not a valid absolute URI."
  | some u =>
    if !equalFold u.scheme "https" then
      "callback_url MUST use the https:// scheme (got '" ++ u.scheme ++ "://')."
    else if isPrivateHost u.hostname then
      "callback_url host '" ++ u.hostname ++ "' resolves to a private or loopback address (SSRF guard)."
    else []

theorem mem_of_mem_stripBrackets {host : GoString} {r : GoRune} (h : r ∈ stripBrackets host) : r ∈ host := by
  unfold stripBrackets at h
  grind [List.mem_of_mem_tail, List.mem_of_mem_dropLast]

/-- A literal has a point or a colon, so it is not empty and not `localhost`. -/
theorem not_name_of_literal {host : GoString} {x : IP × GoString} (h : parseAddr (stripBrackets host) = some x) :
    host ≠ [] ∧ equalFold host "localhost" = false := by
  have hmark : ∃ r ∈ host, r = .char '.' ∨ r = .char ':' := by
    unfold parseAddr at h
    split at h
    · exact ⟨_, mem_of_mem_stripBrackets (List.mem_of_find?_eq_some ‹_›), .inl rfl⟩
    · exact ⟨_, mem_of_mem_stripBrackets (List.mem_of_find?_eq_some ‹_›), .inr rfl⟩
    · cases h
  obtain ⟨r, hr, hchar⟩ := hmark
  refine ⟨List.ne_nil_of_mem hr, decide_eq_false fun hfold => ?_⟩
  have hmem := List.mem_map_of_mem (f := fun c => if c = '\u017F' then 's' else c.toLower)
    (List.mem_map_of_mem (f := GoString.toChar) hr)
  rw [← GoString.toChars, hfold] at hmem
  revert hmem
  rcases hchar with rfl | rfl <;> decide

/-- The guard lets a literal with a zone pass whatever its address is. -/
theorem isPrivateHost_literal {host zone : GoString} {ip : IP} (h : parseAddr (stripBrackets host) = some (ip, zone)) :
    isPrivateHost host = (decide (zone = []) && isPrivateIP ip) := by
  obtain ⟨hne, hname⟩ := not_name_of_literal h
  rw [isPrivateHost, if_neg hne, if_neg (by rw [hname]; decide), parseIP, h]
  cases zone <;> rfl

/-- The guard keeps to the profile exactly on the literals without a zone that it does not miss, and on those with a
zone whose address is public anyway. -/
theorem guard_public_iff {text zone : GoString} {u : ParsedURL} {ip : IP} (htext : text.trimSpace ≠ [])
    (hparsed : urlParse text = some u) (hhttps : equalFold u.scheme "https" = true) (hhost : u.host ≠ [])
    (hliteral : parseAddr (stripBrackets u.hostname) = some (ip, zone)) :
    (validateCallbackURL urlParse text = [] → isPublicIP ip = true) ↔
      if zone = [] then ¬Missed ip else isPublicIP ip = true := by
  have hscheme : u.scheme ≠ [] := fun h => by
    rw [h] at hhttps
    exact absurd hhttps (by decide)
  have haccepted : validateCallbackURL urlParse text = [] ↔ (zone = [] → isPrivateIP ip = false) := by
    rw [validateCallbackURL, if_neg htext, hparsed, Option.filter_some, if_pos (by simp [hscheme, hhost])]
    dsimp only
    rw [hhttps, isPrivateHost_literal hliteral]
    by_cases hzone : zone = []
    · cases isPrivateIP ip with
      | true =>
        rw [if_neg (by decide), if_pos (by simp [hzone])]
        exact iff_of_false (List.append_ne_nil_of_right_ne_nil _ (by decide)) fun h => by simpa using h hzone
      | false => simp
    · simp [hzone]
  rw [haccepted]
  split_ifs with hzone
  · simpa [hzone] using isPublicIP_of_not_private ip
  · simp [hzone]

end

/-- How `url.Parse` reads `https://<host>/` with a host without a port. -/
def parseHostURL (text : GoString) : Option ParsedURL :=
  let host := (text.drop 8).dropLast
  if text = "https://" ++ host ++ "/" then some ⟨"https", host, stripBrackets host⟩ else none

/-- The mapped form of 8.8.4.4. -/
def mappedPublic : IP := ⟨#[0, 0, 0, 0, 0, 0, 0, 0, 0, 0, 255, 255, 8, 8, 4, 4], rfl⟩

theorem mapped_literal_guarded : validateCallbackURL parseHostURL "https://[::ffff:8.8.4.4]/" = [] ∧
    parseAddr "::ffff:8.8.4.4" = some (mappedPublic, []) ∧ isPublicIP mappedPublic = true := by
  have hparsed : parseHostURL "https://[::ffff:8.8.4.4]/" = some ⟨"https", "[::ffff:8.8.4.4]", "::ffff:8.8.4.4"⟩ := by
    decide +kernel
  have hliteral : parseAddr "::ffff:8.8.4.4" = some (mappedPublic, []) := by decide +kernel
  have haccepted : validateCallbackURL parseHostURL "https://[::ffff:8.8.4.4]/" = [] := by decide +kernel
  have hto4 : mappedPublic.to4 = some (8, 8, 4, 4) := by decide +kernel
  refine ⟨haccepted, hliteral, (guard_public_iff parseHostURL (by decide +kernel) hparsed (by decide +kernel)
    (by decide) hliteral).mpr ?_ haccepted⟩
  rw [if_pos rfl, Missed, hto4]
  decide

/-- The unique-local address `fc00::1`. -/
def uniqueLocal : IP := v6Loopback.set 0 0xfc

theorem unique_local_accepted : validateCallbackURL parseHostURL "https://[fc00::1]/" = [] ∧
    parseAddr "fc00::1" = some (uniqueLocal, []) ∧ isPublicIP uniqueLocal = false ∧
    isPrivateHost "::1%lo" = false ∧ parseAddr "::1%lo" = some (v6Loopback, ("lo" : GoString)) ∧
    isPublicIP v6Loopback = false := by
  decide +kernel

end NpsSdk.Nop
