/-
`urllib.parse.urlparse` of Python 3.12, as far as it raises: on brackets in
the network location that enclose no address, and on characters there that
look like a delimiter. The address between brackets is read as
`ipaddress.ip_address` reads it.
-/
import SentinelFlow.Py

namespace SentinelFlow

/-! ## The network location -/

/-- A URL without the blanks in front, and without tabs and line breaks. -/
def cleaned (url : String) : List Char :=
  (url.toList.dropWhile fun c => c.toNat ≤ 32).filter fun c => c ∉ ['\t', '\r', '\n']

def isSchemeChar (c : Char) : Bool := c.isAlphanum || c == '+' || c == '-' || c == '.'

/-- The scheme before the first colon, in lower case, and what follows it. -/
def splitScheme (cs : List Char) : Option (String × List Char) :=
  let scheme := cs.takeWhile (· ≠ ':')
  if scheme.length < cs.length && scheme.head?.any Char.isAlpha && scheme.all isSchemeChar then
    some (lower (String.ofList scheme), cs.drop (scheme.length + 1))
  else none

/-- The scheme of a URL given as text. -/
def schemeOf (url : String) : Option String := (splitScheme (cleaned url)).map (·.1)

/-- The network location `urlsplit` finds. -/
def netloc (url : String) : List Char :=
  match ((splitScheme (cleaned url)).map (·.2)).getD (cleaned url) with
  | '/' :: '/' :: rest => rest.takeWhile fun c => c ∉ ['/', '?', '#']
  | _ => []

/-- `s.partition(sep)`: what stands before and after, if it occurs. -/
def partition (sep : Char) (s : List Char) : Option (List Char × List Char) :=
  if sep ∈ s then some (s.takeWhile (· ≠ sep), (s.dropWhile (· ≠ sep)).tail) else none

/-! ## Addresses -/

/-- `IPv4Address._parse_octet` gives a number; its digits are the ASCII ones. -/
def isOctet (s : List Char) : Bool :=
  !s.isEmpty && s.all Char.isDigit && s.length ≤ 3 && (s = ['0'] || s.head? ≠ some '0') &&
    (scanDigits 0 0 s).1 ≤ 255

/-- `IPv4Address(s)` is one. -/
def isIPv4 (s : List Char) : Bool :=
  let octets := s.splitOn '.'
  octets.length = 4 && octets.all isOctet

def isHexDigit (c : Char) : Bool := c.isDigit || ('a' ≤ c && c ≤ 'f') || ('A' ≤ c && c ≤ 'F')

/-- `_parse_hextet` gives a number. -/
def isHextet (s : List Char) : Bool := !s.isEmpty && s.all isHexDigit && s.length ≤ 4

/-- How many hextets stand on one side of a `::`; nothing but an empty part
does when the side ends the address. -/
def side (parts : List (List Char)) : Option ℕ :=
  if parts = [[]] then some 0 else if parts.all isHextet then some parts.length else none

/-- The parts of an address between its colons. -/
def isHextets (parts : List (List Char)) : Bool :=
  match (List.range parts.length).filter fun i => 0 < i && i + 1 < parts.length && parts[i]? == some [] with
  | [] => parts.length = 8 && parts.all isHextet
  | [skip] => match side (parts.take skip), side (parts.drop (skip + 1)) with
    | some hi, some lo => hi + lo ≤ 7
    | _, _ => false
  | _ => false

/-- `_split_scope_id`: the address in front of a scope id. -/
def dropScopeId (s : List Char) : Option (List Char) :=
  match partition '%' s with
  | none => some s
  | some (addr, scopeId) => if scopeId.isEmpty || '%' ∈ scopeId then none else some addr

/-- `IPv6Address._ip_int_from_string` gives a number; an embedded IPv4
address stands for two hextets. -/
def isIPv6Int (s : List Char) : Bool :=
  let parts := s.splitOn ':'
  let last := parts.getLast?.getD []
  if parts.length < 3 then false
  else if '.' ∈ last then isIPv4 last && isHextets (parts.dropLast ++ [['0'], ['0']])
  else isHextets parts

/-- `IPv6Address(s)` is one. -/
def isIPv6 (s : List Char) : Bool := '/' ∉ s && (dropScopeId s).any isIPv6Int

/-- `v[a-fA-F0-9]+\..+`. -/
def isIPvFuture (s : List Char) : Bool :=
  match s with
  | 'v' :: rest => match partition '.' rest with
    | some (version, address) => !version.isEmpty && version.all isHexDigit && !address.isEmpty
    | none => false
  | _ => false

/-! ## What raises -/

/-- `_check_bracketed_host`. -/
def checkBracketedHost (r : Render) (hostname : List Char) : Except Exc Unit :=
  if hostname.head? = some 'v' then
    if isIPvFuture hostname then .ok () else .error (valueError "IPvFuture address is invalid")
  else if isIPv4 hostname then .error (valueError "An IPv4 address cannot be in brackets")
  else if isIPv6 hostname then .ok ()
  else .error (valueError (r.repr (.str (String.ofList hostname)) ++ " does not appear to be an IPv4 or IPv6 address"))

/-- `netloc.rpartition('@')[2]`. -/
def hostAndPort (netloc : List Char) : List Char := (netloc.reverse.takeWhile (· ≠ '@')).reverse

/-- `_check_bracketed_netloc`. -/
def checkBracketedNetloc (r : Render) (netloc : List Char) : Except Exc Unit :=
  match partition '[' (hostAndPort netloc) with
  | some (before, bracketed) =>
    let closed := (partition ']' bracketed).getD (bracketed, [])
    if !before.isEmpty || !(closed.2.isEmpty || closed.2.head? = some ':') then
      .error (valueError "Invalid IPv6 URL")
    else checkBracketedHost r closed.1
  | none => checkBracketedHost r ((hostAndPort netloc).takeWhile (· ≠ ':'))

/-- The characters NFKC turns into texts with one of `/?#@:` in them. -/
def delimiterLookAlikes : List ℕ :=
  [0x2047, 0x2048, 0x2049, 0x2100, 0x2101, 0x2105, 0x2106, 0x2a74, 0xfe13, 0xfe16, 0xfe55, 0xfe56, 0xfe5f, 0xfe6b,
    0xff03, 0xff0f, 0xff1a, 0xff1f, 0xff20]

/-- `_checknetloc`. -/
def checkNetloc (netloc : List Char) : Except Exc Unit :=
  if netloc.any fun c => c.toNat ∈ delimiterLookAlikes then
    .error (valueError ("netloc '" ++ String.ofList netloc ++ "' contains invalid characters under NFKC normalization"))
  else .ok ()

/-- `urlparse(url)`, for what it raises. -/
def urlparse (r : Render) (url : String) : Except Exc Unit :=
  let host := netloc url
  if decide ('[' ∈ host) != decide (']' ∈ host) then .error (valueError "Invalid IPv6 URL")
  else if '[' ∈ host then (checkBracketedNetloc r host).bind fun _ => checkNetloc host
  else checkNetloc host

/-! ## Schemes -/

theorem cleaned_eq_self {url : String} (h : ∀ c ∈ url.toList, 32 < c.toNat) : cleaned url = url.toList := by
  have hdrop : (url.toList.dropWhile fun c => c.toNat ≤ 32) = url.toList := by
    cases hl : url.toList with
    | nil => rfl
    | cons c cs =>
      have hc : 32 < c.toNat := h c (by simp [hl])
      rw [List.dropWhile_cons_of_neg (by simpa using hc)]
  rw [cleaned, hdrop, List.filter_eq_self]
  intro c hc
  have hlarge := h c hc
  refine decide_eq_true fun hmem => ?_
  simp only [List.mem_cons, List.not_mem_nil, or_false] at hmem
  rcases hmem with rfl | rfl | rfl <;> exact absurd hlarge (by decide)

/-- A scheme begins with a letter. -/
theorem splitScheme_eq_none {cs : List Char} (h : cs.head?.any Char.isAlpha = false) : splitScheme cs = none := by
  unfold splitScheme
  cases cs with
  | nil => rfl
  | cons c cs =>
    by_cases hc : c = ':'
    · simp [hc]
    · simp_all

theorem not_isAlpha_of_isDigit {c : Char} (h : c.isDigit = true) : c.isAlpha = false := by
  have hle : c.toNat ≤ 57 := (Char.isDigit_iff_toNat.1 h).2
  have hbelow : ∀ d : Char, 57 < d.toNat → decide (c.val ≥ d.val) = false := by
    intro d hd
    refine decide_eq_false fun hge => ?_
    have hdc : d.toNat ≤ c.toNat := UInt32.le_iff_toNat_le.1 hge
    omega
  have hupper : c.isUpper = false := by
    refine decide_eq_false fun hand => ?_
    have hA := hbelow 'A' (by decide)
    rw [decide_eq_true hand.1] at hA
    cases hA
  have hlower : c.isLower = false := by
    show (decide (c.val ≥ 'a'.val) && decide (c.val ≤ 'z'.val)) = false
    rw [hbelow 'a' (by decide)]
    rfl
  show (c.isUpper || c.isLower) = false
  rw [hupper, hlower]
  rfl

/-- The digits of a number, and its sign. -/
theorem toString_int_chars (n : ℤ) :
    (∀ c ∈ (toString n).toList, c = '-' ∨ c.isDigit = true) := by
  intro c hc
  cases n with
  | ofNat n =>
    have hlist : (toString (Int.ofNat n)).toList = Nat.toDigits 10 n := Nat.toList_repr
    rw [hlist] at hc
    exact .inr (Nat.isDigit_of_mem_toDigits (by omega) le_rfl hc)
  | negSucc n =>
    have hrepr : toString (Int.negSucc n) = "-" ++ (n + 1).repr := by
      rw [Int.toString_eq_repr, Int.repr_eq_if]
      simp
    rw [hrepr, String.toList_append, Nat.toList_repr] at hc
    rcases List.mem_append.1 hc with hsign | hdigit
    · exact .inl (List.mem_singleton.1 hsign)
    · exact .inr (Nat.isDigit_of_mem_toDigits (by omega) le_rfl hdigit)

theorem schemeOf_int (n : ℤ) : schemeOf (toString n) = none := by
  have hchars := toString_int_chars n
  have hclean : cleaned (toString n) = (toString n).toList := by
    refine cleaned_eq_self fun c hc => ?_
    rcases hchars c hc with rfl | hdigit
    · decide
    · exact lt_of_lt_of_le (by decide) (Char.isDigit_iff_toNat.1 hdigit).1
  rw [schemeOf, hclean, splitScheme_eq_none, Option.map_none]
  cases hl : (toString n).toList with
  | nil => rfl
  | cons c cs =>
    rcases hchars c (hl ▸ List.mem_cons_self) with rfl | hdigit
    · rfl
    · exact not_isAlpha_of_isDigit hdigit

/-! ## Its exceptions -/

/-- Whatever it raises is a `ValueError`. -/
theorem urlparse_error {r : Render} {url : String} {e : Exc} (h : urlparse r url = .error e) :
    ∃ text, e = valueError text := by
  have hnetloc : ∀ {host : List Char}, checkNetloc host = .error e → ∃ text, e = valueError text := by
    intro host h
    unfold checkNetloc at h
    split at h <;> cases h
    exact ⟨_, rfl⟩
  have hhost : ∀ {host : List Char}, checkBracketedHost r host = .error e → ∃ text, e = valueError text := by
    intro host h
    unfold checkBracketedHost at h
    split at h
    · split at h <;> cases h
      exact ⟨_, rfl⟩
    · split at h
      · cases h
        exact ⟨_, rfl⟩
      · split at h <;> cases h
        exact ⟨_, rfl⟩
  unfold urlparse at h
  dsimp only at h
  split at h
  · cases h
    exact ⟨_, rfl⟩
  · split at h
    · cases hb : checkBracketedNetloc r (netloc url) with
      | ok u =>
        rw [hb] at h
        exact hnetloc h
      | error e' =>
        rw [hb] at h
        cases h
        unfold checkBracketedNetloc at hb
        split at hb
        · dsimp only at hb
          split at hb
          · cases hb
            exact ⟨_, rfl⟩
          · exact hhost hb
        · exact hhost hb
    · exact hnetloc h

end SentinelFlow
