import Mathlib.Data.String.Basic
import Lwk.Basic

/-!
# `ElectrumUrl::from_str` and the URL parser behind it

`from_str` parses its argument with `url::Url::parse`, checks the scheme (`ssl` or `tcp`), the
port and the domain of the parsed URL, and then stores the raw text `&s[6..]`, the argument
after its first six bytes, in `ElectrumUrl::new`.

`Url::parse` is modelled from the WHATWG URL Standard as the `url` crate implements it, for
what `from_str` reads of it: the scheme, and, for a scheme that is not special, the authority
after `//` with its userinfo, opaque host and port. The path, query and fragment that follow
never make the parse fail and are not kept. Parsing after a special scheme (`http`, `https`,
`ws`, `wss`, `ftp`, `file`) and the IPv6 address parser behind a bracketed host are
parameters (`UrlParsers`): `from_str` rejects the first by its scheme and the second has no
domain, so no `Ok` of `from_str` depends on them.

Rust's `&s[i..]` is `sliceFrom`: it panics when byte `i` is past the end of `s` or inside a
character.
-/

namespace Lwk

/-- The characters after the first `i` bytes of `cs`, when byte `i` starts a character or is
the end. -/
def dropBytes : List Char → Nat → Option (List Char)
  | cs, 0 => some cs
  | [], _ + 1 => none
  | c :: cs, i + 1 => if c.utf8Size ≤ i + 1 then dropBytes cs (i + 1 - c.utf8Size) else none

/-- `&s[i..]` on a `str`: the text after byte `i`; a panic when `i` is past the end or inside
a character. -/
def sliceFrom (s : String) (i : Nat) : Outcome String :=
  match dropBytes s.data i with
  | some rest => .ok ⟨rest⟩
  | none =>
    .panic ("byte index " ++ Nat.repr i ++
      (if s.utf8ByteSize < i then " is out of bounds" else " is not a char boundary"))

/-- An ASCII character is one byte of UTF-8. -/
theorem utf8Size_of_ascii {c : Char} (h : c ≤ '\x7F') : c.utf8Size = 1 := by
  simp only [Char.utf8Size]
  rw [if_pos (show c.val ≤ UInt32.ofNatCore 0x7F _ from h)]

theorem utf8Len_of_ascii {cs : List Char} (h : ∀ c ∈ cs, c ≤ '\x7F') :
    String.utf8Len cs = cs.length := by
  induction cs with
  | nil => rfl
  | cons c cs ih =>
    rw [List.forall_mem_cons] at h
    rw [String.utf8Len_cons, utf8Size_of_ascii h.1, ih h.2, List.length_cons]

theorem dropBytes_append (pre rest : List Char) :
    dropBytes (pre ++ rest) (String.utf8Len pre) = some rest := by
  induction pre with
  | nil => cases rest <;> rfl
  | cons c pre ih =>
    have hc := c.utf8Size_pos
    obtain ⟨i, hi⟩ : ∃ i, String.utf8Len pre + c.utf8Size = i + 1 :=
      ⟨_, (Nat.succ_pred_eq_of_pos (by omega)).symm⟩
    rw [List.cons_append, String.utf8Len_cons, hi, dropBytes, if_pos (by omega),
      show i + 1 - c.utf8Size = String.utf8Len pre by omega, ih]

/-- The first `n` characters of `cs` exist and are ASCII, so its first `n` bytes are whole
characters. -/
def AsciiPrefix (n : Nat) (cs : List Char) : Prop :=
  n ≤ cs.length ∧ ∀ c ∈ cs.take n, c ≤ '\x7F'

theorem asciiPrefix_append {n : Nat} {pre : List Char} (h : ∀ c ∈ pre, c ≤ '\x7F')
    (hn : n ≤ pre.length) (rest : List Char) : AsciiPrefix n (pre ++ rest) := by
  refine ⟨by simp; omega, fun c hc => h c ?_⟩
  rw [List.take_append_of_le_length hn] at hc
  exact List.mem_of_mem_take hc

theorem AsciiPrefix.utf8Len_take {n : Nat} {cs : List Char} (h : AsciiPrefix n cs) :
    String.utf8Len (cs.take n) = n := by
  rw [utf8Len_of_ascii h.2, List.length_take, Nat.min_eq_left h.1]

/-- After `n` ASCII characters, `&s[n..]` is the rest of the characters. -/
theorem AsciiPrefix.sliceFrom {n : Nat} {s : String} (h : AsciiPrefix n s.data) :
    sliceFrom s n = .ok ⟨s.data.drop n⟩ := by
  have := dropBytes_append (s.data.take n) (s.data.drop n)
  rw [List.take_append_drop, h.utf8Len_take] at this
  simp only [Lwk.sliceFrom, this]

/-- After `n` ASCII characters, byte `n` lies within `s` and starts a character or ends `s`. -/
theorem AsciiPrefix.valid {n : Nat} {s : String} (h : AsciiPrefix n s.data) :
    n ≤ s.utf8ByteSize ∧ String.Pos.Valid s ⟨n⟩ := by
  obtain ⟨cs⟩ := s
  have hlen := h.utf8Len_take
  refine ⟨?_, cs.take n, cs.drop n, List.take_append_drop n cs, hlen.symm⟩
  rw [String.utf8ByteSize_mk, ← List.take_append_drop n cs, String.utf8Len_append, hlen]
  omega

/-- `url::ParseError`, by the variants a parse without a base URL can return. -/
inductive ParseError where
  | emptyHost
  | idnaError
  | invalidPort
  | invalidIpv4Address
  | invalidIpv6Address
  | invalidDomainCharacter
  | relativeUrlWithoutBase
  deriving DecidableEq, Repr

/-- `<url::ParseError as Display>::fmt`. -/
def ParseError.toString : ParseError → String
  | .emptyHost => "empty host"
  | .idnaError => "invalid international domain name"
  | .invalidPort => "invalid port number"
  | .invalidIpv4Address => "invalid IPv4 address"
  | .invalidIpv6Address => "invalid IPv6 address"
  | .invalidDomainCharacter => "invalid domain character"
  | .relativeUrlWithoutBase => "relative URL without a base"

/-- The host of a parsed URL (`HostInternal`), a domain with its serialised text. -/
inductive Host where
  | none
  | domain (text : String)
  | ipv4
  | ipv6
  deriving DecidableEq, Repr

/-- `HostInternal::from(Host)`: an empty domain is no host. -/
def Host.internal (h : Host) : Host := if h = .domain "" then .none else h

theorem Host.internal_eq_domain {h : Host} {d : String} (e : h.internal = .domain d) :
    h = .domain d := by
  unfold Host.internal at e
  split_ifs at e
  exact e

/-- What `from_str` reads of a `url::Url`: its scheme, host and port. -/
structure Url where
  scheme : String
  host : Host
  port : Option Nat
  deriving DecidableEq, Repr

/-- The parts of `Url::parse` that are parameters: parsing after a special scheme (host and
port, or the error), and whether the IPv6 address parser accepts a bracketed host. -/
structure UrlParsers where
  special : String → List Char → Except ParseError (Host × Option Nat)
  ipv6 : List Char → Bool

namespace Url

/-- `Url::domain`. -/
def domain (u : Url) : Option String :=
  match u.host with
  | .domain text => some text
  | _ => none

/-- Not in the source: the `<host>:<port>` of a parsed URL, the address a client would connect
to. -/
def hostPort (u : Url) : Option String :=
  match u.domain, u.port with
  | some domain, some port => some (domain ++ ":" ++ Nat.repr port)
  | _, _ => none

/-- `c0_control_or_space`. -/
def c0ControlOrSpace (c : Char) : Bool := c ≤ ' '

/-- `ascii_tab_or_new_line`: the code points `Input` skips wherever they stand. -/
def asciiTabOrNewLine (c : Char) : Bool := c = '\t' || c = '\n' || c = '\r'

/-- `Input::new_trim_c0_control_and_space`, as its iterator yields it: `s` trimmed of C0
controls and spaces at both ends, without tabs and newlines. -/
def input (s : String) : List Char :=
  ((s.data.dropWhile c0ControlOrSpace).reverse.dropWhile c0ControlOrSpace).reverse.filter
    fun c => !asciiTabOrNewLine c

/-- The loop of `Parser::parse_scheme`: scheme characters, lowercased, up to `:`. -/
def schemeTail : List Char → Option (List Char × List Char)
  | [] => none
  | c :: rest =>
    if c = ':' then some ([], rest)
    else if c.isAlphanum || c = '+' || c = '-' || c = '.' then
      (schemeTail rest).map fun r => (c.toLower :: r.1, r.2)
    else none

/-- `Parser::parse_scheme`: an ASCII letter, then scheme characters up to `:`. -/
def parseScheme : List Char → Option (List Char × List Char)
  | c :: rest => if c.isAlpha then schemeTail (c :: rest) else none
  | [] => none

/-- `SchemeType::from`: the special schemes. -/
def isSpecial (scheme : String) : Bool :=
  scheme ∈ ["http", "https", "ws", "wss", "ftp", "file"]

/-- The userinfo `Parser::parse_userinfo` reads for a non-special scheme: the text before the
last `@` ahead of the first `/`, `?` or `#`, and the input after that `@`. -/
def lastAt : List Char → Option (List Char × List Char)
  | [] => none
  | c :: rest =>
    if c = '/' || c = '?' || c = '#' then none
    else match lastAt rest with
      | some (userinfo, after) => some (c :: userinfo, after)
      | none => if c = '@' then some ([], rest) else none

/-- `Parser::parse_userinfo` for a non-special scheme: whether it writes a userinfo (a lone `:`
writes nothing), and the input after it. An `@` with nothing before it and `/`, `?` or `#`
after it is `EmptyHost`. -/
def parseUserinfo (input : List Char) : Except ParseError (Bool × List Char) :=
  match lastAt input with
  | none => .ok (false, input)
  | some ([], remaining) =>
    match remaining with
    | c :: _ => if c = '/' || c = '?' || c = '#' then .error .emptyHost else .ok (false, remaining)
    | [] => .ok (false, remaining)
  | some (userinfo, remaining) => .ok (userinfo != [':'], remaining)

/-- The host text `Parser::parse_host` reads for a non-special scheme: up to the first `:`
outside square brackets, `/`, `?` or `#`. -/
def hostChars (inBrackets : Bool) : List Char → List Char × List Char
  | [] => ([], [])
  | c :: rest =>
    if (c = ':' && !inBrackets) || c = '/' || c = '?' || c = '#' then ([], c :: rest)
    else
      let r := hostChars (if c = '[' then true else if c = ']' then false else inBrackets) rest
      (c :: r.1, r.2)

/-- `is_invalid_host_char` of `Host::parse_opaque`. -/
def isInvalidHostChar (c : Char) : Bool :=
  c ∈ ['\x00', '\t', '\n', '\r', ' ', '#', '/', ':', '<', '>', '?', '@', '[', '\\', ']', '^', '|']

/-- An uppercase hexadecimal digit. -/
def hexDigit (n : Nat) : Char := if n < 10 then Char.ofNat (n + 48) else Char.ofNat (n + 55)

/-- `utf8_percent_encode(input, CONTROLS)`: C0 controls, DEL and every non-ASCII character
become `%XX` per UTF-8 byte. -/
def percentEncodeControls (cs : List Char) : List Char :=
  cs.flatMap fun c =>
    if c.toNat < 0x20 || 0x7F ≤ c.toNat then
      (String.utf8EncodeChar c).flatMap fun b => ['%', hexDigit (b.toNat / 16), hexDigit (b.toNat % 16)]
    else [c]

/-- `Host::parse_opaque`. -/
def parseOpaque (ipv6 : List Char → Bool) : List Char → Except ParseError Host
  | '[' :: inner =>
    if inner.getLast? = some ']' then
      if ipv6 inner.dropLast then .ok .ipv6 else .error .invalidIpv6Address
    else .error .invalidIpv6Address
  | text =>
    if text.any isInvalidHostChar then .error .invalidDomainCharacter
    else .ok (.domain ⟨percentEncodeControls text⟩)

/-- `Parser::parse_port` for a scheme with no default port: decimal digits up to `/`, `\`,
`?`, `#` or the end, no digit giving no port; a value above 65535 or any other character is
`InvalidPort`. -/
def parsePort (port : Nat) (anyDigit : Bool) : List Char → Except ParseError (Option Nat)
  | [] => .ok (if anyDigit then some port else none)
  | c :: rest =>
    if c.isDigit then
      if 65535 < port * 10 + (c.toNat - '0'.toNat) then .error .invalidPort
      else parsePort (port * 10 + (c.toNat - '0'.toNat)) true rest
    else if c = '/' || c = '\\' || c = '?' || c = '#' then
      .ok (if anyDigit then some port else none)
    else .error .invalidPort

/-- `Parser::parse_host_and_port` for a non-special scheme, the host as `HostInternal`. -/
def parseHostAndPort (ipv6 : List Char → Bool) (input : List Char) :
    Except ParseError (Host × Option Nat) := do
  let (text, remaining) := hostChars false input
  let host ← parseOpaque ipv6 text
  match remaining with
  | ':' :: rest =>
    if host = .domain "" then throw .emptyHost
    let port ← parsePort 0 false rest
    pure (host.internal, port)
  | _ => pure (host.internal, none)

/-- `Parser::after_double_slash` up to the path, which never fails. -/
def afterDoubleSlash (ipv6 : List Char → Bool) (input : List Char) :
    Except ParseError (Host × Option Nat) := do
  let (hasAuthority, remaining) ← parseUserinfo input
  let (host, port) ← parseHostAndPort ipv6 remaining
  if host = .none && hasAuthority then throw .emptyHost
  pure (host, port)

/-- `Url::parse`, without a base URL. A non-special scheme not followed by `//` has no host. -/
def parse (p : UrlParsers) (s : String) : Except ParseError Url :=
  match parseScheme (input s) with
  | none => .error .relativeUrlWithoutBase
  | some (scheme, rest) =>
    if isSpecial ⟨scheme⟩ then (p.special ⟨scheme⟩ rest).map fun r => ⟨⟨scheme⟩, r.1, r.2⟩
    else match rest with
      | '/' :: '/' :: authority =>
        (afterDoubleSlash p.ipv6 authority).map fun r => ⟨⟨scheme⟩, r.1, r.2⟩
      | _ => .ok ⟨⟨scheme⟩, .none, none⟩

theorem ascii_of_c0ControlOrSpace {c : Char} (h : c0ControlOrSpace c = true) : c ≤ '\x7F' :=
  Char.le_trans (of_decide_eq_true h) (by decide)

theorem ascii_of_asciiTabOrNewLine {c : Char} (h : asciiTabOrNewLine c = true) : c ≤ '\x7F' := by
  simp only [asciiTabOrNewLine, Bool.or_eq_true, decide_eq_true_eq] at h
  rcases h with (rfl | rfl) | rfl <;> decide

theorem ascii_of_isAlphanum {c : Char} (h : c.isAlphanum = true) : c ≤ '\x7F' := by
  simp only [Char.isAlphanum, Char.isAlpha, Char.isUpper, Char.isLower, Char.isDigit,
    Bool.or_eq_true, Bool.and_eq_true, decide_eq_true_eq] at h
  rcases h with (⟨-, h⟩ | ⟨-, h⟩) | ⟨-, h⟩ <;> exact UInt32.le_trans h (by decide)

/-- The scheme is the lowercase of the ASCII text before the first `:`. -/
theorem schemeTail_eq_some {cs scheme rest : List Char} (h : schemeTail cs = some (scheme, rest)) :
    ∃ pre, cs = pre ++ ':' :: rest ∧ pre.length = scheme.length ∧ ∀ c ∈ pre, c ≤ '\x7F' := by
  induction cs generalizing scheme with
  | nil => cases h
  | cons c cs ih =>
    rw [schemeTail] at h
    split_ifs at h with hc hs
    · cases h
      exact ⟨[], by rw [hc]; rfl, rfl, nofun⟩
    · obtain ⟨⟨scheme', rest'⟩, hr, he⟩ := Option.map_eq_some'.mp h
      cases he
      obtain ⟨pre, rfl, hlen, hpre⟩ := ih hr
      refine ⟨c :: pre, rfl, by simp [hlen], List.forall_mem_cons.mpr ⟨?_, hpre⟩⟩
      simp only [Bool.or_eq_true, decide_eq_true_eq] at hs
      rcases hs with ((hs | rfl) | rfl) | rfl
      · exact ascii_of_isAlphanum hs
      all_goals decide

theorem parseScheme_eq_some {cs scheme rest : List Char} (h : parseScheme cs = some (scheme, rest)) :
    ∃ pre, cs = pre ++ ':' :: rest ∧ pre.length = scheme.length ∧ ∀ c ∈ pre, c ≤ '\x7F' := by
  match cs, h with
  | c :: cs, h =>
    rw [parseScheme] at h
    split_ifs at h
    exact schemeTail_eq_some h

/-- What `Input` yields starts with ASCII text only if the string does: the C0 controls,
spaces, tabs and newlines it skips are ASCII too. -/
theorem asciiPrefix_of_input {s : String} {pre rest : List Char} (h : input s = pre ++ rest)
    (hpre : ∀ c ∈ pre, c ≤ '\x7F') : AsciiPrefix pre.length s.data := by
  obtain ⟨m₁, m₂, hm, hf, -⟩ := List.filter_eq_append_iff.mp h
  have hD : s.data.dropWhile c0ControlOrSpace = m₁ ++ (m₂ ++
      ((s.data.dropWhile c0ControlOrSpace).reverse.takeWhile c0ControlOrSpace).reverse) := by
    rw [← List.append_assoc, ← hm, ← List.reverse_append, List.takeWhile_append_dropWhile,
      List.reverse_reverse]
  rw [← List.takeWhile_append_dropWhile c0ControlOrSpace s.data, hD, ← List.append_assoc]
  refine asciiPrefix_append (fun c hc => ?_) ?_ _
  · rcases List.mem_append.mp hc with hc | hc
    · exact ascii_of_c0ControlOrSpace (List.mem_takeWhile_imp hc)
    · cases hq : asciiTabOrNewLine c
      · exact hpre c (hf ▸ List.mem_filter.mpr ⟨hc, by simp [hq]⟩)
      · exact ascii_of_asciiTabOrNewLine hq
  · have := List.length_filter_le (fun c => !asciiTabOrNewLine c) m₁
    rw [hf] at this
    simp only [List.length_append]
    omega

/-- A URL with a non-special scheme and a domain has `//` right after its scheme. -/
theorem parse_domain {p : UrlParsers} {s : String} {u : Url} (h : parse p s = .ok u)
    (hs : isSpecial u.scheme = false) (hd : u.domain.isSome) :
    ∃ scheme authority, parseScheme (input s) = some (scheme, '/' :: '/' :: authority) ∧
      u.scheme = ⟨scheme⟩ := by
  unfold parse at h
  split at h
  · cases h
  · rename_i scheme rest hps
    split_ifs at h with hsp
    · cases hx : p.special ⟨scheme⟩ rest <;> rw [hx] at h <;> cases h
      exact absurd hsp (by rw [hs]; decide)
    · split at h
      · rename_i authority
        cases hx : afterDoubleSlash p.ipv6 authority <;> rw [hx] at h <;> cases h
        exact ⟨scheme, authority, hps, rfl⟩
      · cases h
        cases hd

/-- A `tcp` or `ssl` URL with a domain was written with six ASCII characters first, so its
first six bytes are whole characters. -/
theorem asciiPrefix_of_parse {p : UrlParsers} {s : String} {u : Url} (h : parse p s = .ok u)
    (hs : u.scheme = "tcp" ∨ u.scheme = "ssl") (hd : u.domain.isSome) : AsciiPrefix 6 s.data := by
  obtain ⟨scheme, authority, hps, hsch⟩ :=
    parse_domain h (by rcases hs with hs | hs <;> rw [hs] <;> decide) hd
  obtain ⟨pre, hin, hlen, hpre⟩ := parseScheme_eq_some hps
  have h3 : scheme.length = 3 := by
    rcases hs with hs | hs <;> rw [show scheme = u.scheme.data by rw [hsch], hs] <;> rfl
  have hin' : input s = (pre ++ [':', '/', '/']) ++ authority := by simp [hin]
  have := asciiPrefix_of_input hin' (List.forall_mem_append.mpr ⟨hpre, by decide⟩)
  rwa [List.length_append, hlen, h3] at this

theorem hexDigit_ne_colon : ∀ n < 16, hexDigit n ≠ ':' := by decide

theorem mem_percentEncodeControls {c : Char} {cs : List Char} (h : c ∈ percentEncodeControls cs) :
    c ∈ cs ∨ c = '%' ∨ ∃ n < 16, c = hexDigit n := by
  obtain ⟨d, hd, hc⟩ := List.mem_flatMap.mp h
  split_ifs at hc
  · obtain ⟨b, -, hb⟩ := List.mem_flatMap.mp hc
    have := b.toNat_lt
    simp only [List.mem_cons, List.mem_singleton, List.not_mem_nil, or_false] at hb
    rcases hb with rfl | rfl | rfl
    exacts [.inr (.inl rfl), .inr (.inr ⟨_, by omega, rfl⟩), .inr (.inr ⟨_, by omega, rfl⟩)]
  · exact .inl (List.mem_singleton.mp hc ▸ hd)

theorem parseOpaque_domain {ipv6 : List Char → Bool} {text : List Char} {d : String}
    (h : parseOpaque ipv6 text = .ok (.domain d)) : ':' ∉ d.data := by
  intro hd
  unfold parseOpaque at h
  split at h
  · split_ifs at h; cases h
  · split_ifs at h with hinv
    cases h
    rcases mem_percentEncodeControls hd with hc | hc | ⟨n, hn, hc⟩
    · exact hinv (List.any_eq_true.mpr ⟨':', hc, by decide⟩)
    · cases hc
    · exact hexDigit_ne_colon n hn hc.symm

theorem parseHostAndPort_domain {ipv6 : List Char → Bool} {input : List Char} {d : String}
    {port : Option Nat} (h : parseHostAndPort ipv6 input = .ok (.domain d, port)) :
    ':' ∉ d.data := by
  unfold parseHostAndPort at h
  rcases hc : hostChars false input with ⟨text, remaining⟩
  cases hx : parseOpaque ipv6 text with
  | error e => simp [hc, hx, bind, Except.bind] at h
  | ok host =>
    refine parseOpaque_domain (hx.trans (congrArg _ (Host.internal_eq_domain ?_)))
    simp only [hc, hx, bind, Except.bind] at h
    split at h
    · split_ifs at h
      simp only [pure, Except.pure] at h
      split at h
      · cases h
      · simp only [Except.ok.injEq, Prod.mk.injEq] at h
        exact h.1
    · simp only [pure, Except.pure, Except.ok.injEq, Prod.mk.injEq] at h
      exact h.1

theorem afterDoubleSlash_domain {ipv6 : List Char → Bool} {input : List Char} {d : String}
    {port : Option Nat} (h : afterDoubleSlash ipv6 input = .ok (.domain d, port)) :
    ':' ∉ d.data := by
  unfold afterDoubleSlash at h
  cases hu : parseUserinfo input with
  | error e => simp [hu, bind, Except.bind] at h
  | ok r =>
    cases hp : parseHostAndPort ipv6 r.2 with
    | error e => simp [hu, hp, bind, Except.bind] at h
    | ok r' =>
      obtain ⟨host, port'⟩ := r'
      simp only [hu, hp, bind, Except.bind] at h
      split_ifs at h
      simp only [pure, Except.pure, Except.ok.injEq, Prod.mk.injEq] at h
      rw [h.1] at hp
      exact parseHostAndPort_domain hp

/-- The domain of a URL with a non-special scheme holds no `:`: the host text stops at the
first `:` outside brackets, and percent-encoding writes only `%` and hexadecimal digits. -/
theorem colon_not_mem_domain {p : UrlParsers} {s : String} {u : Url} {d : String}
    (h : parse p s = .ok u) (hs : isSpecial u.scheme = false) (hd : u.domain = some d) :
    ':' ∉ d.data := by
  obtain ⟨scheme, authority, hps, hsch⟩ := parse_domain h hs (by simp [hd])
  unfold parse at h
  rw [hps] at h
  simp only [← hsch, hs, Bool.false_eq_true, if_false] at h
  cases hx : afterDoubleSlash p.ipv6 authority with
  | error e => simp [hx, Except.map] at h
  | ok r =>
    obtain ⟨host, port⟩ := r
    simp only [hx, Except.map, Except.ok.injEq] at h
    rw [← h] at hd
    cases host <;> simp only [domain, Option.some.injEq, reduceCtorEq] at hd
    exact hd ▸ afterDoubleSlash_domain hx

end Url

/-- One group of the `Ipv4Addr` parser (`read_number(10, Some(3), false)` into a `u8`): the
decimal digits that start `cs`, at most three, no leading zero unless alone, below 256. Returns
the text after them. -/
def readIpv4Group (cs : List Char) : Option (List Char) :=
  let digits := cs.takeWhile Char.isDigit
  if digits = [] || 3 < digits.length || (digits.head? = some '0' && 1 < digits.length) then none
  else if 255 < digits.foldl (fun n c => 10 * n + (c.toNat - '0'.toNat)) 0 then none
  else some (cs.dropWhile Char.isDigit)

/-- `Ipv4Addr`'s parser on a whole text: four groups separated by `.`. -/
def isIpv4Addr (cs : List Char) : Bool :=
  match readIpv4Group cs with
  | some ('.' :: r₁) =>
    match readIpv4Group r₁ with
    | some ('.' :: r₂) =>
      match readIpv4Group r₂ with
      | some ('.' :: r₃) => readIpv4Group r₃ = some []
      | _ => false
    | _ => false
  | _ => false

/-- `domain.parse::<IpAddr>()` on the domain of a `tcp` or `ssl` URL. Such a domain holds no
`:` (`Url.colon_not_mem_domain`), which every IPv6 address text has, so only the IPv4 reading
can succeed. -/
def isIpAddr (domain : String) : Bool := isIpv4Addr domain.data

/-- `lwk_wollet::clients::electrum_client::UrlError`. -/
inductive UrlError where
  | url (e : ParseError)
  | schema (scheme : String)
  | missingPort
  | missingDomain
  | sslWithoutDomain
  deriving DecidableEq, Repr

/-- `<UrlError as Display>::fmt`. -/
def UrlError.toString : UrlError → String
  | .url e => e.toString
  | .schema scheme => "Invalid schema `" ++ scheme ++ "` supported ones are `ssl` or `tcp`"
  | .missingPort => "Port is missing"
  | .missingDomain => "Domain is missing"
  | .sslWithoutDomain => "Cannot specify `ssl` scheme without a domain"

/-- `ElectrumUrl`: `Tls(url, validate_domain)` or `Plaintext(url)`. -/
inductive ElectrumUrl where
  | tls (url : String) (validateDomain : Bool)
  | plaintext (url : String)
  deriving DecidableEq, Repr

/-- `ElectrumOptions`. -/
structure ElectrumOptions where
  timeout : Option (BitVec 8)

/-- What `build_client` hands to `Client::from_config`: the URL with its scheme, and the
`ConfigBuilder`'s domain validation and timeout. -/
structure ClientConfig where
  url : String
  validateDomain : Bool
  timeout : Option (BitVec 8)
  deriving DecidableEq

namespace ElectrumUrl

/-- `<ElectrumUrl as Display>::fmt`: the stored URL. -/
def toString : ElectrumUrl → String
  | .tls url _ => url
  | .plaintext url => url

/-- `ElectrumUrl::new`. -/
def new (electrumUrl : String) (tls validateDomain : Bool) : Outcome ElectrumUrl :=
  match tls with
  | true => .ok (.tls electrumUrl validateDomain)
  | false =>
    if validateDomain then .panic "Cannot validate domain without tls"
    else .ok (.plaintext electrumUrl)

/-- `ElectrumUrl::build_client` up to `Client::from_config`. A `ConfigBuilder` validates
domains unless told otherwise. -/
def buildClient (u : ElectrumUrl) (options : ElectrumOptions) : ClientConfig :=
  match u with
  | .tls url validate => ⟨"ssl://" ++ url, validate, options.timeout⟩
  | .plaintext url => ⟨"tcp://" ++ url, true, options.timeout⟩

/-- Lines 36–57 of `from_str`: the checks on the parsed URL, ending in the `tls` and
`validate_domain` arguments that its `ElectrumUrl::new(&s[6..], ..)` call takes. -/
def fromStrCheck (p : UrlParsers) (s : String) : Except UrlError (Bool × Bool) :=
  match Url.parse p s with
  | .error e => .error (.url e)
  | .ok url =>
    let ssl := url.scheme == "ssl"
    if !(ssl || url.scheme == "tcp") then .error (.schema url.scheme)
    else if url.port.isNone then .error .missingPort
    else match url.domain with
      | some domain =>
        if isIpAddr domain then (if ssl then .error .sslWithoutDomain else .ok (false, false))
        else .ok (ssl, ssl)
      | none => .error .missingDomain

/-- `<ElectrumUrl as FromStr>::from_str`. -/
def fromStr (p : UrlParsers) (s : String) : Outcome (Except UrlError ElectrumUrl) :=
  match fromStrCheck p s with
  | .error e => .ok (.error e)
  | .ok (useTls, validateDomain) => do
    let electrumUrl ← sliceFrom s 6
    let url ← new electrumUrl useTls validateDomain
    pure (.ok url)

example (p : UrlParsers) :
    fromStr p "tcp://1.1.1.1:666" = .ok (.ok (.plaintext "1.1.1.1:666")) ∧
      fromStr p "ssl://1.1.1.1:666" = .ok (.error .sslWithoutDomain) ∧
      fromStr p "mailto:rms@example.net" = .ok (.error (.schema "mailto")) ∧
      fromStr p "xxx" = .ok (.error (.url .relativeUrlWithoutBase)) :=
  ⟨rfl, rfl, rfl, rfl⟩

theorem new_returns (electrumUrl : String) {useTls validateDomain : Bool}
    (h : ¬(useTls = false ∧ validateDomain = true)) :
    (new electrumUrl useTls validateDomain).Returns := by
  cases useTls <;> cases validateDomain <;> simp_all [new]

/-- The checks pass only for a `tcp` or `ssl` URL with a port and a domain, and give `new`
`(true, true)` for `ssl` and `(false, false)` for `tcp`. -/
theorem fromStrCheck_eq_ok {p : UrlParsers} {s : String} {useTls validateDomain : Bool}
    (h : fromStrCheck p s = .ok (useTls, validateDomain)) :
    ∃ url, Url.parse p s = .ok url ∧ url.port.isSome ∧ url.domain.isSome ∧
      (url.scheme = "ssl" ∧ useTls = true ∧ validateDomain = true ∨
        url.scheme = "tcp" ∧ useTls = false ∧ validateDomain = false) := by
  unfold fromStrCheck at h
  split at h
  · cases h
  · rename_i url hp
    refine ⟨url, hp, ?_⟩
    cases hport : url.port <;> cases hd : url.domain <;>
      simp only [hport, hd, Option.isNone_none, Option.isNone_some] at h <;>
      split_ifs at h <;> cases h
    all_goals by_cases hs : url.scheme = "ssl" <;> simp_all

/-- When the checks pass, `from_str` takes the text after the six ASCII characters of `s`
and calls `new` on it. -/
theorem fromStr_of_check {p : UrlParsers} {s : String} {useTls validateDomain : Bool}
    (h : fromStrCheck p s = .ok (useTls, validateDomain)) :
    fromStr p s = (new ⟨s.data.drop 6⟩ useTls validateDomain >>= fun url => pure (.ok url)) := by
  obtain ⟨url, hp, -, hd, hs⟩ := fromStrCheck_eq_ok h
  have hslice := (Url.asciiPrefix_of_parse hp (by rcases hs with hs | hs <;> simp [hs.1]) hd).sliceFrom
  simp only [fromStr, h, hslice, Outcome.ok_bind]

/-- What `from_str` stores when it succeeds: the text of `s` after its first six bytes, in
`Tls(_, true)` when the parsed scheme is `ssl` and in `Plaintext` when it is `tcp`. -/
theorem fromStr_eq_ok {p : UrlParsers} {s : String} {u : ElectrumUrl}
    (h : fromStr p s = .ok (.ok u)) :
    ∃ url, Url.parse p s = .ok url ∧ url.port.isSome ∧ url.domain.isSome ∧
      (url.scheme = "ssl" ∧ u = .tls ⟨s.data.drop 6⟩ true ∨
        url.scheme = "tcp" ∧ u = .plaintext ⟨s.data.drop 6⟩) := by
  cases hc : fromStrCheck p s with
  | error e => simp [fromStr, hc] at h
  | ok args =>
    obtain ⟨url, hp, hport, hd, hs⟩ := fromStrCheck_eq_ok hc
    rw [fromStr_of_check hc] at h
    refine ⟨url, hp, hport, hd, ?_⟩
    rcases hs with ⟨hs, h₁, h₂⟩ | ⟨hs, h₁, h₂⟩ <;> simp [h₁, h₂, new] at h <;> simp [hs, h]

/-- `tcp://example.com:50001/`, read by `fromStr_eq_ok`: `Plaintext("example.com:50001/")`. -/
theorem fromStr_eq_ok_trailing_slash :
    let p : UrlParsers := ⟨fun _ _ => .error .idnaError, fun _ => false⟩
    let s := "tcp://example.com:50001/"
    fromStr p s = .ok (.ok (.plaintext "example.com:50001/")) ∧
      ∃ url, Url.parse p s = .ok url ∧ url.port.isSome ∧ url.domain.isSome ∧
        (url.scheme = "ssl" ∧ plaintext "example.com:50001/" = .tls ⟨s.data.drop 6⟩ true ∨
          url.scheme = "tcp" ∧ plaintext "example.com:50001/" = .plaintext ⟨s.data.drop 6⟩) := by
  intro p s
  have h : fromStr p s = .ok (.ok (.plaintext "example.com:50001/")) := rfl
  exact ⟨h, fromStr_eq_ok h⟩

/-- `tcp://example.com:50001/` parses to host `example.com` and port 50001, but `from_str`
stores `example.com:50001/`, and `build_client` hands `tcp://example.com:50001/` to the
Electrum client. -/
theorem fromStr_keeps_trailing_slash (p : UrlParsers) :
    Url.parse p "tcp://example.com:50001/" = .ok ⟨"tcp", .domain "example.com", some 50001⟩ ∧
      Url.hostPort ⟨"tcp", .domain "example.com", some 50001⟩ = some "example.com:50001" ∧
      fromStr p "tcp://example.com:50001/" = .ok (.ok (.plaintext "example.com:50001/")) ∧
      ((plaintext "example.com:50001/").buildClient ⟨none⟩).url = "tcp://example.com:50001/" :=
  ⟨rfl, rfl, rfl, rfl⟩

/-- **`from_str` never panics.** For every string: `from_str` returns; when the parse gives a
`tcp` or `ssl` URL with a domain, byte 6 lies within the string and starts a character or ends
it, so `&s[6..]` is defined; and `new` never gets `tls = false` with `validate_domain = true`. -/
theorem fromStr_returns (p : UrlParsers) :
    (∀ s, (fromStr p s).Returns) ∧
      (∀ s u, Url.parse p s = .ok u → (u.scheme = "tcp" ∨ u.scheme = "ssl") → u.domain.isSome →
        6 ≤ s.utf8ByteSize ∧ String.Pos.Valid s ⟨6⟩) ∧
      (∀ s useTls validateDomain, fromStrCheck p s = .ok (useTls, validateDomain) →
        ¬(useTls = false ∧ validateDomain = true)) := by
  have hnew : ∀ s useTls validateDomain, fromStrCheck p s = .ok (useTls, validateDomain) →
      ¬(useTls = false ∧ validateDomain = true) := fun s _ _ h => by
    obtain ⟨-, -, -, -, ⟨-, rfl, rfl⟩ | ⟨-, rfl, rfl⟩⟩ := fromStrCheck_eq_ok h <;> simp
  refine ⟨fun s => ?_, fun s u hp hs hd => (Url.asciiPrefix_of_parse hp hs hd).valid, hnew⟩
  cases hc : fromStrCheck p s with
  | error e => simp [fromStr, hc]
  | ok args =>
    rw [fromStr_of_check hc]
    exact (new_returns _ (hnew s _ _ hc)).bind fun _ _ => Outcome.returns_ok _

/-- `ssl://blockstream.info:666`, read by `fromStr_returns`. -/
theorem fromStr_returns_blockstream :
    let p : UrlParsers := ⟨fun _ _ => .error .idnaError, fun _ => false⟩
    let s := "ssl://blockstream.info:666"
    Url.parse p s = .ok ⟨"ssl", .domain "blockstream.info", some 666⟩ ∧
      fromStrCheck p s = .ok (true, true) ∧
      (6 ≤ s.utf8ByteSize ∧ String.Pos.Valid s ⟨6⟩) ∧ ¬(true = false ∧ true = true) := by
  intro p s
  have hp : Url.parse p s = .ok ⟨"ssl", .domain "blockstream.info", some 666⟩ := rfl
  have hc : fromStrCheck p s = .ok (true, true) := rfl
  exact ⟨hp, hc, (fromStr_returns p).2.1 s _ hp (.inr rfl) rfl, (fromStr_returns p).2.2 s _ _ hc⟩

/-- What `from_str` stores when it succeeds, as `Display` shows it: the text of `s` after its
first six characters, which are ASCII. -/
theorem fromStr_eq_ok_toString {p : UrlParsers} {s : String} {u : ElectrumUrl}
    (h : fromStr p s = .ok (.ok u)) : AsciiPrefix 6 s.data ∧ u.toString = ⟨s.data.drop 6⟩ := by
  cases hc : fromStrCheck p s with
  | error e => simp [fromStr, hc] at h
  | ok args =>
    obtain ⟨url, hp, -, hd, hs⟩ := fromStrCheck_eq_ok hc
    refine ⟨Url.asciiPrefix_of_parse hp (by rcases hs with ⟨hs, -⟩ | ⟨hs, -⟩ <;> simp [hs]) hd, ?_⟩
    rw [fromStr_of_check hc] at h
    rcases hs with ⟨-, h₁, h₂⟩ | ⟨-, h₁, h₂⟩ <;> simp [h₁, h₂, new] at h <;> simp [← h, toString]

/-- **`Display` and `from_str` do not round-trip.** The text an `ElectrumUrl` displays is the
stored URL without its scheme, and `from_str` never reads any `ElectrumUrl` back from it:
what it accepts it stores without the first six characters of its input. -/
theorem fromStr_toString_ne (p : UrlParsers) (u : ElectrumUrl) : fromStr p u.toString ≠ .ok (.ok u) := by
  intro h
  obtain ⟨h6, hu⟩ := fromStr_eq_ok_toString h
  have hlen := congrArg (·.data.length) hu
  simp only [List.length_drop] at hlen
  have := h6.1
  omega

end ElectrumUrl

end Lwk
