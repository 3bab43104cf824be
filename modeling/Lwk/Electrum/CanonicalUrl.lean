import Lwk.Electrum.Url

/-!
# `from_str` on canonical Electrum URLs

What `from_str` is for, it does: every canonical `tcp://<host>:<port>` or `ssl://<host>:<port>`
is accepted, and `build_client` hands it to the Electrum client unchanged
(`fromStr_canonical`); a missing, empty or out-of-range port is refused
(`fromStr_refuses_port`), and so is `ssl` with any IPv4 host (`fromStr_ipv4`).

The parser lemmas follow `Url::parse` stage by stage on such a URL: `Input` keeps it as it is,
the scheme is `tcp` or `ssl`, a host of plain characters passes `parse_userinfo`,
`parse_host` and `Host::parse_opaque` unchanged, and `parse_port` reads the digits after the
colon (`parse_port`, `parse_noPort`). The IPv4 lemmas read the text `Display` writes for four
bytes back through the `Ipv4Addr` parser (`isIpAddr_ipv4Text`).
-/

namespace Lwk

namespace Url

/-- Not in the source: a host character that no step of the parser treats specially, a
printable ASCII character other than the delimiters `Host::parse_opaque` forbids. -/
def plainHostChar (c : Char) : Bool := 32 < c.toNat && c.toNat < 127 && !isInvalidHostChar c

/-- The value `Parser::parse_port` accumulates over decimal digits. -/
def portValue (acc : Nat) (digits : List Char) : Nat :=
  digits.foldl (fun port c => port * 10 + (c.toNat - '0'.toNat)) acc

theorem plainHostChar_toNat {c : Char} (h : plainHostChar c) : 32 < c.toNat := by
  simp only [plainHostChar, Bool.and_eq_true, decide_eq_true_eq] at h
  exact h.1.1

theorem plainHostChar_valid {c : Char} (h : plainHostChar c) : isInvalidHostChar c = false := by
  simp only [plainHostChar, Bool.and_eq_true, Bool.not_eq_true'] at h
  exact h.2

theorem at_not_mem_plain {host : List Char} (hplain : ∀ c ∈ host, plainHostChar c) : '@' ∉ host :=
  fun hm => by simpa [isInvalidHostChar] using plainHostChar_valid (hplain _ hm)

theorem digit_toNat {c : Char} (h : c.isDigit) : 32 < c.toNat := by
  simp only [Char.isDigit, Bool.and_eq_true, decide_eq_true_eq] at h
  exact Nat.lt_of_lt_of_le (by decide) h.1

theorem not_c0ControlOrSpace {c : Char} (h : 32 < c.toNat) : c0ControlOrSpace c = false := by
  simp only [c0ControlOrSpace, decide_eq_false_iff_not, Char.le_def, UInt32.le_def, BitVec.le_def]
  exact Nat.not_le.2 h

theorem not_asciiTabOrNewLine {c : Char} (h : 32 < c.toNat) : asciiTabOrNewLine c = false := by
  simp only [asciiTabOrNewLine, Bool.or_eq_false_iff, decide_eq_false_iff_not]
  refine ⟨⟨?_, ?_⟩, ?_⟩ <;> rintro rfl <;> exact absurd h (by decide)

/-- `Input` yields a text with no C0 control, space, tab or newline as it is. -/
theorem input_eq_self {cs : List Char} (h : ∀ c ∈ cs, 32 < c.toNat) : input ⟨cs⟩ = cs := by
  have hdrop : ∀ l : List Char, (∀ c ∈ l, 32 < c.toNat) → l.dropWhile c0ControlOrSpace = l
    | [], _ => rfl
    | c :: l, hl => List.dropWhile_cons_of_neg (by simp [not_c0ControlOrSpace (hl c (List.mem_cons_self _ _))])
  unfold input
  rw [hdrop cs h, hdrop cs.reverse (fun c hc => h c (List.mem_reverse.1 hc)), List.reverse_reverse,
    List.filter_eq_self]
  intro c hc
  simp [not_asciiTabOrNewLine (h c hc)]

theorem lastAt_of_not_mem : ∀ cs : List Char, '@' ∉ cs → lastAt cs = none
  | [], _ => rfl
  | c :: cs, h => by
    rw [List.mem_cons, not_or] at h
    rw [lastAt, lastAt_of_not_mem cs h.2]
    simp [Ne.symm h.1]

/-- A plain host passes through `hostChars` up to what follows it. -/
theorem hostChars_plain : ∀ (host rest : List Char), (∀ c ∈ host, plainHostChar c) →
    hostChars false (host ++ rest) = (host ++ (hostChars false rest).1, (hostChars false rest).2)
  | [], rest, _ => rfl
  | c :: host, rest, h => by
    rw [List.forall_mem_cons] at h
    have hc := h.1
    simp only [plainHostChar, isInvalidHostChar, Bool.and_eq_true, decide_eq_true_eq,
      Bool.not_eq_true', List.elem_eq_mem, decide_eq_false_iff_not, List.mem_cons,
      List.not_mem_nil, or_false, not_or] at hc
    simp [hostChars, hc.2, hostChars_plain host rest h.2]

theorem percentEncodeControls_plain : ∀ cs : List Char, (∀ c ∈ cs, plainHostChar c) →
    percentEncodeControls cs = cs
  | [], _ => rfl
  | c :: cs, h => by
    obtain ⟨hc, hcs⟩ := List.forall_mem_cons.1 h
    simp only [plainHostChar, Bool.and_eq_true, decide_eq_true_eq] at hc
    unfold percentEncodeControls
    rw [List.flatMap_cons, if_neg (by simp only [Bool.or_eq_true, decide_eq_true_eq]; omega)]
    exact congrArg (c :: ·) (percentEncodeControls_plain cs hcs)

theorem parseOpaque_plain (ipv6 : List Char → Bool) :
    ∀ host : List Char, host ≠ [] → (∀ c ∈ host, plainHostChar c) →
      parseOpaque ipv6 host = .ok (.domain ⟨host⟩)
  | c :: host, _, h => by
    have hvalid : ∀ x ∈ c :: host, isInvalidHostChar x = false := fun x hx => plainHostChar_valid (h x hx)
    have hc : c ≠ '[' := fun e => by have := hvalid c (List.mem_cons_self _ _); rw [e] at this; cases this
    unfold parseOpaque
    split
    · rename_i inner he
      exact absurd (List.cons.inj he).1 hc
    · rw [if_neg (by simpa using hvalid), percentEncodeControls_plain _ h]

theorem le_portValue (acc : Nat) (digits : List Char) : acc ≤ portValue acc digits := by
  induction digits generalizing acc with
  | nil => exact Nat.le_refl _
  | cons c digits ih =>
    exact Nat.le_trans (by omega) (ih (acc * 10 + (c.toNat - '0'.toNat)))

theorem parsePort_digits : ∀ (digits : List Char) (acc : Nat) (anyDigit : Bool),
    (∀ c ∈ digits, c.isDigit) → portValue acc digits ≤ 65535 → (anyDigit ∨ digits ≠ []) →
    parsePort acc anyDigit digits = .ok (some (portValue acc digits))
  | [], acc, anyDigit, _, _, h => by
    cases anyDigit
    · simp at h
    · rfl
  | c :: digits, acc, anyDigit, hd, hv, _ => by
    rw [List.forall_mem_cons] at hd
    have hle := le_portValue (acc * 10 + (c.toNat - '0'.toNat)) digits
    have hv' : portValue (acc * 10 + (c.toNat - '0'.toNat)) digits ≤ 65535 := hv
    rw [parsePort, if_pos hd.1, if_neg (by omega)]
    exact parsePort_digits digits _ true hd.2 hv (.inl rfl)

/-- Digits whose value passes 65535 make `parse_port` fail, at the digit where it does. -/
theorem parsePort_overflow : ∀ (digits : List Char) (acc : Nat) (anyDigit : Bool),
    (∀ c ∈ digits, c.isDigit) → acc ≤ 65535 → 65535 < portValue acc digits →
    parsePort acc anyDigit digits = .error .invalidPort
  | [], acc, _, _, hacc, hv => absurd hv (Nat.not_lt.2 hacc)
  | c :: digits, acc, anyDigit, hd, _, hv => by
    rw [List.forall_mem_cons] at hd
    rw [parsePort, if_pos hd.1]
    split_ifs with hover
    · rfl
    · exact parsePort_overflow digits _ true hd.2 (Nat.not_lt.1 hover) hv

/-- After `//`, a plain host and `:` give that host and whatever `parse_port` makes of the
digits after the colon. -/
theorem afterDoubleSlash_port (ipv6 : List Char → Bool) {host digits : List Char} (hhost : host ≠ [])
    (hplain : ∀ c ∈ host, plainHostChar c) (hdig : ∀ c ∈ digits, c.isDigit) :
    afterDoubleSlash ipv6 (host ++ ':' :: digits) =
      (parsePort 0 false digits).map fun port => (.domain ⟨host⟩, port) := by
  have hat : '@' ∉ host ++ ':' :: digits := by
    simp only [List.mem_append, List.mem_cons, not_or]
    refine ⟨at_not_mem_plain hplain, by decide, fun hm => ?_⟩
    simpa [Char.isDigit] using hdig _ hm
  have hne : Host.domain ⟨host⟩ ≠ .domain "" := fun e => hhost (congrArg String.data (Host.domain.inj e))
  have hcolon : hostChars false (':' :: digits) = ([], ':' :: digits) := rfl
  simp only [afterDoubleSlash, parseUserinfo, lastAt_of_not_mem _ hat, parseHostAndPort,
    hostChars_plain host _ hplain, hcolon, List.append_nil, parseOpaque_plain ipv6 host hhost hplain,
    Host.internal, if_neg hne, bind, Except.bind, pure, Except.pure]
  cases parsePort 0 false digits <;> rfl

/-- After `//`, a plain host and nothing more give that host and no port. -/
theorem afterDoubleSlash_noPort (ipv6 : List Char → Bool) {host : List Char} (hhost : host ≠ [])
    (hplain : ∀ c ∈ host, plainHostChar c) :
    afterDoubleSlash ipv6 host = .ok (.domain ⟨host⟩, none) := by
  have hne : Host.domain ⟨host⟩ ≠ .domain "" := fun e => hhost (congrArg String.data (Host.domain.inj e))
  have hchars : hostChars false host = (host, []) := by
    simpa only [hostChars, List.append_nil] using hostChars_plain host [] hplain
  simp only [afterDoubleSlash, parseUserinfo, lastAt_of_not_mem _ (at_not_mem_plain hplain),
    parseHostAndPort, hchars, parseOpaque_plain ipv6 host hhost hplain, Host.internal, if_neg hne,
    bind, Except.bind, pure, Except.pure]
  rfl

/-- `Url::parse` on `tcp://` or `ssl://` and an authority of printable characters: the
scheme, and what `after_double_slash` reads of the authority. -/
theorem parse_authority (p : UrlParsers) {scheme : String} (hs : scheme = "tcp" ∨ scheme = "ssl")
    {authority : List Char} (h : ∀ c ∈ authority, 32 < c.toNat) :
    parse p ⟨scheme.data ++ ':' :: '/' :: '/' :: authority⟩ =
      (afterDoubleSlash p.ipv6 authority).map fun r => ⟨scheme, r.1, r.2⟩ := by
  have hchars : ∀ c ∈ scheme.data ++ ':' :: '/' :: '/' :: authority, 32 < c.toNat := by
    intro c hc
    simp only [List.mem_append, List.mem_cons] at hc
    rcases hc with hc | rfl | rfl | rfl | hc
    · rcases hs with rfl | rfl <;> revert c <;> decide
    all_goals first | decide | exact h c hc
  have hsch : parseScheme (scheme.data ++ ':' :: '/' :: '/' :: authority) =
      some (scheme.data, '/' :: '/' :: authority) := by
    rcases hs with rfl | rfl <;> rfl
  have hspecial : isSpecial ⟨scheme.data⟩ = false := by rcases hs with rfl | rfl <;> rfl
  simp only [parse, input_eq_self hchars, hsch, hspecial, Bool.false_eq_true, if_false]

theorem data_url (scheme host port : String) :
    (scheme ++ "://" ++ host ++ ":" ++ port).data =
      scheme.data ++ ':' :: '/' :: '/' :: (host.data ++ ':' :: port.data) := by
  simp

/-- `Url::parse` reads `tcp://<host>:<digits>` and `ssl://<host>:<digits>`, for a host of plain
characters, as that scheme and host with what `parse_port` makes of the digits. -/
theorem parse_port (p : UrlParsers) {scheme : String} (hs : scheme = "tcp" ∨ scheme = "ssl")
    {host port : String} (hhost : host.data ≠ []) (hplain : ∀ c ∈ host.data, plainHostChar c)
    (hdig : ∀ c ∈ port.data, c.isDigit) :
    parse p (scheme ++ "://" ++ host ++ ":" ++ port) =
      (parsePort 0 false port.data).map fun port => ⟨scheme, .domain host, port⟩ := by
  have hchars : ∀ c ∈ host.data ++ ':' :: port.data, 32 < c.toNat := by
    simp only [List.mem_append, List.mem_cons]
    rintro c (hc | rfl | hc)
    exacts [plainHostChar_toNat (hplain c hc), by decide, digit_toNat (hdig c hc)]
  rw [String.ext_iff.2 (data_url scheme host port), parse_authority p hs hchars,
    afterDoubleSlash_port p.ipv6 hhost hplain hdig]
  cases parsePort 0 false port.data <;> rfl

/-- `Url::parse` reads `tcp://<host>` and `ssl://<host>`, for a host of plain characters, as
that scheme and host with no port. -/
theorem parse_noPort (p : UrlParsers) {scheme : String} (hs : scheme = "tcp" ∨ scheme = "ssl")
    {host : String} (hhost : host.data ≠ []) (hplain : ∀ c ∈ host.data, plainHostChar c) :
    parse p (scheme ++ "://" ++ host) = .ok ⟨scheme, .domain host, none⟩ := by
  have hdata : (scheme ++ "://" ++ host).data = scheme.data ++ ':' :: '/' :: '/' :: host.data := by simp
  rw [String.ext_iff.2 hdata, parse_authority p hs fun c hc => plainHostChar_toNat (hplain c hc),
    afterDoubleSlash_noPort p.ipv6 hhost hplain]
  rfl

/-- `Url::parse` reads `tcp://<host>:<port>` and `ssl://<host>:<port>`, for a host of plain
characters and a port of decimal digits up to 65535, as that scheme, host and port. -/
theorem parse_plain (p : UrlParsers) {scheme : String} (hs : scheme = "tcp" ∨ scheme = "ssl")
    {host port : String} (hhost : host.data ≠ []) (hplain : ∀ c ∈ host.data, plainHostChar c)
    (hport : port.data ≠ []) (hdig : ∀ c ∈ port.data, c.isDigit) (hv : portValue 0 port.data ≤ 65535) :
    parse p (scheme ++ "://" ++ host ++ ":" ++ port) =
      .ok ⟨scheme, .domain host, some (portValue 0 port.data)⟩ := by
  rw [parse_port p hs hhost hplain hdig, parsePort_digits _ 0 false hdig hv (.inr hport)]
  rfl

end Url

/-- One step of `Nat.toDigitsCore` in base 10. -/
theorem toDigitsCore_succ (fuel n : Nat) (ds : List Char) :
    Nat.toDigitsCore 10 (fuel + 1) n ds =
      if n / 10 = 0 then Nat.digitChar (n % 10) :: ds
      else Nat.toDigitsCore 10 fuel (n / 10) (Nat.digitChar (n % 10) :: ds) := rfl

theorem toDigitsCore_of_lt {n : Nat} (fuel : Nat) (ds : List Char) (h : n < 10) :
    Nat.toDigitsCore 10 (fuel + 1) n ds = Nat.digitChar n :: ds := by
  rw [toDigitsCore_succ, if_pos (Nat.div_eq_of_lt h), Nat.mod_eq_of_lt h]

theorem toDigitsCore_of_ge {n : Nat} (fuel : Nat) (ds : List Char) (h : 10 ≤ n) :
    Nat.toDigitsCore 10 (fuel + 1) n ds = Nat.toDigitsCore 10 fuel (n / 10) (Nat.digitChar (n % 10) :: ds) := by
  rw [toDigitsCore_succ, if_neg (by omega)]

/-- A number below 1000 in decimal: one, two or three digits. -/
theorem toDigits_of_lt {n : Nat} (h : n < 1000) :
    Nat.toDigits 10 n =
      if n < 10 then [Nat.digitChar n]
      else if n < 100 then [Nat.digitChar (n / 10), Nat.digitChar (n % 10)]
      else [Nat.digitChar (n / 10 / 10), Nat.digitChar (n / 10 % 10), Nat.digitChar (n % 10)] := by
  unfold Nat.toDigits
  split_ifs with h₁ h₂
  · exact toDigitsCore_of_lt n [] h₁
  · obtain ⟨m, rfl⟩ : ∃ m, n = m + 1 := ⟨n - 1, by omega⟩
    rw [toDigitsCore_of_ge _ _ (by omega), toDigitsCore_of_lt _ _ (by omega)]
  · obtain ⟨m, rfl⟩ : ∃ m, n = m + 2 := ⟨n - 2, by omega⟩
    rw [toDigitsCore_of_ge _ _ (by omega), toDigitsCore_of_ge _ _ (by omega),
      toDigitsCore_of_lt _ _ (by omega)]

theorem digitChar_facts : ∀ k < 10, (Nat.digitChar k).isDigit ∧
    (Nat.digitChar k).toNat = k + 48 ∧ Url.plainHostChar (Nat.digitChar k) ∧
    (Nat.digitChar k = '0' → k = 0) := by
  decide

theorem digits_takeWhile {ds : List Char} (hds : ∀ c ∈ ds, c.isDigit) :
    ds.takeWhile Char.isDigit = ds ∧ ds.dropWhile Char.isDigit = [] := by
  simpa using And.intro (@List.takeWhile_append_of_pos Char Char.isDigit ds [] hds)
    (@List.dropWhile_append_of_pos Char Char.isDigit ds [] hds)

/-- The group reader stops at a character that is not a digit. -/
theorem readIpv4Group_append {ds rest : List Char} (hds : ∀ c ∈ ds, c.isDigit)
    (hrest : ∀ c ∈ rest.head?, c.isDigit = false) :
    readIpv4Group (ds ++ rest) = (readIpv4Group ds).map fun _ => rest := by
  have htake : rest.takeWhile Char.isDigit = [] ∧ rest.dropWhile Char.isDigit = rest := by
    cases rest with
    | nil => exact ⟨rfl, rfl⟩
    | cons c r =>
      have hc : ¬c.isDigit = true := by simpa using hrest c rfl
      exact ⟨List.takeWhile_cons_of_neg hc, List.dropWhile_cons_of_neg hc⟩
  unfold readIpv4Group
  rw [List.takeWhile_append_of_pos hds, List.dropWhile_append_of_pos hds, htake.1, htake.2,
    List.append_nil, (digits_takeWhile hds).1, (digits_takeWhile hds).2]
  dsimp only
  split_ifs <;> rfl

/-- What the group reader accepts: one to three digits, no leading zero unless alone, a value
below 256. -/
theorem readIpv4Group_of_digits {ds : List Char} (hds : ∀ c ∈ ds, c.isDigit) (hne : ds ≠ [])
    (hlen : ds.length ≤ 3) (hzero : ds.head? = some '0' → ds.length ≤ 1)
    (hval : ds.foldl (fun n c => 10 * n + (c.toNat - '0'.toNat)) 0 ≤ 255) :
    readIpv4Group ds = some [] := by
  unfold readIpv4Group
  rw [(digits_takeWhile hds).1, (digits_takeWhile hds).2]
  dsimp only
  rw [if_neg (Nat.not_lt.2 hval), if_neg]
  simp only [Bool.or_eq_true, Bool.and_eq_true, decide_eq_true_eq, not_or, not_and, Nat.not_lt]
  exact ⟨⟨hne, hlen⟩, hzero⟩

/-- **A byte in decimal is one group.** The text `Display` writes for a number below 256 is read
by the group reader whole. -/
theorem readIpv4Group_toDigits {n : Nat} (h : n < 256) :
    readIpv4Group (Nat.toDigits 10 n) = some [] := by
  have h48 : '0'.toNat = 48 := rfl
  have hmod : ∀ m, m % 10 < 10 := fun m => Nat.mod_lt m (by decide)
  rw [toDigits_of_lt (by omega)]
  split_ifs with h₁ h₂
  · obtain ⟨hd, hv, -, -⟩ := digitChar_facts n h₁
    refine readIpv4Group_of_digits (by simp [hd]) nofun (by simp) (fun _ => by simp) ?_
    simp only [List.foldl_cons, List.foldl_nil, hv, h48, Nat.add_sub_cancel, Nat.mul_zero, Nat.zero_add]
    omega
  · obtain ⟨hd₁, hv₁, -, hz₁⟩ := digitChar_facts (n / 10) (Nat.div_lt_of_lt_mul h₂)
    obtain ⟨hd₂, hv₂, -, -⟩ := digitChar_facts (n % 10) (hmod n)
    refine readIpv4Group_of_digits (by simp [hd₁, hd₂]) nofun (by simp)
      (fun h0 => absurd (hz₁ (Option.some.inj h0)) (by omega)) ?_
    simp only [List.foldl_cons, List.foldl_nil, hv₁, hv₂, h48, Nat.add_sub_cancel, Nat.mul_zero,
      Nat.zero_add, Nat.div_add_mod]
    omega
  · obtain ⟨hd₁, hv₁, -, hz₁⟩ := digitChar_facts (n / 10 / 10)
      (Nat.div_lt_of_lt_mul (Nat.div_lt_of_lt_mul (by omega)))
    obtain ⟨hd₂, hv₂, -, -⟩ := digitChar_facts (n / 10 % 10) (hmod _)
    obtain ⟨hd₃, hv₃, -, -⟩ := digitChar_facts (n % 10) (hmod n)
    refine readIpv4Group_of_digits (by simp [hd₁, hd₂, hd₃]) nofun (by simp)
      (fun h0 => absurd (hz₁ (Option.some.inj h0)) (by omega)) ?_
    simp only [List.foldl_cons, List.foldl_nil, hv₁, hv₂, hv₃, h48, Nat.add_sub_cancel, Nat.mul_zero,
      Nat.zero_add, Nat.div_add_mod]
    omega

theorem toDigits_plain {n : Nat} (h : n < 1000) :
    ∀ c ∈ Nat.toDigits 10 n, c.isDigit ∧ Url.plainHostChar c := by
  have hf : ∀ k < 10, (Nat.digitChar k).isDigit ∧ Url.plainHostChar (Nat.digitChar k) :=
    fun k hk => ⟨(digitChar_facts k hk).1, (digitChar_facts k hk).2.2.1⟩
  rw [toDigits_of_lt h]
  split_ifs <;> simp only [List.mem_cons, List.not_mem_nil, or_false] <;> rintro c (rfl | rfl | rfl) <;>
    exact hf _ (by omega)

/-- Not in the source: the text `Ipv4Addr`'s `Display` writes for the octets `a.b.c.d`. -/
def ipv4Text (a b c d : UInt8) : String :=
  toString a ++ "." ++ toString b ++ "." ++ toString c ++ "." ++ toString d

theorem ipv4Text_data (a b c d : UInt8) :
    (ipv4Text a b c d).data = Nat.toDigits 10 a.toNat ++ '.' :: (Nat.toDigits 10 b.toNat ++
      '.' :: (Nat.toDigits 10 c.toNat ++ '.' :: Nat.toDigits 10 d.toNat)) := by
  simp [ipv4Text]
  rfl

theorem readIpv4Group_octet (x : UInt8) (rest : List Char) (hrest : ∀ c ∈ rest.head?, c.isDigit = false) :
    readIpv4Group (Nat.toDigits 10 x.toNat ++ rest) = some rest := by
  have hx : x.toNat < 256 := x.toNat_lt_size
  rw [readIpv4Group_append (fun c hc => (toDigits_plain (by omega) c hc).1) hrest,
    readIpv4Group_toDigits hx]
  rfl

/-- **Every IPv4 address, as `Display` writes it, is an IP address to `from_str`.** -/
theorem isIpAddr_ipv4Text (a b c d : UInt8) : isIpAddr (ipv4Text a b c d) = true := by
  have hdot : ∀ rest : List Char, ∀ c ∈ ('.' :: rest).head?, c.isDigit = false := by
    rintro rest c ⟨⟩
    rfl
  simp only [isIpAddr, isIpv4Addr, ipv4Text_data, readIpv4Group_octet _ _ (hdot _),
    readIpv4Group_toDigits d.toNat_lt_size, decide_True]

namespace ElectrumUrl

/-- `from_str` on `tcp://<host>:<port>` or `ssl://<host>:<port>` with a plain host and a
decimal port up to 65535. -/
theorem fromStr_plain (p : UrlParsers) {scheme : String} (hs : scheme = "tcp" ∨ scheme = "ssl")
    {host port : String} (hhost : host.data ≠ []) (hplain : ∀ c ∈ host.data, Url.plainHostChar c)
    (hport : port.data ≠ []) (hdig : ∀ c ∈ port.data, c.isDigit) (hv : Url.portValue 0 port.data ≤ 65535) :
    fromStr p (scheme ++ "://" ++ host ++ ":" ++ port) =
      .ok (if scheme = "tcp" then .ok (.plaintext (host ++ ":" ++ port))
        else if isIpAddr host then .error .sslWithoutDomain else .ok (.tls (host ++ ":" ++ port) true)) := by
  have hparse := Url.parse_plain p hs hhost hplain hport hdig hv
  have hslice : sliceFrom (scheme ++ "://" ++ host ++ ":" ++ port) 6 = .ok (host ++ ":" ++ port) := by
    have hdrop : ∀ rest, (scheme.data ++ ':' :: '/' :: '/' :: rest).drop 6 = rest := by
      rcases hs with rfl | rfl <;> exact fun _ => rfl
    rw [(Url.asciiPrefix_of_parse hparse hs rfl).sliceFrom, Url.data_url, hdrop]
    exact congrArg Outcome.ok (String.ext (by simp))
  unfold fromStr fromStrCheck
  rw [hparse]
  simp only [hslice]
  rcases hs with rfl | rfl <;> cases hip : isIpAddr host <;> simp [Url.domain, new, hip]

/-- A URL the parser refuses: `from_str` returns its error. -/
theorem fromStr_of_parse_error {p : UrlParsers} {s : String} {e : ParseError}
    (h : Url.parse p s = .error e) : fromStr p s = .ok (.error (.url e)) := by
  simp only [fromStr, fromStrCheck, h]

/-- A `tcp` or `ssl` URL parsed with no port: `from_str` returns `MissingPort`. -/
theorem fromStr_of_port_none {p : UrlParsers} {s : String} {url : Url}
    (h : Url.parse p s = .ok url) (hs : url.scheme = "tcp" ∨ url.scheme = "ssl")
    (hport : url.port = none) : fromStr p s = .ok (.error .missingPort) := by
  have hscheme : (url.scheme == "ssl" || url.scheme == "tcp") = true := by
    rcases hs with hs | hs <;> simp [hs]
  simp only [fromStr, fromStrCheck, h, hscheme, hport, Bool.not_true, Option.isNone_none]
  rfl

/-- **`from_str` refuses `ssl` for every IPv4 host.** For every IPv4 address, written as
`Display` writes it, and every decimal port up to 65535, `from_str` returns
`Err(SslWithoutDomain)` on `ssl://<address>:<port>` and stores `Plaintext(<address>:<port>)`
for `tcp://<address>:<port>`. -/
theorem fromStr_ipv4 (p : UrlParsers) (a b c d : UInt8) {port : String} (hport : port.data ≠ [])
    (hdig : ∀ ch ∈ port.data, ch.isDigit) (hv : Url.portValue 0 port.data ≤ 65535) :
    fromStr p ("ssl://" ++ ipv4Text a b c d ++ ":" ++ port) = .ok (.error .sslWithoutDomain) ∧
      fromStr p ("tcp://" ++ ipv4Text a b c d ++ ":" ++ port) =
        .ok (.ok (.plaintext (ipv4Text a b c d ++ ":" ++ port))) := by
  have hhost : (ipv4Text a b c d).data ≠ [] := by simp [ipv4Text_data]
  have hplain : ∀ ch ∈ (ipv4Text a b c d).data, Url.plainHostChar ch := by
    have hoctet : ∀ x : UInt8, ∀ ch ∈ Nat.toDigits 10 x.toNat, Url.plainHostChar ch :=
      fun x ch hch => (toDigits_plain (Nat.lt_trans x.toNat_lt_size (by decide)) ch hch).2
    simp only [ipv4Text_data, List.mem_append, List.mem_cons]
    rintro ch (hch | rfl | hch | rfl | hch | rfl | hch)
    all_goals first | decide | exact hoctet _ ch hch
  have hssl := fromStr_plain p (.inr rfl) hhost hplain hport hdig hv
  have htcp := fromStr_plain p (.inl rfl) hhost hplain hport hdig hv
  rw [if_neg (by decide), isIpAddr_ipv4Text, if_pos rfl] at hssl
  rw [if_pos rfl] at htcp
  exact ⟨hssl, htcp⟩

/-- `ssl://1.1.1.1:666` and `tcp://1.1.1.1:666`, read by `fromStr_ipv4`. -/
theorem fromStr_ipv4_one :
    let p : UrlParsers := ⟨fun _ _ => .error .idnaError, fun _ => false⟩
    fromStr p "ssl://1.1.1.1:666" = .ok (.error .sslWithoutDomain) ∧
      fromStr p "tcp://1.1.1.1:666" = .ok (.ok (.plaintext "1.1.1.1:666")) := by
  intro p
  exact @fromStr_ipv4 p 1 1 1 1 "666" (by decide) (by decide) (by decide)

end ElectrumUrl

end Lwk
