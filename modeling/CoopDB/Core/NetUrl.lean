import CoopDB.Core.BootUrl

/-!
# The Parser of `net/url`

`url.Parse` and `URL.String` for the URLs of a database: a scheme, an authority with
user, host and port, a path, a query and a fragment. Checked are control characters,
the user part, the port, the characters of the host and all escapes. An error quotes
the URL up to its fragment.

What is behind the user part is kept as `string` writes it: the query as it is, the
host encoded again, and the path and the fragment encoded again unless they may stand
as they are. A zone in brackets is read like the rest of a host. In a quoted text,
bytes outside ASCII are kept.

## Main definitions

* `goUser`, `goHost`, `goAuthority`, `goBody`: The parts of a URL.
* `goParse`, `goString`: `url.Parse` and `URL.String`.
* `goUrl`: The library.
-/

namespace CoopDB

open Percent (unescape)

/-- A letter in lower case. -/
def lowerByte (b : UInt8) : UInt8 :=
  if 0x41 ≤ b ∧ b ≤ 0x5A then b + 0x20 else b

/-- A letter or a digit. -/
def isAlnumByte (b : UInt8) : Bool :=
  (0x61 ≤ lowerByte b && lowerByte b ≤ 0x7A) || (0x30 ≤ b && b ≤ 0x39)

/-- A control character. -/
def isControlByte (b : UInt8) : Bool :=
  b < 0x20 || b == 0x7F

/-- The scheme in lower case, and what is behind its colon. -/
def goScheme (raw : Bytes) : Except Bytes (Bytes × Bytes) :=
  let name := (raw.map lowerByte).takeWhile isSchemeByte
  match raw.drop name.length with
  | 0x3A :: rest =>
    match name with
    | [] => .error (utf8 "missing protocol scheme")
    | b :: _ => if 0x61 ≤ b ∧ b ≤ 0x7A then .ok (name, rest) else .ok ([], raw)
  | _ => .ok ([], raw)

/-- The first escape that is none, at most three bytes of it. -/
def badEscape : Bytes → Bytes
  | [] => []
  | b :: text =>
    if b = Percent.sign ∧ unescape ((b :: text).take 3) = none then (b :: text).take 3
    else badEscape text

/-- A text in quotation marks, with escapes. -/
def goQuoteBytes (text : Bytes) : Bytes :=
  inQuotes (text.flatMap fun b =>
    if b = 0x22 ∨ b = 0x5C then [0x5C, b]
    else if isControlByte b then
      match [0x07, 0x08, 0x0C, 0x0A, 0x0D, 0x09, 0x0B].idxOf? b with
      | some i => [0x5C, (utf8 "abfnrtv").getD i 0]
      | none => utf8 "\\x" ++ utf8 (String.ofList
          [Nat.digitChar (b.toNat / 16), Nat.digitChar (b.toNat % 16)])
    else [b])

/-- The decoded text, or the error of its escapes. -/
def goUnescape (text : Bytes) : Except Bytes Bytes :=
  match unescape text with
  | some decoded => .ok decoded
  | none => .error (utf8 "invalid URL escape " ++ goQuoteBytes (badEscape text))

/-- A port behind a host, with its colon, or nothing. -/
def isOptionalPort : Bytes → Bool
  | [] => true
  | b :: digits => b == 0x3A && digits.all fun d => 0x30 ≤ d && d ≤ 0x39

/-- The bytes from the last of a kind on, if there is one. -/
def fromLast (b : UInt8) (text : Bytes) : Option Bytes :=
  if b ∈ text then some (b :: (text.reverse.takeWhile (· ≠ b)).reverse) else none

/-- The port of a host, with its colon. -/
def goPort (host : Bytes) : Bytes :=
  match fromLast 0x5D host with
  | some bracket => bracket.drop 1
  | none => (fromLast 0x3A host).getD []

/-- What is refused first in a host. Of ASCII, only a percent sign may be escaped. -/
def hostFault : Bytes → Option Bytes
  | [] => none
  | b :: text =>
    let escape := (b :: text).take 3
    if b = Percent.sign ∧ (unescape escape = none ∨
        (text.head?.any (· < 0x38) ∧ escape ≠ utf8 "%25")) then
      some (utf8 "invalid URL escape " ++ goQuoteBytes escape)
    else if b ∈ utf8 " \\^|\x7b\x7d" || b == 0x60 then
      some (utf8 "invalid character " ++ goQuoteBytes [b] ++ utf8 " in host name")
    else hostFault text

/-- The check of a host. -/
def goHost (host : Bytes) : Except Bytes Unit :=
  if isOptionalPort (goPort host) = false then
    .error (utf8 "invalid port " ++ goQuoteBytes (goPort host) ++ utf8 " after host")
  else
    match hostFault host with
    | some e => .error e
    | none => .ok ()

/-- A byte that may stand in a user part. -/
def isUserByte (b : UInt8) : Bool :=
  isAlnumByte b || b ∈ utf8 "-._:~!$&'()*+,;=%@"

/-- The user part of an authority. -/
def goUser (userinfo : Bytes) : Except Bytes Userinfo :=
  if userinfo.all isUserByte = false then .error (utf8 "net/url: invalid userinfo")
  else do
    let username ← goUnescape (userinfo.takeWhile (· ≠ 0x3A))
    match userinfo.dropWhile (· ≠ 0x3A) with
    | [] => return ⟨username, none⟩
    | _ :: password =>
      let password ← goUnescape password
      return ⟨username, some password⟩

/-- A text encoded, but for some bytes. -/
def goEscape (safe : UInt8 → Bool) (text : Bytes) : Bytes :=
  text.flatMap fun b =>
    if safe b then [b]
    else Percent.sign :: utf8 (String.ofList
      [(Nat.digitChar (b.toNat / 16)).toUpper, (Nat.digitChar (b.toNat % 16)).toUpper])

/-- A path or a fragment as it is written: as it was, if all its bytes may stand there,
    and else encoded again. -/
def goWritten (valid safe text : Bytes) : Bytes :=
  if text.all fun b => isAlnumByte b || b ∈ valid then text
  else goEscape (fun b => isAlnumByte b || b ∈ safe) ((unescape text).getD text)

/-- `EscapedPath`. -/
def goPath (path : Bytes) : Bytes :=
  goWritten (utf8 "-_.~!$&'()*+,;=:@[]%/") (utf8 "-_.~$&+,/:;=@") path

/-- `EscapedFragment`, with its sign. -/
def goFragment (fragment : Bytes) : Bytes :=
  if fragment = [] then []
  else 0x23 :: goWritten (utf8 "-_.~!$&'()*+,;=:@[]%/?") (utf8 "-_.~$&+,/:;=?@!()*") fragment

/-- The user part and the host of an authority, the host as it is written. -/
def goAuthority (authority : Bytes) : Except Bytes (Option Userinfo × Bytes) := do
  let host := ((fromLast 0x40 authority).map (List.drop 1)).getD authority
  goHost host
  let written := goEscape (fun b => b < 0x80 && b != Percent.sign) ((unescape host).getD host)
  if host.length = authority.length then return (none, utf8 "//" ++ written)
  let user ← goUser (authority.take (authority.length - host.length - 1))
  return (some user, written)

/-- What is behind the scheme, up to the fragment. -/
def goBody (scheme body : Bytes) : Except Bytes (Option Userinfo × Bytes) :=
  let path := body.takeWhile (· ≠ 0x3F)
  let query := body.drop path.length
  if (utf8 "/").isPrefixOf path = false ∧ scheme ≠ [] then .ok (none, body)
  else if (utf8 "/").isPrefixOf path = false ∧ 0x3A ∈ path.takeWhile (· ≠ 0x2F) then
    .error (utf8 "first path segment in URL cannot contain colon")
  else if (utf8 "//").isPrefixOf path ∧ (scheme ≠ [] ∨ (utf8 "///").isPrefixOf path = false) then do
    let (user, host) ← goAuthority ((path.drop 2).takeWhile (· ≠ 0x2F))
    let path := (path.drop 2).dropWhile (· ≠ 0x2F)
    let _ ← goUnescape path
    return (user, host ++ goPath path ++ query)
  else (goUnescape path).map fun _ => (none, goPath path ++ query)

/-- `url.Parse`. -/
def goParse (raw : Bytes) : Except Bytes Url :=
  let u := raw.takeWhile (· ≠ 0x23)
  let fail := fun (quoted reason : Bytes) =>
    .error (utf8 "parse " ++ goQuoteBytes quoted ++ utf8 ": " ++ reason)
  if u.any isControlByte then fail u (utf8 "net/url: invalid control character in URL")
  else
    match goScheme u with
    | .error e => fail u e
    | .ok (scheme, rest) =>
      match goBody scheme rest with
      | .error e => fail u e
      | .ok (user, behind) =>
        let fragment := raw.drop (u.length + 1)
        match goUnescape fragment with
        | .error e => fail raw e
        | .ok _ => .ok ⟨scheme, user, behind ++ goFragment fragment⟩

/-- A text of a user part, encoded. -/
def goEscapeUser (text : Bytes) : Bytes :=
  goEscape (fun b => isAlnumByte b || b ∈ utf8 "-_.~$&+,;=") text

/-- `URL.String`. -/
def goString (u : Url) : Bytes :=
  (if u.scheme = [] then [] else u.scheme ++ [0x3A]) ++
    match u.user with
    | none => u.rest
    | some user =>
      utf8 "//" ++ goEscapeUser user.username ++
        (match user.password with
          | none => []
          | some password => 0x3A :: goEscapeUser password) ++ 0x40 :: u.rest

theorem goScheme_all {raw scheme rest : Bytes} (h : goScheme raw = .ok (scheme, rest)) :
    scheme.all isSchemeByte = true := by
  have hname := List.all_takeWhile (p := isSchemeByte) (l := raw.map lowerByte)
  simp only [goScheme] at h
  split at h
  · split at h
    · cases h
    case h_2 =>
        split at h
        · rw [← (Prod.mk.inj (Except.ok.inj h)).1]
          exact hname
        · rw [← (Prod.mk.inj (Except.ok.inj h)).1]
          rfl
  · rw [← (Prod.mk.inj (Except.ok.inj h)).1]
    rfl

theorem goParse_scheme (raw : Bytes) (u : Url) (h : goParse raw = .ok u) :
    u.scheme.all isSchemeByte = true := by
  simp only [goParse] at h
  split at h
  · cases h
  · split at h
    · cases h
    case h_2 scheme rest hscheme =>
        split at h
        · cases h
        · split at h
          · cases h
          · rw [← Except.ok.inj h]
            exact goScheme_all hscheme

theorem isSchemeByte_plain (b : UInt8) (h : isSchemeByte b = true) :
    ¬(b = 0x22 ∨ b = 0x5C) ∧ isControlByte b = false := by
  simp only [isSchemeByte, isControlByte, Bool.or_eq_true, Bool.and_eq_true, decide_eq_true_eq,
    beq_iff_eq, UInt8.le_iff_toNat_le, UInt8.lt_iff_toNat_lt, ← UInt8.toNat_inj,
    Bool.or_eq_false_iff, decide_eq_false_iff_not, beq_eq_false_iff_ne, ne_eq,
    UInt8.reduceToNat] at h ⊢
  omega

theorem goQuoteBytes_scheme (text : Bytes) (h : text.all isSchemeByte = true) :
    goQuoteBytes text = inQuotes text := by
  rw [goQuoteBytes]
  congr 1
  induction text with
  | nil => rfl
  | cons b text ih =>
    rw [List.all_cons, Bool.and_eq_true] at h
    obtain ⟨hsign, hcontrol⟩ := isSchemeByte_plain b h.1
    rw [List.flatMap_cons, ih h.2, if_neg hsign, if_neg (Bool.eq_false_iff.mp hcontrol)]
    rfl

/-- `net/url`. -/
def goUrl : UrlLib :=
  { parse := goParse, string := goString, quote := goQuoteBytes
    scheme_parse := goParse_scheme, quote_scheme := goQuoteBytes_scheme }

end CoopDB
