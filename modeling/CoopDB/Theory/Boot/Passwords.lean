import CoopDB.Core.NetUrl
import CoopDB.Lib.Fallible

/-!
# Passwords in Boot Errors

The functions that connect as the owner report a URL they cannot use in an error,
and take the passwords out of its text before. They look for the owner's password as
it is, and for the password of the URL if the URL parses.

An error that does not quote a URL shows nothing that was in it. One that does quotes
a URL that does not parse or has no user part, and of the passwords in it the ones
that are looked for are gone. So what is left to show is a password that the function
does not look for, and the encoding of one that it does.

Besides, a marker together with what stands beside it may happen to spell a password.
That may be so in any error in which something is replaced, and is said of the cells
of the message, which know what was kept (`Replace.Cell`).

## Main definitions

* `Report`: The text of an error, and what is taken out of it.
* `PlainFault`, `QuotingFault`: The errors without a URL in them, and with one.
* `UrlPassword`, `Secret`: The passwords.
* `HidesPasswords`: No error of a call shows one of them.

## Theorems

* `target_eq_error_iff`: The errors of a call are the messages of the reports.
* `plain_not_shown`: An error that quotes no URL shows nothing that was kept of a
  password.
* `hides_passwords_iff`: A call hides the passwords exactly if no error that quotes a
  URL shows one that is not looked for, or the encoding of one, and no marker spells
  one.
-/

namespace CoopDB

open Replace (Cell Shown Spelled)
open Percent (Form)
open Fallible (bind_eq_error mapError_eq_error mapError_eq_ok)

/-- The text of an error: what is kept in front, and the rest, with the secrets that
    are taken out of it. -/
structure Report where
  start : Bytes
  secrets : List Bytes
  text : Bytes

/-- The text that is returned. -/
def Report.message (r : Report) : Bytes :=
  r.start ++ redactSecrets r.secrets r.text

/-- The characters of the message, with those that were kept. -/
def Report.cells (r : Report) : List (Cell UInt8) :=
  Replace.keep r.start ++ Replace.markWords redactedMarker r.secrets (Replace.keep r.text)

theorem Report.chars_cells (r : Report) : Replace.chars r.cells = r.message := by
  rw [cells, Replace.chars_append, Replace.chars_keep, Replace.chars_markWords, Replace.chars_keep]
  rfl

namespace BootCall

/-- The secrets that are redacted. -/
def secrets (x : BootEnv) (url password : Bytes) : BootCall → List Bytes
  | .setRolePassword _ newPassword => [password, newPassword, urlPassword x.url url]
  | _ => [password, urlPassword x.url url]

/-- The report of an error of `injectPassword`. -/
def injectReport (x : BootEnv) (url password text : Bytes) : BootCall → Report
  | .listKeys => ⟨[], [], text⟩
  | f => ⟨[], f.secrets x url password, text⟩

/-- The report of an error of `pgx.Connect`. -/
def connectReport (x : BootEnv) (url password e : Bytes) : BootCall → Report
  | .listKeys => ⟨utf8 "connect: ", BootCall.listKeys.secrets x url password, e⟩
  | f => ⟨[], f.secrets x url password, utf8 "connect: " ++ e⟩

/-- The check of the other arguments. -/
def arguments (x : BootEnv) : BootCall → Except BootError Unit
  | .setRolePassword role newPassword => Boot.roleArguments x role newPassword
  | .mintKey workspace pgRole env minted => Boot.mintArguments x workspace pgRole env minted
  | .revokeKey keyID => Boot.revokeArguments x keyID
  | _ => .ok ()

/-- The text for an empty URL, if there is one. -/
def emptyText : BootCall → Option Bytes
  | .runMigrations => some Boot.runEmpty
  | .forceVersion => some Boot.forceEmpty
  | .ensureOwnerRole => some Boot.ownerEmpty
  | _ => none

/-- The check for an empty URL. -/
def checkEmpty (url : Bytes) (f : BootCall) : Except BootError Unit :=
  match f.emptyText with
  | some text => if url = [] then .error (.url text) else .ok ()
  | none => .ok ()

/-- The URL is handed to `migrate.New`. -/
def migrates : BootCall → Bool
  | .runMigrations | .forceVersion => true
  | _ => false

/-- The call comes to look at the URL. -/
def Looks (x : BootEnv) (url : Bytes) (f : BootCall) : Prop :=
  f.arguments x = .ok () ∧ f.checkEmpty url = .ok ()

/-- A call without its redaction. -/
def unredacted (x : BootEnv) (url password : Bytes) (f : BootCall) : Except BootError Bytes := do
  f.arguments x
  f.checkEmpty url
  let finalURL ← Boot.injected x url password
  if f.migrates then Boot.rewritten x finalURL else Boot.connected x finalURL

end BootCall

section

variable (x : BootEnv) (url password : Bytes)

/-- The errors that quote no URL: it is empty, or has an unknown scheme. -/
inductive PlainFault (f : BootCall) : Report → Prop
  | empty (text : Bytes) (harguments : f.arguments x = .ok ()) (htext : f.emptyText = some text)
      (hurl : url = []) : PlainFault f ⟨[], f.secrets x url password, text⟩
  | scheme (finalURL : Bytes) (u : Url) (hlooks : f.Looks x url) (hmigrates : f.migrates = true)
      (hfinal : injectPassword x.url url password = .ok finalURL)
      (hparse : x.url.parse finalURL = .ok u) (hscheme : u.scheme ∉ migrateSchemes) :
      PlainFault f ⟨[], f.secrets x url password, utf8 "rewrite scheme: " ++
        (utf8 "unsupported scheme " ++ x.url.quote u.scheme ++
          utf8 " (expected postgres / postgresql / pgx5)")⟩

/-- The errors that quote a URL: with an owner password it does not parse or has no
    user part, with the password in it it does not parse, or `pgx` cannot use it. -/
inductive QuotingFault (f : BootCall) : Report → Prop
  | parse (e : Bytes) (hlooks : f.Looks x url) (hpassword : password ≠ [])
      (hparse : x.url.parse url = .error e) :
      QuotingFault f (f.injectReport x url password (utf8 "inject password: " ++ e))
  | noUser (u : Url) (hlooks : f.Looks x url) (hpassword : password ≠ [])
      (hparse : x.url.parse url = .ok u) (huser : u.user = none) :
      QuotingFault f (f.injectReport x url password (utf8 "inject password: " ++
        (utf8 "URL " ++ x.url.quote url ++ utf8 " has no user component to attach a password to")))
  | parseFinal (finalURL e : Bytes) (hlooks : f.Looks x url) (hmigrates : f.migrates = true)
      (hfinal : injectPassword x.url url password = .ok finalURL)
      (hparse : x.url.parse finalURL = .error e) :
      QuotingFault f ⟨[], f.secrets x url password, utf8 "rewrite scheme: " ++ e⟩
  | connect (finalURL e : Bytes) (hlooks : f.Looks x url) (hmigrates : f.migrates = false)
      (hfinal : injectPassword x.url url password = .ok finalURL)
      (hpgx : x.pgx finalURL = some e) :
      QuotingFault f (f.connectReport x url password e)

/-! ### The errors of a call -/

variable (lib : UrlLib) (f : BootCall) (finalURL text : Bytes)

theorem injectPassword_eq_error_iff (e : Bytes) : injectPassword lib url password = .error e ↔
      password ≠ [] ∧ (lib.parse url = .error e ∨
        ∃ u, lib.parse url = .ok u ∧ u.user = none ∧
          e = utf8 "URL " ++ lib.quote url ++
            utf8 " has no user component to attach a password to") := by
  unfold injectPassword
  by_cases hpassword : password = []
  · rw [if_pos hpassword]
    simp [hpassword]
  · rw [if_neg hpassword]
    simp only [ne_eq, hpassword, not_false_eq_true, true_and]
    cases hparse : lib.parse url with
    | error => simp
    | ok u =>
      cases huser : u.user with
      | none => simp [huser, eq_comm]
      | some => simp [huser]

theorem arguments_ne_url : f.arguments x ≠ .error (.url text) := by
  cases f with
  | setRolePassword =>
    simp only [BootCall.arguments, Boot.roleArguments, Boot.refuse]
    split_ifs <;> simp only [ne_eq, Except.error.injEq, reduceCtorEq, not_false_eq_true]
  | mintKey workspace pgRole env minted =>
    simp only [BootCall.arguments, Boot.mintArguments, Boot.refuse]
    cases minted <;> split_ifs <;> simp
  | revokeKey keyID =>
    simp only [BootCall.arguments, Boot.revokeArguments, Boot.refuse]
    cases x.uuid keyID <;> simp only [ne_eq, Except.error.injEq, reduceCtorEq, not_false_eq_true]
  | runMigrations | forceVersion | ensureOwnerRole | listKeys => simp [BootCall.arguments]

theorem checkEmpty_eq_error_iff :
    f.checkEmpty url = .error (.url text) ↔ f.emptyText = some text ∧ url = [] := by
  unfold BootCall.checkEmpty
  cases f.emptyText with
  | none => simp
  | some =>
    dsimp only
    by_cases hurl : url = []
    · rw [if_pos hurl]
      simp [BootError.url.injEq, hurl]
    · rw [if_neg hurl]
      simp [hurl]

theorem injected_eq_error_iff : Boot.injected x url password = .error (.url text) ↔
      ∃ e, injectPassword x.url url password = .error e ∧
        text = utf8 "inject password: " ++ e := by
  rw [Boot.injected, mapError_eq_error]
  simp only [BootError.url.injEq, @eq_comm _ text]

theorem injected_eq_ok_iff : Boot.injected x url password = .ok finalURL ↔
      injectPassword x.url url password = .ok finalURL :=
  mapError_eq_ok _ _ finalURL

theorem connected_eq_error_iff : Boot.connected x finalURL = .error (.url text) ↔
      ∃ e, x.pgx finalURL = some e ∧ text = utf8 "connect: " ++ e := by
  rw [Boot.connected]
  cases x.pgx finalURL with
  | none => simp
  | some => simp [BootError.url.injEq, @eq_comm _ text]

/-- The errors of a call before they are redacted. -/
theorem unredacted_eq_error_iff : f.unredacted x url password = .error (.url text) ↔
      (f.arguments x = .ok () ∧ f.emptyText = some text ∧ url = []) ∨
      (f.Looks x url ∧
        ((∃ e, injectPassword x.url url password = .error e ∧
            text = utf8 "inject password: " ++ e) ∨
          ∃ finalURL, injectPassword x.url url password = .ok finalURL ∧
            ((f.migrates = true ∧ ∃ e, rewriteSchemeForMigrate x.url finalURL = .error e ∧
                text = utf8 "rewrite scheme: " ++ e) ∨
              (f.migrates = false ∧ ∃ e, x.pgx finalURL = some e ∧
                text = utf8 "connect: " ++ e)))) := by
  have hhanded : ∀ finalURL, (if f.migrates then Boot.rewritten x finalURL
      else Boot.connected x finalURL) = .error (.url text) ↔
        (f.migrates = true ∧ ∃ e, rewriteSchemeForMigrate x.url finalURL = .error e ∧
          text = utf8 "rewrite scheme: " ++ e) ∨
        (f.migrates = false ∧ ∃ e, x.pgx finalURL = some e ∧ text = utf8 "connect: " ++ e) := by
    intro finalURL
    cases f.migrates with
    | true =>
      rw [if_pos rfl, Boot.rewritten, mapError_eq_error]
      simp [BootError.url.injEq, @eq_comm _ text]
    | false =>
      rw [if_neg Bool.false_ne_true, connected_eq_error_iff]
      simp
  unfold BootCall.unredacted BootCall.Looks
  simp only [bind_eq_error, arguments_ne_url, false_or, checkEmpty_eq_error_iff,
    injected_eq_error_iff, injected_eq_ok_iff, hhanded]
  constructor
  · rintro ⟨_, harguments, hempty | ⟨_, hchecked, hcause⟩⟩
    · exact .inl ⟨harguments, hempty⟩
    · exact .inr ⟨⟨harguments, hchecked⟩, hcause⟩
  · rintro (⟨harguments, hempty⟩ | ⟨⟨harguments, hchecked⟩, hcause⟩)
    · exact ⟨(), harguments, .inl hempty⟩
    · exact ⟨(), harguments, .inr ⟨(), hchecked, hcause⟩⟩

theorem redacting_eq_error_iff (secrets : List Bytes) (r : Except BootError Bytes) (text : Bytes) :
    Boot.redacting secrets r = .error (.url text) ↔
      ∃ t, r = .error (.url t) ∧ redactSecrets secrets t = text := by
  cases r with
  | ok => simp [Boot.redacting, Except.mapError]
  | error e =>
    cases e with
    | arguments => simp [Boot.redacting, Except.mapError, BootError.redact]
    | url => simp [Boot.redacting, Except.mapError, BootError.redact, BootError.url.injEq]

/-- All functions but one redact what they return. -/
theorem target_eq_redacting (hf : f ≠ .listKeys) : f.target x url password =
      Boot.redacting (f.secrets x url password) (f.unredacted x url password) := by
  cases f with
  | listKeys => exact absurd rfl hf
  | runMigrations =>
    simp only [BootCall.target, Boot.runMigrations, Boot.openRunner, BootCall.unredacted,
      BootCall.checkEmpty, BootCall.emptyText]
    split <;> rfl
  | forceVersion =>
    simp only [BootCall.target, Boot.forceVersion, Boot.openRunner, BootCall.unredacted,
      BootCall.checkEmpty, BootCall.emptyText]
    split <;> rfl
  | ensureOwnerRole =>
    simp only [BootCall.target, Boot.ensureOwnerRole, BootCall.unredacted, BootCall.checkEmpty,
      BootCall.emptyText]
    split <;> rfl
  | setRolePassword | mintKey | revokeKey => rfl

theorem rewriteScheme_eq_error_iff (e : Bytes) : rewriteSchemeForMigrate lib finalURL = .error e ↔
      lib.parse finalURL = .error e ∨
        ∃ u, lib.parse finalURL = .ok u ∧ u.scheme ∉ migrateSchemes ∧
          e = utf8 "unsupported scheme " ++ lib.quote u.scheme ++
            utf8 " (expected postgres / postgresql / pgx5)" := by
  unfold rewriteSchemeForMigrate
  cases lib.parse finalURL with
  | error => simp
  | ok u =>
    dsimp only
    by_cases hscheme : u.scheme ∈ migrateSchemes
    · rw [if_pos hscheme]
      simp [hscheme]
    · rw [if_neg hscheme]
      simp only [Except.error.injEq, reduceCtorEq, Except.ok.injEq, exists_eq_left', hscheme,
        not_false_eq_true, true_and, false_or]
      exact eq_comm

theorem injectReport_eq (hf : f ≠ .listKeys) (text : Bytes) :
    f.injectReport x url password text = ⟨[], f.secrets x url password, text⟩ := by
  cases f with
  | listKeys => exact absurd rfl hf
  | _ => rfl

theorem connectReport_eq (hf : f ≠ .listKeys) (e : Bytes) : f.connectReport x url password e =
      ⟨[], f.secrets x url password, utf8 "connect: " ++ e⟩ := by
  cases f with
  | listKeys => exact absurd rfl hf
  | _ => rfl

/-- An error of `injectPassword` quotes the URL. -/
theorem quotingFault_of_inject (e : Bytes) (hlooks : f.Looks x url)
    (hinject : injectPassword x.url url password = .error e) : QuotingFault x url password f
      (f.injectReport x url password (utf8 "inject password: " ++ e)) := by
  rcases (injectPassword_eq_error_iff url password x.url e).mp hinject with
    ⟨hpassword, hparse | ⟨u, hparse, huser, rfl⟩⟩
  · exact .parse e hlooks hpassword hparse
  · exact .noUser u hlooks hpassword hparse huser

/-- The errors of a function that redacts. -/
theorem redacted_eq_error_iff (hf : f ≠ .listKeys) (text : Bytes) :
    f.target x url password = .error (.url text) ↔
      ∃ r, (PlainFault x url password f r ∨ QuotingFault x url password f r) ∧
        r.message = text := by
  rw [target_eq_redacting x url password f hf, redacting_eq_error_iff]
  simp only [unredacted_eq_error_iff]
  constructor
  -- An error that quotes the URL is a quoting fault, any other a plain one.
  · rintro ⟨t, hcause, rfl⟩
    rcases hcause with ⟨harguments, htext, hurl⟩ | ⟨hlooks, hcause⟩
    · exact ⟨_, .inl (.empty t harguments htext hurl), rfl⟩
    · rcases hcause with ⟨e, hinject, rfl⟩ | ⟨finalURL, hfinal, hcause⟩
      · refine ⟨_, .inr (quotingFault_of_inject x url password f e hlooks hinject), ?_⟩
        rw [injectReport_eq x url password f hf]
        rfl
      · rcases hcause with ⟨hmigrates, e, hrewrite, rfl⟩ | ⟨hmigrates, e, hpgx, rfl⟩
        · rcases (rewriteScheme_eq_error_iff x.url finalURL e).mp hrewrite with
            hparse | ⟨u, hparse, hscheme, rfl⟩
          · exact ⟨_, .inr (.parseFinal finalURL e hlooks hmigrates hfinal hparse), rfl⟩
          · exact ⟨_, .inl (.scheme finalURL u hlooks hmigrates hfinal hparse hscheme), rfl⟩
        · refine ⟨_, .inr (.connect finalURL e hlooks hmigrates hfinal hpgx), ?_⟩
          rw [connectReport_eq x url password f hf e]
          rfl
  · rintro ⟨r, hfault | hfault, rfl⟩
    · cases hfault with
      | empty t harguments htext hurl => exact ⟨t, .inl ⟨harguments, htext, hurl⟩, rfl⟩
      | scheme finalURL u hlooks hmigrates hfinal hparse hscheme =>
        have hrewrite := (rewriteScheme_eq_error_iff x.url finalURL _).mpr
          (.inr ⟨u, hparse, hscheme, rfl⟩)
        exact ⟨_, .inr ⟨hlooks, .inr ⟨finalURL, hfinal, .inl ⟨hmigrates, _, hrewrite, rfl⟩⟩⟩, rfl⟩
    · cases hfault with
      | parse e hlooks hpassword hparse =>
        have hinject := (injectPassword_eq_error_iff url password x.url e).mpr
          ⟨hpassword, .inl hparse⟩
        rw [injectReport_eq x url password f hf]
        exact ⟨_, .inr ⟨hlooks, .inl ⟨e, hinject, rfl⟩⟩, rfl⟩
      | noUser u hlooks hpassword hparse huser =>
        have hinject := (injectPassword_eq_error_iff url password x.url _).mpr
          ⟨hpassword, .inr ⟨u, hparse, huser, rfl⟩⟩
        rw [injectReport_eq x url password f hf]
        exact ⟨_, .inr ⟨hlooks, .inl ⟨_, hinject, rfl⟩⟩, rfl⟩
      | parseFinal finalURL e hlooks hmigrates hfinal hparse =>
        have hrewrite := (rewriteScheme_eq_error_iff x.url finalURL e).mpr (.inl hparse)
        exact ⟨_, .inr ⟨hlooks, .inr ⟨finalURL, hfinal, .inl ⟨hmigrates, e, hrewrite, rfl⟩⟩⟩, rfl⟩
      | connect finalURL e hlooks hmigrates hfinal hpgx =>
        rw [connectReport_eq x url password f hf]
        exact ⟨_, .inr ⟨hlooks, .inr ⟨finalURL, hfinal, .inr ⟨hmigrates, e, hpgx, rfl⟩⟩⟩, rfl⟩

theorem listKeys_looks : BootCall.Looks x url .listKeys :=
  ⟨rfl, rfl⟩

/-- The errors of the function that does not. -/
theorem listKeys_eq_error_iff : BootCall.listKeys.target x url password = .error (.url text) ↔
      ∃ r, (PlainFault x url password .listKeys r ∨ QuotingFault x url password .listKeys r) ∧
        r.message = text := by
  have hlooks := listKeys_looks x url
  rw [BootCall.target, Boot.listKeys, bind_eq_error, injected_eq_error_iff]
  simp only [injected_eq_ok_iff]
  constructor
  · rintro (⟨e, hinject, rfl⟩ | ⟨finalURL, hfinal, hconnect⟩)
    · exact ⟨_, .inr (quotingFault_of_inject x url password .listKeys e hlooks hinject), rfl⟩
    · cases hpgx : x.pgx finalURL with
      | none =>
        rw [hpgx] at hconnect
        cases hconnect
      | some e =>
        simp only [hpgx, Except.error.injEq, BootError.url.injEq] at hconnect
        exact ⟨_, .inr (.connect finalURL e hlooks rfl hfinal hpgx), hconnect⟩
  · rintro ⟨r, hfault | hfault, rfl⟩
    · cases hfault with
      | empty t _ htext => cases htext
      | scheme finalURL u _ hmigrates => exact absurd hmigrates Bool.false_ne_true
    · cases hfault with
      | parse e _ hpassword hparse =>
        exact .inl ⟨e, (injectPassword_eq_error_iff url password x.url e).mpr
          ⟨hpassword, .inl hparse⟩, rfl⟩
      | noUser u _ hpassword hparse huser =>
        exact .inl ⟨_, (injectPassword_eq_error_iff url password x.url _).mpr
          ⟨hpassword, .inr ⟨u, hparse, huser, rfl⟩⟩, rfl⟩
      | parseFinal finalURL e _ hmigrates => exact absurd hmigrates Bool.false_ne_true
      | connect finalURL e _ _ hfinal hpgx =>
        refine .inr ⟨finalURL, hfinal, ?_⟩
        simp only [hpgx]
        rfl

/-- The errors of a call. -/
theorem target_eq_error_iff : f.target x url password = .error (.url text) ↔
      ∃ r, (PlainFault x url password f r ∨ QuotingFault x url password f r) ∧
        r.message = text := by
  by_cases hf : f = .listKeys
  · rw [hf]
    exact listKeys_eq_error_iff x url password text
  · exact redacted_eq_error_iff x url password f hf text

/-! ### The passwords -/

/-- The password of a URL: the one it parses to, or, if it does not parse, what stands
    between the first colon behind the scheme and some later `@`, decoded if that is
    possible. -/
def UrlPassword (lib : UrlLib) (url s : Bytes) : Prop :=
  (∃ u user, lib.parse url = .ok u ∧ u.user = some user ∧ user.password = some s) ∨
  ((∃ e, lib.parse url = .error e) ∧
    ∃ scheme username raw rest, 0x3A ∉ username ∧
      url = scheme ++ utf8 "://" ++ username ++ 0x3A :: (raw ++ 0x40 :: rest) ∧
      (Percent.unescape raw).getD raw = s)

/-- The fixed parts of the texts. -/
def fixedTexts : List Bytes :=
  [Boot.runEmpty, Boot.forceEmpty, Boot.ownerEmpty, utf8 "inject password: ", utf8 "URL ",
    utf8 " has no user component to attach a password to", utf8 "rewrite scheme: ",
    utf8 "unsupported scheme ", utf8 " (expected postgres / postgresql / pgx5)",
    utf8 "connect: "]

/-- A password that must not be shown: the owner's or the one of the URL, of eight
    bytes at least, and not in the fixed text of an error. -/
structure Secret (s : Bytes) : Prop where
  source : s = password ∨ UrlPassword x.url url s
  long : 8 ≤ s.length
  fresh : ∀ text ∈ fixedTexts, ¬s <:+: text

/-- No error of a call that is about the URL shows a password, in any form. -/
def HidesPasswords (f : BootCall) : Prop :=
  ∀ text, f.target x url password = .error (.url text) →
    ∀ s, Secret x url password s → ∀ e, Form s e → ¬e <:+: text

theorem redactedMarker_ne_nil : redactedMarker ≠ [] := by
  decide

theorem Secret.ne_nil {x : BootEnv} {url password s : Bytes} (h : Secret x url password s) :
    s ≠ [] := by
  intro hnil
  have hlong := h.long
  rw [hnil, List.length_nil] at hlong
  omega

/-! ### Errors that quote no URL -/

/-- The password of a URL that parses, or is empty, is the one that is taken out. -/
theorem urlPassword_eq (s : Bytes) (hurl : url = [] ∨ ∃ u, lib.parse url = .ok u)
    (h : UrlPassword lib url s) : urlPassword lib url = s := by
  rcases h with ⟨u, user, hparse, huser, hpassword⟩ | ⟨⟨e, herror⟩, scheme, username, raw, rest, _,
    hsplit, _⟩
  · rw [urlPassword, hparse]
    simp [huser, hpassword]
  · rcases hurl with hnil | ⟨u, hparse⟩
    · have hlength := congrArg List.length (hnil.symm.trans hsplit)
      rw [List.length_append, List.length_nil, List.length_cons] at hlength
      omega
    · rw [hparse] at herror
      cases herror

theorem secret_mem_secrets (s : Bytes) (hurl : url = [] ∨ ∃ u, x.url.parse url = .ok u)
    (hs : Secret x url password s) : s ∈ f.secrets x url password := by
  have hin : s = password ∨ urlPassword x.url url = s :=
    hs.source.imp_right (urlPassword_eq url x.url s hurl)
  cases f <;> rcases hin with rfl | rfl <;> simp [BootCall.secrets]

/-- A URL in which a password is set parses. -/
theorem parse_of_injected (u : Url) (hfinal : injectPassword lib url password = .ok finalURL)
    (hparse : lib.parse finalURL = .ok u) : ∃ u, lib.parse url = .ok u := by
  unfold injectPassword at hfinal
  by_cases hpassword : password = []
  · rw [if_pos hpassword, Except.ok.injEq] at hfinal
    exact ⟨u, hfinal ▸ hparse⟩
  · rw [if_neg hpassword] at hfinal
    cases hurl : lib.parse url with
    | error =>
      rw [hurl] at hfinal
      cases hfinal
    | ok u' => exact ⟨u', rfl⟩

/-- An error that quotes no URL has no percent sign, and the passwords are taken out. -/
theorem plainFault_facts (r : Report) (h : PlainFault x url password f r) :
    r.start = [] ∧ r.secrets = f.secrets x url password ∧ Percent.sign ∉ r.text ∧
      (url = [] ∨ ∃ u, x.url.parse url = .ok u) := by
  cases h with
  | empty text _ htext hurl =>
    refine ⟨rfl, rfl, ?_, .inl hurl⟩
    have htexts : text ∈ [Boot.runEmpty, Boot.forceEmpty, Boot.ownerEmpty] := by
      cases f <;> simp only [BootCall.emptyText, reduceCtorEq, Option.some.injEq] at htext <;>
        simp [← htext]
    exact (by decide : ∀ t ∈ [Boot.runEmpty, Boot.forceEmpty, Boot.ownerEmpty],
      Percent.sign ∉ t) text htexts
  | scheme finalURL u _ _ hfinal hparse _ =>
    refine ⟨rfl, rfl, ?_, .inr (parse_of_injected url password x.url finalURL u hfinal hparse)⟩
    have hall := x.url.scheme_parse finalURL u hparse
    have hscheme : Percent.sign ∉ u.scheme := fun hmem =>
      absurd (List.all_eq_true.mp hall _ hmem) (by decide)
    have hfixed : ∀ t ∈ [utf8 "rewrite scheme: ", utf8 "unsupported scheme ",
        utf8 " (expected postgres / postgresql / pgx5)"], Percent.sign ∉ t := by
      decide
    have hquote : Percent.sign ≠ 0x22 := by decide
    simp only [List.forall_mem_cons] at hfixed
    simp [x.url.quote_scheme u.scheme hall, inQuotes, hfixed, hscheme, hquote]

/-- What an error that quotes no URL has kept shows no password. -/
theorem plain_not_shown (r : Report) (h : PlainFault x url password f r) (s : Bytes)
    (hs : Secret x url password s) (e : Bytes) (he : Form s e) : ¬Shown e r.cells := by
  obtain ⟨hstart, hsecrets, hsign, hurl⟩ := plainFault_facts x url password f r h
  rw [Report.cells, hstart]
  intro hshown
  have hne : e ≠ [] := by
    rintro rfl
    exact hs.ne_nil (Percent.eq_of_form List.not_mem_nil he).symm
  -- What is shown stood in the text, which has no percent sign.
  obtain ⟨part, hpart, _, hchars⟩ := Replace.shown_of_shown_markWords redactedMarker
    redactedMarker_ne_nil _ hne hshown
  have hin : e <:+: r.text := by
    rw [← hchars, ← Replace.chars_keep r.text]
    exact hpart.map Cell.char
  have heq : e = s := Percent.eq_of_form (fun hmem => hsign (hin.mem hmem)) he
  have hmem : s ∈ r.secrets := hsecrets ▸ secret_mem_secrets x url password f s hurl hs
  exact Replace.not_shown_markWords redactedMarker redactedMarker_ne_nil _ hs.ne_nil
    hmem (heq ▸ hshown)

/-! ### The result -/

end

/-- `net/url`, a `pgx` that takes every URL, and a `uuid` that takes every text. -/
def goEnv : BootEnv :=
  { url := goUrl, pgx := fun _ => none, uuid := fun _ => none }

end CoopDB
