import BroadcastRelay.Settings.FileTree
import Mathlib.Data.Nat.Digits.Defs
/-!
# Where the value of a setting comes from

Three sources stand one behind the other: the variables of the process, those of the env file, and
the settings file with its defaults. `resolved` is the value that the first two come to. A variable
of the process that is empty gives no value, and still hides that of the env file.

`Overlaid` says what settings are then, section by section, and `load_of_sources` that a process
loads them, unless the value for the port of the redirect writes no port (`WritesPort`).
-/

namespace BroadcastRelay

deriving instance DecidableEq for KeyMap

/-- Whether something succeeds with a value can be found out. -/
instance Except.decidableEqOk {ε α : Type} [DecidableEq α] (x : Except ε α) (a : α) :
    Decidable (x = .ok a) :=
  match x with
  | .ok b => decidable_of_iff (b = a) (by simp)
  | .error _ => isFalse (by simp)

attribute [ext] Settings

/-! ## Decimal numbers -/

namespace Net

/-- The characters with a decimal value are the digits. -/
theorem digit?_eq_some_iff {c : Char} {d : Nat} :
    digit? 10 c = some d ↔ d < 10 ∧ c = Nat.digitChar d := by
  constructor
  · intro h
    obtain ⟨hlow, hhigh, rfl⟩ : 48 ≤ c.toNat ∧ c.toNat ≤ 57 ∧ c.toNat - 48 = d := by
      simp only [digit?, Char.le_def, UInt32.le_iff_toNat_le] at h
      change (if (if 48 ≤ c.toNat ∧ c.toNat ≤ 57 then _ else if 97 ≤ c.toNat ∧ c.toNat ≤ 102 then _
        else if 65 ≤ c.toNat ∧ c.toNat ≤ 70 then _ else _) < 10 then _ else _) = _ at h
      -- A letter stands for ten or more, and any other character for the base itself.
      split_ifs at h <;> simp_all <;> omega
    have hd : c.toNat - 48 < 10 := by omega
    refine ⟨hd, Char.toNat_inj.mp ?_⟩
    rw [Nat.toNat_digitChar_of_lt_ten hd]
    omega
  · rintro ⟨hd, rfl⟩
    decide +revert

/-- A text is made of digits if nothing follows those at its front. -/
theorem digits_eq_iff {cs : List Char} {ds : List Nat} :
    digits 10 cs = (ds, []) ↔ (∀ d ∈ ds, d < 10) ∧ cs = ds.map Nat.digitChar := by
  induction cs generalizing ds with
  | nil => cases ds <;> simp [digits]
  | cons c cs ih =>
    rw [digits]
    cases ds with
    | nil => cases digit? 10 c <;> simp
    | cons e es =>
      have hfirst : (∀ d ∈ e :: es, d < 10) ∧ c :: cs = (e :: es).map Nat.digitChar ↔
          digit? 10 c = some e ∧ digits 10 cs = (es, []) := by
        rw [digit?_eq_some_iff, ih, List.forall_mem_cons, List.map_cons, List.cons.injEq]
        tauto
      rw [hfirst]
      cases digit? 10 c <;> simp [Prod.ext_iff, and_assoc]

/-- The value of digits, first digit first. -/
theorem foldl_digits (ds : List Nat) :
    ds.foldl (fun n d => n * 10 + d) 0 = Nat.ofDigits 10 ds.reverse := by
  rw [Nat.ofDigits_eq_foldr, List.foldr_reverse]
  simp [mul_comm, add_comm]

/-- A text that is read as a number up to its end is made of the digits of the number. -/
theorem whole_readNumber_eq_some_iff {cs : List Char} {n : Nat} :
    Scan.whole (readNumber 10 UInt16.size none) cs = some n ↔
      ∃ ds : List Nat, digits 10 cs = (ds, []) ∧ ds ≠ [] ∧
        Nat.ofDigits 10 ds.reverse = n ∧ n < UInt16.size := by
  simp only [Scan.whole, readNumber, ← foldl_digits]
  obtain ⟨ds, r⟩ := digits 10 cs
  simp only [Option.any_none, Bool.or_false]
  split_ifs with hbad
  · simp only [Bool.or_eq_true, List.isEmpty_iff, decide_eq_true_eq] at hbad
    simp only [Prod.mk.injEq, false_iff, not_exists, not_and, not_lt]
    rintro _ ⟨rfl, -⟩ hne rfl
    exact hbad.resolve_left hne
  · simp only [Bool.or_eq_true, List.isEmpty_iff, decide_eq_true_eq, not_or, not_le] at hbad
    cases r with
    | nil =>
      constructor
      · intro h
        obtain rfl := Option.some.inj h
        exact ⟨ds, rfl, hbad.1, rfl, hbad.2⟩
      · rintro ⟨_, hds, -, rfl, -⟩
        obtain ⟨rfl, -⟩ := Prod.mk.inj hds
        rfl
    | cons => simp

end Net

namespace Settings

open EnvFile (Environment)

variable {files : Files} {folders : List String} {process : Environment} {path : Option String}
  {base s : Settings} {defined : KeyMap String} {env : Environment} {name text : String}
  {port : UInt16}

/-! ## The sources -/

/-- The settings of the settings file, if one is named, and the defaults. -/
def fromFile (files : Files) : Option String → Except SettingsError Settings
  | some p => ofFile files p
  | none => .ok .default

/-- The variables of the env file, if there is one. -/
def fromEnvFile (files : Files) (folders : List String) (process : Environment) :
    Except SettingsError (KeyMap String) :=
  match findEnvFile files folders (process "APP_ENV") with
  | some p => readEnvFile files process p
  | none => .ok .empty

/-- The value that the variables of the process and of the env file give to a name. -/
def resolved (process : Environment) (defined : KeyMap String) (name : String) : Option String :=
  match process name with
  | some v => if v = "" then none else some v
  | none => (defined.get? name).filter (· ≠ "")

/-- Variables laid over one another and then read are resolved. -/
theorem value?_layered : value? (layered process defined) name = resolved process defined name := by
  unfold value? layered resolved
  cases process name with
  | none => rfl
  | some v => simp [Option.filter, ite_not]

/-- What is loaded is the overlay over the settings file. -/
theorem load_eq (hbase : fromFile files path = .ok base)
    (hdefined : fromEnvFile files folders process = .ok defined) :
    load files folders process path =
      match overlay (layered process defined) base with
      | (s, none) => .ok s
      | (_, some e) => .error e := by
  have hload : load files folders process path = (do
      let base ← fromFile files path
      let defined ← fromEnvFile files folders process
      match overlay (layered process defined) base with
      | (s, none) => return s
      | (_, some e) => throw e) := by
    unfold load fromFile fromEnvFile
    cases path <;> cases findEnvFile files folders (process "APP_ENV") <;> rfl
  rw [hload, hbase, hdefined]
  rfl

/-! ## The port of the redirect -/

/-- The text writes the port in decimal, with a plus sign and zeros in front or without. -/
def WritesPort (text : String) (port : UInt16) : Prop :=
  ∃ ds : List Nat, ds ≠ [] ∧ (∀ d ∈ ds, d < 10) ∧ Nat.ofDigits 10 ds.reverse = port.toNat ∧
    (text.toList = ds.map Nat.digitChar ∨ text.toList = '+' :: ds.map Nat.digitChar)

/-- A sign is no digit. -/
theorem plus_ne_digitChar {d : Nat} (hd : d < 10) : '+' ≠ Nat.digitChar d := by
  decide +revert

/-- What is left of a text without its sign is made of digits if nothing else is in the text. -/
theorem unsigned_eq_iff {cs : List Char} {ds : List Nat} (hds : ∀ d ∈ ds, d < 10) :
    (match cs with
      | '+' :: cs => cs
      | cs => cs) = ds.map Nat.digitChar ↔
      cs = ds.map Nat.digitChar ∨ cs = '+' :: ds.map Nat.digitChar := by
  split
  · rename_i cs
    have hsign : '+' :: cs ≠ ds.map Nat.digitChar := by
      cases ds with
      | nil => simp
      | cons d ds => simp [plus_ne_digitChar (hds d List.mem_cons_self)]
    simp [hsign]
  · rename_i hunsigned
    exact (or_iff_left fun h => hunsigned _ h).symm

/-- A text is read as the port that it writes. -/
theorem readPort?_eq_some_iff : readPort? text = some port ↔ WritesPort text port := by
  simp only [readPort?, Option.map_eq_some_iff, Net.whole_readNumber_eq_some_iff,
    Net.digits_eq_iff, WritesPort]
  constructor
  · rintro ⟨n, ⟨ds, ⟨hds, htext⟩, hne, hn, hlt⟩, rfl⟩
    refine ⟨ds, hne, hds, ?_, (unsigned_eq_iff hds).mp htext⟩
    rw [hn, UInt16.toNat_ofNat_of_lt' hlt]
  · rintro ⟨ds, hne, hds, hn, htext⟩
    exact ⟨port.toNat, ⟨ds, ⟨hds, (unsigned_eq_iff hds).mpr htext⟩, hne, hn, port.toNat_lt⟩,
      UInt16.ofNat_toNat⟩

/-! ## What is overlaid -/

/-- Settings `s` are settings `base` under the values of variables. -/
structure Overlaid (value : String → Option String) (base s : Settings) : Prop where
  /-- The address of the main listener. -/
  server : s.server.httpAddress = (value "HTTP_ADDRESS").getD base.server.httpAddress
  /-- The file of the certificate chain. -/
  cert : s.tls.cert = (value "SSL_CERT").or base.tls.cert
  /-- The file of the private key. -/
  key : s.tls.key = (value "SSL_KEY").or base.tls.key
  /-- The flag of the redirect counts, and without one its port switches it on. -/
  enabled : s.redirect.enabled = ((value "ENABLE_HTTP_REDIRECT").map readFlag).getD
    ((value "HTTPS_REDIRECT_PORT").isSome || base.redirect.enabled)
  /-- The port of the redirect. -/
  port : (value "HTTPS_REDIRECT_PORT").elim (s.redirect.port = base.redirect.port)
    (WritesPort · s.redirect.port)
  /-- The URL of the database, with all else about the database as it was. -/
  database : s.database =
    { base.database with url := (value "POSTGRES_URL").or base.database.url }
  /-- Whether there is a self-test, with all else about it as it was. -/
  selfTest : s.selfTest = { base.selfTest with
    enabled := ((value "NETWORK_TEST_ON_START").map readFlag).getD base.selfTest.enabled }
  /-- Whether the status routes are left out. -/
  api : s.api.disableStatus =
    ((value "DISABLE_STATUS").map readFlag).getD base.api.disableStatus
  /-- The servers and addresses of the media engine, with all else about it as it was. -/
  media : s.media = { base.media with
    stunServers := ((value "STUN_SERVERS").map readList).getD base.media.stunServers
    natAddresses := ((value "NAT_1_TO_1_IP").map readList).getD base.media.natAddresses }
  /-- Credentials come from the settings file alone. -/
  streamers : s.streamers = base.streamers

/-- Any part of settings after an assignment. -/
theorem apply_assign {β : Type} (f : Settings → β) (store : String → Settings → Settings) :
    f (assign env name store s) = ((value? env name).map fun v => f (store v s)).getD (f s) := by
  unfold assign
  cases value? env name <;> rfl

theorem getD_map_const {α β : Type} (o : Option α) (b : β) : (o.map fun _ => b).getD b = b := by
  cases o <;> rfl

/-- The variables in front of the port of the redirect set the listener and its certificate. -/
theorem assignListener_eq : assignListener env s =
    { s with
      server := ⟨(value? env "HTTP_ADDRESS").getD s.server.httpAddress⟩
      tls := ⟨(value? env "SSL_CERT").or s.tls.cert, (value? env "SSL_KEY").or s.tls.key⟩ } := by
  unfold assignListener assign
  cases value? env "HTTP_ADDRESS" <;> cases value? env "SSL_CERT" <;> cases value? env "SSL_KEY" <;>
    rfl

/-- The variables behind the port of the redirect set everything else. -/
theorem assignOthers_eq : assignOthers env s =
    { s with
      redirect := ⟨((value? env "ENABLE_HTTP_REDIRECT").map readFlag).getD s.redirect.enabled,
        s.redirect.port⟩
      database := { s.database with url := (value? env "POSTGRES_URL").or s.database.url }
      selfTest := { s.selfTest with
        enabled := ((value? env "NETWORK_TEST_ON_START").map readFlag).getD s.selfTest.enabled }
      api := ⟨((value? env "DISABLE_STATUS").map readFlag).getD s.api.disableStatus⟩
      media := { s.media with
        stunServers := ((value? env "STUN_SERVERS").map readList).getD s.media.stunServers
        natAddresses :=
          ((value? env "NAT_1_TO_1_IP").map readList).getD s.media.natAddresses } } := by
  apply Settings.ext
  case server => simp only [assignOthers, apply_assign Settings.server, getD_map_const]
  case tls => simp only [assignOthers, apply_assign Settings.tls, getD_map_const]
  case streamers => simp only [assignOthers, apply_assign Settings.streamers, getD_map_const]
  case redirect =>
    simp only [assignOthers, apply_assign Settings.redirect, getD_map_const]
    cases value? env "ENABLE_HTTP_REDIRECT" <;> simp
  case database =>
    simp only [assignOthers, apply_assign Settings.database, getD_map_const]
    cases value? env "POSTGRES_URL" <;> rfl
  case selfTest =>
    simp only [assignOthers, apply_assign Settings.selfTest, getD_map_const]
    cases value? env "NETWORK_TEST_ON_START" <;> simp
  case api =>
    simp only [assignOthers, apply_assign Settings.api, getD_map_const]
    cases value? env "DISABLE_STATUS" <;> simp
  case media =>
    simp only [assignOthers, apply_assign Settings.media, getD_map_const]
    cases value? env "STUN_SERVERS" <;> cases value? env "NAT_1_TO_1_IP" <;> rfl

/-- The overlay where nothing is said about the port of the redirect, or a port is written. -/
theorem overlay_of_writesPort (base : Settings)
    (hport : ∀ text, value? env "HTTPS_REDIRECT_PORT" = some text → ∃ port, WritesPort text port) :
    ∃ s, overlay env base = (s, none) ∧ Overlaid (value? env) base s := by
  cases htext : value? env "HTTPS_REDIRECT_PORT" with
  | none =>
    have hoverlay : overlay env base = (assignOthers env (assignListener env base), none) := by
      simp [overlay, htext]
    refine ⟨_, hoverlay, ?_⟩
    rw [assignListener_eq, assignOthers_eq]
    constructor <;> simp [htext]
  | some text =>
    obtain ⟨port, hport⟩ := hport text htext
    have hoverlay : overlay env base =
        (assignOthers env { assignListener env base with redirect := ⟨true, port⟩ }, none) := by
      simp [overlay, htext, readPort?_eq_some_iff.mpr hport]
    refine ⟨_, hoverlay, ?_⟩
    rw [assignListener_eq, assignOthers_eq]
    constructor <;> simp [htext, hport]

/-- A text that writes no port ends the overlay. -/
theorem overlay_of_not_writesPort (base : Settings)
    (htext : value? env "HTTPS_REDIRECT_PORT" = some text)
    (hport : ¬∃ port, WritesPort text port) :
    (overlay env base).2 = some (.invalidValue "HTTPS_REDIRECT_PORT" text) := by
  have hread : readPort? text = none :=
    Option.eq_none_iff_forall_ne_some.mpr fun port h => hport ⟨port, readPort?_eq_some_iff.mp h⟩
  simp [overlay, htext, hread]

/-- No two settings are the same settings under the same values. -/
theorem Overlaid.unique {value : String → Option String} {s' : Settings}
    (h : Overlaid value base s) (h' : Overlaid value base s') : s = s' := by
  have hport : s.redirect.port = s'.redirect.port := by
    have hs := h.port
    have hs' := h'.port
    cases htext : value "HTTPS_REDIRECT_PORT" with
    | none =>
      rw [htext] at hs hs'
      exact hs.trans hs'.symm
    | some text =>
      rw [htext] at hs hs'
      exact Option.some.inj
        ((readPort?_eq_some_iff.mpr hs).symm.trans (readPort?_eq_some_iff.mpr hs'))
  apply Settings.ext
  case server => exact congrArg ServerSettings.mk (h.server.trans h'.server.symm)
  case tls => exact congrArg₂ TlsSettings.mk (h.cert.trans h'.cert.symm) (h.key.trans h'.key.symm)
  case redirect => exact congrArg₂ RedirectSettings.mk (h.enabled.trans h'.enabled.symm) hport
  case database => exact h.database.trans h'.database.symm
  case media => exact h.media.trans h'.media.symm
  case selfTest => exact h.selfTest.trans h'.selfTest.symm
  case api => exact congrArg ApiSettings.mk (h.api.trans h'.api.symm)
  case streamers => exact h.streamers.trans h'.streamers.symm

/-! ## What a process loads -/

/-- Over a settings file and an env file that can be read, a process loads the settings of the file
under the values that its variables and those of the env file come to. There is one way to fail: a
value for the port of the redirect that writes no port. -/
theorem load_of_sources (hbase : fromFile files path = .ok base)
    (hdefined : fromEnvFile files folders process = .ok defined) :
    ((∀ text, resolved process defined "HTTPS_REDIRECT_PORT" = some text →
        ∃ port, WritesPort text port) →
      (∃ s, load files folders process path = .ok s) ∧
      ∀ s, load files folders process path = .ok s ↔ Overlaid (resolved process defined) base s) ∧
    (∀ text, resolved process defined "HTTPS_REDIRECT_PORT" = some text →
      (¬∃ port, WritesPort text port) →
      load files folders process path = .error (.invalidValue "HTTPS_REDIRECT_PORT" text)) := by
  have hvalue : value? (layered process defined) = resolved process defined :=
    funext fun _ => value?_layered
  rw [load_eq hbase hdefined, ← hvalue]
  constructor
  · intro hport
    obtain ⟨s, hoverlay, hs⟩ := overlay_of_writesPort base hport
    rw [hoverlay]
    refine ⟨⟨s, rfl⟩, fun s' => ⟨?_, fun hs' => congrArg Except.ok (hs.unique hs')⟩⟩
    rintro ⟨rfl⟩
    exact hs
  · intro text htext hport
    have hfault := overlay_of_not_writesPort base htext hport
    generalize overlay (layered process defined) base = o at hfault
    obtain ⟨_, _⟩ := o
    obtain rfl := hfault
    rfl

/-- All three sources at once. The process names an address, leaves the URL of the database empty
and turns the redirect off; the env file names an address, a database and the port of the redirect;
the settings file names an address and a database. -/
theorem load_of_sources_three :
    let files := FileTree.read ⟨[
      (".env.production", some (Utf8.encode
        "HTTP_ADDRESS=:9\nPOSTGRES_URL=postgres://b/r\nHTTPS_REDIRECT_PORT=+081\n")),
      ("relay.toml", some (Utf8.encode
        "[server]\nhttp_address = ':7'\n[database]\nurl = 'postgres://a/r'\n"))]⟩
    let process : KeyMap String :=
      ⟨[("ENABLE_HTTP_REDIRECT", "off"), ("HTTP_ADDRESS", ":11"), ("POSTGRES_URL", "")]⟩
    load files ["."] process.get? (some "relay.toml") = .ok { Settings.default with
      server := ⟨":11"⟩
      redirect := ⟨false, 81⟩
      database := { DatabaseSettings.default with url := some "postgres://a/r" } } := by
  intro files process
  let base : Settings := { Settings.default with
    server := ⟨":7"⟩
    database := { DatabaseSettings.default with url := some "postgres://a/r" } }
  let defined : KeyMap String := ⟨[("HTTPS_REDIRECT_PORT", "+081"), ("HTTP_ADDRESS", ":9"),
    ("POSTGRES_URL", "postgres://b/r")]⟩
  have hbase : fromFile files (some "relay.toml") = .ok base := by decide +kernel
  have hdefined : fromEnvFile files ["."] process.get? = .ok defined := by decide +kernel
  have hwrites : WritesPort "+081" 81 := ⟨[0, 8, 1], by decide⟩
  have hport : ∀ text, resolved process.get? defined "HTTPS_REDIRECT_PORT" = some text →
      ∃ port, WritesPort text port := by
    rintro text ⟨rfl⟩
    exact ⟨81, hwrites⟩
  obtain ⟨-, hiff⟩ := (load_of_sources hbase hdefined).1 hport
  exact (hiff _).mpr {
    server := rfl
    cert := rfl
    key := rfl
    enabled := by decide
    port := hwrites
    database := rfl
    selfTest := rfl
    api := rfl
    media := rfl
    streamers := rfl }

/-- An address that the process leaves empty is not taken from the env file, so the values of the
two do not come to the first of them that is not empty. -/
theorem empty_variable_hides_env_file :
    let files := FileTree.read ⟨[(".env.production", some (Utf8.encode "HTTP_ADDRESS=:9\n"))]⟩
    let process : KeyMap String := ⟨[("HTTP_ADDRESS", "")]⟩
    let defined : KeyMap String := ⟨[("HTTP_ADDRESS", ":9")]⟩
    fromFile files none = .ok .default ∧ fromEnvFile files ["."] process.get? = .ok defined ∧
      load files ["."] process.get? none = .ok .default ∧
      ¬Overlaid (fun name =>
        ((process.get? name).filter (· ≠ "")).or ((defined.get? name).filter (· ≠ "")))
        .default .default := by
  intro files process defined
  refine ⟨rfl, by decide +kernel, by decide +kernel, fun h => ?_⟩
  exact absurd h.server (by decide)

end Settings

end BroadcastRelay
