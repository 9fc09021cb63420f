import BroadcastRelay.Proofs.Precedence
import BroadcastRelay.Startup
/-!
# When the main listener is plain

`Settings.check` asks that the certificate and the key be given together, and `Settings.listener`
that neither be empty. Variables never leave an empty path (`lastValue_ne_empty`), so one that is
empty is left from before them (`LeftEmpty`). `listener_of_check` says what settings that pass the
check come to: a redirect has a secure listener behind it, and where a file is named the listener is
plain exactly if a path was left empty.
-/

namespace BroadcastRelay

/-- Whether a file of the certificate is named. -/
def TlsSettings.NamesFile (t : TlsSettings) : Prop :=
  ∃ path, path ≠ "" ∧ (t.cert = some path ∨ t.key = some path)

/-- Both files are named where both paths are given and neither is empty. -/
theorem TlsSettings.paths?_eq_some_iff {t : TlsSettings} {cert key : String} :
    t.paths? = some (cert, key) ↔ cert ≠ "" ∧ key ≠ "" ∧ t = ⟨some cert, some key⟩ := by
  match t with
  | ⟨none, _⟩ => simp [paths?]
  | ⟨some _, none⟩ => simp [paths?]
  | ⟨some c, some k⟩ =>
    simp only [paths?, TlsSettings.mk.injEq, Option.some.injEq]
    split_ifs with hempty
    · rw [iff_false_left (by simp)]
      rintro ⟨hcert, hkey, rfl, rfl⟩
      exact hempty.elim hcert hkey
    · rw [not_or] at hempty
      simp only [Option.some.injEq, Prod.mk.injEq]
      constructor
      · rintro ⟨rfl, rfl⟩
        exact ⟨hempty.1, hempty.2, rfl, rfl⟩
      · exact fun h => h.2.2

/-- Where the paths are given together and a file is named, a file is missing exactly if a path is
empty. -/
theorem TlsSettings.paths?_eq_none_iff {t : TlsSettings} (hpaired : t.cert.isSome = t.key.isSome)
    (hnamed : t.NamesFile) : t.paths? = none ↔ t.cert = some "" ∨ t.key = some "" := by
  match t with
  | ⟨none, none⟩ =>
    obtain ⟨_, -, h⟩ := hnamed
    simp at h
  | ⟨some c, some k⟩ => simp [paths?, or_iff_not_imp_left]

namespace Settings

open EnvFile (Environment)

variable {base s : Settings} {env : Environment} {envs : List Environment} {name : String}
  {path : Option String}

/-! ## Overlays one after the other -/

/-- The settings after the variables of several environments, each put over what came before. -/
def overlays (envs : List Environment) (base : Settings) : Settings :=
  envs.foldl (fun s env => (overlay env s).1) base

/-- The last value that environments give to a name. -/
def lastValue (envs : List Environment) (name : String) : Option String :=
  (envs.filterMap (value? · name)).getLast?

/-- A path is empty from the start, and no environment fills it. -/
def LeftEmpty (envs : List Environment) (name : String) (path : Option String) : Prop :=
  path = some "" ∧ ∀ env ∈ envs, value? env name = none

/-- An overlay sets the files of the certificate, also where it fails. -/
theorem tls_overlay : (overlay env s).1.tls =
    ⟨(value? env "SSL_CERT").or s.tls.cert, (value? env "SSL_KEY").or s.tls.key⟩ := by
  unfold overlay
  rw [assignListener_eq]
  dsimp only
  split
  · rw [assignOthers_eq]
  · split
    · rfl
    · rw [assignOthers_eq]

theorem lastValue_cons :
    lastValue (env :: envs) name = (lastValue envs name).or (value? env name) := by
  rw [lastValue, lastValue, List.filterMap_cons]
  cases value? env name with
  | none => rw [Option.or_none]
  | some v =>
    rw [List.getLast?_cons]
    cases (envs.filterMap (value? · name)).getLast? <;> rfl

/-- The last environment that names a file counts, and what came before them all if none does. -/
theorem tls_overlays : (overlays envs base).tls =
    ⟨(lastValue envs "SSL_CERT").or base.tls.cert, (lastValue envs "SSL_KEY").or base.tls.key⟩ := by
  induction envs generalizing base with
  | nil => rfl
  | cons env envs ih =>
    have hstep : overlays (env :: envs) base = overlays envs (overlay env base).1 := rfl
    rw [hstep, ih, tls_overlay, lastValue_cons, lastValue_cons, Option.or_assoc, Option.or_assoc]

/-- No environment gives an empty value. -/
theorem lastValue_ne_empty : lastValue envs name ≠ some "" := by
  intro h
  obtain ⟨env, -, hv⟩ := List.mem_filterMap.mp (List.mem_of_getLast? h)
  exact of_decide_eq_true (Option.filter_eq_some_iff.mp hv).2 rfl

theorem lastValue_eq_none_iff :
    lastValue envs name = none ↔ ∀ env ∈ envs, value? env name = none := by
  rw [lastValue, List.getLast?_eq_none_iff, List.filterMap_eq_nil_iff]

/-- A path that ends up empty was empty from the start. -/
theorem or_eq_empty_iff : (lastValue envs name).or path = some "" ↔ LeftEmpty envs name path := by
  rw [LeftEmpty, ← lastValue_eq_none_iff]
  cases hv : lastValue envs name with
  | none => simp
  | some v =>
    have hne : v ≠ "" := fun h => lastValue_ne_empty (hv.trans (congrArg some h))
    simp [hne]

/-! ## The check -/

/-- What settings have that pass the check. -/
theorem check_eq_ok_iff : s.check = .ok () ↔
    (∃ a, s.server.address = .ok a) ∧ s.tls.cert.isSome = s.tls.key.isSome ∧
      (s.redirect.enabled = true → s.tls.paths? ≠ none) ∧ s.media.check = .ok () := by
  have hsteps : s.check = s.server.address.bind fun _ =>
      if s.tls.cert.isSome != s.tls.key.isSome then .error .unpairedCertificate
      else if s.redirect.enabled && s.tls.paths?.isNone then .error .redirectWithoutTls
      else s.media.check.mapError .media := by
    unfold check
    cases s.server.address with
    | error e => rfl
    | ok a =>
      cases s.tls.cert.isSome != s.tls.key.isSome <;>
        cases s.redirect.enabled && s.tls.paths?.isNone <;> rfl
  rw [hsteps]
  cases s.server.address with
  | error e => simp [Except.bind]
  | ok a =>
    simp only [Except.bind]
    split_ifs with hpaired hredirect
    · simp_all
    · simp_all
    · cases s.media.check <;> simp_all [Except.mapError]

/-! ## The listener -/

theorem listener_eq_secure_iff {cert key : String} :
    s.listener = .secure cert key ↔ s.tls.paths? = some (cert, key) := by
  unfold listener
  split <;> simp [*]

theorem listener_eq_plain_iff : s.listener = .plain ↔ s.tls.paths? = none := by
  unfold listener
  split <;> simp [*]

/-- What opens at an address. -/
theorem openMain_eq {files : Files} {n : Net.Network} {a : Net.SocketAddress}
    (ha : s.server.address = .ok a) :
    Startup.openMain files n s =
      match s.listener with
      | .plain => Startup.bind n .plain a
      | .secure cert key => (Startup.loadCertificate files cert key).bind fun _ =>
          Startup.bind n .secure a := by
  unfold Startup.openMain
  rw [ha]
  rfl

/-- A secure listener that is open has its certificate loaded. -/
theorem loadCertificate_of_openMain {files : Files} {n n' : Net.Network} {cert key : String}
    {a : Net.SocketAddress} (ha : s.server.address = .ok a) (hs : s.listener = .secure cert key)
    (hopen : Startup.openMain files n s = .ok n') :
    Startup.loadCertificate files cert key = .ok () := by
  rw [openMain_eq ha, hs] at hopen
  dsimp only at hopen
  cases hload : Startup.loadCertificate files cert key with
  | ok => rfl
  | error e =>
    rw [hload] at hopen
    cases hopen

/-- Settings that pass the check, whatever they were before the environments. A redirect has a
secure listener behind it. Where a file is named, the listener is plain exactly if a path was empty
from the start and no environment has filled it. A listener is secure exactly if both paths are
given and not empty, and it is open only with its certificate loaded. -/
theorem listener_of_check (base : Settings) (envs : List Environment)
    (hcheck : (overlays envs base).check = .ok ()) :
    let s := overlays envs base
    (s.redirect.enabled = true → s.listener ≠ .plain) ∧
    (s.tls.NamesFile → (s.listener = .plain ↔
      LeftEmpty envs "SSL_CERT" base.tls.cert ∨ LeftEmpty envs "SSL_KEY" base.tls.key)) ∧
    (∀ cert key, s.listener = .secure cert key ↔
      cert ≠ "" ∧ key ≠ "" ∧ s.tls = ⟨some cert, some key⟩) ∧
    ∀ cert key files n n', s.listener = .secure cert key → Startup.openMain files n s = .ok n' →
      Startup.loadCertificate files cert key = .ok () := by
  intro s
  obtain ⟨⟨a, ha⟩, hpaired, hredirect, -⟩ := check_eq_ok_iff.mp hcheck
  refine ⟨fun henabled => ?_, fun hnamed => ?_, fun cert key => ?_, fun cert key files n n' => ?_⟩
  · exact listener_eq_plain_iff.not.mpr (hredirect henabled)
  · have htls : s.tls = _ := tls_overlays
    rw [listener_eq_plain_iff, TlsSettings.paths?_eq_none_iff hpaired hnamed, htls,
      or_eq_empty_iff, or_eq_empty_iff]
  · rw [listener_eq_secure_iff, TlsSettings.paths?_eq_some_iff]
  · exact loadCertificate_of_openMain ha

/-- An empty path of the settings file that a variable fills leaves nothing plain. -/
theorem listener_of_check_filled :
    let env : KeyMap String := ⟨[("SSL_CERT", "relay.pem")]⟩
    ∃ base, ofText "[tls]\ncert = ''\nkey = 'relay.key'\n[redirect]\nenabled = true\n" = .ok base ∧
      (overlays [env.get?] base).check = .ok () ∧ (overlays [env.get?] base).listener ≠ .plain := by
  intro env
  let base : Settings := { Settings.default with
    tls := ⟨some "", some "relay.key"⟩
    redirect := ⟨true, 80⟩ }
  have hcheck : (overlays [env.get?] base).check = .ok () := by decide +kernel
  exact ⟨base, by decide +kernel, hcheck, (listener_of_check base _ hcheck).1 rfl⟩

/-- A settings file with a key and an empty certificate passes the check, and the relay serves
without encryption, whatever the key file holds. -/
theorem empty_path_serves_plain :
    let s : Settings := { Settings.default with tls := ⟨some "", some "relay.key"⟩ }
    ofText "[tls]\ncert = ''\nkey = 'relay.key'\n" = .ok s ∧ s.check = .ok () ∧ s.tls.NamesFile ∧
      s.tls.paths? = none ∧ s.listener = .plain ∧
      ∀ files, Startup.openMain files ⟨[]⟩ s = .ok ⟨[⟨.v4 0 0 0 0, 0, 8080⟩]⟩ := by
  intro s
  refine ⟨by decide +kernel, by decide +kernel, ⟨"relay.key", by decide, .inr rfl⟩, rfl, rfl,
    fun files => ?_⟩
  have ha : s.server.address = .ok ⟨.v4 0 0 0 0, 0, 8080⟩ := by decide +kernel
  rw [openMain_eq ha]
  rfl

end Settings

end BroadcastRelay
