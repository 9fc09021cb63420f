import BroadcastRelay.EnvFile.Entries
import BroadcastRelay.Settings.Basic
import BroadcastRelay.Settings.Error
import BroadcastRelay.Settings.Text
/-!
# Settings from variables

`Settings.overlay` puts the values of variables over settings. A variable that is empty counts as
unset. The port of the redirect switches the redirect on, unless its flag says otherwise; a port that
is none ends the overlay and leaves what came before in place.
-/

namespace BroadcastRelay.Settings

open EnvFile (Environment)

/-- The value of a variable, unless it is empty. -/
def value? (env : Environment) (name : String) : Option String := (env name).filter (· ≠ "")

/-- Stores the value of a variable, if it has one. -/
def assign (env : Environment) (name : String) (store : String → Settings → Settings)
    (s : Settings) : Settings :=
  match value? env name with
  | some v => store v s
  | none => s

/-- The port that a text writes in decimal, with or without a plus sign. -/
def readPort? (text : String) : Option UInt16 :=
  let ds := match text.toList with
    | '+' :: cs => cs
    | cs => cs
  (Scan.whole (Net.readNumber 10 UInt16.size none) ds).map UInt16.ofNat

/-- The variables in front of the port of the redirect. -/
def assignListener (env : Environment) (s : Settings) : Settings :=
  s |> assign env "HTTP_ADDRESS" (fun v s => { s with server := ⟨v⟩ })
    |> assign env "SSL_CERT" (fun v s => { s with tls := { s.tls with cert := some v } })
    |> assign env "SSL_KEY" (fun v s => { s with tls := { s.tls with key := some v } })

/-- The variables behind the port of the redirect. -/
def assignOthers (env : Environment) (s : Settings) : Settings :=
  s |> assign env "ENABLE_HTTP_REDIRECT"
        (fun v s => { s with redirect := { s.redirect with enabled := readFlag v } })
    |> assign env "POSTGRES_URL" (fun v s => { s with database := { s.database with url := some v } })
    |> assign env "NETWORK_TEST_ON_START"
        (fun v s => { s with selfTest := { s.selfTest with enabled := readFlag v } })
    |> assign env "DISABLE_STATUS" (fun v s => { s with api := ⟨readFlag v⟩ })
    |> assign env "STUN_SERVERS"
        (fun v s => { s with media := { s.media with stunServers := readList v } })
    |> assign env "NAT_1_TO_1_IP"
        (fun v s => { s with media := { s.media with natAddresses := readList v } })

/-- Puts the values of variables over settings: the settings afterwards, and what went wrong. -/
def overlay (env : Environment) (s : Settings) : Settings × Option SettingsError :=
  let s := assignListener env s
  match value? env "HTTPS_REDIRECT_PORT" with
  | none => (assignOthers env s, none)
  | some text =>
    match readPort? text with
    | none => (s, some (.invalidValue "HTTPS_REDIRECT_PORT" text))
    | some port => (assignOthers env { s with redirect := ⟨true, port⟩ }, none)

end BroadcastRelay.Settings
