import BroadcastRelay.Credential.DatabaseStore
import BroadcastRelay.Http.Query
import BroadcastRelay.Net.Url
import BroadcastRelay.Text.Quoted
import BroadcastRelay.Text.Whole
/-!
# URLs of databases

`DatabaseUrl.check` refuses a URL that no connection can be made with: one that is no URL, one whose
user, password or socket is no text, and one with a parameter that cannot be used. The scheme and
parameters that are not known do not matter.
-/

namespace BroadcastRelay.DatabaseUrl

/-- Refuses escaped bytes that are no text. -/
def checkText (escaped : String) : Except DatabaseError Unit :=
  match Utf8.fault? (Http.percentDecode (Utf8.encode escaped)) with
  | some fault => .error (.configuration fault.message)
  | none => .ok ()

/-- Refuses a host that names a socket but is no text. -/
def checkHost (host : String) : Except DatabaseError Unit :=
  if (Http.percentDecode (Utf8.encode host)).head? = some 47 then checkText host else .ok ()

/-- Refuses user information whose name or password is no text. -/
def checkUserInfo (userInfo : String) : Except DatabaseError Unit := do
  let cs := userInfo.toList
  checkText (String.ofList (cs.takeWhile (· ≠ ':')))
  checkText (String.ofList ((cs.dropWhile (· ≠ ':')).drop 1))

/-- The ways in which a connection can be secured. -/
def securityModes : List String :=
  ["disable", "allow", "prefer", "require", "verify-ca", "verify-full"]

/-- Refuses a way of securing a connection that is unknown. -/
def checkSecurity (value : String) : Except DatabaseError Unit :=
  if securityModes.contains (String.ofList (value.toList.map Char.toLower)) then .ok ()
  else
    let cause := DatabaseError.configuration
      ("unknown value " ++ Quoted.encode value ++ " for `ssl_mode`")
    .error (.configuration cause.message)

/-- Refuses a value that is no whole number below a bound. -/
def checkNumber (bound : Nat) (value : String) : Except DatabaseError Unit :=
  match WholeNumber.read bound value with
  | .ok _ => .ok ()
  | .error fault => .error (.configuration fault.message)

/-- Refuses a parameter that cannot be used. -/
def checkParameter (name value : String) : Except DatabaseError Unit :=
  match name with
  | "sslmode" | "ssl-mode" => checkSecurity value
  | "statement-cache-capacity" => checkNumber UInt64.size value
  | "port" => checkNumber UInt16.size value
  | "hostaddr" =>
    if (Net.IpAddress.parse? value).isSome then .ok ()
    else .error (.configuration "invalid IP address syntax")
  | _ => .ok ()

/-- Refuses a URL that no connection can be made with. -/
def check (text : String) : Except DatabaseError Unit := do
  let url ← (Net.Url.parse text).mapError fun e => .configuration e.message
  checkHost (url.host.getD "")
  checkUserInfo url.userInfo
  (Http.Query.pairs (url.query.getD "")).forM fun (name, value) => checkParameter name value

end BroadcastRelay.DatabaseUrl
