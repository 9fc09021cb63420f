import BroadcastRelay.Http.Message
/-!
# Redirection to HTTPS

The plain listener answers every request with the same target on the secure port of the same host.
The host is the one the client names in its header, kept as it was sent, or else the one in the
request target.
-/

namespace BroadcastRelay.Redirect

open Http

/-- The secure location of a target on a host. -/
def location (host : String) (uri : Uri) : String :=
  "https://" ++ host ++ uri.pathAndQuery?.getD "/"

/-- The host that a request names. -/
def host? (r : Request) : Option String :=
  ((r.headers.first? "host").bind text?).or r.uri.authority

/-- Answers a request. -/
def respond (r : Request) : Response :=
  match host? r with
  | some host => .bare 301 [field "location" (location host r.uri)]
  | none => .plain 400 "Missing Host header"

end BroadcastRelay.Redirect
