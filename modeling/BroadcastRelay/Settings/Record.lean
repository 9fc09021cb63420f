import BroadcastRelay.Settings.Basic
/-!
# Settings as records

How the sections are read from documents, and how they are written as JSON. Every field has a
default, and the fields are written in the order of declaration.
-/

namespace BroadcastRelay

open Document

/-- How the section of the server is read. -/
def ServerSettings.record : Record ServerSettings where
  name := "ServerConfig"
  fields := [.of "http_address" false readString fun v s => { s with httpAddress := v }]
  blank := .default

/-- How the section of the certificate is read. -/
def TlsSettings.record : Record TlsSettings where
  name := "TlsConfig"
  fields := [
    .of "cert" false (readOption readString) fun v s => { s with cert := v },
    .of "key" false (readOption readString) fun v s => { s with key := v }]
  blank := .default

/-- How the section of the redirect is read. -/
def RedirectSettings.record : Record RedirectSettings where
  name := "RedirectConfig"
  fields := [
    .of "enabled" false readBool fun v s => { s with enabled := v },
    .of "port" false readUInt16 fun v s => { s with port := v }]
  blank := .default

/-- How the section of the database is read. -/
def DatabaseSettings.record : Record DatabaseSettings where
  name := "DatabaseConfig"
  fields := [
    .of "url" false (readOption readString) fun v s => { s with url := v },
    .of "max_connections" false readUInt32 fun v s => { s with maxConnections := v },
    .of "acquire_timeout_seconds" false readUInt64
      fun v s => { s with acquireTimeoutSeconds := v }]
  blank := .default

/-- How the section of the self-test is read. -/
def SelfTestSettings.record : Record SelfTestSettings where
  name := "SelfTestConfig"
  fields := [
    .of "enabled" false readBool fun v s => { s with enabled := v },
    .of "timeout_seconds" false readUInt64 fun v s => { s with timeoutSeconds := v },
    .of "stream_key" false readString fun v s => { s with streamKey := v }]
  blank := .default

/-- How the section of the routes is read. -/
def ApiSettings.record : Record ApiSettings where
  name := "ApiConfig"
  fields := [.of "disable_status" false readBool fun v s => { s with disableStatus := v }]
  blank := .default

/-- How the settings are read. -/
def Settings.record : Record Settings where
  name := "Config"
  fields := [
    .of "server" false ServerSettings.record.read fun v s => { s with server := v },
    .of "tls" false TlsSettings.record.read fun v s => { s with tls := v },
    .of "redirect" false RedirectSettings.record.read fun v s => { s with redirect := v },
    .of "database" false DatabaseSettings.record.read fun v s => { s with database := v },
    .of "webrtc" false EngineSettings.record.read fun v s => { s with media := v },
    .of "self_test" false SelfTestSettings.record.read fun v s => { s with selfTest := v },
    .of "api" false ApiSettings.record.read fun v s => { s with api := v },
    .of "streamers" false (Document.readList Credential.record.read) fun v s => { s with streamers := v }]
  blank := .default

/-- The settings as JSON. -/
def Settings.toJson (s : Settings) : Json.Value :=
  .object [
    ("server", .object [("http_address", .str s.server.httpAddress)]),
    ("tls", .object [("cert", .ofOption s.tls.cert), ("key", .ofOption s.tls.key)]),
    ("redirect", .object [("enabled", .bool s.redirect.enabled),
      ("port", .number s.redirect.port.toNat)]),
    ("database", .object [("url", .ofOption s.database.url),
      ("max_connections", .number s.database.maxConnections.toNat),
      ("acquire_timeout_seconds", .number s.database.acquireTimeoutSeconds.toNat)]),
    ("webrtc", s.media.toJson),
    ("self_test", .object [("enabled", .bool s.selfTest.enabled),
      ("timeout_seconds", .number s.selfTest.timeoutSeconds.toNat),
      ("stream_key", .str s.selfTest.streamKey)]),
    ("api", .object [("disable_status", .bool s.api.disableStatus)]),
    ("streamers", .list (s.streamers.map Credential.toJson))]

end BroadcastRelay
