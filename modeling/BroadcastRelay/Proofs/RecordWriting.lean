import BroadcastRelay.Media.Layer
import BroadcastRelay.Media.Status
import BroadcastRelay.Proofs.JsonText
import BroadcastRelay.Proofs.RecordReading
import BroadcastRelay.Settings.Record
/-!
# Written records are read back

For each type there is a reader and a writer, and they fit together if the document of what is
written is read as the value it was written from (`Json.ReadsBack`). That is shown once for each
kind of value: texts, truth values, whole numbers of each width, optional texts and lists. A record
is written as an object of its fields in order, so it is read back if each field is, and no two of
them share a name (`Record.read_of_fills`).

From this it follows that a text that was decoded may be written anew: the new text stands for the
same value, and to write it once more changes nothing (`json_forms_faithful`).
-/

namespace BroadcastRelay

/-! ## Records -/

namespace Record

variable {α : Type} {r : Record α} {members : List (Option String × Document)} {a b : α}
  {f : Field α} {fs : List (Field α)}

/-- Each of the members stands for one of the fields, in order, and together they turn the one
record into the other. -/
inductive Fills : List (Field α) → List (Option String × Document) → α → α → Prop
  | nil (a : α) : Fills [] [] a a
  | cons {f : Field α} {fs : List (Field α)} {d : Document} {update : α → α}
      {members : List (Option String × Document)} {a b : α} (hread : f.read d = .ok update)
      (hrest : Fills fs members (update a) b) : Fills (f :: fs) ((some f.name, d) :: members) a b

/-- A field is found by its name if none before it has the same. -/
theorem field?_of_fields_eq {done : List (Field α)} (hfields : r.fields = done ++ f :: fs)
    (hnew : f.name ∉ done.map (·.name)) : r.field? f.name = some f := by
  have hbefore : done.find? (·.name == f.name) = none := by
    refine List.find?_eq_none.mpr fun g hg heq => hnew (List.mem_map.mpr ⟨g, hg, ?_⟩)
    simpa using heq
  rw [field?, hfields, List.find?_append, hbefore, Option.none_or]
  exact List.find?_cons_of_pos (beq_self_eq_true f.name)

/-- When the fields up to some point have been read, the others are read one after another. -/
theorem foldlM_of_fills (hnames : (r.fields.map (·.name)).Nodup) (done : List (Field α))
    (hfields : r.fields = done ++ fs) (h : Fills fs members a b) :
    members.foldlM r.member (a, (done.map (·.name)).reverse) =
      .ok (b, (r.fields.map (·.name)).reverse) := by
  induction h generalizing done with
  | nil a =>
    rw [hfields, List.append_nil]
    rfl
  | @cons f fs d update members a b hread hrest ih =>
    have hnew : f.name ∉ done.map (·.name) := by
      rw [hfields, List.map_append, List.map_cons, List.nodup_append] at hnames
      exact fun hmem => hnames.2.2 f.name hmem f.name List.mem_cons_self rfl
    have htakes : r.Takes (a, (done.map (·.name)).reverse) (some f.name, d)
        (update a, f.name :: (done.map (·.name)).reverse) :=
      .read (field?_of_fields_eq hfields hnew) (by simpa using hnew) hread
    refine foldlM_cons_eq_ok_iff.mpr ⟨_, htakes, ?_⟩
    have hstep := ih (done ++ [f]) (by rw [hfields, List.append_cons])
    rwa [List.map_append, List.map_singleton, List.reverse_append, List.reverse_singleton,
      List.singleton_append] at hstep

/-- An object of all fields in order is read as the record that they make. -/
theorem read_of_fills (hnames : (r.fields.map (·.name)).Nodup)
    (h : Fills r.fields members r.blank a) : r.read (.map members .closed) = .ok a := by
  have hfold := foldlM_of_fills hnames [] rfl h
  refine read_map_eq_ok_iff.mpr ⟨_, hfold, missing?_eq_none_iff.mpr fun f hf _ => ?_⟩
  rw [List.mem_reverse]
  exact List.mem_map_of_mem hf

end Record

namespace Json

/-! ## Numbers -/

namespace Number

theorem ofDigits_map (cs : List Char) :
    ofDigits (cs.map (·.toNat - 48)) = Nat.ofDigitChars 10 cs 0 := by
  rw [ofDigits, List.foldl_map, Nat.ofDigitChars_eq_foldl]
  simp only [Nat.mul_comm 10]
  rfl

/-- A written number of sixty-four bits stands for itself: it has at most twenty digits. -/
theorem document_ofNat {n : Nat} (h : n < UInt64.size) : (ofNat n).document = .unsigned n := by
  have hlength : (Nat.toDigits 10 n).length ≤ 21 :=
    (Nat.length_toDigits_le_iff (by decide) (by decide)).mpr (Nat.lt_trans h (by decide))
  have hwhole : ((Nat.toDigits 10 n).map (·.toNat - 48)).take 21 =
      (Nat.toDigits 10 n).map (·.toNat - 48) :=
    List.take_of_length_le (by rwa [List.length_map])
  have hvalue : ofDigits ((ofNat n).whole.take 21) = n := by
    rw [ofNat, hwhole, ofDigits_map, Nat.ofDigitChars_ten_toDigits]
  rw [document, hvalue]
  simp only [ofNat, Option.isSome_none, Bool.or_self, Bool.false_eq_true, if_false, if_pos h]

end Number

/-! ## Values -/

open Document

variable {α : Type} {read : Reader α} {write : α → Value}

/-- Whatever is written is read back. -/
def ReadsBack (read : Reader α) (write : α → Value) : Prop :=
  ∀ a, read (write a).document = .ok a

theorem readsBack_string : ReadsBack readString .str := fun _ => rfl

theorem readsBack_bool : ReadsBack readBool .bool := fun _ => rfl

theorem readUnsigned_number {width n : Nat} (hwidth : width ≤ 64) (h : n < Nat.pow 2 width) :
    readUnsigned width (Value.number n).document = .ok n := by
  have hsize : n < UInt64.size :=
    Nat.lt_of_lt_of_le h (Nat.pow_le_pow_right (by decide) hwidth)
  rw [Value.document, Number.document_ofNat hsize, readUnsigned, if_pos h]

theorem readsBack_uint16 : ReadsBack readUInt16 fun n => .number n.toNat := by
  intro n
  rw [readUInt16, readUnsigned_number (by decide) n.toNat_lt]
  exact congrArg Except.ok (UInt16.ofNat_toNat)

theorem readsBack_uint32 : ReadsBack readUInt32 fun n => .number n.toNat := by
  intro n
  rw [readUInt32, readUnsigned_number (by decide) n.toNat_lt]
  exact congrArg Except.ok (UInt32.ofNat_toNat)

theorem readsBack_uint64 : ReadsBack readUInt64 fun n => .number n.toNat := by
  intro n
  rw [readUInt64, readUnsigned_number (by decide) n.toNat_lt]
  exact congrArg Except.ok (UInt64.ofNat_toNat)

/-- An optional text is null or a text, and a text is not null. -/
theorem readsBack_option : ReadsBack (readOption readString) .ofOption := by
  intro s?
  cases s? <;> rfl

/-- A list is read back if its items are. -/
theorem ReadsBack.list (h : ReadsBack read write) :
    ReadsBack (readList read) fun as => .list (as.map write) := by
  intro as
  have hitems : (as.map fun a => (write a).document).mapM read = .ok as := by
    induction as with
    | nil => rfl
    | cons a as ih =>
      rw [List.map_cons, List.mapM_cons, h a, ih]
      rfl
  rw [Value.document, itemDocuments_eq_map, List.map_map, readList]
  exact bind_eq_ok_iff.mpr ⟨as, hitems, rfl⟩

theorem readsBack_strings : ReadsBack (readList readString) .strings := readsBack_string.list

/-- A field stores what is read back. -/
theorem ReadsBack.field {β : Type} {name : String} {required : Bool} {store : α → β → β}
    (h : ReadsBack read write) (a : α) :
    (Field.of name required read store).read (write a).document = .ok (store a) :=
  map_eq_ok_iff.mpr ⟨a, h a, rfl⟩

/-- What is read back from the document is decoded from the text. -/
theorem ReadsBack.decode_render (h : ReadsBack read write) (a : α) :
    decode read (Utf8.encode (write a).render) = .ok a :=
  (Json.decode_render read (write a)).trans (h a)

/-! ## Writing anew -/

/-- Decodes a text and writes what it stands for. -/
def rewrite (read : Reader α) (write : α → Value) (bytes : Bytes) : Except DecodeError Bytes :=
  (decode read bytes).map fun a => Utf8.encode (write a).render

/-- Writing loses nothing: what is written is decoded as it was, and a text that can be decoded may
be written anew, which keeps what it stands for, and after that it stays as it is. -/
structure Faithful (read : Reader α) (write : α → Value) : Prop where
  decode_render : ∀ a, decode read (Utf8.encode (write a).render) = .ok a
  rewrite : ∀ bytes a, decode read bytes = .ok a → ∃ text, rewrite read write bytes = .ok text ∧
    decode read text = .ok a ∧ rewrite read write text = .ok text

theorem ReadsBack.faithful (h : ReadsBack read write) : Faithful read write := by
  refine ⟨h.decode_render, fun bytes a hdecode => ⟨Utf8.encode (write a).render, ?_,
    h.decode_render a, ?_⟩⟩
  · rw [Json.rewrite, hdecode]
    rfl
  · rw [Json.rewrite, h.decode_render]
    rfl

end Json

/-! ## The records -/

open Json Record

theorem Layer.readsBack : ReadsBack record.read toJson := fun l =>
  read_of_fills (by decide) <|
    .cons (readsBack_string.field l.mediaId) <|
    .cons (readsBack_string.field l.encodingId) <| .nil _

theorem VideoStatus.readsBack : ReadsBack record.read toJson := fun s =>
  read_of_fills (by decide) <|
    .cons (readsBack_string.field s.rid) <|
    .cons (readsBack_uint64.field s.packetsReceived) <| .nil _

theorem SessionStatus.readsBack : ReadsBack record.read toJson := fun s =>
  read_of_fills (by decide) <|
    .cons (readsBack_string.field s.id) <|
    .cons (readsBack_string.field s.currentLayer) <|
    .cons (readsBack_uint64.field s.packetsWritten) <| .nil _

theorem StreamStatus.readsBack : ReadsBack record.read toJson := fun s =>
  read_of_fills (by decide) <|
    .cons (readsBack_string.field s.streamKey) <|
    .cons (readsBack_uint64.field s.firstSeenEpoch) <|
    .cons (readsBack_uint64.field s.audioPacketsReceived) <|
    .cons (VideoStatus.readsBack.list.field s.videoStreams) <|
    .cons (SessionStatus.readsBack.list.field s.sessions) <| .nil _

theorem Credential.readsBack : ReadsBack record.read toJson := fun c =>
  read_of_fills (by decide) <|
    .cons (readsBack_string.field c.name) <|
    .cons (readsBack_strings.field c.streamKeys) <|
    .cons (readsBack_string.field c.authToken) <| .nil _

theorem EngineSettings.readsBack : ReadsBack record.read toJson := fun s =>
  read_of_fills (by decide) <|
    .cons (readsBack_strings.field s.stunServers) <|
    .cons (readsBack_strings.field s.natAddresses) <|
    .cons (readsBack_uint64.field s.keyframeIntervalMs) <| .nil _

/-! ### The sections of the settings -/

theorem ServerSettings.readsBack :
    ReadsBack record.read fun s => .object [("http_address", .str s.httpAddress)] := fun s =>
  read_of_fills (by decide) <| .cons (readsBack_string.field s.httpAddress) <| .nil _

theorem TlsSettings.readsBack : ReadsBack record.read fun s =>
    .object [("cert", .ofOption s.cert), ("key", .ofOption s.key)] := fun s =>
  read_of_fills (by decide) <|
    .cons (readsBack_option.field s.cert) <|
    .cons (readsBack_option.field s.key) <| .nil _

theorem RedirectSettings.readsBack : ReadsBack record.read fun s =>
    .object [("enabled", .bool s.enabled), ("port", .number s.port.toNat)] := fun s =>
  read_of_fills (by decide) <|
    .cons (readsBack_bool.field s.enabled) <|
    .cons (readsBack_uint16.field s.port) <| .nil _

theorem DatabaseSettings.readsBack : ReadsBack record.read fun s =>
    .object [("url", .ofOption s.url), ("max_connections", .number s.maxConnections.toNat),
      ("acquire_timeout_seconds", .number s.acquireTimeoutSeconds.toNat)] := fun s =>
  read_of_fills (by decide) <|
    .cons (readsBack_option.field s.url) <|
    .cons (readsBack_uint32.field s.maxConnections) <|
    .cons (readsBack_uint64.field s.acquireTimeoutSeconds) <| .nil _

theorem SelfTestSettings.readsBack : ReadsBack record.read fun s =>
    .object [("enabled", .bool s.enabled), ("timeout_seconds", .number s.timeoutSeconds.toNat),
      ("stream_key", .str s.streamKey)] := fun s =>
  read_of_fills (by decide) <|
    .cons (readsBack_bool.field s.enabled) <|
    .cons (readsBack_uint64.field s.timeoutSeconds) <|
    .cons (readsBack_string.field s.streamKey) <| .nil _

theorem ApiSettings.readsBack :
    ReadsBack record.read fun s => .object [("disable_status", .bool s.disableStatus)] := fun s =>
  read_of_fills (by decide) <| .cons (readsBack_bool.field s.disableStatus) <| .nil _

theorem Settings.readsBack : ReadsBack record.read toJson := fun s =>
  read_of_fills (by decide) <|
    .cons (ServerSettings.readsBack.field s.server) <|
    .cons (TlsSettings.readsBack.field s.tls) <|
    .cons (RedirectSettings.readsBack.field s.redirect) <|
    .cons (DatabaseSettings.readsBack.field s.database) <|
    .cons (EngineSettings.readsBack.field s.media) <|
    .cons (SelfTestSettings.readsBack.field s.selfTest) <|
    .cons (ApiSettings.readsBack.field s.api) <|
    .cons (Credential.readsBack.list.field s.streamers) <| .nil _

/-- The records that are written as JSON are written faithfully, whatever texts and numbers are in
them. -/
theorem json_forms_faithful :
    Faithful Layer.record.read Layer.toJson ∧
      Faithful StreamStatus.record.read StreamStatus.toJson ∧
      Faithful Credential.record.read Credential.toJson ∧
      Faithful EngineSettings.record.read EngineSettings.toJson ∧
      Faithful Settings.record.read Settings.toJson :=
  ⟨Layer.readsBack.faithful, StreamStatus.readsBack.faithful, Credential.readsBack.faithful,
    EngineSettings.readsBack.faithful, Settings.readsBack.faithful⟩

end BroadcastRelay
