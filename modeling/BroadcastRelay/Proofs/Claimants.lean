import BroadcastRelay.Proofs.Publishing
/-!
# Whose a stream key is

Credentials come and go, and nothing keeps two of them from listing one stream key. What a store
holds after a history of changes are the credentials that came in and whose names have not been
revoked since (`credentials_after`). Those that list a key are its `claimants`, and a look-up is of
the one claimant that carries its token (`finds_iff`).

A key listed twice is refused as a duplicate only for a token that two claimants share, so it may be
found for several streamers. `finds_eq_iff_token_eq` says when two look-ups are of one credential,
and which keys belong to one streamer whatever the token.
-/

namespace BroadcastRelay

/-- A change of the credentials that a store holds. -/
inductive CredentialChange where
  /-- A credential comes in. -/
  | insert (c : Credential)
  /-- All credentials of a name go. -/
  | revoke (name : String)
deriving DecidableEq, Repr

namespace MemoryStore

variable {s : MemoryStore} {key token : String} {c : Credential}

/-! ## Histories -/

/-- The store after a change. -/
def change (s : MemoryStore) : CredentialChange → MemoryStore
  | .insert c => s.insert c
  | .revoke name => (s.revoke name).1

/-- The store after changes one after the other. -/
def after (s : MemoryStore) (changes : List CredentialChange) : MemoryStore :=
  changes.foldl change s

/-- The credentials that came in and whose names have not been revoked since. -/
def standing : List CredentialChange → List Credential
  | [] => []
  | .insert c :: later => if .revoke c.name ∈ later then standing later else c :: standing later
  | .revoke _ :: later => standing later

/-- A history keeps what its revocations do not name and adds what stands of it. -/
theorem credentials_after (s : MemoryStore) (changes : List CredentialChange) :
    (s.after changes).credentials =
      s.credentials.filter (fun c => .revoke c.name ∉ changes) ++ standing changes := by
  induction changes generalizing s with
  | nil =>
    rw [standing, List.append_nil, List.filter_eq_self.mpr fun c _ => by simp]
    rfl
  | cons x later ih =>
    have hstep : s.after (x :: later) = (s.change x).after later := rfl
    rw [hstep, ih]
    cases x with
    | insert c =>
      simp only [change, insert, standing, List.filter_append, List.append_assoc,
        List.mem_cons, reduceCtorEq, false_or]
      split <;> rename_i h <;> simp [h]
    | revoke name =>
      have hfilter : ∀ c : Credential, (decide (.revoke c.name ∉ later) && decide (c.name ≠ name)) =
          decide (.revoke c.name ∉ CredentialChange.revoke name :: later) := by
        intro c
        simp [Bool.and_comm]
      simp only [change, revoke, standing, List.filter_filter, hfilter]

/-- To start with credentials is to have them come in. -/
theorem after_map_insert (init : List Credential) (changes : List CredentialChange) :
    (⟨init⟩ : MemoryStore).after changes =
      (⟨[]⟩ : MemoryStore).after (init.map .insert ++ changes) := by
  have hinit : ∀ (cs : List Credential) (s : MemoryStore),
      s.after (cs.map .insert) = ⟨s.credentials ++ cs⟩ := by
    intro cs
    induction cs with
    | nil => simp [after]
    | cons c cs ih =>
      intro s
      have hstep : s.after ((c :: cs).map .insert) = (s.insert c).after (cs.map .insert) := rfl
      rw [hstep, ih, insert, List.append_assoc, List.singleton_append]
  rw [after, after, List.foldl_append]
  exact congrArg (changes.foldl change) (hinit init ⟨[]⟩).symm

/-- What a store holds, from its start on, is what stands of its history. -/
theorem credentials_after_init (init : List Credential) (changes : List CredentialChange) :
    ((⟨init⟩ : MemoryStore).after changes).credentials =
      standing (init.map .insert ++ changes) := by
  rw [after_map_insert, credentials_after]
  rfl

/-! ## Look-ups -/

/-- The credentials that list a stream key. -/
def claimants (s : MemoryStore) (key : String) : List Credential :=
  s.credentials.filter (key ∈ ·.streamKeys)

/-- A look-up succeeds, and the credential is one that it is for. -/
def Finds (s : MemoryStore) (key token : String) (c : Credential) : Prop :=
  s.find key token = .ok (some ⟨c.name, key⟩) ∧ c ∈ s.claimants key ∧ c.authToken = token

theorem mem_filter_covers :
    c ∈ s.credentials.filter (·.covers key token) ↔ c ∈ s.claimants key ∧ c.authToken = token := by
  simp [claimants, Credential.covers, and_assoc, and_comm]

/-- A look-up is of the one claimant that carries the token. -/
theorem finds_iff : s.Finds key token c ↔ s.credentials.filter (·.covers key token) = [c] := by
  unfold Finds
  rw [← mem_filter_covers, find]
  generalize s.credentials.filter (·.covers key token) = found
  match found with
  | [] => simp
  | [d] =>
    simp only [List.mem_singleton, List.cons.injEq, and_true]
    constructor
    · exact fun h => h.2.symm
    · rintro rfl
      exact ⟨rfl, rfl⟩
  | _ :: _ :: _ => simp

theorem exists_finds_iff : (∃ c, s.Finds key token c) ↔ s.owners key token = 1 := by
  simp only [finds_iff, ← length_filter_covers, List.length_eq_one_iff]

/-- Whoever is found is found by a credential. -/
theorem find_eq_some_iff {x : Streamer} :
    s.find key token = .ok (some x) ↔ ∃ c, s.Finds key token c ∧ x = ⟨c.name, key⟩ := by
  constructor
  · intro hx
    rcases s.find_eq key token with ⟨-, hf⟩ | ⟨hone, -⟩ | ⟨-, hf⟩
    · exact absurd (hf.symm.trans hx) (by simp)
    · obtain ⟨c, hc⟩ := exists_finds_iff.mpr hone
      exact ⟨c, hc, Option.some.inj (Except.ok.inj (hx.symm.trans hc.1))⟩
    · exact absurd (hf.symm.trans hx) (by simp)
  · rintro ⟨c, hc, rfl⟩
    exact hc.1

/-- A look-up that finds nobody says so, or that the key is a duplicate. -/
theorem refuses_iff : (s.find key token = .error (.duplicateStreamKey key) ∨
    s.find key token = .ok none) ↔ s.owners key token ≠ 1 := by
  rcases s.find_eq key token with ⟨hcount, hf⟩ | ⟨hcount, name, hf⟩ | ⟨hcount, hf⟩
  · simp [hf, hcount]
  · simp [hf, hcount]
  · simp only [hf, true_or, true_iff]
    omega

/-- No look-up of a key succeeds exactly if each of its claimants shares its token with another. -/
theorem all_refused_iff : (∀ token, s.find key token = .error (.duplicateStreamKey key) ∨
    s.find key token = .ok none) ↔ ∀ c ∈ s.claimants key, 2 ≤ s.owners key c.authToken := by
  simp only [refuses_iff]
  constructor
  · intro hnone c hc
    have hmem : c ∈ s.credentials.filter (·.covers key c.authToken) :=
      mem_filter_covers.mpr ⟨hc, rfl⟩
    have hpos : 0 < s.owners key c.authToken :=
      length_filter_covers s key c.authToken ▸ List.length_pos_of_mem hmem
    have hne := hnone c.authToken
    omega
  · intro hshared token hone
    obtain ⟨c, -, hc, rfl⟩ := exists_finds_iff.mpr hone
    have htwo := hshared c hc
    omega

/-! ## Two look-ups of one key -/

/-- What a store holds after any history are the credentials that stand. Two look-ups of a key that
succeed are of one credential exactly if they are made with one token. So the key belongs to one
streamer, whatever the token, exactly if no two tokens have a single claimant each; and it belongs
to nobody exactly if each of its claimants, however many, shares its token with another. -/
theorem finds_eq_iff_token_eq (init : List Credential) (changes : List CredentialChange)
    (key : String) :
    let s := (⟨init⟩ : MemoryStore).after changes
    s.credentials = standing (init.map .insert ++ changes) ∧
    (∀ token x, s.find key token = .ok (some x) ↔
      ∃ c, s.Finds key token c ∧ x = ⟨c.name, key⟩) ∧
    (∀ t u c d, s.Finds key t c → s.Finds key u d → (c = d ↔ t = u)) ∧
    ((∀ t u c d, s.Finds key t c → s.Finds key u d → c = d) ↔
      ∀ t u, s.owners key t = 1 → s.owners key u = 1 → t = u) ∧
    ((∀ token, s.find key token = .error (.duplicateStreamKey key) ∨ s.find key token = .ok none) ↔
      ∀ c ∈ s.claimants key, 2 ≤ s.owners key c.authToken) := by
  intro s
  have hsame : ∀ t u c d, s.Finds key t c → s.Finds key u d → (c = d ↔ t = u) := by
    intro t u c d hc hd
    constructor
    · rintro rfl
      exact hc.2.2.symm.trans hd.2.2
    · rintro rfl
      exact List.singleton_inj.mp ((finds_iff.mp hc).symm.trans (finds_iff.mp hd))
  refine ⟨credentials_after_init init changes, fun _ _ => find_eq_some_iff, hsame,
    ⟨fun hone t u ht hu => ?_, fun htoken t u c d hc hd => ?_⟩, all_refused_iff⟩
  · obtain ⟨c, hc⟩ := exists_finds_iff.mpr ht
    obtain ⟨d, hd⟩ := exists_finds_iff.mpr hu
    exact (hsame t u c d hc hd).mp (hone t u c d hc hd)
  · exact (hsame t u c d hc hd).mpr
      (htoken t u (exists_finds_iff.mp ⟨c, hc⟩) (exists_finds_iff.mp ⟨d, hd⟩))

/-- A key that somebody else has listed and been revoked for is found by two tokens, of credentials
that differ because the tokens do. -/
theorem finds_eq_iff_token_eq_shared :
    let alice : Credential := ⟨"alice", ["studio"], "s3cret"⟩
    let mallory : Credential := ⟨"mallory", ["hall", "studio"], "hunter2"⟩
    let s := (⟨[alice]⟩ : MemoryStore).after
      [.insert mallory, .insert ⟨"eve", ["studio"], "hunter2"⟩, .revoke "eve"]
    s.Finds "studio" "s3cret" alice ∧ s.Finds "studio" "hunter2" mallory ∧ alice ≠ mallory := by
  intro alice mallory s
  have halice : s.Finds "studio" "s3cret" alice := finds_iff.mpr (by decide)
  have hmallory : s.Finds "studio" "hunter2" mallory := finds_iff.mpr (by decide)
  obtain ⟨-, -, hsame, -, -⟩ := finds_eq_iff_token_eq [alice]
    [.insert mallory, .insert ⟨"eve", ["studio"], "hunter2"⟩, .revoke "eve"] "studio"
  exact ⟨halice, hmallory, mt (hsame _ _ _ _ halice hmallory).mp (by decide)⟩

/-- A key that two streamers list with different tokens is not refused as a duplicate: each of them
is found for it. -/
theorem duplicate_key_found_twice :
    let s := (⟨[⟨"alice", ["studio"], "s3cret"⟩]⟩ : MemoryStore).after
      [.insert ⟨"mallory", ["studio"], "hunter2"⟩]
    (s.claimants "studio").length = 2 ∧
      s.find "studio" "s3cret" = .ok (some ⟨"alice", "studio"⟩) ∧
      s.find "studio" "hunter2" = .ok (some ⟨"mallory", "studio"⟩) :=
  ⟨by decide, rfl, rfl⟩

end MemoryStore

end BroadcastRelay
