import BroadcastRelay.Proofs.ByteOrder
import BroadcastRelay.Proofs.Claimants
/-!
# What a store says after its history

The keys of a store are listed once each, in the order of their bytes
(`pairwise_encode_streamKeys`), and they are those that a look-up with some token has an answer for
(`mem_streamKeys_iff`).

A look-up says what the credentials that it matches say (`find_congr`), and to revoke a name takes
just those of the name away from them (`matching_revoke`). What matched only others is therefore as
before, and a duplicate that is left with one credential is one no longer. A name that is revoked is
absent until a credential of it comes in (`Absent.after`), so nobody of the name is found
(`follows_history`).
-/

namespace BroadcastRelay.MemoryStore

variable {s s' : MemoryStore} {key token name : String} {c : Credential}

/-! ## Keys -/

theorem mem_insertKey {key k : String} {ks : List String} :
    k ∈ insertKey key ks ↔ k = key ∨ k ∈ ks := by
  induction ks with
  | nil => simp [insertKey]
  | cons l ks ih =>
    unfold insertKey
    split
    · rw [List.mem_cons]
    · split
      · rename_i heq
        simp [heq]
      · rw [List.mem_cons, ih, List.mem_cons]
        tauto

/-- The keys are those that some credential is for. -/
theorem mem_streamKeys {m : MemoryStore} {k : String} :
    k ∈ m.streamKeys ↔ ∃ c ∈ m.credentials, k ∈ c.streamKeys := by
  rw [streamKeys, ← List.mem_flatMap]
  induction m.credentials.flatMap (·.streamKeys) with
  | nil => simp
  | cons key keys ih => rw [List.foldr_cons, mem_insertKey, ih, List.mem_cons]

theorem pairwise_insertKey {ks : List String} (h : ks.Pairwise (· < ·)) (key : String) :
    (insertKey key ks).Pairwise (· < ·) := by
  induction ks with
  | nil => exact List.pairwise_singleton _ _
  | cons k ks ih =>
    obtain ⟨hk, hks⟩ := List.pairwise_cons.mp h
    unfold insertKey
    split
    · rename_i hlt
      refine List.pairwise_cons.mpr ⟨fun l hl => ?_, h⟩
      rcases List.mem_cons.mp hl with rfl | hl
      · exact hlt
      · exact hlt.trans (hk l hl)
    · split
      · exact h
      -- The key goes further back, so what is in front is below it and below all that was behind.
      · rename_i hle hne
        have hgt : k < key := lt_of_le_of_ne (not_lt.mp hle) (Ne.symm hne)
        refine List.pairwise_cons.mpr ⟨fun l hl => ?_, ih hks⟩
        rcases mem_insertKey.mp hl with rfl | hl
        · exact hgt
        · exact hk l hl

theorem pairwise_streamKeys (s : MemoryStore) : s.streamKeys.Pairwise (· < ·) := by
  rw [streamKeys]
  induction s.credentials.flatMap (·.streamKeys) with
  | nil => exact List.Pairwise.nil
  | cons key keys ih => exact pairwise_insertKey ih key

/-- Every key is listed once, in the order of the bytes. -/
theorem pairwise_encode_streamKeys (s : MemoryStore) :
    s.streamKeys.Pairwise fun k l => Utf8.encode k < Utf8.encode l :=
  s.pairwise_streamKeys.imp Utf8.encode_lt_encode

/-! ## Matches -/

/-- The credentials that a look-up matches. -/
def matching (s : MemoryStore) (key token : String) : List Credential :=
  s.credentials.filter (·.covers key token)

/-- A look-up says what its matches say. -/
theorem find_congr (h : s.matching key token = s'.matching key token) :
    s.find key token = s'.find key token := by
  simp only [matching] at h
  rw [find, find, h]

/-- A look-up has an answer exactly if some claimant of the key carries the token. -/
theorem find_ne_none_iff :
    s.find key token ≠ .ok none ↔ ∃ c ∈ s.claimants key, c.authToken = token := by
  simp only [← mem_filter_covers, find]
  generalize s.credentials.filter (·.covers key token) = found
  rcases found with _ | ⟨c, _ | ⟨d, others⟩⟩
  · simp
  · exact iff_of_true (by simp) ⟨c, List.mem_cons_self⟩
  · exact iff_of_true (by simp) ⟨c, List.mem_cons_self⟩

/-- A key is listed exactly if a look-up of it has an answer for some token. -/
theorem mem_streamKeys_iff : key ∈ s.streamKeys ↔ ∃ token, s.find key token ≠ .ok none := by
  simp only [mem_streamKeys, find_ne_none_iff, claimants, List.mem_filter, decide_eq_true_eq]
  constructor
  · rintro ⟨c, hc⟩
    exact ⟨c.authToken, c, hc, rfl⟩
  · rintro ⟨token, c, hc, -⟩
    exact ⟨c, hc⟩

/-- To revoke a name takes what it names away from the matches, and nothing else. -/
theorem matching_revoke (s : MemoryStore) (name key token : String) :
    (s.revoke name).1.matching key token = (s.matching key token).filter (·.name ≠ name) := by
  simp only [revoke, matching, List.filter_filter, Bool.and_comm]

/-! ## Absence -/

/-- No credential of the name is there. -/
def Absent (s : MemoryStore) (name : String) : Prop := ∀ c ∈ s.credentials, c.name ≠ name

theorem absent_revoke (s : MemoryStore) (name : String) : (s.revoke name).1.Absent name := by
  intro c hc
  simpa using (List.mem_filter.mp hc).2

/-- No change but a credential of the name coming in ends its absence. -/
theorem Absent.change {x : CredentialChange} (h : s.Absent name)
    (hx : ∀ c, x = .insert c → c.name ≠ name) : (s.change x).Absent name := by
  intro c hc
  cases x with
  | insert d =>
    rcases List.mem_append.mp hc with hc | hc
    · exact h c hc
    · rw [List.mem_singleton.mp hc]
      exact hx d rfl
  | revoke other => exact h c (List.mem_filter.mp hc).1

/-- A name stays absent for as long as no credential of it comes in. -/
theorem Absent.after {later : List CredentialChange} (h : s.Absent name)
    (hlater : ∀ c, .insert c ∈ later → c.name ≠ name) : (s.after later).Absent name := by
  induction later generalizing s with
  | nil => exact h
  | cons x later ih =>
    refine ih (h.change fun c hc => ?_) fun c hc => ?_
    · exact hlater c (hc ▸ List.mem_cons_self)
    · exact hlater c (List.mem_cons_of_mem _ hc)

/-- Nobody is found by a name that is absent. -/
theorem Absent.name_ne {x : Streamer} (h : s.Absent name) (hx : s.find key token = .ok (some x)) :
    x.name ≠ name := by
  obtain ⟨c, ⟨-, hc, -⟩, rfl⟩ := find_eq_some_iff.mp hx
  exact h c (List.mem_filter.mp hc).1

/-! ## Histories -/

/-- What comes of revoking a name while the credentials of a list are present. -/
structure Revokes (s : MemoryStore) (name : String) (present : List Credential) : Prop where
  /-- The credentials of the name are counted. -/
  count_eq : (s.revoke name).2 = present.countP (·.name = name)
  /-- Nobody of the name is found until a credential of it comes in. -/
  name_ne : ∀ later, (∀ c, .insert c ∈ later → c.name ≠ name) → ∀ key token x,
    ((s.revoke name).1.after later).find key token = .ok (some x) → x.name ≠ name
  /-- A look-up that matches only other names is as before. -/
  find_eq : ∀ key token, (∀ c ∈ s.matching key token, c.name ≠ name) →
    (s.revoke name).1.find key token = s.find key token
  /-- A duplicate that is one only for the name is of the credential that remains. -/
  finds_remaining : ∀ key token c, s.find key token = .error (.duplicateStreamKey key) →
    (s.matching key token).filter (·.name ≠ name) = [c] →
      (s.revoke name).1.find key token = .ok (some ⟨c.name, key⟩)

/-- Whatever a store is filled with and goes through, its keys are in the order of their bytes, none
of them twice; they are those of the credentials that stand, and those that some look-up has an
answer for. To revoke a name counts the credentials that stand under it, takes them out of every
look-up from then on, and changes nothing for the others. -/
theorem follows_history (init : List Credential) (changes : List CredentialChange) :
    let s := (⟨init⟩ : MemoryStore).after changes
    let present := standing (init.map .insert ++ changes)
    s.streamKeys.Pairwise (fun k l => Utf8.encode k < Utf8.encode l) ∧
    (∀ key, key ∈ s.streamKeys ↔ ∃ token, s.find key token ≠ .ok none) ∧
    (∀ key, key ∈ s.streamKeys ↔ ∃ c ∈ present, key ∈ c.streamKeys) ∧
    ∀ name, s.Revokes name present := by
  intro s present
  have hpresent : s.credentials = present := credentials_after_init init changes
  refine ⟨s.pairwise_encode_streamKeys, fun key => mem_streamKeys_iff,
    fun key => hpresent ▸ mem_streamKeys, fun name => ?_⟩
  constructor
  case count_eq =>
    rw [← hpresent]
    rfl
  case name_ne =>
    intro later hlater key token x hx
    exact ((s.absent_revoke name).after hlater).name_ne hx
  case find_eq =>
    intro key token hothers
    refine find_congr ?_
    rw [matching_revoke, List.filter_eq_self]
    exact fun c hc => decide_eq_true (hothers c hc)
  case finds_remaining =>
    intro key token c _ hone
    exact (finds_iff.mpr ((s.matching_revoke name key token).trans hone)).1

/-- Somebody who has come in under the key and the token of another is revoked, and the other is
found again. -/
theorem follows_history_resolved :
    let s := (⟨[⟨"alice", ["studio"], "s3cret"⟩]⟩ : MemoryStore).after
      [.insert ⟨"mallory", ["hall", "studio"], "s3cret"⟩]
    s.find "studio" "s3cret" = .error (.duplicateStreamKey "studio") ∧
      (s.revoke "mallory").2 = 1 ∧
      (s.revoke "mallory").1.find "studio" "s3cret" = .ok (some ⟨"alice", "studio"⟩) := by
  intro s
  obtain ⟨-, -, -, hrevokes⟩ := follows_history [⟨"alice", ["studio"], "s3cret"⟩]
    [.insert ⟨"mallory", ["hall", "studio"], "s3cret"⟩]
  have hduplicate : s.find "studio" "s3cret" = .error (.duplicateStreamKey "studio") := rfl
  exact ⟨hduplicate, (hrevokes "mallory").count_eq,
    (hrevokes "mallory").finds_remaining _ _ ⟨"alice", ["studio"], "s3cret"⟩ hduplicate rfl⟩

end BroadcastRelay.MemoryStore
