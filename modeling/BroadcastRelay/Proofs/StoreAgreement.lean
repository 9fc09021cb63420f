import BroadcastRelay.Credential.DatabaseStore
import BroadcastRelay.Proofs.Publishing
import Mathlib.Data.List.Forall2
import Mathlib.Data.List.Perm.Subperm
/-!
# The two stores decide alike

A store in memory looks at all its credentials, one in a database at no more than two rows. What the
look-up asks for are the credentials that list the key and carry the token (`lookedUp`), and the
database gives back the names of two of them, or of all if there are fewer, whichever it likes and
in whatever order (`Selects`). Two rows are enough to see that there is no single one, so the decision
is the one taken in memory on the same credentials, and not the choice of the database
(`decides_as_memory`).

Both count credentials and not the keys in them. How often a credential lists its keys, and in which
order, makes no difference (`Credential.SameKeys`).
-/

namespace BroadcastRelay

/-- The same streamer with the same token and the same keys, however often and in whatever order
each of them lists these. -/
structure Credential.SameKeys (c d : Credential) : Prop where
  name_eq : d.name = c.name
  mem_iff : ∀ key, key ∈ d.streamKeys ↔ key ∈ c.streamKeys
  authToken_eq : d.authToken = c.authToken

namespace DatabaseStore

variable {table table' : List Credential} {key token : String} {rows : List String}

/-! ## Answers to the look-up -/

/-- The credentials of a table that the look-up asks for: their array of keys has the first
parameter in it, and their token is the second. -/
def lookedUp (table : List Credential) (key token : String) : List Credential :=
  table.filter fun c => key ∈ c.streamKeys ∧ c.authToken = token

/-- The rows answer the look-up as it is written: they are names of what it asks for, each of its
credentials taken at most once, and two, or all there are if these are fewer. -/
structure Selects (table : List Credential) (key token : String) (rows : List String) : Prop where
  subperm : rows.Subperm ((lookedUp table key token).map (·.name))
  length_eq : rows.length = min 2 (lookedUp table key token).length

/-- Every table has an answer: the first two, for one. -/
theorem exists_selects (table : List Credential) (key token : String) :
    ∃ rows, Selects table key token rows := by
  refine ⟨((lookedUp table key token).map (·.name)).take 2, ?_, ?_⟩
  · exact (List.take_sublist 2 _).subperm
  · rw [List.length_take, List.length_map]

/-- A store in memory looks up the same credentials. -/
theorem filter_covers_eq_lookedUp (table : List Credential) (key token : String) :
    table.filter (·.covers key token) = lookedUp table key token := by
  refine List.filter_congr fun c _ => ?_
  rw [Credential.covers, Bool.and_comm, List.contains_eq_mem, Bool.decide_and]
  rfl

/-- Whichever rows answer the look-up, they decide it as all the credentials do. -/
theorem streamerOfRows_of_selects (h : Selects table key token rows) :
    streamerOfRows key rows = (⟨table⟩ : MemoryStore).find key token := by
  obtain ⟨hsub, hlength⟩ := h
  simp only [MemoryStore.find, filter_covers_eq_lookedUp]
  -- What is looked up is nothing, one credential, or too many.
  generalize lookedUp table key token = found at hsub hlength ⊢
  rcases found with _ | ⟨c, _ | ⟨d, others⟩⟩
  · have hrows : rows = [] := List.length_eq_zero_iff.mp hlength
    rw [hrows]
    rfl
  · have hrows : rows = [c.name] := by
      refine (List.subperm_singleton_iff.mp hsub).resolve_left ?_
      rintro rfl
      exact absurd hlength (by simp)
    rw [hrows]
    rfl
  · have htwo : rows.length = 2 := by
      rw [hlength, List.length_cons, List.length_cons]
      omega
    obtain ⟨name, name', rfl⟩ := List.length_eq_two.mp htwo
    rfl

/-! ## Keys that are listed more than once -/

theorem map_name_lookedUp (h : List.Forall₂ Credential.SameKeys table table')
    (key token : String) :
    (lookedUp table key token).map (·.name) = (lookedUp table' key token).map (·.name) := by
  have hfound : List.Forall₂ Credential.SameKeys (lookedUp table key token)
      (lookedUp table' key token) := by
    refine List.rel_filter (fun c d hcd => ?_) h
    simp only [hcd.mem_iff, hcd.authToken_eq]
  rw [← List.forall₂_eq_eq_eq, List.forall₂_map_left_iff, List.forall₂_map_right_iff]
  exact hfound.imp fun c d hcd => hcd.name_eq.symm

/-- What answers the look-up on a table answers it on any that differs only in how often and in
which order keys are listed. -/
theorem Selects.of_sameKeys (h : Selects table key token rows)
    (hsame : List.Forall₂ Credential.SameKeys table table') : Selects table' key token rows := by
  have hnames := map_name_lookedUp hsame key token
  have hlength := congrArg List.length hnames
  rw [List.length_map, List.length_map] at hlength
  exact ⟨hnames ▸ h.subperm, hlength ▸ h.length_eq⟩

/-! ## Look-ups -/

/-- A look-up that is answered sends its parameters, and the statement unless the connection has met
it, and decides by the rows. -/
theorem find_answers {s : DatabaseStore} (hopen : s.closed = false) (rows : List String)
    (key token : String) :
    (∃ text, (text = [] ∨ text = [.statement .lookup]) ∧
      (s.find (.answers rows) key token).2.1 = text ++ [.bind key, .bind token]) ∧
    (s.find (.answers rows) key token).2.2 = streamerOfRows key rows := by
  have hrun : s.closed ≠ true := by simp [hopen]
  simp only [find, run, if_neg hrun]
  refine ⟨⟨_, ?_, rfl⟩, rfl⟩
  split
  · exact Or.inl rfl
  · exact Or.inr rfl

/-- An open pool asks the look-up for the key and the token. Whichever rows of a table answer it,
the decision is that of a store in memory with the credentials of the table: nobody, the same
streamer, or the same key as a duplicate. Other rows, and another pool, come to the same; and so do
credentials that list each of their keys more or less often. -/
theorem decides_as_memory {s : DatabaseStore} (hopen : s.closed = false) {table : List Credential}
    {key token : String} {rows : List String} (hrows : Selects table key token rows) :
    let asked := s.find (.answers rows) key token
    (∃ text, (text = [] ∨ text = [.statement .lookup]) ∧
      asked.2.1 = text ++ [.bind key, .bind token]) ∧
    asked.2.2 = (⟨table⟩ : MemoryStore).find key token ∧
    (∀ (s' : DatabaseStore) (rows' : List String), s'.closed = false →
      Selects table key token rows' → (s'.find (.answers rows') key token).2.2 = asked.2.2) ∧
    ∀ table', List.Forall₂ Credential.SameKeys table table' →
      Selects table' key token rows ∧ (⟨table'⟩ : MemoryStore).find key token = asked.2.2 := by
  intro asked
  obtain ⟨hsent, hasked⟩ := find_answers hopen rows key token
  have hmemory : asked.2.2 = (⟨table⟩ : MemoryStore).find key token :=
    hasked.trans (streamerOfRows_of_selects hrows)
  refine ⟨hsent, hmemory, fun s' rows' hopen' hrows' => ?_, fun table' hsame => ?_⟩
  · have hasked' := (find_answers hopen' rows' key token).2
    exact hasked'.trans ((streamerOfRows_of_selects hrows').trans hmemory.symm)
  · have hrows' := hrows.of_sameKeys hsame
    exact ⟨hrows', (streamerOfRows_of_selects hrows').symm.trans hasked.symm⟩

/-- One credential that lists a key twice is one row and one streamer. A key that three credentials
share is a duplicate whichever two of them are the rows, also if these have one name. -/
theorem decides_as_memory_listed_twice :
    let alice : Credential := ⟨"alice", ["studio", "studio"], "s3cret"⟩
    let bob : Credential := ⟨"bob", ["studio"], "s3cret"⟩
    (fresh.find (.answers ["alice"]) "studio" "s3cret").2.2 = .ok (some ⟨"alice", "studio"⟩) ∧
      (⟨[alice, bob, alice]⟩ : MemoryStore).find "studio" "s3cret" =
        (fresh.find (.answers ["alice", "alice"]) "studio" "s3cret").2.2 := by
  intro alice bob
  have hone : Selects [alice] "studio" "s3cret" ["alice"] := ⟨List.Subperm.refl _, rfl⟩
  have htwo : Selects [alice, bob, alice] "studio" "s3cret" ["alice", "alice"] := by
    refine ⟨List.Sublist.subperm ?_, rfl⟩
    exact .cons_cons _ (.cons _ (List.Sublist.refl _))
  exact ⟨(decides_as_memory rfl hone).2.1, (decides_as_memory rfl htwo).2.1.symm⟩

end DatabaseStore

end BroadcastRelay
