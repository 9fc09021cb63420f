import BroadcastRelay.Document.Decode
/-!
# What a record is read from

A record is read from a map member by member, and each field looks only at what stands under its own
name (`Document.under`). A map is read to its end exactly if every name in it is a text, what is
passed over is whole, and under the name of each field there is nothing, or one value that the field
reads (`Record.exists_foldlM`). What the record holds for a field afterwards is what that
one value gives, wherever it stands among the others (`Record.under_of_foldlM`).
-/

namespace BroadcastRelay

theorem bind_eq_ok_iff {ε α β : Type} {x : Except ε α} {f : α → Except ε β} {b : β} :
    (x >>= f) = .ok b ↔ ∃ a, x = .ok a ∧ f a = .ok b := by
  cases x with
  | error e => exact iff_of_false (by simp [bind, Except.bind]) (by simp)
  | ok a => exact ⟨fun h => ⟨a, rfl, h⟩, fun ⟨a', ha, h⟩ => Except.ok.inj ha ▸ h⟩

theorem map_eq_ok_iff {ε α β : Type} {x : Except ε α} {f : α → β} {b : β} :
    x.map f = .ok b ↔ ∃ a, x = .ok a ∧ f a = b := by
  cases x <;> simp [Except.map]

namespace Document

/-- The values that stand under a name, in order. -/
def under (name : String) (members : List (Option String × Document)) : List Document :=
  members.filterMap fun m => if m.1 = some name then some m.2 else none

variable {name other : String} {d : Document} {members : List (Option String × Document)}

@[simp] theorem under_nil (name : String) : under name [] = [] := rfl

@[simp] theorem under_cons_self (name : String) (d : Document)
    (members : List (Option String × Document)) :
    under name ((some name, d) :: members) = d :: under name members := by
  simp [under]

theorem under_cons_of_ne (h : other ≠ name) :
    under name ((some other, d) :: members) = under name members := by
  simp [under, h]

end Document

namespace Record

open Document

variable {α : Type} {r : Record α} {p p' : Progress α} {members : List (Option String × Document)}

/-- The field of a name. -/
def field? (r : Record α) (name : String) : Option (Field α) := r.fields.find? (·.name == name)

theorem name_of_field? {name : String} {f : Field α} (h : r.field? name = some f) :
    f ∈ r.fields ∧ f.name = name := by
  have hname := List.find?_some h
  exact ⟨List.mem_of_find?_eq_some h, by simpa using hname⟩

/-- One member read: passed over, or the first under the name of its field. -/
inductive Takes (r : Record α) (p : Progress α) : Option String × Document → Progress α → Prop
  | ignored {name : String} {d : Document} (hname : r.field? name = none)
      (hwhole : d.isWhole = true) : Takes r p (some name, d) p
  | read {name : String} {d : Document} {f : Field α} {update : α → α}
      (hname : r.field? name = some f) (hnew : name ∉ p.2) (hread : f.read d = .ok update) :
      Takes r p (some name, d) (update p.1, name :: p.2)

theorem member_eq_ok_iff {m : Option String × Document} :
    r.member p m = .ok p' ↔ r.Takes p m p' := by
  obtain ⟨name?, d⟩ := m
  constructor
  · intro h
    cases name? with
    | none => cases h
    | some name =>
      rw [member] at h
      cases hname : r.field? name with
      | none =>
        rw [field?] at hname
        rw [hname] at h
        dsimp only at h
        split at h
        · rename_i hwhole
          exact Except.ok.inj h ▸ .ignored hname hwhole
        · cases h
      | some f =>
        rw [field?] at hname
        rw [hname] at h
        dsimp only at h
        split at h
        · cases h
        · rename_i hnew
          obtain ⟨update, hread, rfl⟩ := map_eq_ok_iff.mp h
          exact .read hname hnew hread
  · intro h
    cases h with
    | ignored hname hwhole =>
      rw [field?] at hname
      simp only [member, hname, hwhole, if_true]
    | read hname hnew hread =>
      rw [field?] at hname
      simp only [member, hname, if_neg hnew, hread]
      rfl

theorem foldlM_cons_eq_ok_iff {m : Option String × Document} :
    (m :: members).foldlM r.member p = .ok p' ↔
      ∃ q, r.Takes p m q ∧ members.foldlM r.member q = .ok p' := by
  simp only [List.foldlM_cons, bind_eq_ok_iff, member_eq_ok_iff]

/-- What stands under the name of a field when a map has been read, and what the record holds of it.
`get` is what the field alone decides. -/
theorem under_of_foldlM {β : Type} {get : α → β} {name : String} {f : Field α}
    (hf : r.field? name = some f)
    (hget : ∀ g ∈ r.fields, g.name ≠ name → ∀ d update, g.read d = .ok update →
      ∀ a, get (update a) = get a)
    (h : members.foldlM r.member p = .ok p') :
    under name members = [] ∧ (name ∈ p'.2 ↔ name ∈ p.2) ∧ get p'.1 = get p.1 ∨
      name ∉ p.2 ∧ name ∈ p'.2 ∧ ∃ d update a, under name members = [d] ∧
        f.read d = .ok update ∧ get p'.1 = get (update a) := by
  induction members generalizing p with
  | nil =>
    obtain rfl := Except.ok.inj h
    exact Or.inl ⟨rfl, Iff.rfl, rfl⟩
  | cons m members ih =>
    obtain ⟨q, hq, h⟩ := foldlM_cons_eq_ok_iff.mp h
    have hrest := ih h
    cases hq with
    | @ignored other d hname hwhole =>
      have hne : other ≠ name := by
        rintro rfl
        exact absurd (hf.symm.trans hname) (by simp)
      rwa [under_cons_of_ne hne]
    | @read other d g update hname hnew hread =>
      by_cases hother : other = name
      · subst hother
        obtain rfl := Option.some.inj (hf.symm.trans hname)
        rcases hrest with ⟨hunder, hseen, hvalue⟩ | ⟨hagain, -⟩
        · refine Or.inr ⟨hnew, hseen.mpr List.mem_cons_self, d, update, p.1, ?_, hread, hvalue⟩
          rw [under_cons_self, hunder]
        · exact absurd List.mem_cons_self hagain
      · obtain ⟨hmem, hgname⟩ := name_of_field? hname
        have hsame : get (update p.1) = get p.1 :=
          hget g hmem (hgname ▸ hother) d update hread p.1
        have hseen : name ∈ other :: p.2 ↔ name ∈ p.2 := by
          simp [Ne.symm hother]
        rw [under_cons_of_ne hother]
        rwa [hseen, hsame] at hrest

/-- A field with a store of its own holds what stands under its name. -/
theorem under_of_foldlM_of {β : Type} {required : Bool} {read : Reader β} {store : β → α → α}
    {a : α} (get : α → β) {name : String}
    (hf : r.field? name = some (.of name required read store))
    (hget : ∀ g ∈ r.fields, g.name ≠ name → ∀ d update, g.read d = .ok update →
      ∀ a, get (update a) = get a)
    (hstore : ∀ v a, get (store v a) = v) (h : members.foldlM r.member (a, []) = .ok p) :
    under name members = [] ∧ name ∉ p.2 ∨
      name ∈ p.2 ∧ ∃ d, under name members = [d] ∧ read d = .ok (get p.1) := by
  rcases under_of_foldlM hf hget h with
    ⟨hnone, hseen, -⟩ | ⟨-, hseen, d, update, b, hone, hread, hv⟩
  · exact Or.inl ⟨hnone, fun hmem => absurd (hseen.mp hmem) List.not_mem_nil⟩
  · obtain ⟨v, hv', rfl⟩ := map_eq_ok_iff.mp hread
    exact Or.inr ⟨hseen, d, hone, by rw [hv, hstore, hv']⟩

/-- Under the name of each field stands nothing, or one value that the field reads and that is the
first of its name. -/
def Once (r : Record α) (seen : List String) (members : List (Option String × Document)) : Prop :=
  ∀ name f, r.field? name = some f → under name members = [] ∨
    name ∉ seen ∧ ∃ d update, under name members = [d] ∧ f.read d = .ok update

/-- A map is read to its end if its names are texts and no field has a complaint. -/
theorem exists_foldlM (hnamed : ∀ m ∈ members, m.1.isSome = true)
    (hwhole : ∀ m ∈ members, m.2.isWhole = true) (honce : r.Once p.2 members) :
    ∃ p', members.foldlM r.member p = .ok p' := by
  induction members generalizing p with
  | nil => exact ⟨p, rfl⟩
  | cons m members ih =>
    obtain ⟨name?, d⟩ := m
    rw [List.forall_mem_cons] at hnamed hwhole
    obtain ⟨name, rfl⟩ := Option.isSome_iff_exists.mp hnamed.1
    simp only [foldlM_cons_eq_ok_iff]
    cases hname : r.field? name with
    | none =>
      have hrest : r.Once p.2 members := by
        intro other f hf
        have hne : name ≠ other := by
          rintro rfl
          exact absurd (hname.symm.trans hf) (by simp)
        rw [← under_cons_of_ne hne]
        exact honce other f hf
      obtain ⟨p', hp'⟩ := ih hnamed.2 hwhole.2 hrest
      exact ⟨p', p, .ignored hname hwhole.1, hp'⟩
    | some f =>
      rcases honce name f hname with hnone | ⟨hnew, d', update, hone, hread⟩
      · exact absurd hnone (by simp)
      · rw [under_cons_self] at hone
        obtain ⟨rfl, hnone⟩ := List.cons.inj hone
        have hrest : r.Once (update p.1, name :: p.2).2 members := by
          intro other g hg
          by_cases hother : name = other
          · exact Or.inl (hother ▸ hnone)
          · rcases honce other g hg with h | ⟨hseen, h⟩
            · exact Or.inl (under_cons_of_ne hother ▸ h)
            · exact Or.inr ⟨by simp [Ne.symm hother, hseen], under_cons_of_ne hother ▸ h⟩
        obtain ⟨p', hp'⟩ := ih hnamed.2 hwhole.2 hrest
        exact ⟨p', _, .read hname hnew hread, hp'⟩

/-- The names in a map that has been read are texts. -/
theorem isSome_of_foldlM (h : members.foldlM r.member p = .ok p') :
    ∀ m ∈ members, m.1.isSome = true := by
  induction members generalizing p with
  | nil => exact fun _ hm => absurd hm List.not_mem_nil
  | cons m members ih =>
    obtain ⟨q, hq, h⟩ := foldlM_cons_eq_ok_iff.mp h
    refine List.forall_mem_cons.mpr ⟨?_, ih h⟩
    cases hq <;> rfl

theorem missing?_eq_none_iff {seen : List String} :
    r.missing? seen = none ↔ ∀ f ∈ r.fields, f.required = true → f.name ∈ seen := by
  simp [missing?]

/-- A map is read as a record exactly if its members are read and no field is missing. -/
theorem read_map_eq_ok_iff {a : α} :
    r.read (.map members .closed) = .ok a ↔
      ∃ seen, members.foldlM r.member (r.blank, []) = .ok (a, seen) ∧ r.missing? seen = none := by
  rw [read, bind_eq_ok_iff]
  simp only [reduceCtorEq, if_false]
  constructor
  · rintro ⟨⟨a', seen⟩, hfold, h⟩
    cases hmissing : r.missing? seen with
    | none =>
      rw [hmissing] at h
      obtain rfl := Except.ok.inj h
      exact ⟨seen, hfold, hmissing⟩
    | some name =>
      rw [hmissing] at h
      cases h
  · rintro ⟨seen, hfold, hmissing⟩
    refine ⟨(a, seen), hfold, ?_⟩
    rw [hmissing]
    rfl

theorem items_cons_eq_ok_iff {ending : Ending} {n : Nat} {f : Field α} {fs : List (Field α)}
    {d : Document} {ds : List Document} {a b : α} :
    r.items ending n (f :: fs) (d :: ds) a = .ok b ↔
      ∃ update, f.read d = .ok update ∧ r.items ending (n + 1) fs ds (update a) = .ok b := by
  rw [items]
  cases f.read d <;> simp

/-- A list that breaks off holds no record. -/
theorem items_broken (n : Nat) (fs : List (Field α)) (ds : List Document) (a b : α) :
    r.items .broken n fs ds a ≠ .ok b := by
  induction fs generalizing n ds a with
  | nil => cases ds <;> simp [items]
  | cons f fs ih =>
    cases ds with
    | nil => simp [items]
    | cons d ds =>
      rw [items]
      split
      · simp
      · exact ih _ _ _

/-- What a record is read from has no fault that can be seen from outside. -/
theorem isWhole_of_read {d : Document} {a : α} (h : r.read d = .ok a) : d.isWhole = true := by
  cases d with
  | map members ending =>
    obtain ⟨q, -, h⟩ := bind_eq_ok_iff.mp h
    cases ending with
    | closed | lenient => rfl
    | broken => cases h
  | list ds ending =>
    cases ending with
    | closed | lenient => rfl
    | broken => exact absurd h (items_broken 0 r.fields ds r.blank a)
  | broken => cases h
  | null | bool | unsigned | negative | float | str | unusable => rfl

end Record

end BroadcastRelay
