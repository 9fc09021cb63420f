import BroadcastRelay.Gateway.Redirect
import BroadcastRelay.Proofs.BearerGrammar
import BroadcastRelay.Proofs.RecordReading
import BroadcastRelay.Proofs.Viewing
/-!
# Where a redirection leads

The location of a redirection is put together as a text: the scheme, the host and the target, one
after the other. A client takes it apart again, and it finds the authority by its end, the first
slash, question mark or number sign (`Destination.ofHttps?`). So the host is kept only if the target
starts with one of these marks.

A target that has been parsed has one of four forms (`Uri.Parsed`), and in three of them what is
written behind the host does start so. There the location leads to the host that was asked for, and
to the path and the query of the target. The asterisk is the fourth form, and it becomes part of the
host (`redirection_leads_iff`, `asterisk_joins_host`).
-/

namespace BroadcastRelay

/-! ## The first character of a text -/

/-- What is left from a mark on is nothing, or starts with the mark. -/
theorem dropWhile_ne_eq_nil_or_cons {α : Type} [DecidableEq α] (mark : α) (xs : List α) :
    xs.dropWhile (· ≠ mark) = [] ∨ ∃ rest, xs.dropWhile (· ≠ mark) = mark :: rest := by
  cases hxs : xs.dropWhile (· ≠ mark) with
  | nil => exact Or.inl rfl
  | cons x rest =>
    have hx := List.head?_dropWhile_not (· ≠ mark) xs
    rw [hxs] at hx
    exact Or.inr ⟨rest, by simpa using hx⟩

/-- A text starts with a character of ASCII if its bytes do. -/
theorem Utf8.head?_toList_of_head?_encode {s : String} {c : Char} (hc : c.toNat < 128)
    (h : (Utf8.encode s).head? = some (UInt8.ofNat c.toNat)) : s.toList.head? = some c := by
  rw [encode_eq_flatMap] at h
  cases hs : s.toList with
  | nil => simp [hs] at h
  | cons d ds =>
    obtain ⟨x, xs, hx⟩ := List.exists_cons_of_ne_nil (String.utf8EncodeChar_ne_nil (c := d))
    rw [hs, List.flatMap_cons, hx, List.cons_append, List.head?_cons] at h
    have hmem : UInt8.ofNat c.toNat ∈ Utf8.encode (String.singleton d) := by
      rw [encode_eq_flatMap, ← Option.some.inj h]
      simp [hx]
    have hcd : c ∈ (String.singleton d).toList := (mem_encode_iff hc).mp hmem
    rw [String.toList_singleton, List.mem_singleton] at hcd
    rw [List.head?_cons, hcd]

namespace Http

theorem isValueByte_iff {b : UInt8} :
    isValueByte b = true ↔ b.toNat = 9 ∨ 32 ≤ b.toNat ∧ b.toNat ≠ 127 := by
  simp only [isValueByte, Bool.or_eq_true, Bool.and_eq_true, decide_eq_true_eq, beq_iff_eq,
    bne_iff_ne, ne_eq, UInt8.le_iff_toNat_le, ← UInt8.toNat_inj, UInt8.reduceToNat]

/-- What is legible may be the value of a header field. -/
theorem Legible.isValue {value : Bytes} (h : Legible value) : isValue value = true :=
  List.all_eq_true.mpr fun b hb =>
    isValueByte_iff.mpr ((h b hb).imp_right fun hrange => ⟨hrange.1, by omega⟩)

namespace Uri

variable {bs rest : Bytes} {text : String} {u : Uri}

/-! ## Reading a target -/

theorem isValueByte_of_isPathByte {b : UInt8} (h : isPathByte b = true) :
    isValueByte b = true := by
  simp only [isPathByte, Bool.or_eq_true, Bool.and_eq_true, decide_eq_true_eq, beq_iff_eq,
    UInt8.le_iff_toNat_le, ← UInt8.toNat_inj, UInt8.reduceToNat] at h
  rw [isValueByte_iff]
  omega

theorem isValueByte_of_isQueryByte {b : UInt8} (h : isQueryByte b = true) :
    isValueByte b = true := by
  simp only [isQueryByte, Bool.or_eq_true, Bool.and_eq_true, decide_eq_true_eq, beq_iff_eq,
    UInt8.le_iff_toNat_le, ← UInt8.toNat_inj, UInt8.reduceToNat] at h
  rw [isValueByte_iff]
  omega

/-- What is read as a target are the bytes up to the number sign, and they may be sent in a header
field. -/
theorem encode_of_readTarget (h : readTarget bs = .ok text) :
    Utf8.encode text = bs.takeWhile (· ≠ 35) ∧ isValue (Utf8.encode text) = true := by
  unfold readTarget at h
  simp only at h
  generalize hwhole : bs.takeWhile (· ≠ 35) = whole at h
  split at h
  · cases h
  · rename_i hallowed
    simp only [Bool.not_eq_true', Bool.not_eq_false, Bool.and_eq_true, List.all_eq_true] at hallowed
    obtain ⟨hpath, hquery⟩ := hallowed
    split at h
    · rename_i text' hdecode
      obtain rfl := Except.ok.inj h
      have hencode : whole = Utf8.encode text' := Utf8.decode?_eq_some_iff.mp hdecode
      refine ⟨hencode.symm, hencode ▸ List.all_eq_true.mpr fun b hb => ?_⟩
      rw [← List.takeWhile_append_dropWhile (p := fun b => decide (b ≠ 63)) (l := whole),
        List.mem_append] at hb
      rcases hb with hb | hb
      · exact isValueByte_of_isPathByte (hpath b hb)
      · rcases dropWhile_ne_eq_nil_or_cons 63 whole with hrest | ⟨query, hrest⟩
        · exact absurd (hrest ▸ hb) List.not_mem_nil
        · rw [hrest] at hb hquery
          rcases List.mem_cons.mp hb with rfl | hb
          · rfl
          · exact isValueByte_of_isQueryByte (hquery b hb)
    · cases h

/-- What may stand behind an authority: nothing, or a path or a query, without a number sign. -/
structure Follows (target : String) : Prop where
  head : target = "" ∨ target.toList.head? = some '/' ∨ target.toList.head? = some '?'
  not_mem : '#' ∉ target.toList
  isValue_encode : isValue (Utf8.encode target) = true

/-- A target starts with the character of its first byte. -/
theorem head?_of_readTarget {c : Char} (hc : c.toNat < 128) (hne : UInt8.ofNat c.toNat ≠ 35)
    (h : readTarget (UInt8.ofNat c.toNat :: bs) = .ok text) : text.toList.head? = some c := by
  refine Utf8.head?_toList_of_head?_encode hc ?_
  have htake : (UInt8.ofNat c.toNat :: bs).takeWhile (· ≠ 35) =
      UInt8.ofNat c.toNat :: bs.takeWhile (· ≠ 35) :=
    List.takeWhile_cons_of_pos (decide_eq_true hne)
  rw [(encode_of_readTarget h).1, htake, List.head?_cons]

theorem follows_of_readTarget (h : readTarget bs = .ok text)
    (hhead : ∀ b ∈ bs.head?, b = 47 ∨ b = 63 ∨ b = 35) : Follows text := by
  obtain ⟨hencode, hvalue⟩ := encode_of_readTarget h
  refine ⟨?_, fun hmem => ?_, hvalue⟩
  · have hempty : Utf8.encode text = [] → text = "" := fun hnil => Utf8.encode_injective hnil
    cases bs with
    | nil => exact Or.inl (hempty hencode)
    | cons b bs =>
      rcases hhead b rfl with rfl | rfl | rfl
      · exact Or.inr (Or.inl (head?_of_readTarget (c := '/') (by decide) (by decide) h))
      · exact Or.inr (Or.inr (head?_of_readTarget (c := '?') (by decide) (by decide) h))
      · exact Or.inl (hempty hencode)
  · have hmark := (Utf8.mem_encode_iff (by decide)).mpr hmem
    rw [hencode] at hmark
    exact absurd (List.mem_takeWhile_imp hmark) (by decide)

/-! ## Reading an authority -/

/-- Only certain bytes of visible ASCII are taken. -/
theorem legible_of_step {s s' : AuthorityScan} {b : UInt8} (h : s.step b = .ok s') :
    b.toNat = 9 ∨ 32 ≤ b.toNat ∧ b.toNat ≤ 126 := by
  have hallowed : b = 58 ∨ b = 91 ∨ b = 93 ∨ b = 64 ∨ b = 37 ∨ isAuthorityByte b = true := by
    by_contra hno
    simp only [not_or] at hno
    obtain ⟨hcolon, hopen, hclose, hat, hpercent, hother⟩ := hno
    simp only [AuthorityScan.step, hcolon, hopen, hclose, hat, hpercent, hother, if_false,
      Bool.false_eq_true, reduceCtorEq] at h
  rcases hallowed with rfl | rfl | rfl | rfl | rfl | hother
  case inr.inr.inr.inr.inr =>
    simp only [isAuthorityByte, isAlphanumeric, Bool.or_eq_true, Bool.and_eq_true,
      decide_eq_true_eq, beq_iff_eq, UInt8.le_iff_toNat_le, ← UInt8.toNat_inj,
      UInt8.reduceToNat] at hother
    omega
  all_goals decide

theorem legible_of_foldlM {s s' : AuthorityScan} (h : bs.foldlM AuthorityScan.step s = .ok s') :
    Legible bs := by
  induction bs generalizing s with
  | nil => exact fun _ hb => absurd hb List.not_mem_nil
  | cons b bs ih =>
    rw [List.foldlM_cons, bind_eq_ok_iff] at h
    obtain ⟨t, hstep, h⟩ := h
    exact List.forall_mem_cons.mpr ⟨legible_of_step hstep, ih h⟩

/-- An authority is legible, and it ends where its end is marked. -/
theorem of_readAuthority {authority : Bytes} (h : readAuthority bs = .ok (authority, rest)) :
    Legible authority ∧ rest = bs.dropWhile (!endsAuthority ·) := by
  obtain ⟨s, hscan, h⟩ := bind_eq_ok_iff.mp h
  split at h
  · cases h
  · obtain ⟨rfl, rfl⟩ := Prod.mk.inj (Except.ok.inj h)
    exact ⟨legible_of_foldlM hscan, rfl⟩

/-! ## The forms of a target -/

/-- What a target is that has been read. -/
inductive Parsed : Uri → Prop
  | origin {target : String} (hslash : target.toList.head? = some '/') (htarget : Follows target) :
      Parsed ⟨none, none, target⟩
  | absolute {scheme authority target : String} (hauthority : Legible (Utf8.encode authority))
      (htarget : Follows target) : Parsed ⟨some scheme, some authority, target⟩
  | authority {authority : String} (hauthority : Legible (Utf8.encode authority)) :
      Parsed ⟨none, some authority, ""⟩
  | asterisk : Parsed ⟨none, none, "*"⟩

theorem parsed_of_readFull (h : readFull bs = .ok u) : u.Parsed := by
  obtain ⟨scheme?, -, h⟩ := bind_eq_ok_iff.mp h
  cases scheme? with
  | none =>
    obtain ⟨⟨authority, rest⟩, hauthority, h⟩ := bind_eq_ok_iff.mp h
    obtain ⟨hlegible, -⟩ := of_readAuthority hauthority
    simp only at h
    split at h
    · obtain rfl := Except.ok.inj h
      exact .authority (hlegible.encode_text.symm ▸ hlegible)
    · cases h
  | some found =>
    obtain ⟨scheme, r⟩ := found
    obtain ⟨⟨authority, rest⟩, hauthority, h⟩ := bind_eq_ok_iff.mp h
    obtain ⟨hlegible, hrest⟩ := of_readAuthority hauthority
    simp only at h
    split at h
    · cases h
    · obtain ⟨target, htarget, h⟩ := bind_eq_ok_iff.mp h
      obtain rfl := Except.ok.inj h
      refine .absolute (hlegible.encode_text.symm ▸ hlegible)
        (follows_of_readTarget htarget fun b hb => ?_)
      have hends := List.head?_dropWhile_not (!endsAuthority ·) r
      rw [← hrest, hb] at hends
      simpa only [endsAuthority, Bool.not_eq_false', Bool.or_eq_true, beq_iff_eq, or_assoc]
        using hends

/-- Every target that is accepted has one of the forms. -/
theorem parsed_of_parse (h : parse bs = .ok u) : u.Parsed := by
  unfold parse at h
  split at h
  · cases h
  · split at h
    · cases h
    · obtain rfl := Except.ok.inj h
      exact .asterisk
    · obtain ⟨target, htarget, rfl⟩ := map_eq_ok_iff.mp h
      refine .origin (head?_of_readTarget (c := '/') (by decide) (by decide) htarget) ?_
      exact follows_of_readTarget htarget fun b hb => Or.inl (Option.some.inj hb).symm
    · split at h
      · cases h
      · exact parsed_of_readFull h
    · exact parsed_of_readFull h

/-- What is written behind a host: the root, or the target if there is anything to it. -/
theorem Parsed.getD_pathAndQuery? (h : u.Parsed) :
    u.target = "" ∧ u.pathAndQuery?.getD "/" = "/" ∨
      u.target ≠ "" ∧ (u.target = "*" ∨ Follows u.target) ∧
        u.pathAndQuery?.getD "/" = u.target := by
  cases h with
  | asterisk => exact Or.inr ⟨by decide, Or.inl rfl, rfl⟩
  | authority hauthority => exact Or.inl ⟨rfl, rfl⟩
  | @origin target hslash htarget =>
    have hne : target ≠ "" := by
      rintro rfl
      cases hslash
    exact Or.inr ⟨hne, Or.inr htarget, by simp [pathAndQuery?, hne]⟩
  | @absolute scheme authority target hauthority htarget =>
    by_cases hempty : target = ""
    · exact Or.inl ⟨hempty, by simp [pathAndQuery?, hempty]⟩
    · exact Or.inr ⟨hempty, Or.inr htarget, by simp [pathAndQuery?, hempty]⟩

/-- What follows the first question mark, if there is one. -/
def queryOf (target : List Char) : Option String :=
  match target.dropWhile (· ≠ '?') with
  | [] => none
  | _ :: query => some (String.ofList query)

/-- The query, if there is one. -/
def query? (u : Uri) : Option String := queryOf u.target.toList

end Uri

end Http

/-! ## What a client makes of an address -/

open Http

/-- What an address leads to. -/
structure Destination where
  /-- The authority: the host, and what is given with it. -/
  authority : String
  /-- The path. -/
  path : String
  /-- The query, if there is one. -/
  query : Option String
deriving DecidableEq, Repr

namespace Destination

/-- Whether the character ends an authority. -/
def endsAuthority (c : Char) : Bool := c == '/' || c == '?' || c == '#'

/-- An authority with what stands behind it: a path, the root if it is absent, and a query. -/
def ofTarget (authority : String) (target : List Char) : Destination :=
  let path := target.takeWhile (· ≠ '?')
  ⟨authority, if path = [] then "/" else String.ofList path, Uri.queryOf target⟩

/-- What an https address leads to. The authority reaches up to the first slash, question mark or
number sign, and a number sign ends what stands behind it. -/
def ofHttps? (address : String) : Option Destination :=
  (dropStart? "https://".toList address.toList).map fun rest =>
    ofTarget (String.ofList (rest.takeWhile (!endsAuthority ·)))
      ((rest.dropWhile (!endsAuthority ·)).takeWhile (· ≠ '#'))

/-- The path and the query of a target on a host. An absent path is the root. -/
def ofUri (host : String) (u : Uri) : Destination :=
  ⟨host, if u.path = "" then "/" else u.path, u.query?⟩

variable {host target : String} {u : Uri}

theorem endsAuthority_eq_false_iff {c : Char} :
    endsAuthority c = false ↔ c ∉ ['/', '?', '#'] := by
  simp [endsAuthority, and_assoc]

theorem not_mem_of_all (h : host.toList.all (!endsAuthority ·) = true) :
    ∀ c ∈ host.toList, c ∉ ['/', '?', '#'] := fun c hc =>
  endsAuthority_eq_false_iff.mp (by simpa using List.all_eq_true.mp h c hc)

theorem ofHttps?_append (rest : String) :
    ofHttps? ("https://" ++ rest) =
      some (ofTarget (String.ofList (rest.toList.takeWhile (!endsAuthority ·)))
        ((rest.toList.dropWhile (!endsAuthority ·)).takeWhile (· ≠ '#'))) := by
  have hrest : dropStart? "https://".toList ("https://" ++ rest).toList = some rest.toList :=
    dropStart?_eq_some_iff.mpr String.toList_append
  rw [ofHttps?, hrest, Option.map_some]

/-- An address leads to the host in it if that has no mark in it and one behind it. -/
theorem ofHttps?_of_ends (hhost : ∀ c ∈ host.toList, endsAuthority c = false)
    (hends : ∃ c ∈ target.toList.head?, endsAuthority c = true) (hclean : '#' ∉ target.toList) :
    ofHttps? ("https://" ++ (host ++ target)) = some (ofTarget host target.toList) := by
  have hbefore : ∀ c ∈ host.toList, (!endsAuthority c) = true := fun c hc => by simp [hhost c hc]
  obtain ⟨c, hc, hend⟩ := hends
  obtain ⟨cs, hcs⟩ := List.head?_eq_some_iff.mp hc
  have hbehind : target.toList.takeWhile (!endsAuthority ·) = [] ∧
      target.toList.dropWhile (!endsAuthority ·) = target.toList := by
    rw [hcs]
    exact ⟨List.takeWhile_cons_of_neg (by simp [hend]), List.dropWhile_cons_of_neg (by simp [hend])⟩
  have hwhole : target.toList.takeWhile (· ≠ '#') = target.toList := by
    rw [List.takeWhile_eq_self_iff]
    exact fun d hd => decide_eq_true fun heq => hclean (heq ▸ hd)
  rw [ofHttps?_append, String.toList_append, List.takeWhile_append_of_pos hbefore,
    List.dropWhile_append_of_pos hbefore, hbehind.1, hbehind.2, hwhole, List.append_nil,
    String.ofList_toList]

/-- An asterisk is taken for a part of the host. -/
theorem ofHttps?_asterisk (hhost : ∀ c ∈ host.toList, endsAuthority c = false) :
    ofHttps? ("https://" ++ (host ++ "*")) = some ⟨host ++ "*", "/", none⟩ := by
  have hall : ∀ c ∈ (host ++ "*").toList, (!endsAuthority c) = true := by
    intro c hc
    rw [String.toList_append, List.mem_append] at hc
    rcases hc with hc | hc
    · simp [hhost c hc]
    · rw [List.mem_singleton.mp hc]
      rfl
  rw [ofHttps?_append, List.takeWhile_eq_self_iff.mpr hall, List.dropWhile_eq_nil_iff.mpr hall,
    String.ofList_toList]
  rfl

theorem ofTarget_of_ne_empty (h : u.target ≠ "") :
    ofTarget host u.target.toList = ofUri host u := by
  have hpath : u.path = (ofTarget host u.target.toList).path := by
    simp only [Uri.path, ofTarget, ne_eq, h, not_false_eq_true, decide_true, Bool.or_true, if_true]
    cases u.target.toList.takeWhile (· ≠ '?') <;> rfl
  have hne : (ofTarget host u.target.toList).path ≠ "" := by
    rw [ofTarget]
    split
    · exact (by decide : "/" ≠ "")
    · rename_i hwritten
      exact fun heq => hwritten (by simpa using congrArg String.toList heq)
  rw [ofUri, hpath, if_neg hne]
  rfl

theorem ofUri_of_empty (h : u.target = "") : ofUri host u = ⟨host, "/", none⟩ := by
  cases hscheme : u.scheme <;> simp [ofUri, Uri.path, Uri.query?, h, hscheme, Uri.queryOf]

/-- The location on a host leads to the host, and to the path and the query of the target. -/
theorem ofHttps?_location (hparsed : u.Parsed) (hasterisk : u.target ≠ "*")
    (hhost : ∀ c ∈ host.toList, endsAuthority c = false) :
    ofHttps? (Redirect.location host u) = some (ofUri host u) := by
  rw [Redirect.location, String.append_assoc]
  rcases hparsed.getD_pathAndQuery? with ⟨hempty, hbehind⟩ | ⟨hne, hform, hbehind⟩
  · rw [hbehind, ofHttps?_of_ends hhost ⟨'/', rfl, rfl⟩ (by decide), ofUri_of_empty hempty]
    rfl
  · obtain ⟨hhead, hclean, -⟩ := hform.resolve_left hasterisk
    have hends : ∃ c ∈ u.target.toList.head?, endsAuthority c = true := by
      rcases hhead.resolve_left hne with hslash | hquestion
      · exact ⟨'/', hslash, rfl⟩
      · exact ⟨'?', hquestion, rfl⟩
    rw [hbehind, ofHttps?_of_ends hhost hends hclean, ofTarget_of_ne_empty hne]

/-- The location of the asterisk leads to another host. -/
theorem ofHttps?_location_ne (hparsed : u.Parsed) (hasterisk : u.target = "*")
    (hhost : ∀ c ∈ host.toList, endsAuthority c = false) :
    ofHttps? (Redirect.location host u) ≠ some (ofUri host u) := by
  have hbehind : u.pathAndQuery?.getD "/" = "*" := by
    rcases hparsed.getD_pathAndQuery? with ⟨hempty, -⟩ | ⟨-, -, htarget⟩
    · rw [hasterisk] at hempty
      exact absurd hempty (by decide)
    · rw [htarget, hasterisk]
  rw [Redirect.location, String.append_assoc, hbehind, ofHttps?_asterisk hhost]
  intro heq
  have hsame : host ++ "*" = host := congrArg authority (Option.some.inj heq)
  have hlength := congrArg String.length hsame
  simp at hlength

end Destination

/-! ## Redirections -/

namespace Redirect

variable {r : Request} {host : String}

/-- The host that a request asks for: that of the first field of its name, if it is legible, or else
the authority of the target. -/
inductive AsksFor (r : Request) (host : String) : Prop
  | field (hfirst : r.headers.first? "host" = some (Utf8.encode host))
      (hlegible : Legible (Utf8.encode host))
  | target (hfirst : ∀ value, r.headers.first? "host" = some value → ¬ Legible value)
      (hauthority : r.uri.authority = some host)

theorem host?_eq_some_iff : host? r = some host ↔ AsksFor r host := by
  have hauthority : (∀ value, r.headers.first? "host" = some value → ¬ Legible value) →
      host? r = r.uri.authority := by
    intro hno
    rw [host?, Option.bind_eq_none_iff.mpr, Option.none_or]
    intro value hvalue
    refine Option.eq_none_iff_forall_ne_some.mpr fun text htext => ?_
    exact hno value hvalue (text?_eq_some_iff.mp htext).1
  constructor
  · intro h
    by_cases hfirst : ∃ value, r.headers.first? "host" = some value ∧ Legible value
    · obtain ⟨value, hvalue, hlegible⟩ := hfirst
      have htext := text?_eq_some_iff.mpr ⟨hlegible, hlegible.encode_text.symm⟩
      rw [host?, hvalue, Option.bind_some, htext, Option.some_or] at h
      rw [← hlegible.encode_text, Option.some.inj h] at hvalue hlegible
      exact .field hvalue hlegible
    · have hno : ∀ value, r.headers.first? "host" = some value → ¬ Legible value :=
        fun value hvalue hlegible => hfirst ⟨value, hvalue, hlegible⟩
      exact .target hno (hauthority hno ▸ h)
  · rintro (⟨hfirst, hlegible⟩ | ⟨hno, h⟩)
    · rw [host?, hfirst, Option.bind_some, text?_eq_some_iff.mpr ⟨hlegible, rfl⟩, Option.some_or]
    · rw [hauthority hno, h]

theorem exists_asksFor_iff : (∃ host, AsksFor r host) ↔
    (∃ value, r.headers.first? "host" = some value ∧ Legible value) ∨
      r.uri.authority.isSome = true := by
  constructor
  · rintro ⟨host, hfirst, hlegible⟩
    · exact Or.inl ⟨_, hfirst, hlegible⟩
    · exact Or.inr (Option.isSome_of_eq_some ‹_›)
  · intro h
    by_cases hfirst : ∃ value, r.headers.first? "host" = some value ∧ Legible value
    · obtain ⟨value, hvalue, hlegible⟩ := hfirst
      rw [← hlegible.encode_text] at hvalue hlegible
      exact ⟨_, .field hvalue hlegible⟩
    · obtain ⟨host, hhost⟩ := Option.isSome_iff_exists.mp (h.resolve_left hfirst)
      exact ⟨host, .target (fun value hvalue hlegible => hfirst ⟨value, hvalue, hlegible⟩) hhost⟩

/-- The location may be sent in a header field. -/
theorem isValue_location (hparsed : r.uri.Parsed) (h : AsksFor r host) :
    isValue (Utf8.encode (location host r.uri)) = true := by
  have hhost : Legible (Utf8.encode host) := by
    cases h with
    | field hfirst hlegible => exact hlegible
    | target hno hauthority =>
      generalize r.uri = u at hparsed hauthority
      cases hparsed with
      | origin | asterisk => cases hauthority
      | absolute hlegible | authority hlegible => exact Option.some.inj hauthority ▸ hlegible
  have hbehind : isValue (Utf8.encode (r.uri.pathAndQuery?.getD "/")) = true := by
    rcases hparsed.getD_pathAndQuery? with ⟨-, hroot⟩ | ⟨-, hform, htarget⟩
    · rw [hroot]
      decide
    · rw [htarget]
      rcases hform with hasterisk | hfollows
      · rw [hasterisk]
        decide
      · exact hfollows.isValue_encode
  rw [location, isValue_encode_append, isValue_encode_append, hhost.isValue, hbehind]
  decide

theorem respond_of_asksFor (h : AsksFor r host) :
    respond r = .bare 301 [field "location" (location host r.uri)] := by
  rw [respond, host?_eq_some_iff.mpr h]

/-- A request is redirected exactly if its first host field is legible or its target has an
authority. The location can be sent, and if there is no mark in the host, it leads to just that host
and to the path and the query of the target, unless the target is the asterisk. -/
theorem redirection_leads_iff {bytes : Bytes} {r : Request} (hparse : Uri.parse bytes = .ok r.uri) :
    let asks := (∃ value, r.headers.first? "host" = some value ∧ Legible value) ∨
      r.uri.authority.isSome = true
    (asks → (respond r).status = 301) ∧ (¬ asks → (respond r).status = 400) ∧
    ∀ host, AsksFor r host → ∃ address,
      (respond r).headers.all "location" = [Utf8.encode address] ∧
      isValue (Utf8.encode address) = true ∧
      ((∀ c ∈ host.toList, c ∉ ['/', '?', '#']) →
        (Destination.ofHttps? address = some (.ofUri host r.uri) ↔ r.uri.target ≠ "*")) := by
  intro asks
  have hparsed := Uri.parsed_of_parse hparse
  refine ⟨fun hasks => ?_, fun hno => ?_, fun host hhost => ?_⟩
  · obtain ⟨host, hhost⟩ := exists_asksFor_iff.mpr hasks
    rw [respond_of_asksFor hhost]
    rfl
  · have hnone : host? r = none := Option.eq_none_iff_forall_ne_some.mpr fun host hhost =>
      hno (exists_asksFor_iff.mp ⟨host, host?_eq_some_iff.mp hhost⟩)
    rw [respond, hnone]
    rfl
  · refine ⟨location host r.uri, ?_, isValue_location hparsed hhost, fun hmarks => ?_⟩
    · rw [respond_of_asksFor hhost]
      rfl
    · have hends : ∀ c ∈ host.toList, Destination.endsAuthority c = false :=
        fun c hc => Destination.endsAuthority_eq_false_iff.mpr (hmarks c hc)
      constructor
      · intro hleads hasterisk
        exact Destination.ofHttps?_location_ne hparsed hasterisk hends hleads
      · intro hasterisk
        exact Destination.ofHttps?_location hparsed hasterisk hends

/-- An absolute target with a query and no path, on a host that the header names otherwise. -/
theorem redirection_leads_iff_absolute :
    let r : Request := ⟨"GET", ⟨some "http", some "h", "?x=1"⟩,
      [("host", Utf8.encode "relay.example.com")], .empty⟩
    Uri.parse (Utf8.encode "http://h?x=1") = .ok r.uri ∧ (respond r).status = 301 ∧
      ∃ address, (respond r).headers.all "location" = [Utf8.encode address] ∧
        Destination.ofHttps? address = some ⟨"relay.example.com", "/", some "x=1"⟩ := by
  intro r
  have hparse : Uri.parse (Utf8.encode "http://h?x=1") = .ok r.uri := by
    decide +kernel
  have hlegible : Legible (Utf8.encode "relay.example.com") := all_isTextByte_iff.mp (by decide)
  obtain ⟨hredirect, -, hleads⟩ := redirection_leads_iff hparse
  obtain ⟨address, haddress, -, hiff⟩ := hleads "relay.example.com" (.field rfl hlegible)
  have hdestination : Destination.ofUri "relay.example.com" r.uri =
      ⟨"relay.example.com", "/", some "x=1"⟩ := by decide
  exact ⟨hparse, hredirect (Or.inr rfl), address, haddress,
    hdestination ▸ (hiff (Destination.not_mem_of_all (by decide))).mpr (by decide)⟩

/-- The asterisk is a target, too, but its location names another host than the one asked for. -/
theorem asterisk_joins_host : ¬ ∀ (bytes : Bytes) (r : Request) (host : String),
    Uri.parse bytes = .ok r.uri → AsksFor r host → (∀ c ∈ host.toList, c ∉ ['/', '?', '#']) →
    ∃ address, (respond r).headers.all "location" = [Utf8.encode address] ∧
      Destination.ofHttps? address = some (.ofUri host r.uri) := by
  intro h
  let r : Request := ⟨"OPTIONS", ⟨none, none, "*"⟩, [("host", Utf8.encode "relay.example.com")],
    .empty⟩
  obtain ⟨address, haddress, hleads⟩ := h [42] r "relay.example.com" rfl
    (.field rfl (all_isTextByte_iff.mp (by decide))) (Destination.not_mem_of_all (by decide))
  have haddress : Utf8.encode "https://relay.example.com*" = Utf8.encode address :=
    List.singleton_inj.mp haddress
  rw [← Utf8.encode_injective haddress] at hleads
  exact absurd hleads (by decide)

end Redirect

end BroadcastRelay
