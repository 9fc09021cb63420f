import BroadcastRelay.Proofs.Changeover
/-!
# The list of encodings follows its history

The encodings of a broadcast are added one by one, taken away all at once when a publisher is
replaced or leaves, and counted packet by packet through the handles that were given out for them.
Here each of these is done at one go; a `Changeover` takes the steps of two publishers apart. What
the list should be after any sequence of such events is said on the events alone: which event takes
everything away (`Wipes`), which addition stands (`Listed`), and which packets its counter has
counted.

An event changes what is to be listed (`listed_concat`) as it changes the list (`mem_layers_step`),
so the list holds just the additions that stand (`mem_layers_after`). They are in the order of their
handles, which number the additions, and no two have the same name (`inOrder_after`).
-/

namespace BroadcastRelay

namespace Broadcast

/-- The name of an encoding. One that has none is the default one. -/
def named (rid : String) : String := if rid = "" then defaultRid else rid

theorem named_ne_empty (rid : String) : named rid ≠ "" := by
  unfold named
  split
  · decide
  · assumption

/-- What happens to the encodings of a broadcast. -/
inductive Event where
  /-- An encoding is added. -/
  | add (rid : String) (ssrc : UInt32)
  /-- A publisher is put on air. -/
  | replace (p : Publisher)
  /-- The publisher with this id is taken off air, if it is on. -/
  | clear (id : String)
  /-- A packet is received through a handle. -/
  | packet (handle : Nat)
deriving DecidableEq, Repr

/-- The broadcast after an event. -/
def step (b : Broadcast) : Event → Broadcast
  | .add rid ssrc => (b.addLayer rid ssrc).1
  | .replace p => (b.replacePublisher p).1
  | .clear id => (b.clearPublisher id).1
  | .packet handle => b.countVideo handle 1

/-- The broadcast after a list of events. -/
def after (b : Broadcast) (es : List Event) : Broadcast := es.foldl step b

theorem after_concat (b : Broadcast) (es : List Event) (e : Event) :
    b.after (es ++ [e]) = (b.after es).step e := by
  simp only [after, List.foldl_append, List.foldl_cons, List.foldl_nil]

/-! ## What the events say -/

variable {key id rid : String} {now : UInt64} {es pre post : List Event} {e : Event}
  {l : VideoLayer}

/-- A publisher with this id was the last one to be put on air, and has not been taken off since. -/
def OnAir (es : List Event) (id : String) : Prop :=
  ∃ pre p post, es = pre ++ .replace p :: post ∧ p.id = id ∧ (∀ q, .replace q ∉ post) ∧
    .clear id ∉ post

/-- Whether the event takes all encodings away, after the ones before it. -/
def Wipes (before : List Event) : Event → Prop
  | .replace _ => True
  | .clear id => OnAir before id
  | _ => False

/-- None of the later events takes all encodings away. -/
def Kept (before later : List Event) : Prop :=
  ∀ pre e post, later = pre ++ e :: post → ¬ Wipes (before ++ pre) e

/-- An encoding of this name was added, and not taken away with all others since. -/
def AddedSince (es : List Event) (rid : String) : Prop :=
  ∃ pre raw ssrc post, es = pre ++ .add raw ssrc :: post ∧ named raw = rid ∧
    Kept pre (.add raw ssrc :: post)

/-- Whether the event adds an encoding. -/
def Event.isAdd : Event → Bool
  | .add _ _ => true
  | _ => false

/-- How many encodings have been added. -/
def adds (es : List Event) : Nat := es.countP Event.isAdd

/-- The encoding was added as it is listed, no other of its name was added later, and nothing took
it away. Its handle is the number of the addition, and it has counted the packets that came through
the handle since. -/
def Listed (es : List Event) (l : VideoLayer) : Prop :=
  ∃ pre raw post, es = pre ++ .add raw l.ssrc :: post ∧ l.rid = named raw ∧
    (∀ raw' ssrc', .add raw' ssrc' ∈ post → named raw' ≠ l.rid) ∧
    Kept pre (.add raw l.ssrc :: post) ∧ l.handle = adds pre ∧
    l.packets = UInt64.ofNat (post.count (.packet l.handle))

/-! ### One event more -/

theorem onAir_concat : OnAir (es ++ [e]) id ↔
    (∃ p, e = .replace p ∧ p.id = id) ∨ OnAir es id ∧ (∀ p, e ≠ .replace p) ∧ e ≠ .clear id := by
  constructor
  · rintro ⟨pre, p, post, heq, hid, hreplace, hclear⟩
    rcases append_singleton_eq_append_cons.mp heq with ⟨-, rfl, -⟩ | ⟨rest, rfl, hes⟩
    · exact Or.inl ⟨p, rfl, hid⟩
    · simp only [List.mem_append, List.mem_singleton, not_or] at hreplace hclear
      exact Or.inr ⟨⟨pre, p, rest, hes, hid, fun q => (hreplace q).1, hclear.1⟩,
        fun q => Ne.symm (hreplace q).2, Ne.symm hclear.2⟩
  · rintro (⟨p, rfl, hid⟩ | ⟨⟨pre, p, post, rfl, hid, hreplace, hclear⟩, hnew, hstays⟩)
    · exact ⟨es, p, [], rfl, hid, by simp, by simp⟩
    · refine ⟨pre, p, post ++ [e], by simp, hid, fun q => ?_, ?_⟩
      · simpa using ⟨hreplace q, Ne.symm (hnew q)⟩
      · simpa using ⟨hclear, Ne.symm hstays⟩

theorem kept_nil (before : List Event) : Kept before [] :=
  fun _ _ _ heq => absurd heq (by simp)

theorem kept_concat {later : List Event} :
    Kept pre (later ++ [e]) ↔ Kept pre later ∧ ¬ Wipes (pre ++ later) e := by
  constructor
  · intro h
    refine ⟨fun mid x rest heq => h mid x (rest ++ [e]) (by simp [heq]), h later e [] rfl⟩
  · rintro ⟨hkept, hlast⟩ mid x rest heq
    rcases append_singleton_eq_append_cons.mp heq with ⟨rfl, rfl, -⟩ | ⟨rest', -, hlater⟩
    · exact hlast
    · exact hkept mid x rest' hlater

theorem kept_add (before : List Event) (raw : String) (ssrc : UInt32) :
    Kept before [.add raw ssrc] := by
  rw [← List.nil_append [Event.add raw ssrc], kept_concat]
  exact ⟨kept_nil before, id⟩

theorem addedSince_concat : AddedSince (es ++ [e]) rid ↔
    (∃ raw ssrc, e = .add raw ssrc ∧ named raw = rid) ∨ AddedSince es rid ∧ ¬ Wipes es e := by
  constructor
  · rintro ⟨pre, raw, ssrc, post, heq, hrid, hkept⟩
    rcases append_singleton_eq_append_cons.mp heq with ⟨-, rfl, -⟩ | ⟨rest, rfl, rfl⟩
    · exact Or.inl ⟨raw, ssrc, rfl, hrid⟩
    · rw [← List.cons_append, kept_concat] at hkept
      exact Or.inr ⟨⟨pre, raw, ssrc, rest, rfl, hrid, hkept.1⟩, hkept.2⟩
  · rintro (⟨raw, ssrc, rfl, hrid⟩ | ⟨⟨pre, raw, ssrc, post, rfl, hrid, hkept⟩, hlast⟩)
    · exact ⟨es, raw, ssrc, [], rfl, hrid, kept_add es raw ssrc⟩
    · refine ⟨pre, raw, ssrc, post ++ [e], by simp, hrid, ?_⟩
      rw [← List.cons_append, kept_concat]
      exact ⟨hkept, hlast⟩

/-- The encoding after an event that leaves it listed. -/
def counted (e : Event) (l : VideoLayer) : VideoLayer :=
  if e = .packet l.handle then { l with packets := l.packets + 1 } else l

@[simp] theorem rid_counted (e : Event) (l : VideoLayer) : (counted e l).rid = l.rid := by
  unfold counted
  split <;> rfl

@[simp] theorem handle_counted (e : Event) (l : VideoLayer) :
    (counted e l).handle = l.handle := by
  unfold counted
  split <;> rfl

theorem counted_mk (e : Event) (rid : String) (ssrc : UInt32) (handle n : Nat) :
    counted e ⟨rid, ssrc, handle, UInt64.ofNat n⟩ =
      ⟨rid, ssrc, handle, UInt64.ofNat (n + [e].count (.packet handle))⟩ := by
  by_cases he : e = .packet handle
  · simp [counted, he]
  · simp [counted, he]

/-- What is to be listed after one event more: what the event adds, and what was listed before,
unless the event takes it away or puts another one in its place. -/
theorem listed_concat : Listed (es ++ [e]) l ↔
    (∃ raw ssrc, e = .add raw ssrc ∧ l = ⟨named raw, ssrc, adds es, 0⟩) ∨
      ∃ m, Listed es m ∧ ¬ Wipes es e ∧ (∀ raw ssrc, e = .add raw ssrc → named raw ≠ m.rid) ∧
        l = counted e m := by
  constructor
  · obtain ⟨rid, ssrc, handle, packets⟩ := l
    rintro ⟨pre, raw, post, heq, hrid, hlast, hkept, hhandle, hpackets⟩
    dsimp only at heq hrid hlast hkept hhandle hpackets
    subst hrid hhandle hpackets
    rcases append_singleton_eq_append_cons.mp heq with ⟨rfl, rfl, rfl⟩ | ⟨rest, rfl, rfl⟩
    · exact Or.inl ⟨raw, ssrc, rfl, rfl⟩
    · rw [← List.cons_append, kept_concat] at hkept
      refine Or.inr ⟨⟨named raw, ssrc, adds pre, UInt64.ofNat (rest.count (.packet (adds pre)))⟩,
        ⟨pre, raw, rest, rfl, rfl, fun raw' ssrc' hmem => ?_, hkept.1, rfl, rfl⟩, hkept.2,
        fun raw' ssrc' he => ?_, ?_⟩
      · exact hlast raw' ssrc' (List.mem_append_left _ hmem)
      · exact hlast raw' ssrc' (List.mem_append_right _ (List.mem_singleton.mpr he.symm))
      · rw [counted_mk, List.count_append]
  · rintro (⟨raw, ssrc, rfl, rfl⟩ | ⟨⟨rid, ssrc, handle, packets⟩,
      ⟨pre, raw, post, rfl, hrid, hlast, hkept, hhandle, hpackets⟩, hwipes, hnew, rfl⟩)
    · exact ⟨es, raw, [], rfl, rfl, by simp, kept_add es raw ssrc, rfl, rfl⟩
    · dsimp only at hrid hlast hkept hhandle hpackets hwipes hnew
      subst hpackets
      rw [counted_mk, ← List.count_append]
      refine ⟨pre, raw, post ++ [e], by simp, hrid, fun raw' ssrc' hmem => ?_, ?_, hhandle, rfl⟩
      · rcases List.mem_append.mp hmem with hmem | hmem
        · exact hlast raw' ssrc' hmem
        · exact hnew raw' ssrc' (List.mem_singleton.mp hmem).symm
      · rw [← List.cons_append, kept_concat]
        exact ⟨hkept, hwipes⟩

/-! ## What the broadcast holds -/

variable {b : Broadcast}

theorem isOnAir_iff : b.isOnAir id = true ↔ ∃ p, b.publisher = some p ∧ p.id = id := by
  simp [isOnAir, Option.any_eq_true]

theorem additions_step (b : Broadcast) (e : Event) :
    (b.step e).additions = b.additions + [e].countP Event.isAdd := by
  cases e with
  | add raw ssrc => rfl
  | replace p => rfl
  | packet handle => rfl
  | clear id =>
    rw [step, clearPublisher]
    split <;> rfl

theorem additions_after (key : String) (now : UInt64) (es : List Event) :
    ((fresh key now).after es).additions = adds es := by
  induction es using List.reverseRecOn with
  | nil => rfl
  | append_singleton es e ih =>
    rw [after_concat, additions_step, ih, adds, adds, List.countP_append]

theorem isOnAir_step : (b.step e).isOnAir id = true ↔
    (∃ p, e = .replace p ∧ p.id = id) ∨
      b.isOnAir id = true ∧ (∀ p, e ≠ .replace p) ∧ e ≠ .clear id := by
  cases e with
  | add raw ssrc => simp [step, addLayer, isOnAir]
  | replace p => simp [step, replacePublisher, putPublisher, clearMedia, clearLayers, isOnAir]
  | packet handle => simp [step, countVideo, isOnAir]
  | clear other =>
    rw [step, clearPublisher]
    split
    · rename_i hother
      refine iff_of_false (by simp [takePublisher, clearLayers, isOnAir]) ?_
      rintro (⟨p, heq, -⟩ | ⟨hid, -, hne⟩)
      · cases heq
      · obtain ⟨p, hp, rfl⟩ := isOnAir_iff.mp hother
        obtain ⟨q, hq, rfl⟩ := isOnAir_iff.mp hid
        obtain rfl := Option.some.inj (hp.symm.trans hq)
        exact hne rfl
    · rename_i hother
      constructor
      · intro hid
        exact Or.inr ⟨hid, by simp, fun heq => hother (Event.clear.inj heq ▸ hid)⟩
      · rintro (⟨p, heq, -⟩ | ⟨hid, -⟩)
        · cases heq
        · exact hid

/-- Who is on air is the last one who came and has not left. -/
theorem isOnAir_after : ((fresh key now).after es).isOnAir id = true ↔ OnAir es id := by
  induction es using List.reverseRecOn with
  | nil => simp [OnAir, after, fresh, isOnAir]
  | append_singleton es e ih => rw [after_concat, isOnAir_step, onAir_concat, ih]

/-- Whether the event takes all encodings of the broadcast away. -/
def Clears (b : Broadcast) : Event → Prop
  | .replace _ => True
  | .clear id => b.isOnAir id = true
  | _ => False

theorem clears_after_iff : ((fresh key now).after es).Clears e ↔ Wipes es e := by
  cases e with
  | clear id => exact isOnAir_after
  | add | replace | packet => exact Iff.rfl

theorem layers_add (b : Broadcast) (raw : String) (ssrc : UInt32) :
    (b.step (.add raw ssrc)).layers =
      b.layers.filter (·.rid ≠ named raw) ++ [⟨named raw, ssrc, b.additions, 0⟩] := rfl

theorem layers_packet (b : Broadcast) (handle : Nat) :
    (b.step (.packet handle)).layers = b.layers.map (counted (.packet handle)) := by
  refine List.map_congr_left fun l _ => ?_
  simp only [counted, Event.packet.injEq, eq_comm]

theorem layers_clear (b : Broadcast) (id : String) :
    (b.step (.clear id)).layers = if b.isOnAir id then [] else b.layers := by
  rw [step, clearPublisher]
  split <;> rfl

/-- What is listed after an event: what it adds, and what was listed before, unless the event takes
it away or puts another one in its place. -/
theorem mem_layers_step : l ∈ (b.step e).layers ↔
    (∃ raw ssrc, e = .add raw ssrc ∧ l = ⟨named raw, ssrc, b.additions, 0⟩) ∨
      ∃ m ∈ b.layers, ¬ b.Clears e ∧ (∀ raw ssrc, e = .add raw ssrc → named raw ≠ m.rid) ∧
        l = counted e m := by
  cases e with
  | add raw ssrc =>
    rw [layers_add, List.mem_append, List.mem_filter, List.mem_singleton, or_comm]
    simp [Clears, counted, @eq_comm _ (named raw)]
  | replace p => simp [step, replacePublisher, clearMedia, clearLayers, Clears]
  | clear id =>
    rw [layers_clear]
    split <;> simp [Clears, counted, *]
  | packet handle =>
    rw [layers_packet, List.mem_map]
    simp [Clears, eq_comm]

/-- The list holds the additions that stand, and nothing else. -/
theorem mem_layers_after : l ∈ ((fresh key now).after es).layers ↔ Listed es l := by
  induction es using List.reverseRecOn generalizing l with
  | nil => simp [Listed, after, fresh]
  | append_singleton es e ih =>
    rw [after_concat, mem_layers_step, listed_concat, additions_after]
    simp only [ih, clears_after_iff]

/-! ## Order -/

/-- Encodings later in the list have higher handles and other names. -/
def InOrder (ls : List VideoLayer) : Prop :=
  ls.Pairwise fun l m => l.handle < m.handle ∧ l.rid ≠ m.rid

theorem handle_lt_of_listed (h : Listed es l) : l.handle < adds es := by
  obtain ⟨pre, raw, post, rfl, -, -, -, hhandle, -⟩ := h
  rw [hhandle, adds, adds, List.countP_append, List.countP_cons]
  simp [Event.isAdd]

theorem inOrder_step (horder : InOrder b.layers) (hbelow : ∀ l ∈ b.layers, l.handle < b.additions) :
    InOrder (b.step e).layers := by
  cases e with
  | add raw ssrc =>
    rw [layers_add, InOrder, List.pairwise_append]
    refine ⟨horder.filter _, List.pairwise_singleton _ _, fun l hl m hm => ?_⟩
    obtain ⟨hl, hname⟩ := List.mem_filter.mp hl
    rw [List.mem_singleton.mp hm]
    exact ⟨hbelow l hl, of_decide_eq_true hname⟩
  | replace p => exact List.Pairwise.nil
  | clear id =>
    rw [layers_clear]
    split
    · exact List.Pairwise.nil
    · exact horder
  | packet handle =>
    rw [layers_packet, InOrder, List.pairwise_map]
    simp only [handle_counted, rid_counted]
    exact horder

theorem inOrder_after : InOrder ((fresh key now).after es).layers := by
  induction es using List.reverseRecOn with
  | nil => exact List.Pairwise.nil
  | append_singleton es e ih =>
    rw [after_concat]
    refine inOrder_step ih fun l hl => ?_
    rw [additions_after]
    exact handle_lt_of_listed (mem_layers_after.mp hl)

/-! ## Names -/

/-- An encoding is listed exactly if it was added and nothing has taken all of them away since. -/
theorem exists_listed_iff : (∃ l, Listed es l ∧ l.rid = rid) ↔ AddedSince es rid := by
  induction es using List.reverseRecOn with
  | nil => simp [Listed, AddedSince]
  | append_singleton es e ih =>
    rw [addedSince_concat, ← ih]
    constructor
    · rintro ⟨l, hl, rfl⟩
      rcases listed_concat.mp hl with ⟨raw, ssrc, rfl, rfl⟩ | ⟨m, hm, hwipes, -, rfl⟩
      · exact Or.inl ⟨raw, ssrc, rfl, rfl⟩
      · exact Or.inr ⟨⟨m, hm, (rid_counted e m).symm⟩, hwipes⟩
    · rintro (⟨raw, ssrc, rfl, rfl⟩ | ⟨⟨m, hm, rfl⟩, hwipes⟩)
      · exact ⟨_, listed_concat.mpr (Or.inl ⟨raw, ssrc, rfl, rfl⟩), rfl⟩
      · by_cases hnew : ∃ raw ssrc, e = .add raw ssrc ∧ named raw = m.rid
        · obtain ⟨raw, ssrc, rfl, hrid⟩ := hnew
          exact ⟨_, listed_concat.mpr (Or.inl ⟨raw, ssrc, rfl, rfl⟩), hrid⟩
        · have hother : ∀ raw ssrc, e = .add raw ssrc → named raw ≠ m.rid :=
            fun raw ssrc he hrid => hnew ⟨raw, ssrc, he, hrid⟩
          exact ⟨_, listed_concat.mpr (Or.inr ⟨m, hm, hwipes, hother, rfl⟩), rid_counted e m⟩

/-- The list of encodings is what the events make of it. -/
structure FollowsHistory (es : List Event) (b : Broadcast) : Prop where
  /-- Every encoding has a name. -/
  named : ∀ l ∈ b.layers, l.rid ≠ ""
  /-- No two have the same name. -/
  nodup : (b.layers.map (·.rid)).Nodup
  /-- A name is listed exactly if it was added and not taken away since. -/
  mem_rids_iff : ∀ rid, rid ∈ b.layers.map (·.rid) ↔ AddedSince es rid
  /-- Each encoding is listed as it was added last, with what came through its handle since. -/
  mem_iff : ∀ l, l ∈ b.layers ↔ Listed es l
  /-- The order is that of the latest additions. -/
  order : b.layers.Pairwise fun l m => l.handle < m.handle
  /-- The handle that is given out for an encoding numbers its addition. -/
  added_eq : ∀ rid ssrc, (b.addLayer rid ssrc).2 = ⟨Broadcast.named rid, ssrc, adds es, 0⟩
  /-- The encodings that are said to be there are those in the list. -/
  hasLayer_iff : ∀ rid, b.hasLayer rid = true ↔ rid ∈ b.layers.map (·.rid)
  /-- The layers that viewers are told of are those in the list, in its order. -/
  selectable_eq : b.selectable = (b.layers.map (·.rid)).map fun rid => ⟨videoMediaId, rid⟩
  /-- The status is that of the encodings in the list, in its order. -/
  videoStatuses_eq : b.videoStatuses = b.layers.map fun l => ⟨l.rid, l.packets⟩

/-- Whatever is added to a broadcast, whoever comes and leaves, and through whatever handles packets
come, the list of its encodings follows from these events. -/
theorem layer_list_follows_history (key : String) (now : UInt64) (es : List Event) :
    FollowsHistory es ((fresh key now).after es) where
  named l hl := by
    obtain ⟨pre, raw, post, -, hrid, -⟩ := mem_layers_after.mp hl
    exact hrid ▸ named_ne_empty raw
  nodup := List.pairwise_map.mpr (inOrder_after.imp fun h => h.2)
  mem_rids_iff rid := by
    simp only [List.mem_map, mem_layers_after, exists_listed_iff]
  mem_iff _ := mem_layers_after
  order := inOrder_after.imp fun h => h.1
  added_eq rid ssrc := by
    rw [← additions_after key now es]
    rfl
  hasLayer_iff rid := by
    simp [hasLayer]
  selectable_eq := List.map_map.symm
  videoStatuses_eq := rfl

/-- An encoding that is added again goes to the end with a new source and a new counter, packets
through its old handle are lost, and a publisher that is not on air takes nothing away. -/
example : ((fresh "k" 0).after [.replace ⟨"a", 0⟩, .add "" 1, .add "l" 2, .packet 0, .clear "b",
    .add "default" 3, .packet 0, .packet 2]).layers = [⟨"l", 2, 1, 0⟩, ⟨"default", 3, 2, 1⟩] := by
  decide

end Broadcast

end BroadcastRelay
