import BroadcastRelay.Proofs.Selection
import Mathlib.Data.List.Nodup
/-!
# What the status lists

A status is put together from the two maps of the registry each time it is asked for: an entry for
every registered broadcast, and in it the registered sessions of its key. In a well-formed registry
the names that the maps lead to are their keys, so that both listings increase strictly
(`map_key_onAir`, `pairwise_id_sessionsOf`). A session is in the entry of its own key and in no
other (`mem_sessions_iff`), and a reachable registry has an entry for the key of every session.
Together they give `statuses_account`: every broadcast and every session is listed, once and in its
place.
-/

namespace BroadcastRelay

namespace KeyMap

variable {α β : Type}

/-- What an ordered map leads to comes in the order of its keys, if each thing is named after the
key that leads to it. -/
theorem Ordered.map_filterMap_values {m : KeyMap α} (h : m.Ordered) {look : α → Option β}
    {name : β → String}
    (hlook : ∀ {key a}, m.get? key = some a → ∃ b, look a = some b ∧ name b = key) :
    (m.values.filterMap look).map name = m.entries.map (·.1) := by
  rw [values, List.filterMap_map, List.map_filterMap, List.filterMap_eq_map_iff_forall_eq_some]
  rintro ⟨key, a⟩ hentry
  obtain ⟨b, hb, hname⟩ := hlook (find_of_mem h hentry)
  rw [Function.comp_apply, hb, Option.map_some, hname]

theorem Ordered.pairwise_keys {m : KeyMap α} (h : m.Ordered) :
    (m.entries.map (·.1)).Pairwise (· < ·) :=
  List.pairwise_map.mpr h

end KeyMap

namespace Registry

variable {r : Registry} {key : String}

/-! ## Broadcasts -/

theorem map_key_onAir (h : r.WellFormed) : r.onAir.map (·.key) = r.streams.entries.map (·.1) :=
  h.keys.ordered.map_filterMap_values h.keys.broadcast_at

theorem mem_onAir (h : r.WellFormed) {b : Broadcast} :
    b ∈ r.onAir ↔ r.stream? b.key = some b := by
  simp only [onAir, List.mem_filterMap, h.keys.ordered.mem_values, stream?,
    Option.bind_eq_some_iff]
  constructor
  · rintro ⟨i, ⟨key, hkey⟩, hb⟩
    obtain ⟨x, hx, rfl⟩ := h.keys.broadcast_at hkey
    obtain rfl := Option.some.inj (hx.symm.trans hb)
    exact ⟨i, hkey, hb⟩
  · rintro ⟨i, hkey, hb⟩
    exact ⟨i, ⟨_, hkey⟩, hb⟩

/-- What a key leads to carries that key. -/
theorem key_of_stream? (h : r.WellFormed) {b : Broadcast} (hb : r.stream? key = some b) :
    b.key = key := by
  obtain ⟨i, hi, hat⟩ := Option.bind_eq_some_iff.mp hb
  obtain ⟨x, hx, hkey⟩ := h.keys.broadcast_at hi
  rw [← hkey, Option.some.inj (hat.symm.trans hx)]

/-! ## Sessions -/

/-- What an id leads to carries that id. -/
theorem id_of_session? (h : r.WellFormed) {id : String} {s : Session}
    (hs : r.session? id = some s) : s.id = id := by
  obtain ⟨i, hi, hat⟩ := exists_place hs
  obtain ⟨x, hx, hid⟩ := h.ids.session_at hi
  rw [← hid, Option.some.inj (hat.symm.trans hx)]

/-- The ids of the sessions of a key increase strictly. -/
theorem pairwise_id_sessionsOf (h : r.WellFormed) (key : String) :
    ((r.sessionsOf key).map (·.id)).Pairwise (· < ·) := by
  have hall := h.ids.ordered.map_filterMap_values h.ids.session_at
  exact (hall ▸ h.ids.ordered.pairwise_keys).sublist (List.filter_sublist.map _)

/-! ## Entries -/

theorem mem_statuses (h : r.WellFormed) {st : StreamStatus} :
    st ∈ r.statuses ↔ r.status st.streamKey = some st := by
  simp only [statuses, status, List.mem_map, Option.map_eq_some_iff]
  constructor
  · rintro ⟨b, hb, rfl⟩
    exact ⟨b, (mem_onAir h).mp hb, rfl⟩
  · rintro ⟨b, hb, hst⟩
    exact ⟨b, (mem_onAir h).mpr (key_of_stream? h hb ▸ hb), hst⟩

theorem streamKey_of_status (h : r.WellFormed) {st : StreamStatus} (hst : r.status key = some st) :
    st.streamKey = key := by
  obtain ⟨b, hb, rfl⟩ := Option.map_eq_some_iff.mp hst
  exact key_of_stream? h hb

theorem map_streamKey_statuses (h : r.WellFormed) :
    r.statuses.map (·.streamKey) = r.streams.entries.map (·.1) := by
  rw [← map_key_onAir h, statuses, List.map_map]
  rfl

/-- An entry lists the registered sessions of its key and no others. -/
theorem mem_sessions_iff (h : r.WellFormed) {st : StreamStatus} (hst : st ∈ r.statuses)
    {x : SessionStatus} : x ∈ st.sessions ↔
      ∃ s, r.session? x.id = some s ∧ s.streamKey = st.streamKey ∧ s.status = x := by
  obtain ⟨b, -, rfl⟩ := List.mem_map.mp hst
  simp only [statusOf, List.mem_map, mem_sessionsOf h]
  constructor
  · rintro ⟨s, ⟨id, hs, hkey⟩, rfl⟩
    refine ⟨s, ?_, hkey, rfl⟩
    rw [Session.status, id_of_session? h hs, hs]
  · rintro ⟨s, hs, hkey, hx⟩
    exact ⟨s, ⟨x.id, hs, hkey⟩, hx⟩

theorem pairwise_id_sessions (h : r.WellFormed) {st : StreamStatus} (hst : st ∈ r.statuses) :
    (st.sessions.map (·.id)).Pairwise (· < ·) := by
  obtain ⟨b, -, rfl⟩ := List.mem_map.mp hst
  rw [statusOf, List.map_map]
  exact pairwise_id_sessionsOf h b.key

/-- No session is listed twice: within an entry the ids increase, and two entries have different
keys, of which a session carries one. -/
theorem nodup_id_statuses (h : r.WellFormed) :
    ((r.statuses.flatMap (·.sessions)).map (·.id)).Nodup := by
  rw [List.map_flatMap, List.nodup_flatMap]
  refine ⟨fun st hst => (pairwise_id_sessions h hst).imp ne_of_lt, ?_⟩
  have hkeys : r.statuses.Pairwise fun a b => a.streamKey < b.streamKey :=
    List.pairwise_map.mp (map_streamKey_statuses h ▸ h.keys.ordered.pairwise_keys)
  refine hkeys.imp_of_mem fun {a b} ha hb hlt id hida hidb => ?_
  obtain ⟨x, hx, rfl⟩ := List.mem_map.mp hida
  obtain ⟨y, hy, hid⟩ := List.mem_map.mp hidb
  obtain ⟨s, hs, hskey, -⟩ := (mem_sessions_iff h ha).mp hx
  obtain ⟨t, ht, htkey, -⟩ := (mem_sessions_iff h hb).mp hy
  have hsame : s = t := Option.some.inj (hs.symm.trans (hid ▸ ht))
  exact hlt.ne (by rw [← hskey, hsame, htkey])

/-- In a settled registry the key of a session leads to a broadcast. -/
theorem Settled.stream?_of_session? (h : r.Settled) {id : String} {s : Session}
    (hs : r.session? id = some s) : ∃ b, r.stream? s.streamKey = some b := by
  obtain ⟨i, hi⟩ := h.registered_of_seat (seat?_eq_some_iff.mpr ⟨s, hs, rfl, rfl⟩)
  obtain ⟨b, hb, -⟩ := h.wellFormed.keys.broadcast_at hi
  exact ⟨b, Option.bind_eq_some_iff.mpr ⟨i, hi, hb⟩⟩

/-- In a settled registry the sessions listed are those registered. -/
theorem Settled.mem_id_statuses (h : r.Settled) {id : String} :
    id ∈ (r.statuses.flatMap (·.sessions)).map (·.id) ↔ (r.session? id).isSome = true := by
  have hw : r.WellFormed := h.wellFormed
  simp only [List.mem_map, List.mem_flatMap, Option.isSome_iff_exists]
  constructor
  · rintro ⟨x, ⟨st, hst, hx⟩, rfl⟩
    obtain ⟨s, hs, -⟩ := (mem_sessions_iff hw hst).mp hx
    exact ⟨s, hs⟩
  · rintro ⟨s, hs⟩
    obtain ⟨b, hb⟩ := h.stream?_of_session? hs
    have hst : r.statusOf b ∈ r.statuses :=
      List.mem_map_of_mem ((mem_onAir hw).mpr (key_of_stream? hw hb ▸ hb))
    have hid : s.status.id = id := id_of_session? hw hs
    refine ⟨s.status, ⟨_, hst, (mem_sessions_iff hw hst).mpr ⟨s, ?_, ?_, rfl⟩⟩, hid⟩
    · rw [hid, hs]
    · exact (key_of_stream? hw hb).symm

end Registry

namespace Engine

open Registry

variable {e : Engine}

/-- The encodings of an entry are the layers that each session of its key is told. -/
theorem map_rid_videoStreams (hw : e.registry.WellFormed) {st : StreamStatus}
    (hst : st ∈ e.statuses) {id : String} {s : Session} (hs : e.registry.session? id = some s)
    (hkey : s.streamKey = st.streamKey) : ∃ layers, e.layers id = .ok layers ∧
      st.videoStreams.map (·.rid) = layers.map (·.encodingId) := by
  obtain ⟨b, hb, rfl⟩ := List.mem_map.mp hst
  refine ⟨e.listed s, layers_of_some hs, ?_⟩
  have hstream : e.registry.stream? s.streamKey = some b := hkey ▸ (mem_onAir hw).mp hb
  simp [listed, hstream, statusOf, Broadcast.videoStatuses, Broadcast.selectable]

/-- The status of all broadcasts accounts for everything once. It has an entry for each registered
broadcast, with the keys increasing. An entry lists the sessions of its key, with the ids
increasing, and the encodings of its broadcast, which are the layers listed for each of its
sessions. Over all entries a session is listed once if it is registered and else not at all. The
status of one key is its entry. -/
theorem statuses_account (h : e.Reachable) :
    (e.statuses.map (·.streamKey)).Pairwise (· < ·) ∧
    (∀ key, key ∈ e.statuses.map (·.streamKey) ↔ ∃ b, e.registry.stream? key = some b) ∧
    (∀ st ∈ e.statuses,
      (st.sessions.map (·.id)).Pairwise (· < ·) ∧
      (∀ x, x ∈ st.sessions ↔ ∃ s,
        e.registry.session? x.id = some s ∧ s.streamKey = st.streamKey ∧ s.status = x) ∧
      (∃ b, e.registry.stream? st.streamKey = some b ∧
        st.videoStreams = b.layers.map fun l => ⟨l.rid, l.packets⟩) ∧
      ∀ id s, e.registry.session? id = some s → s.streamKey = st.streamKey →
        ∃ layers, e.layers id = .ok layers ∧
          st.videoStreams.map (·.rid) = layers.map (·.encodingId)) ∧
    (∀ id, ((e.statuses.flatMap (·.sessions)).map (·.id)).count id =
      if (e.registry.session? id).isSome then 1 else 0) ∧
    ∀ key st, e.status key = some st ↔ st ∈ e.statuses ∧ st.streamKey = key := by
  have hw : e.registry.WellFormed := h.settled.wellFormed
  have hentry : ∀ key st, e.status key = some st ↔ st ∈ e.statuses ∧ st.streamKey = key := by
    intro key st
    constructor
    · intro hst
      obtain rfl := streamKey_of_status hw hst
      exact ⟨(mem_statuses hw).mpr hst, rfl⟩
    · rintro ⟨hst, rfl⟩
      exact (mem_statuses hw).mp hst
  refine ⟨?_, fun key => ?_, fun st hst => ⟨pairwise_id_sessions hw hst,
    fun x => mem_sessions_iff hw hst, ?_, fun id s hs hkey => map_rid_videoStreams hw hst hs hkey⟩,
    fun id => ?_, hentry⟩
  · rw [statuses, map_streamKey_statuses hw]
    exact hw.keys.ordered.pairwise_keys
  · simp only [List.mem_map, ← hentry, status, Registry.status, Option.map_eq_some_iff]
    exact ⟨fun ⟨_, b, hb, _⟩ => ⟨b, hb⟩, fun ⟨b, hb⟩ => ⟨_, b, hb, rfl⟩⟩
  · obtain ⟨b, hb, rfl⟩ := List.mem_map.mp hst
    exact ⟨b, (mem_onAir hw).mp hb, rfl⟩
  · rw [statuses, (nodup_id_statuses hw).count]
    exact if_congr h.settled.mem_id_statuses rfl rfl

/-- A viewer waits on a key that nobody publishes on, and another one watches a broadcast. -/
theorem statuses_account_two :
    let e := attended.apply (.egress 1 "hall" "a" (.answered ()))
    e.Reachable ∧ e.statuses.map (·.streamKey) = ["hall", "live"] ∧
      (e.statuses.map (·.streamKey)).Pairwise (· < ·) ∧
      ((e.statuses.flatMap (·.sessions)).map (·.id)).count "v" = 1 ∧
      ∃ st ∈ e.statuses, e.status "live" = some st ∧ st.videoStreams = [⟨"h", 0⟩] := by
  intro e
  have h : e.Reachable := by
    refine reachable_attended.step _ fun peer key hrole => ?_
    have hmem : .viewer "a" key ∈ [Role.publisher 0 "p", .viewer "v" "live"] := mem_of_role? hrole
    simp at hmem
  obtain ⟨hkeys, -, -, hcount, hentry⟩ := statuses_account h
  exact ⟨h, by decide, hkeys, (hcount "v").trans (by decide), _, ((hentry "live" _).mp rfl).1, rfl,
    by decide⟩

end Engine

end BroadcastRelay
