import BroadcastRelay.Proofs.Fanout
import BroadcastRelay.Proofs.Projection
import BroadcastRelay.Proofs.Selection
/-!
# Operations at one key

What an operation changes at a key can be seen in what the engine holds of that key alone
(`Engine.only`). An operation that names the key does the same there as in the whole engine, and
answers the same; one that names another key does nothing there. An operation is a chain of steps of
the registry, so its lemma is a chain of the lemmas of its steps, with the places that it keeps from
one step to the next renumbered.
-/

namespace BroadcastRelay

open Registry Fanout

namespace Engine

variable {r : Registry} {e : Engine} {keyOf : String → String} {k key id : String}

/-- What an engine holds of one key. -/
def only (e : Engine) (k : String) : Engine := e.withRegistry (e.registry.only k)

/-! ## Publishers -/

theorem only_dismiss (r : Registry) (k : String) (previous : Option Publisher) :
    (dismiss r previous).only k = dismiss (r.only k) (previous.map (·.moved (r.peerPlace k))) := by
  cases previous with
  | none => rfl
  | some p => exact only_finish r k p.peer

theorem places_dismiss (r : Registry) (k : String) (previous : Option Publisher) :
    (dismiss r previous).broadcastPlace k = r.broadcastPlace k ∧
      (dismiss r previous).peerPlace k = r.peerPlace k := by
  cases previous with
  | none => exact ⟨rfl, rfl⟩
  | some p =>
    refine ⟨rfl, ?_⟩
    have hclose := peerPlace_close (r.cancel p.peer) k p.peer
    exact hclose.trans (peerPlace_cancel r k p.peer)

/-- The publisher in the slot of a broadcast of the key. -/
theorem slot_only {b : Nat} (hb : r.keyAt? b = some k) :
    (r.only k).slot (r.broadcastPlace k b) = (r.slot b).map (·.moved (r.peerPlace k)) := by
  rw [slot, slot, getElem?_broadcasts_only_of_eq hb]
  cases r.broadcasts[b]? <;> rfl

/-- A publisher gets a connection and the slot of a broadcast of the key. -/
theorem only_dismiss_replacePublisher (h : r.Apart keyOf) {b : Nat} (hb : r.keyAt? b = some k)
    (id : String) :
    let opened := (r.openPeer (.publisher b id)).1
    let opened' := ((r.only k).openPeer (.publisher (r.broadcastPlace k b) id)).1
    let after := dismiss (opened.replacePublisher b ⟨id, r.peers.length⟩).1 (opened.slot b)
    after.only k =
        dismiss (opened'.replacePublisher (r.broadcastPlace k b)
          ⟨id, (r.only k).peers.length⟩).1 (opened'.slot (r.broadcastPlace k b)) ∧
      after.broadcastPlace k b = r.broadcastPlace k b ∧
      after.peerPlace k r.peers.length = (r.only k).peers.length := by
  intro opened opened' after
  have hopen : opened.only k = opened' := only_openPeer h (.publisher b id) hb
  have hpeer : opened.peerPlace k r.peers.length = (r.only k).peers.length :=
    peerPlace_openPeer (.publisher b id) hb
  have hslot : opened'.slot (r.broadcastPlace k b) =
      (opened.slot b).map (·.moved (opened.peerPlace k)) := by
    rw [← hopen]
    exact slot_only (r := opened) hb
  have hreplace := only_replacePublisher opened k b ⟨id, r.peers.length⟩
  have hkeep : ∀ x : Broadcast, (x.replacePublisher ⟨id, r.peers.length⟩).1.key = x.key :=
    fun _ => rfl
  have hpeers : (opened.replacePublisher b ⟨id, r.peers.length⟩).1.peerPlace k =
      opened.peerPlace k := peerPlace_modifyBroadcast opened k hkeep b
  have hbroadcasts : (opened.replacePublisher b ⟨id, r.peers.length⟩).1.broadcastPlace k =
      opened.broadcastPlace k := broadcastPlace_modifyBroadcast opened k hkeep b
  obtain ⟨hbroadcasts', hpeers'⟩ :=
    places_dismiss (opened.replacePublisher b ⟨id, r.peers.length⟩).1 k (opened.slot b)
  refine ⟨?_, ?_, ?_⟩
  · rw [only_dismiss, hreplace, hopen, hslot, hpeers, Publisher.moved, hpeer]
    rfl
  · rw [hbroadcasts', hbroadcasts]
    rfl
  · rw [hpeers', hpeers, hpeer]

/-- A publisher is put on air under the key, and has its places there. -/
theorem only_install (h : r.Apart keyOf) (now : UInt64) (k id : String) :
    (install r now k id).1.only k = (install (r.only k) now k id).1 ∧
      (install r now k id).1.broadcastPlace k (install r now k id).2.1 =
        (install (r.only k) now k id).2.1 ∧
      (install r now k id).1.peerPlace k (install r now k id).2.2 =
        (install (r.only k) now k id).2.2 := by
  have hkey := keyAt?_streamOrCreate_self h.told.wellFormed now k
  obtain ⟨hfound, hplace⟩ := only_streamOrCreate h now k
  obtain ⟨honly, hbroadcast, hpeer⟩ :=
    only_dismiss_replacePublisher (h.streamOrCreate now k) hkey id
  simp only [hfound, hplace] at honly hbroadcast hpeer
  exact ⟨honly, hbroadcast, hpeer⟩

theorem role?_dismiss (r : Registry) (previous : Option Publisher) (i : Nat) :
    (dismiss r previous).role? i = r.role? i := by
  cases previous with
  | none => rfl
  | some p => exact (role?_close _ p.peer i).trans (role?_cancel r p.peer i)

/-- The connection of a publisher of another key is ended. -/
theorem only_dismiss_of_ne {previous : Option Publisher}
    (h : ∀ p, previous = some p → r.peerKey? p.peer ≠ some k) :
    (dismiss r previous).only k = r.only k := by
  rw [only_dismiss]
  cases previous with
  | none => rfl
  | some p =>
    have hpeer := h p rfl
    rw [Option.map_some, dismiss, Publisher.moved, finish, cancel_only_of_ne hpeer,
      close_only_of_ne hpeer]

theorem keyAt?_dismiss (r : Registry) (previous : Option Publisher) (b : Nat) :
    (dismiss r previous).keyAt? b = r.keyAt? b := by cases previous <;> rfl

/-- A publisher gets a connection and the slot of a broadcast of another key. -/
theorem only_dismiss_replacePublisher_of_ne (h : r.Apart keyOf) {b : Nat}
    (hb : r.keyAt? b = some key) (hne : key ≠ k) (id : String) :
    let opened := (r.openPeer (.publisher b id)).1
    let after := dismiss (opened.replacePublisher b ⟨id, r.peers.length⟩).1 (opened.slot b)
    after.only k = r.only k ∧ after.keyAt? b = some key ∧
      after.peerKey? r.peers.length = some key := by
  intro opened after
  have hne' : some key ≠ some k := fun heq => hne (Option.some.inj heq)
  have hopen : opened.only k = r.only k := only_openPeer_of_ne (.publisher b id) (hb.trans_ne hne')
  have hopened : opened.Apart keyOf := h.openPeer_publisher hb id
  have hkey : opened.keyAt? b = some key := hb
  have hpeer : opened.peerKey? r.peers.length = some key :=
    peerKey?_openPeer_self (.publisher b id) hb
  have hkeys : ∀ c, (opened.replacePublisher b ⟨id, r.peers.length⟩).1.keyAt? c =
      opened.keyAt? c := keyAt?_modifyBroadcast opened b fun _ => rfl
  have hpeers : ∀ i, (opened.replacePublisher b ⟨id, r.peers.length⟩).1.peerKey? i =
      opened.peerKey? i := peerKey?_congr (fun _ => rfl) hkeys
  have hdismissed : ∀ i, after.peerKey? i = opened.peerKey? i := fun i =>
    (peerKey?_congr (role?_dismiss _ _) (keyAt?_dismiss _ _) i).trans (hpeers i)
  have hprevious : ∀ p, opened.slot b = some p →
      (opened.replacePublisher b ⟨id, r.peers.length⟩).1.peerKey? p.peer ≠ some k := by
    intro p hp
    obtain ⟨other, hother, hp'⟩ := hopened.slot hp
    rw [hpeers, hp', ← hother, hkey]
    exact hne'
  refine ⟨?_, ?_, (hdismissed _).trans hpeer⟩
  · have hunchanged := modifyBroadcast_only_of_ne (hkey.trans_ne hne')
      fun x => (x.replacePublisher ⟨id, opened.peerPlace k r.peers.length⟩).1
    rw [only_dismiss_of_ne hprevious, only_replacePublisher, ← hopen]
    exact hunchanged
  · rw [keyAt?_dismiss, hkeys, hkey]

/-- A publisher is put on air under another key. -/
theorem only_install_of_ne (h : r.Apart keyOf) (now : UInt64) (id : String) (hne : key ≠ k) :
    (install r now key id).1.only k = r.only k ∧
      (install r now key id).1.keyAt? (install r now key id).2.1 = some key ∧
      (install r now key id).1.peerKey? (install r now key id).2.2 = some key := by
  have hkey := keyAt?_streamOrCreate_self h.told.wellFormed now key
  obtain ⟨honly, hbroadcast, hpeer⟩ :=
    only_dismiss_replacePublisher_of_ne (h.streamOrCreate now key) hkey hne id
  exact ⟨honly.trans (only_streamOrCreate_of_ne h now hne), hbroadcast, hpeer⟩

/-- A publisher whose offer was refused is taken off air under the key. -/
theorem only_withdrawPublisher (hw : r.WellFormed) (k : String) (broadcast peer : Nat)
    (id : String) :
    (withdrawPublisher r broadcast peer k id).only k =
      withdrawPublisher (r.only k) (r.broadcastPlace k broadcast) (r.peerPlace k peer) k id := by
  have hw' := ((hw.cancel peer).clearPublisher broadcast id).close peer
  have hplace := peerPlace_clearPublisher_cancel r k peer broadcast id
  rw [withdrawPublisher, only_prune hw', only_close, only_clearPublisher, only_cancel, hplace]
  rfl

/-- A publisher whose offer was refused is taken off air under another key. -/
theorem only_withdrawPublisher_of_ne {broadcast peer : Nat} (hb : r.keyAt? broadcast ≠ some k)
    (hpeer : r.peerKey? peer ≠ some k) (hne : key ≠ k) (id : String) :
    (withdrawPublisher r broadcast peer key id).only k = r.only k := by
  have hplace := peerPlace_clearPublisher_cancel r k peer broadcast id
  have hbroadcast : (r.cancel peer).broadcastPlace k = r.broadcastPlace k := rfl
  rw [withdrawPublisher, only_prune_of_ne _ hne, only_close, only_clearPublisher, only_cancel,
    hplace, hbroadcast, cancel_only_of_ne hpeer, clearPublisher, modifyBroadcast_only_of_ne hb,
    close_only_of_ne hpeer]

/-- A publisher of the key asks to be put on air. -/
theorem only_ingestWith {α : Type} (h : e.registry.Apart keyOf) (now : UInt64) (k id : String)
    (course : Course α) :
    (e.ingestWith now k id course).1.only k = ((e.only k).ingestWith now k id course).1 := by
  obtain ⟨hinstall, hbroadcast, hpeer⟩ := only_install h now k id
  have hw := (apart_install h now k id).told.wellFormed
  have hwithdraw := only_withdrawPublisher hw k (install e.registry now k id).2.1
    (install e.registry now k id).2.2 id
  rw [hinstall, hbroadcast, hpeer] at hwithdraw
  cases course with
  | answered a => exact congrArg e.withRegistry hinstall
  | failed step cause =>
    cases step with
    | connection => rfl
    | tracks => exact congrArg e.withRegistry hwithdraw
    | offer => exact congrArg e.withRegistry hwithdraw

/-- A publisher of another key asks to be put on air. -/
theorem only_ingestWith_of_ne {α : Type} (h : e.registry.Apart keyOf) (now : UInt64) (id : String)
    (course : Course α) (hne : key ≠ k) :
    (e.ingestWith now key id course).1.only k = e.only k := by
  have hne' : some key ≠ some k := fun heq => hne (Option.some.inj heq)
  obtain ⟨hinstall, hbroadcast, hpeer⟩ := only_install_of_ne h now id hne
  have hwithdraw := (only_withdrawPublisher_of_ne (hbroadcast.trans_ne hne')
    (hpeer.trans_ne hne') hne id).trans hinstall
  rcases ingestWith_cases e now key id course with heq | heq | heq <;> rw [heq]
  · exact congrArg e.withRegistry hinstall
  · exact congrArg e.withRegistry hwithdraw

/-! ## Viewers -/

/-- A viewer whose negotiation failed is forgotten under the key. -/
theorem only_withdrawSession (hw : r.WellFormed) (k : String) (peer : Nat) (id : String) :
    (withdrawSession r peer k id).only k =
      withdrawSession (r.only k) (r.peerPlace k peer) k id := by
  have hw' := ((hw.cancel peer).removeSession id).close peer
  have hplace : ((r.cancel peer).removeSession id).1.peerPlace k = r.peerPlace k :=
    peerPlace_cancel r k peer
  rw [withdrawSession, only_prune hw', only_close, only_removeSession, only_cancel, hplace]
  rfl

/-- A viewer whose negotiation failed is forgotten under another key. -/
theorem only_withdrawSession_of_ne (h : r.Told keyOf) {peer : Nat}
    (hpeer : r.peerKey? peer ≠ some k) (hid : keyOf id = key) (hne : key ≠ k) :
    (withdrawSession r peer key id).only k = r.only k := by
  have htold : (r.cancel peer).Told keyOf := (h.grows_cancel peer).told
  have hplace : ((r.cancel peer).removeSession id).1.peerPlace k = r.peerPlace k :=
    peerPlace_cancel r k peer
  rw [withdrawSession, only_prune_of_ne _ hne, only_close,
    only_removeSession_of_ne htold (hid.trans_ne hne), only_cancel, hplace,
    cancel_only_of_ne hpeer, close_only_of_ne hpeer]

theorem only_subscribe (r : Registry) (k : String) (session : Nat) :
    (subscribe r session).only k = subscribe (r.only k) (r.sessionPlace k session) :=
  only_modifySession r k (f := fun s => { s with subscribed := true })
    (g := fun s => { s with subscribed := true }) (fun _ => rfl) (fun _ => rfl) session

/-- A viewer gets a connection and a session on a broadcast of the key, and perhaps loses them
again. -/
theorem only_insertSession_openPeer (h : r.Apart keyOf) (hid : keyOf id = k) (b : Nat) :
    let opened := (r.openPeer (.viewer id k)).1
    let opened' := ((r.only k).openPeer (.viewer id k)).1
    let joined := (opened.insertSession (.fresh id k b r.peers.length)).1
    let joined' := (opened'.insertSession
      (.fresh id k (r.broadcastPlace k b) (r.only k).peers.length)).1
    (withdrawSession opened r.peers.length k id).only k =
        withdrawSession opened' (r.only k).peers.length k id ∧
      (withdrawSession joined r.peers.length k id).only k =
        withdrawSession joined' (r.only k).peers.length k id ∧
      (subscribe joined r.sessions.length).only k =
        subscribe joined' (r.only k).sessions.length := by
  intro opened opened' joined joined'
  have hopened : opened.Apart keyOf := h.openPeer_viewer hid
  have hw := hopened.told.wellFormed
  have hopen : opened.only k = opened' := only_openPeer h (.viewer id k) rfl
  have hpeer : opened.peerPlace k r.peers.length = (r.only k).peers.length :=
    peerPlace_openPeer (.viewer id k) rfl
  have hjoin : joined.only k = joined' := by
    have hinsert : joined.only k = (opened'.insertSession
        ((Session.fresh id k b r.peers.length).moved (opened.broadcastPlace k)
          (opened.peerPlace k))).1 := hopen ▸ only_insertSession hw rfl
    rw [hinsert, Session.moved, Session.fresh]
    simp only [hpeer]
    rfl
  have hpeer' : joined.peerPlace k r.peers.length = (r.only k).peers.length := hpeer
  have hsession : joined.sessionPlace k r.sessions.length = (r.only k).sessions.length :=
    (sessionPlace_insertSession (r := opened) rfl).trans (congrArg (·.sessions.length) hopen)
  refine ⟨?_, ?_, ?_⟩
  · rw [only_withdrawSession hw, hopen, hpeer]
  · rw [only_withdrawSession (hw.insertSession _), hjoin, hpeer']
  · rw [only_subscribe, hjoin, hsession]

/-- A viewer of the key asks for a session. -/
theorem only_egressWith {α : Type} (h : e.registry.Apart keyOf) (now : UInt64)
    (hid : keyOf id = k) (course : Course α) :
    (e.egressWith now k id course).1.only k = ((e.only k).egressWith now k id course).1 := by
  have hlooked := h.streamOrCreate now k
  obtain ⟨hfound, hplace⟩ := only_streamOrCreate h now k
  have hprune := only_prune hlooked.told.wellFormed k
  obtain ⟨hopened, hjoined, hsubscribed⟩ := only_insertSession_openPeer hlooked hid
    (e.registry.streamOrCreate now k).2
  simp only [hfound, hplace] at hprune hopened hjoined hsubscribed
  cases course with
  | answered a => exact congrArg e.withRegistry hsubscribed
  | failed step cause =>
    cases step with
    | connection => exact congrArg e.withRegistry hprune
    | tracks => exact congrArg e.withRegistry hopened
    | offer => exact congrArg e.withRegistry hjoined

/-- A viewer gets a connection and a session on a broadcast of another key, and perhaps loses them
again. -/
theorem only_insertSession_openPeer_of_ne (h : r.Apart keyOf) (hid : keyOf id = key)
    (hne : key ≠ k) (b : Nat) :
    let opened := (r.openPeer (.viewer id key)).1
    let joined := (opened.insertSession (.fresh id key b r.peers.length)).1
    (withdrawSession opened r.peers.length key id).only k = r.only k ∧
      (withdrawSession joined r.peers.length key id).only k = r.only k ∧
      (subscribe joined r.sessions.length).only k = r.only k := by
  intro opened joined
  have hne' : some key ≠ some k := fun heq => hne (Option.some.inj heq)
  have hopened : opened.Told keyOf := (h.openPeer_viewer hid).told
  have hjoined : joined.Told keyOf := (hopened.grows_insertSession hid).told
  have hopen : opened.only k = r.only k := only_openPeer_of_ne (.viewer id key) hne'
  have hjoin : joined.only k = r.only k := (only_insertSession_of_ne hopened hne hid).trans hopen
  have hpeer : opened.peerKey? r.peers.length = some key :=
    peerKey?_openPeer_self (.viewer id key) rfl
  have hpeer' : joined.peerKey? r.peers.length = some key := hpeer
  have hsession : ∀ s, joined.sessions[r.sessions.length]? = some s → s.streamKey ≠ k := by
    intro s hs
    obtain rfl : Session.fresh id key b r.peers.length = s :=
      Option.some.inj (List.getElem?_concat_length.symm.trans hs)
    exact hne
  refine ⟨?_, ?_, ?_⟩
  · rw [only_withdrawSession_of_ne hopened (hpeer.trans_ne hne') hid hne, hopen]
  · rw [only_withdrawSession_of_ne hjoined (hpeer'.trans_ne hne') hid hne, hjoin]
  · rw [only_subscribe, subscribe, modifySession_only_of_ne hsession, hjoin]

/-- A viewer of another key asks for a session. -/
theorem only_egressWith_of_ne {α : Type} (h : e.registry.Apart keyOf) (now : UInt64)
    (hid : keyOf id = key) (course : Course α) (hne : key ≠ k) :
    (e.egressWith now key id course).1.only k = e.only k := by
  have hfound := only_streamOrCreate_of_ne h now hne
  have hprune := only_prune_of_ne (e.registry.streamOrCreate now key).1 hne
  obtain ⟨hopened, hjoined, hsubscribed⟩ := only_insertSession_openPeer_of_ne
    (h.streamOrCreate now key) hid hne (e.registry.streamOrCreate now key).2
  rcases egressWith_cases e now key id course with heq | heq | heq | heq <;> rw [heq]
  · exact congrArg e.withRegistry (hprune.trans hfound)
  · exact congrArg e.withRegistry (hopened.trans hfound)
  · exact congrArg e.withRegistry (hjoined.trans hfound)
  · exact congrArg e.withRegistry (hsubscribed.trans hfound)

/-! ## Layers -/

theorem offers_only (h : r.WellFormed) (k rid : String) : (r.only k).offers k rid = r.offers k rid := by
  rw [offers, offers, stream?_only h, Option.any_map]
  rfl

theorem only_selecting (r : Registry) (k : String) (i : Nat) (rid : String) :
    (r.modifySession i (·.selecting rid)).only k =
      (r.only k).modifySession (r.sessionPlace k i) (·.selecting rid) :=
  only_modifySession r k (f := (·.selecting rid)) (g := (·.selecting rid)) (fun _ => rfl)
    (fun _ => rfl) i

/-- An id that leads nowhere leads nowhere among the sessions of the key. -/
theorem session?_eq_none (hw : r.WellFormed) (k : String) (hi : r.viewers.get? id = none) :
    r.session? id = none ∧ (r.only k).session? id = none := by
  have hnone : r.session? id = none := by rw [session?, hi, Option.bind_none]
  refine ⟨hnone, ?_⟩
  rw [session?_only hw, hnone]
  rfl

/-- A session of the key asks for its layers. -/
theorem layers_only (h : e.registry.Told keyOf) (hid : keyOf id = k) :
    (e.only k).layers id = e.layers id := by
  cases hi : e.registry.viewers.get? id with
  | none =>
    obtain ⟨hnone, hnone'⟩ := session?_eq_none h.wellFormed k hi
    rw [layers_of_none hnone, layers_of_none (e := e.only k) hnone']
  | some i =>
    obtain ⟨s, hs, hkey, hi', hs'⟩ := viewer_only h hid hi
    have hsession : e.registry.session? id = some s := by rw [session?, hi, Option.bind_some, hs]
    have hsession' : (e.only k).registry.session? id =
        some (s.moved (e.registry.broadcastPlace k) (e.registry.peerPlace k)) := by
      rw [only, withRegistry, session?, hi', Option.bind_some, hs']
    have hlisted : (e.registry.only k).stream? k =
        (e.registry.stream? k).map (·.moved (e.registry.peerPlace k)) :=
      stream?_only h.wellFormed k
    have hstream : (s.moved (e.registry.broadcastPlace k) (e.registry.peerPlace k)).streamKey = k :=
      hkey
    rw [layers_of_some hsession, layers_of_some hsession', listed, listed, hstream, hkey, only,
      withRegistry, hlisted, Option.map_map]
    rfl

/-- A session of the key selects a layer, and is answered the same. -/
theorem only_setLayer (h : e.registry.Told keyOf) (hid : keyOf id = k) (rid : String) :
    (e.setLayer id rid).1.only k = ((e.only k).setLayer id rid).1 ∧
      (e.setLayer id rid).2 = ((e.only k).setLayer id rid).2 := by
  cases hi : e.registry.viewers.get? id with
  | none =>
    obtain ⟨hnone, hnone'⟩ := session?_eq_none h.wellFormed k hi
    rw [setLayer_of_none hnone, setLayer_of_none (e := e.only k) hnone']
    exact ⟨rfl, rfl⟩
  | some i =>
    obtain ⟨s, hs, hkey, hi', hs'⟩ := viewer_only h hid hi
    have hselect := only_selecting e.registry k i rid
    have hstream : (s.moved (e.registry.broadcastPlace k) (e.registry.peerPlace k)).streamKey = k :=
      hkey
    have hoffers : (e.only k).registry.offers k rid = e.registry.offers k rid :=
      offers_only h.wellFormed k rid
    rw [setLayer_eq hi hs, setLayer_eq (e := e.only k) hi' hs', hstream, hkey, hoffers]
    split
    · exact ⟨congrArg e.withRegistry hselect, rfl⟩
    · exact ⟨rfl, rfl⟩

/-- A session of another key selects a layer. -/
theorem only_setLayer_of_ne (h : e.registry.Told keyOf) (hid : keyOf id ≠ k) (rid : String) :
    (e.setLayer id rid).1.only k = e.only k := by
  cases hi : e.registry.viewers.get? id with
  | none => rw [setLayer_of_none (session?_eq_none h.wellFormed k hi).1]
  | some i =>
    obtain ⟨s, hs, -, hkey⟩ := h.getElem?_of_get? hi
    have hother : ∀ t, e.registry.sessions[i]? = some t → t.streamKey ≠ k := by
      intro t ht
      obtain rfl := Option.some.inj (hs.symm.trans ht)
      exact hkey.trans_ne hid
    have hselect : (e.registry.modifySession i (·.selecting rid)).only k = e.registry.only k := by
      rw [only_selecting, modifySession_only_of_ne hother]
    rw [setLayer_eq hi hs]
    split
    · exact congrArg e.withRegistry hselect
    · rfl

end Engine

end BroadcastRelay
