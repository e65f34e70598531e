import WSNet2.Game.Room.Interleaving

/-!
# A running room never panics

`MsgLoop` has no `recover`: a panic in a handler ends the room's goroutine and with it the
game server. The handlers can panic in four places: `r.master` dereferenced while nil,
`r.masterOrder[0]` of an empty slice, a `masterOrder` id with no player or a last-message
time that is not a `ULong` in `msgGetRoomInfo`, and a second `close(r.done)`. The
membership invariant rules out each of them while `done` is open: every step a running
room can take succeeds (`room_never_panics`). `MsgGetRoomInfo` answers, whatever removal
ran after its clone of `RoomInfo`, with that clone, the players in `masterOrder`'s order and
a time for each id in `lastMsg`, every player's among them (`getRoomInfo_answer`). A running room always has a player, and a step closes `done`
exactly when it removes the last one (`room_ends_with_last_player`). A step adds at most one
player, and only to a room below its `MaxPlayers` (`room_admits_within_capacity`).
-/

namespace WSNet2
namespace Game

open Binary

/-- An element of the left list of `Forall₂` has a partner in the right one. -/
theorem forall₂_exists_of_mem {α β : Type} {R : α → β → Prop} {l₁ : List α} {l₂ : List β}
    (h : List.Forall₂ R l₁ l₂) {a : α} (ha : a ∈ l₁) : ∃ b ∈ l₂, R a b := by
  induction h with
  | nil => cases ha
  | cons hr _ ih =>
    rcases List.mem_cons.1 ha with rfl | ha
    · exact ⟨_, List.mem_cons_self _ _, hr⟩
    · obtain ⟨b, hb, hr'⟩ := ih ha
      exact ⟨b, List.mem_cons_of_mem _ hb, hr'⟩

/-- `mapM` in `Except` succeeds when `f` succeeds on every element, with values related to
the elements one by one. -/
theorem mapM_ok_of_forall {ε α β : Type} {f : α → Except ε β} {P : α → β → Prop} :
    ∀ {l : List α}, (∀ a ∈ l, ∃ b, f a = .ok b ∧ P a b) →
      ∃ bs, l.mapM f = .ok bs ∧ List.Forall₂ P l bs
  | [], _ => ⟨[], rfl, .nil⟩
  | a :: l, h => by
    obtain ⟨b, hb, hp⟩ := h a (List.mem_cons_self a l)
    obtain ⟨bs, hbs, hps⟩ := mapM_ok_of_forall fun x hx => h x (List.mem_cons_of_mem a hx)
    refine ⟨b :: bs, ?_, .cons hp hps⟩
    rw [List.mapM_cons, hb, hbs]
    rfl

/-- Two maps over the same keys have as many entries. -/
theorem AList.length_entries_of_mem_iff {β γ : Type} {s : AList (fun _ : ClientID => β)}
    {t : AList (fun _ : ClientID => γ)} (h : ∀ a, a ∈ s ↔ a ∈ t) :
    s.entries.length = t.entries.length := by
  rw [← AList.length_keys, ← AList.length_keys]
  exact ((List.perm_ext_iff_of_nodup s.keys_nodup t.keys_nodup).2 fun a =>
    AList.mem_keys.trans ((h a).trans AList.mem_keys.symm)).length_eq

/-- A map whose keys all lie in another's has no more entries. -/
theorem AList.length_le_of_subset {s t : Clients} (h : ∀ a ∈ s, a ∈ t) :
    s.entries.length ≤ t.entries.length := by
  rw [← AList.length_keys, ← AList.length_keys]
  exact (List.subperm_of_subset s.keys_nodup fun a ha =>
    AList.mem_keys.2 (h a (AList.mem_keys.1 ha))).length_le

namespace Room

variable {r : Room} {st : ClientID → Nat} {k : Nat}

/-! ## Handlers that only dereference the master -/

theorem exists_joinPlayer_ok {m : ClientRef} (hm : r.master = some m) (oldp : Option Client)
    (client : Client) (now : UInt64) : ∃ r', r.joinPlayer oldp client now = .ok r' := by
  unfold joinPlayer
  cases oldp with
  | none => simp only [masterRef, hm]; exact ⟨_, rfl⟩
  | some old =>
    by_cases ho : r.master = some old.ref
    · simp only [masterRef, emit, ho, if_true]; exact ⟨_, rfl⟩
    · simp only [masterRef, emit, ho, if_false]; simp only [hm]; exact ⟨_, rfl⟩

theorem exists_msgJoin_ok {m : ClientRef} (hm : r.master = some m) (info : Pb.ClientInfo)
    (now : UInt64) : ∃ r', r.msgJoin info now = .ok r' := by
  unfold msgJoin
  split_ifs
  iterate 3 exact ⟨_, rfl⟩
  split
  · exact ⟨_, rfl⟩
  · exact exists_joinPlayer_ok hm _ _ now

theorem exists_watchWatcher_ok {m : ClientRef} (hm : r.master = some m) (client : Client) :
    ∃ r', r.watchWatcher client = .ok r' := by
  unfold watchWatcher
  dsimp only
  split <;> simp only [updateRoomInfo, emit, masterRef, hm] <;> exact ⟨_, rfl⟩

theorem exists_msgWatch_ok {m : ClientRef} (hm : r.master = some m) (info : Pb.ClientInfo)
    (n : UInt32) : ∃ r', r.msgWatch info n = .ok r' := by
  unfold msgWatch
  split_ifs
  iterate 2 exact ⟨_, rfl⟩
  split
  · exact ⟨_, rfl⟩
  · exact exists_watchWatcher_ok hm _

/-! ## Leaving -/

/-- A new master can be elected when the one leaving heads `masterOrder` with a player. -/
theorem exists_afterLeave_ok {m : ClientRef} {cid : ClientID} (hm : r.master = some m)
    (hfirst : m.id = cid →
      ∃ first rest, r.masterOrder = first :: rest ∧ first ∈ r.players) :
    ∃ r', r.afterLeave cid = .ok r' := by
  have hel : ∃ m₂, r.electMaster cid = .ok { r with master := some m₂ } := by
    unfold electMaster
    rw [masterRef_of_master hm]
    by_cases he : m.id = cid
    · obtain ⟨first, rest, hmo, hf⟩ := hfirst he
      obtain ⟨c, hc⟩ := Option.isSome_iff_exists.1 (AList.lookup_isSome.2 hf)
      exact ⟨c.ref, by simp [he, hmo, hc]⟩
    · exact ⟨m, by simp only [ok_bind, he, if_false]; rw [← hm]; rfl⟩
  obtain ⟨m₂, hel⟩ := hel
  unfold afterLeave
  rw [hel]
  exact ⟨_, rfl⟩

/-- While `done` is open, `removePlayer` succeeds: the last player closes `done` for the
first time, and otherwise a remaining player heads `masterOrder`. -/
theorem MemberInv.exists_removePlayer_ok (h : MemberInv st k r) (hd : r.done = false)
    (c : ClientRef) (cause : Bytes) : ∃ r', r.removePlayer c cause = .ok r' := by
  unfold removePlayer
  split_ifs with hl h0
  · exact ⟨_, if_neg (show ¬(r.dropPlayer c cause).done = true by simp [hd])⟩
  swap
  · exact ⟨r, rfl⟩
  obtain ⟨m, hm, -⟩ := h.master_live
  refine exists_afterLeave_ok (m := m) hm fun _ => ?_
  obtain ⟨⟨id, c'⟩, hmem⟩ := List.exists_mem_of_length_pos (Nat.pos_of_ne_zero h0)
  have hid : id ∈ r.players.erase c.id := AList.mem_keys.1 (List.mem_map_of_mem Sigma.fst hmem)
  obtain ⟨hne, hid⟩ := AList.mem_erase.1 hid
  have hmo : id ∈ r.masterOrder.erase c.id :=
    (List.mem_erase_of_ne hne).2 ((h.mem_masterOrder id).2 hid)
  obtain ⟨first, rest, hfr⟩ := List.exists_cons_of_ne_nil (List.ne_nil_of_mem hmo)
  refine ⟨first, rest, hfr, ?_⟩
  have hf : first ∈ r.masterOrder.erase c.id := hfr ▸ List.mem_cons_self _ _
  obtain ⟨hfne, hf⟩ := (List.Nodup.mem_erase_iff h.nodup).1 hf
  exact AList.mem_erase.2 ⟨hfne, (h.mem_masterOrder first).1 hf⟩

theorem MemberInv.exists_removeClient_ok (h : MemberInv st k r) (hd : r.done = false)
    (c : ClientRef) (cause : Bytes) : ∃ r', r.removeClient c cause = .ok r' := by
  unfold removeClient
  split
  · exact h.exists_removePlayer_ok hd c cause
  · exact ⟨_, rfl⟩

/-! ## `MsgGetRoomInfo` -/

/-- `msgGetRoomInfo` under the invariant, whatever `RoomInfo` it cloned: every `masterOrder`
id has a player and every last-message time decodes. -/
theorem MemberInv.msgGetRoomInfo_eq (h : MemberInv st k r) (ri : Pb.RoomInfo) : ∃ m cis lmt,
    r.master = some m ∧ r.isLivePlayer m ∧
    r.msgGetRoomInfo ri = .ok (r.emit (.roomInfoRes ⟨ri, cis, m.id, lmt⟩)) ∧
    List.Forall₂ (fun id ci => ∃ c, r.players.lookup id = some c ∧ c.info = ci) r.masterOrder cis ∧
    List.Forall₂ (fun e t => t.1 = e.1 ∧ e.2 = marshalULong t.2) r.lastMsg.entries lmt := by
  obtain ⟨m, hm, hl⟩ := h.master_live
  obtain ⟨cis, hcis, hc⟩ := mapM_ok_of_forall (l := r.masterOrder)
    (f := fun id => (match r.players.lookup id with
      | some c => .ok c.info
      | none => .error .nilDereference : Except Panic Pb.ClientInfo))
    (P := fun id ci => ∃ c, r.players.lookup id = some c ∧ c.info = ci) fun id hid => by
      obtain ⟨c, hc⟩ := Option.isSome_iff_exists.1
        (AList.lookup_isSome.2 ((h.mem_masterOrder id).1 hid))
      exact ⟨c.info, by simp only [hc], c, hc, rfl⟩
  obtain ⟨lmt, hlmt, ht⟩ := mapM_ok_of_forall (l := r.lastMsg.entries)
    (f := fun e => (match unmarshalAs e.2 [typeULong] with
      | .ok (t, _) => .ok (e.1, t.asULong)
      | .error _ => .error .interfaceConversion : Except Panic (ClientID × UInt64)))
    (P := fun e t => t.1 = e.1 ∧ e.2 = marshalULong t.2) fun e he => by
      obtain ⟨t, het⟩ := h.lastMsg_ulong e he
      have hu := unmarshalAs_marshalULong t [] [typeULong] (List.mem_singleton_self _)
      rw [List.append_nil] at hu
      exact ⟨(e.1, t), by simp only [het, hu, Value.asULong], rfl, het⟩
  refine ⟨m, cis, lmt, hm, hl, ?_, hc, ht⟩
  unfold msgGetRoomInfo
  refine bind_eq_ok.2 ⟨cis, hcis, bind_eq_ok.2 ⟨lmt, hlmt, ?_⟩⟩
  rw [masterRef_of_master hm]
  rfl

/-- `masterOrder` has one id per player. -/
theorem MemberInv.length_masterOrder (h : MemberInv st k r) :
    r.masterOrder.length = r.players.entries.length := by
  rw [← AList.length_keys]
  exact ((List.perm_ext_iff_of_nodup h.nodup r.players.keys_nodup).2 fun a =>
    (h.mem_masterOrder a).trans AList.mem_keys.symm).length_eq

/-! ## Every step -/

theorem MemberInv.exists_dispatch_ok (h : MemberInv st k r) (hd : r.done = false) (now : UInt64)
    {msg : Msg} (hmsg : msg.isCreate = false) : ∃ r', r.dispatch now msg = .ok r' := by
  obtain ⟨m, hm, -⟩ := h.master_live
  have hmr := masterRef_of_master hm
  cases msg with
  | create => cases hmsg
  | join info => exact exists_msgJoin_ok hm info now
  | watch info n => exact exists_msgWatch_ok hm info n
  | getRoomInfo =>
    obtain ⟨_, _, _, -, -, hg, -, -⟩ := h.msgGetRoomInfo_eq r.info
    exact ⟨_, hg⟩
  | adminKick t =>
    show ∃ r', r.msgAdminKick t = .ok r'
    unfold msgAdminKick
    split
    · exact ⟨_, rfl⟩
    · obtain ⟨r', hr'⟩ := h.exists_removeClient_ok hd _ (utf8 "kicked by admin")
      exact ⟨_, by rw [hr']; rfl⟩
  | ping | nodeCount | clientProp | targets | broadcast => exact ⟨_, rfl⟩
  | leave c msg => exact h.exists_removeClient_ok hd c msg
  | clientError c e => exact h.exists_removeClient_ok hd c e
  | clientTimeout c => exact h.exists_removeClient_ok hd c _
  | roomProp | toMaster | switchMaster =>
    simp only [dispatch, msgRoomProp, msgToMaster, msgSwitchMaster]
    split_ifs <;> simp [hmr]
  | kick c msg t b =>
    show ∃ r', r.msgKick c msg t b = .ok r'
    unfold msgKick
    split_ifs
    · rw [hmr]; exact ⟨_, rfl⟩
    split
    · exact ⟨_, rfl⟩
    · exact (h.of_same (SameMembers.out r (r.sendTo c (newEvSucceeded msg)).out)
        ).exists_removeClient_ok hd _ b

theorem MemberInv.exists_loopStep_ok (h : MemberInv st k r) (hd : r.done = false) (now : UInt64)
    {msg : Msg} (hmsg : msg.isCreate = false) : ∃ r', r.loopStep now msg = .ok r' := by
  have hd' : (r.updateLastMsg msg.senderID now).done = false :=
    (updateLastMsg_done _ _).trans hd
  exact (h.of_updateLastMsg msg.senderID now).exists_dispatch_ok hd' now hmsg

/-! ## When the room ends -/

theorem MemberInv.players_ne_nil (h : MemberInv st k r) : r.players.entries ≠ [] := by
  obtain ⟨m, -, hl⟩ := h.master_live
  obtain ⟨c, hc⟩ := Option.isSome_iff_exists.1 (AList.lookup_isSome.2 (mem_of_isLivePlayer hl))
  exact List.ne_nil_of_mem (AList.mem_lookup_iff.1 hc)

theorem entries_insert_ne_nil (s : Clients) (a : ClientID) (b : Client) :
    (s.insert a b).entries ≠ [] := by
  rw [AList.insert_entries]; exact List.cons_ne_nil _ _

theorem MemberInv.removeClient_done (h : MemberInv st k r) (hd : r.done = false) {c : ClientRef}
    {cause : Bytes} (hr : r.removeClient c cause = .ok r') :
    r'.done = true ↔ r'.players.entries = [] := by
  rcases removeClient_ok hr with ⟨-, hr⟩ | ⟨-, rfl⟩
  · rcases removePlayer_ok hr with
      ⟨-, rfl⟩ | ⟨-, h0, -, o, rfl⟩ | ⟨-, h0, mst, o, rfl, -⟩
    · simp [hd, h.players_ne_nil]
    · simp [List.length_eq_zero.1 h0]
    · simp [hd, List.length_eq_zero.not.1 h0]
  · rcases removeWatcher_eq (r := r) c cause with he | ⟨w, o, -, -, he⟩ <;> rw [he] <;>
      simp [hd, h.players_ne_nil]

/-- Handling a message other than `MsgCreate` closes `done` exactly when it removes the
last player. -/
theorem MemberInv.dispatch_done (h : MemberInv st k r) (hd : r.done = false) {now : UInt64}
    {m : Msg} (hm : m.isCreate = false) (hr : r.dispatch now m = .ok r') :
    r'.done = true ↔ r'.players.entries = [] := by
  have same : SameMembers r r' → (r'.done = true ↔ r'.players.entries = []) := fun hs => by
    simp [hs.done, hd, (h.of_same hs).players_ne_nil]
  have inserted : ∀ a b, r'.done = r.done → r'.players = r.players.insert a b →
      (r'.done = true ↔ r'.players.entries = []) := fun a b he hp => by
    simp [he, hd, hp, entries_insert_ne_nil]
  cases m with
  | create => cases hm
  | join info =>
    obtain ⟨o, rfl⟩ | ⟨-, -, client, -, hj⟩ := msgJoin_ok hr
    · exact same (SameMembers.out r o)
    · obtain ⟨o, ⟨old, -, rfl⟩ | ⟨-, rfl⟩⟩ := joinPlayer_ok hj <;>
        exact inserted _ _ rfl rfl
  | watch info n =>
    obtain ⟨o, rfl⟩ | ⟨-, client, -, hw⟩ := msgWatch_ok hr
    · exact same (SameMembers.out r o)
    · obtain ⟨o, rfl⟩ := watchWatcher_ok hw
      simp [hd, h.players_ne_nil]
  | getRoomInfo => exact same (same_msgGetRoomInfo hr)
  | adminKick t =>
    obtain ⟨o, rfl⟩ | ⟨tc, r₁, -, h₁, rfl⟩ := msgAdminKick_ok hr
    · exact same (SameMembers.out r o)
    · exact (h.removeClient_done hd h₁ : r₁.done = true ↔ r₁.players.entries = [])
  | ping c t => cases hr; exact same (same_msgPing c t)
  | nodeCount c n =>
    cases hr
    rcases msgNodeCount_eq (r := r) c n with he | ⟨w, o, -, -, he⟩ <;> rw [he] <;>
      simp [hd, h.players_ne_nil]
  | leave c msg => exact h.removeClient_done hd hr
  | roomProp c msg p => exact same (same_msgRoomProp hr)
  | clientProp c msg p => cases hr; exact same (same_msgClientProp c msg p)
  | targets c msg ts d => cases hr; exact same (same_msgTargets c msg ts d)
  | toMaster c d => exact same (same_msgToMaster hr)
  | broadcast c d => cases hr; exact same (same_msgBroadcast c d)
  | switchMaster c msg t =>
    obtain ⟨o, rfl | ⟨tc, -, rfl⟩⟩ := msgSwitchMaster_ok hr <;> simp [hd, h.players_ne_nil]
  | kick c msg t b =>
    obtain ⟨o, rfl⟩ | ⟨tc, o, -, h'⟩ := msgKick_ok hr
    · exact same (SameMembers.out r o)
    · exact (h.of_same (SameMembers.out r o)).removeClient_done hd h'
  | clientError c e => exact h.removeClient_done hd hr
  | clientTimeout c => exact h.removeClient_done hd hr

end Room

/-- In every state a room created with `RoomInfo.Players = 1` reaches while `done` is open,
the loop handles any message but `MsgCreate` without a panic, and any removal succeeds. -/
theorem room_never_panics {r₀ r : Room} {st : ClientID → Nat} {k : Nat} (h₀ : Created r₀)
    (hp : r₀.info.players = 1) (hrun : Run r₀ r st k) (hd : r.done = false) :
    (∀ now msg, msg.isCreate = false → ∃ r', r.loopStep now msg = .ok r') ∧
    ∀ c cause, ∃ r', r.removeClient c cause = .ok r' := by
  have h := (Room.MemberInv.of_created h₀ hp).of_run hrun hd
  exact ⟨fun now _ hm => h.exists_loopStep_ok hd now hm,
    fun c cause => h.exists_removeClient_ok hd c cause⟩

/-- `A` joins the room `M` created: with two players, the loop handles any message without a
panic, and any removal succeeds. -/
theorem room_never_panics_joined :
    ∃ r st k, Run createdRoom r st k ∧ r.players.entries.length = 2 ∧
      (∀ now msg, msg.isCreate = false → ∃ r', r.loopStep now msg = .ok r') ∧
      ∀ c cause, ∃ r', r.removeClient c cause = .ok r' :=
  have h := (@Run.start createdRoom).step rfl (.dispatch 6 (.join ⟨[65], []⟩) rfl rfl)
  ⟨_, _, _, h, rfl, room_never_panics createdRoom_created rfl h rfl⟩

/-- In every state a room created with `RoomInfo.Players = 1` reaches while `done` is open,
with removals wherever the loop does not lock them out, a `msgGetRoomInfo` waiting for `RLock`
with its clone `ri` of `RoomInfo` answers without a panic: with `ri`, which differs from the
room's `RoomInfo` in the player and watcher counts at most, one `ClientInfo` per player in
`masterOrder`'s order, the id of the master, a live player, and each last-message time as
`writeLastMsg` stored it, a time for every player among them. -/
theorem getRoomInfo_answer {r₀ : Room} {s : Running} {st : ClientID → Nat} {k : Nat}
    {ri : Pb.RoomInfo} (h₀ : Created r₀) (hp : r₀.info.players = 1)
    (hrun : Running.Run r₀ s st k) (hd : s.room.done = false) (hat : s.pos = .cloned ri) :
    (∃ p w, s.room.info = { ri with players := p, watchers := w }) ∧
    ∃ m cis lmt, s.room.master = some m ∧ s.room.isLivePlayer m ∧
      s.room.msgGetRoomInfo ri = .ok (s.room.emit (.roomInfoRes ⟨ri, cis, m.id, lmt⟩)) ∧
      List.Forall₂ (fun id ci => ∃ c, s.room.players.lookup id = some c ∧ c.info = ci)
        s.room.masterOrder cis ∧
      cis.length = s.room.players.entries.length ∧
      List.Forall₂ (fun e t => t.1 = e.1 ∧ e.2 = marshalULong t.2) s.room.lastMsg.entries lmt ∧
      ∀ id ∈ s.room.players, ∃ t, (id, t) ∈ lmt := by
  have h := (Room.MemberInv.of_created h₀ hp).of_running hrun hd
  obtain ⟨m, cis, lmt, hm, hl, he, hc, ht⟩ := h.msgGetRoomInfo_eq ri
  refine ⟨hrun.clonedAgrees ri hat, m, cis, lmt, hm, hl, he, hc, ?_, ht, fun id hid => ?_⟩
  · rw [← hc.length_eq, h.length_masterOrder]
  · obtain ⟨v, hv⟩ := List.mem_keys.1 (h.lastMsg_of_player id hid)
    obtain ⟨⟨id', t⟩, hmem, rfl, -⟩ := forall₂_exists_of_mem ht hv
    exact ⟨t, hmem⟩

/-- `A` joins the room `M` created; the control plane's `MsgGetRoomInfo` clones `RoomInfo`,
which counts two players, and a removal of `A` deferred after a failed send runs before the
`RLock`. The answer pairs the clone's count of two with `M` alone. -/
theorem getRoomInfo_answer_stale_count :
    ∃ s st k ri, Running.Run createdRoom s st k ∧ s.room.done = false ∧ s.pos = .cloned ri ∧
      ri.players = 2 ∧ s.room.players.entries.length = 1 ∧
      ((∃ p w, s.room.info = { ri with players := p, watchers := w }) ∧
      ∃ m cis lmt, s.room.master = some m ∧ s.room.isLivePlayer m ∧
        s.room.msgGetRoomInfo ri = .ok (s.room.emit (.roomInfoRes ⟨ri, cis, m.id, lmt⟩)) ∧
        List.Forall₂ (fun id ci => ∃ c, s.room.players.lookup id = some c ∧ c.info = ci)
          s.room.masterOrder cis ∧
        cis.length = s.room.players.entries.length ∧
        List.Forall₂ (fun e t => t.1 = e.1 ∧ e.2 = marshalULong t.2) s.room.lastMsg.entries lmt ∧
        ∀ id ∈ s.room.players, ∃ t, (id, t) ∈ lmt) := by
  have h₁ := (@Running.Run.start createdRoom).step rfl (.check 6 (.join ⟨[65], []⟩) rfl)
  have h₂ := h₁.step rfl .write
  have h₃ := h₂.step rfl (.handle rfl nofun rfl)
  have h₄ := h₃.step rfl (.check 7 .getRoomInfo rfl)
  have h₅ := h₄.step rfl .write
  have h₆ := h₅.step rfl .clone
  have h₇ := h₆.step rfl (.remove ⟨1, [65], true⟩ [] rfl)
  exact ⟨_, _, _, _, h₇, rfl, rfl, rfl, rfl, getRoomInfo_answer createdRoom_created rfl h₇ rfl rfl⟩

/-- In every state a room created with one player reaches while `done` is open, the room
has a player, and a step closes `done` exactly when it leaves no player: the room ends
when, and only when, its last player leaves. -/
theorem room_ends_with_last_player {r₀ r r' : Room} {st : ClientID → Nat} {k : Nat}
    (h₀ : Created r₀) (hp : r₀.info.players = 1) (hrun : Run r₀ r st k) (hd : r.done = false)
    (hs : Step r r') :
    r.players.entries ≠ [] ∧ (r'.done = true ↔ r'.players.entries = []) := by
  have h := (Room.MemberInv.of_created h₀ hp).of_run hrun hd
  refine ⟨h.players_ne_nil, ?_⟩
  cases hs with
  | dispatch now m hm hr =>
    have hd' : (r.updateLastMsg m.senderID now).done = false :=
      (Room.updateLastMsg_done _ _).trans hd
    exact (h.of_updateLastMsg m.senderID now).dispatch_done hd' hm hr
  | remove c cause hr => exact h.removeClient_done hd hr

/-- `A` joins the room `M` created and leaves, and then `M` leaves: `done` closes with the
last player. -/
theorem room_ends_with_last_player_leave :
    ∃ r r₁ st k, Run createdRoom r st k ∧ r.done = false ∧ Step r r₁ ∧ r₁.done = true ∧
      (r.players.entries ≠ [] ∧ (r₁.done = true ↔ r₁.players.entries = [])) :=
  have h := ((@Run.start createdRoom).step rfl (.dispatch 6 (.join ⟨[65], []⟩) rfl rfl)).step
    rfl (.dispatch 7 (.leave ⟨1, [65], true⟩ []) rfl rfl)
  ⟨_, _, _, _, h, rfl, .dispatch 8 (.leave ⟨0, [77], true⟩ []) rfl rfl, rfl,
    room_ends_with_last_player createdRoom_created rfl h rfl
      (.dispatch 8 (.leave ⟨0, [77], true⟩ []) rfl rfl)⟩

/-! ## Admission -/

namespace Room

variable {r r' : Room} {st : ClientID → Nat} {k : Nat}

/-- From `r` to `r'` no player enters, or one enters a room below its `MaxPlayers`. -/
def Admits (r r' : Room) : Prop :=
  r'.players.entries.length ≤ r.players.entries.length ∨
    r'.players.entries.length = r.players.entries.length + 1 ∧
      r.players.entries.length < r.info.maxPlayers.toNat

theorem admits_of_subset (h : ∀ id ∈ r'.players, id ∈ r.players) : r.Admits r' :=
  .inl (AList.length_le_of_subset h)

theorem admits_of_same (h : SameMembers r r') : r.Admits r' :=
  admits_of_subset fun id hid => (h.mem_players id).1 hid

/-- `msgJoin` admits a new player only while the room is below `MaxPlayers`; a rejoin keeps
the count. -/
theorem MemberInv.msgJoin_admits (h : MemberInv st k r) {info : Pb.ClientInfo} {now : UInt64}
    (hr : r.msgJoin info now = .ok r') : r.Admits r' := by
  obtain ⟨o, rfl⟩ | ⟨-, hroom, client, hc, hj⟩ := msgJoin_ok hr
  · exact admits_of_same (SameMembers.out r o)
  have hid : client.ref.id = info.id := by rw [(newClient_ok hc).1]
  rw [← hid] at hroom hj
  obtain ⟨o, ⟨old, hold, rfl⟩ | ⟨hnone, rfl⟩⟩ := joinPlayer_ok hj
  · exact .inl (AList.length_insert_of_mem client
      (AList.lookup_isSome.1 (by rw [hold]; rfl))).le
  · have hnew : client.ref.id ∉ r.players := fun hm => by
      simp [← AList.lookup_isSome, hnone] at hm
    have hlt : (UInt32.ofNat r.players.entries.length).toNat < r.info.maxPlayers.toNat :=
      hroom hnone
    rw [toNat_ofNat_players h.count.ge] at hlt
    exact .inr ⟨AList.length_insert_of_not_mem client hnew, hlt⟩

theorem MemberInv.dispatch_admits (h : MemberInv st k r) {now : UInt64} {m : Msg}
    (hm : m.isCreate = false) (hr : r.dispatch now m = .ok r') : r.Admits r' := by
  cases m with
  | create => cases hm
  | join info => exact h.msgJoin_admits hr
  | watch info n => exact admits_of_subset fun id hid => (h.of_msgWatch hr).2 ▸ hid
  | getRoomInfo => exact admits_of_same (same_msgGetRoomInfo hr)
  | adminKick t =>
    obtain ⟨o, rfl⟩ | ⟨tc, r₁, -, h₁, rfl⟩ := msgAdminKick_ok hr
    · exact admits_of_same (SameMembers.out r o)
    · exact admits_of_subset
        (removeClient_players_sub h₁ : ∀ id ∈ r₁.players, id ∈ r.players)
  | ping c t => cases hr; exact admits_of_same (same_msgPing c t)
  | nodeCount c n =>
    cases hr; exact admits_of_subset fun id hid => (h.of_msgNodeCount c n).2 ▸ hid
  | leave c msg => exact admits_of_subset (removeClient_players_sub hr)
  | roomProp c msg p => exact admits_of_same (same_msgRoomProp hr)
  | clientProp c msg p => cases hr; exact admits_of_same (same_msgClientProp c msg p)
  | targets c msg ts d => cases hr; exact admits_of_same (same_msgTargets c msg ts d)
  | toMaster c d => exact admits_of_same (same_msgToMaster hr)
  | broadcast c d => cases hr; exact admits_of_same (same_msgBroadcast c d)
  | switchMaster c msg t => exact admits_of_subset fun id hid => (h.of_msgSwitchMaster hr).2 ▸ hid
  | kick c msg t b =>
    obtain ⟨o, rfl⟩ | ⟨tc, o, -, h'⟩ := msgKick_ok hr
    · exact admits_of_same (SameMembers.out r o)
    · exact admits_of_subset (removeClient_players_sub (r := { r with out := o }) h')
  | clientError c e => exact admits_of_subset (removeClient_players_sub hr)
  | clientTimeout c => exact admits_of_subset (removeClient_players_sub hr)

end Room

/-- In every state a room created with one player reaches while `done` is open, a step adds
at most one player, and only to a room below its `MaxPlayers`: the capacity is checked at
every admission, whatever the messages and removals. -/
theorem room_admits_within_capacity {r₀ r r' : Room} {st : ClientID → Nat} {k : Nat}
    (h₀ : Created r₀) (hp : r₀.info.players = 1) (hrun : Run r₀ r st k) (hd : r.done = false)
    (hs : Step r r') :
    r'.players.entries.length ≤ r.players.entries.length ∨
      r'.players.entries.length = r.players.entries.length + 1 ∧
        r.players.entries.length < r.info.maxPlayers.toNat := by
  have h := (Room.MemberInv.of_created h₀ hp).of_run hrun hd
  cases hs with
  | dispatch now m hm hr =>
    have hi : (r.updateLastMsg m.senderID now).info = r.info := by
      exact Room.updateLastMsg_info _ _
    have ha := (h.of_updateLastMsg m.senderID now).dispatch_admits hm hr
    rwa [Room.Admits, Room.updateLastMsg_players, hi] at ha
  | remove c cause hr => exact Room.admits_of_subset (Room.removeClient_players_sub hr)

/-- A third player joins the room of `M` and `A`, whose `MaxPlayers` is 4. -/
theorem room_admits_within_capacity_join :
    ∃ r r₁ st k, Run createdRoom r st k ∧ r.done = false ∧ Step r r₁ ∧
      r₁.players.entries.length = 3 ∧
      (r₁.players.entries.length ≤ r.players.entries.length ∨
        r₁.players.entries.length = r.players.entries.length + 1 ∧
          r.players.entries.length < r.info.maxPlayers.toNat) :=
  have h := (@Run.start createdRoom).step rfl (.dispatch 6 (.join ⟨[65], []⟩) rfl rfl)
  ⟨_, _, _, _, h, rfl, .dispatch 7 (.join ⟨[66], []⟩) rfl rfl, rfl,
    room_admits_within_capacity createdRoom_created rfl h rfl
      (.dispatch 7 (.join ⟨[66], []⟩) rfl rfl)⟩

end Game
end WSNet2
