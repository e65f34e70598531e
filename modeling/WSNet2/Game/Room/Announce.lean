import WSNet2.Game.Room.Lifecycle
import WSNet2.Game.Room.Safety

/-!
# Who hears each event, and how often

`broadcast` sends an event to every player, then to every watcher, in the maps' iteration
order. The room announces this way each change the clients keep a copy of: a player joins or
rejoins (`EvJoined`, `EvRejoined`), leaves (`EvLeft`), the master changes the room's
properties (`EvRoomProp`), a player its own (`EvClientProp`), the mastership moves
(`EvMasterSwitched`), and a member broadcasts a message (`EvMessage`).

Every client is stored under its own id, so no client object is stored twice, and a
broadcast reaches each member exactly once (`count_broadcast`). The other events a handler
sends alongside are responses, which differ from every announcement. So in every running
state of a room created with one player, each handler that announces a change sends the
announcement exactly once to each member of the room it leaves, and to no one else
(`announcements_reach_every_member`). With `events_reach_members` (no event reaches a
client that is not a member), this says exactly who hears what.

A message to named targets is sent, one target after another, to the player under each id, so
a live player gets one copy for each time its id is named, a watcher none, and the sender one
`EvTargetNotFound` listing the ids no player holds (`messages_reach_named_players`). A message
to the master reaches the master alone, who is always a live player.

A member's ping is answered to it alone with an `EvPong` that it decodes, while the ids in
`lastMsg` and their number stay within what a dict can carry on the wire, to its own timestamp,
the room's watcher count and the room's `lastMsg`, which has a time for every player and can
keep one for a player a removal took away (`ping_reports_last_messages`).
-/

namespace WSNet2
namespace Game

open Binary

/-- The client an effect sends a regular event to, and the event. -/
@[simp] def Out.sent : Out → Option (ClientRef × RegularEvent)
  | .send c ev => some (c, ev)
  | _ => none

/-- The decoded copy of a dict has the dict's lookups. -/
theorem lookup_dictOf (d : Dict) (id : Bytes) : (dictOf d.entries).lookup id = d.lookup id :=
  List.perm_dlookup id (dictOf d.entries).nodupKeys d.nodupKeys (dictOf_entries_perm d)

namespace Room

/-- From `r` to `r'` the room only appends effects, and among them it sends `ev` once to
each member of `r'` and to no one else. -/
def Announces (ev : RegularEvent) (r r' : Room) : Prop :=
  ∃ new, r'.out = r.out ++ new ∧
    ∀ c, (new.filterMap Out.sent).count (c, ev) = if r'.isMember c then 1 else 0

variable {r r' r₁ : Room} {ev : RegularEvent}

/-! ## A broadcast reaches each member once -/

/-- A map keyed by id stores no client object twice. -/
theorem nodup_refs {b : Bool} {s : Clients} (hk : KeyedAs b s) :
    (s.entries.map (·.2.ref)).Nodup := by
  have hkeys : (s.entries.map (·.2.ref)).map ClientRef.id = s.keys := by
    rw [List.map_map]
    exact List.map_congr_left fun e he => (hk e.1 e.2 (AList.mem_lookup_iff.2 he)).1
  exact List.Nodup.of_map ClientRef.id (hkeys ▸ s.keys_nodup)

theorem mem_refs {b : Bool} {s : Clients} (hk : KeyedAs b s) (c : ClientRef) :
    c ∈ s.entries.map (·.2.ref) ↔ (s.lookup c.id).map Client.ref = some c := by
  constructor
  · intro h
    obtain ⟨e, he, rfl⟩ := List.mem_map.1 h
    have hl := AList.mem_lookup_iff.2 he
    rw [(hk _ _ hl).1, hl]
    rfl
  · intro h
    obtain ⟨w, hw, rfl⟩ := Option.map_eq_some'.1 h
    exact List.mem_map.2 ⟨⟨_, w⟩, AList.mem_lookup_iff.1 hw, rfl⟩

/-- Pairing with one event keeps the count of each client. -/
theorem count_map_pair (l : List ClientRef) (c : ClientRef) :
    (l.map (·, ev)).count (c, ev) = l.count c := by
  induction l <;> simp_all [List.count_cons]

/-- Sending `ev` to each client of a map keyed by id sends it once to the client stored under
its id, and to no other. -/
theorem count_sends {b : Bool} {s : Clients} (hk : KeyedAs b s) (c : ClientRef) :
    ((s.entries.map fun e => Out.send e.2.ref ev).filterMap Out.sent).count (c, ev) =
      if (s.lookup c.id).map Client.ref = some c then 1 else 0 := by
  have hl : (s.entries.map fun e => Out.send e.2.ref ev).filterMap Out.sent =
      (s.entries.map (·.2.ref)).map (·, ev) := by
    induction s.entries <;> simp_all
  rw [hl, count_map_pair, List.count_eq_of_nodup (nodup_refs hk)]
  simp only [mem_refs hk]

theorem count_broadcast (hp : KeyedAs true r.players) (hw : KeyedAs false r.watchers)
    (c : ClientRef) :
    (((r.players.entries.map fun e => Out.send e.2.ref ev) ++
      r.watchers.entries.map fun e => Out.send e.2.ref ev).filterMap Out.sent).count (c, ev) =
      if r.isMember c then 1 else 0 := by
  rw [List.filterMap_append, List.count_append, count_sends hp, count_sends hw]
  unfold isMember isLivePlayer isLiveWatcher
  by_cases hc : c.isPlayer
  · have hnw : (r.watchers.lookup c.id).map Client.ref ≠ some c := fun h => by
      simp [(hw.role h).2] at hc
    simp [hc, hnw]
  · have hnp : (r.players.lookup c.id).map Client.ref ≠ some c := fun h => hc (hp.role h).2
    simp [hc, hnp]

/-- Effects that do not send `ev`, then `ev` to every player and then every watcher of the
room left, announce `ev`. -/
theorem Announces.of_sends (hp : KeyedAs true r'.players) (hw : KeyedAs false r'.watchers)
    {pre : List Out}
    (hout : r'.out = pre ++ r'.players.entries.map (fun e => .send e.2.ref ev) ++
      r'.watchers.entries.map (fun e => .send e.2.ref ev))
    (hpre : r.out <+: pre) (hq : ∀ c, (c, ev) ∉ (pre.drop r.out.length).filterMap Out.sent) :
    r.Announces ev r' := by
  obtain ⟨l, rfl⟩ := hpre
  rw [List.drop_left] at hq
  refine ⟨l ++ ((r'.players.entries.map fun e => .send e.2.ref ev) ++
    r'.watchers.entries.map fun e => .send e.2.ref ev), by simp [hout], fun c => ?_⟩
  rw [List.filterMap_append, List.count_append, List.count_eq_zero.2 (hq c), Nat.zero_add]
  exact count_broadcast hp hw c

/-- An effect in front that does not send `ev` keeps the announcement. -/
theorem Announces.emit_pre {o : Out} (h : (r.emit o).Announces ev r')
    (ho : ∀ c, o.sent ≠ some (c, ev)) : r.Announces ev r' := by
  obtain ⟨new, hn, hc⟩ := h
  refine ⟨o :: new, by simp [hn], fun c => ?_⟩
  cases hs : o.sent with
  | none =>
    have hl : (o :: new).filterMap Out.sent = new.filterMap Out.sent := by
      rw [List.filterMap_cons, hs]
    rw [hl]
    exact hc c
  | some p =>
    have hl : (o :: new).filterMap Out.sent = p :: new.filterMap Out.sent := by
      rw [List.filterMap_cons, hs]
    rw [hl, List.count_cons_of_ne fun h => ho c (hs.trans (congrArg some h.symm))]
    exact hc c

/-- A response is no announcement. -/
theorem response_ne {e₁ e₂ : RegularEvent} (h₁ : responseEvType ≤ e₁.etype)
    (h₂ : ¬responseEvType ≤ e₂.etype) : e₁ ≠ e₂ := fun h => h₂ (h ▸ h₁)

/-! ## One lemma per announcement -/

/-- A join either only replies, or announces the client it stores under the id: as a rejoin
when the id was a player's. -/
theorem msgJoin_announces (hp : KeyedAs true r.players) (hw : KeyedAs false r.watchers)
    {info : Pb.ClientInfo} {now : UInt64} (hr : r.msgJoin info now = .ok r') :
    (∃ o, r' = r.emit o) ∨ ∃ cl, r'.players.lookup info.id = some cl ∧
      r.Announces (if (r.players.lookup info.id).isSome then newEvRejoined cl.info
        else newEvJoined cl.info) r' := by
  rcases msgJoin_spec hr with ⟨_, _, rfl⟩ | ⟨-, -, client, hc, hj⟩
  · exact .inl ⟨_, rfl⟩
  obtain ⟨href, -⟩ := newClient_ok hc
  have hk : KeyedAs true (r.players.insert client.ref.id client) :=
    keyed_insert hp ⟨rfl, by rw [href]⟩
  have hid : client.ref.id = info.id := by rw [href]
  have hcl : (r.players.insert client.ref.id client).lookup info.id = some client := by
    rw [← hid, AList.lookup_insert]
  obtain ⟨m, ⟨old, hold, -, rfl⟩ | ⟨hold, -, rfl⟩⟩ := joinPlayer_spec hj <;>
    simp only [hold, Option.isSome_some, Option.isSome_none, ite_true, ite_false,
      Bool.false_eq_true] <;>
    exact .inr ⟨client, hcl, .of_sends hk hw rfl (by simp) (by simp)⟩

/-- A live player's departure, when players remain, is announced with the new master. -/
theorem removeClient_announces (hp : KeyedAs true r.players) (hw : KeyedAs false r.watchers)
    {c : ClientRef} {cause : Bytes} (hl : r.isLivePlayer c) (hr : r.removeClient c cause = .ok r')
    (hd : r'.done = false) :
    ∃ m, r'.master = some m ∧ r.Announces (newEvLeft c.id m.id) r' := by
  rw [removeClient_of_isPlayer cause (hp.role hl).2] at hr
  rcases removePlayer_spec hr with ⟨hn, -⟩ | ⟨-, -, -, rfl⟩ | ⟨-, -, m, rfl, -⟩
  · exact absurd hl hn
  · cases hd
  · exact ⟨m, rfl, .of_sends (keyedAs_erase hp c.id) hw rfl (by simp) (by simp)⟩

/-- The master's change of the room's properties is announced. -/
theorem msgRoomProp_announces (hp : KeyedAs true r.players) (hw : KeyedAs false r.watchers)
    {c : ClientRef} {msg : RegularMsg} {p : RoomPropPayload} (hm : r.master = some c)
    (hr : r.msgRoomProp c msg p = .ok r') :
    r.Announces (newEvRoomProp c.id p.eventPayload) r' := by
  rcases msgRoomProp_spec hr with ⟨hn, -, -⟩ | ⟨-, pub, priv, pubB, privB, i, dl, nd, -, hnd, rfl⟩
  · exact absurd hm hn
  have hne := response_ne (response_newEvSucceeded msg) (regular_newEvRoomProp c.id p.eventPayload)
  rcases hnd with ⟨-, rfl⟩ | ⟨-, rfl⟩ <;>
    exact .of_sends hp hw rfl (by simp) (by simp [hne, hne.symm])

/-- A live player's change of its own properties is announced. -/
theorem msgClientProp_announces (hp : KeyedAs true r.players) (hw : KeyedAs false r.watchers)
    {c : ClientRef} (msg : RegularMsg) (props : Dict) (hl : r.isLivePlayer c) :
    r.Announces (newEvClientProp c.id msg.payload) (r.msgClientProp c msg props) := by
  rcases msgClientProp_spec (r := r) c msg props with
    ⟨hc, -⟩ | ⟨-, hn, -⟩ | ⟨-, cl, ps, hcl, -, hps, he⟩
  · rw [(hp.role hl).2] at hc; cases hc
  · exact absurd hl hn
  have hne := response_ne (response_newEvSucceeded msg) (regular_newEvClientProp c.id msg.payload)
  rw [he]
  rcases hps with rfl | ⟨np, rfl⟩
  · exact .of_sends hp hw rfl (by simp) (by simp [hne, hne.symm])
  · exact .of_sends (keyed_insert hp (hp c.id cl hcl)) hw rfl (by simp) (by simp [hne, hne.symm])

theorem switchMasterTo_announces (hp : KeyedAs true r.players) (hw : KeyedAs false r.watchers)
    (c : ClientRef) (msg : RegularMsg) {t : ClientID} {tc : Client}
    (ht : r.players.lookup t = some tc) :
    r.Announces (newEvMasterSwitched c.id tc.ref.id) (r.switchMasterTo c msg t) := by
  rcases switchMasterTo_spec (r := r) c msg t with ⟨hn, -⟩ | ⟨tc', ht', he⟩
  · rw [ht] at hn; cases hn
  rw [ht, Option.some_inj] at ht'
  subst ht'
  have hne := response_ne (response_newEvSucceeded msg)
    (regular_newEvMasterSwitched c.id tc.ref.id)
  rw [he]
  exact .of_sends hp hw rfl (by simp) (by simp [hne, hne.symm])

/-- A switch to a present player is announced, whoever asked for it. -/
theorem msgSwitchMaster_announces (hp : KeyedAs true r.players) (hw : KeyedAs false r.watchers)
    {c : ClientRef} {msg : RegularMsg} {t : ClientID} {tc : Client}
    (ht : r.players.lookup t = some tc) (hr : r.msgSwitchMaster c msg t = .ok r') :
    r.Announces (newEvMasterSwitched c.id tc.ref.id) r' := by
  rcases msgSwitchMaster_spec hr with ⟨-, -, rfl⟩ | ⟨-, rfl⟩
  · have hne := response_ne (response_newEvPermissionDenied msg)
      (regular_newEvMasterSwitched c.id tc.ref.id)
    exact (switchMasterTo_announces (r := r.sendTo c _) hp hw c msg ht).emit_pre
      (by simp [hne, hne.symm])
  · exact switchMasterTo_announces hp hw c msg ht

/-- A member's broadcast message is announced. -/
theorem msgBroadcast_announces (hp : KeyedAs true r.players) (hw : KeyedAs false r.watchers)
    {c : ClientRef} (d : Bytes) (hm : r.isMember c) :
    r.Announces (newEvMessage c.id d) (r.msgBroadcast c d) := by
  rcases msgBroadcast_spec (r := r) c d with ⟨-, he⟩ | ⟨hn, -⟩
  · rw [he]
    exact .of_sends hp hw rfl (by simp) (by simp)
  · exact absurd hm hn

/-! ## Messages to named players and to the master -/

/-- In a map keyed by id, the client found under `t` is `x` only if `t` is `x`'s own id. -/
theorem lookup_ref_eq_iff {b : Bool} {s : Clients} (hk : KeyedAs b s) (t : ClientID)
    (x : ClientRef) :
    (s.lookup t).map Client.ref = some x ↔
      (s.lookup x.id).map Client.ref = some x ∧ t = x.id := by
  constructor
  · intro h
    obtain ⟨c, hc, rfl⟩ := Option.map_eq_some'.1 h
    rw [(hk t c hc).1]
    exact ⟨h, rfl⟩
  · rintro ⟨h, rfl⟩
    exact h

/-- The sends to the players under the named ids, as (client, event) pairs. -/
theorem sent_named (s : Clients) (ts : List ClientID) :
    (ts.filterMap fun t => (s.lookup t).map fun c => Out.send c.ref ev).filterMap Out.sent =
      (ts.filterMap fun t => (s.lookup t).map Client.ref).map (·, ev) := by
  induction ts with
  | nil => rfl
  | cons t ts ih => cases h : s.lookup t <;> simp [h, ih]

/-- Sends of an event that is no response carry no response. -/
theorem responses_sent_named (s : Clients) (ts : List ClientID)
    (hr : ¬responseEvType ≤ ev.etype) :
    ((ts.filterMap fun t => (s.lookup t).map fun c => Out.send c.ref ev).filterMap
      Out.sent).filter (fun p => responseEvType ≤ p.2.etype) = [] := by
  rw [sent_named, List.filter_map]
  simp [Function.comp_def, hr]

/-- Sending `ev` to the client under each named id sends it to a client stored under its own
id once for each time that id is named, and to no other client. -/
theorem count_sends_named {b : Bool} {s : Clients} (hk : KeyedAs b s) (ts : List ClientID)
    (x : ClientRef) :
    ((ts.filterMap fun t => (s.lookup t).map fun c => Out.send c.ref ev).filterMap
      Out.sent).count (x, ev) =
      if (s.lookup x.id).map Client.ref = some x then ts.count x.id else 0 := by
  rw [sent_named, count_map_pair, List.count_filterMap]
  split_ifs with hx
  · exact List.countP_congr fun t _ => by
      rw [beq_iff_eq, beq_iff_eq, lookup_ref_eq_iff hk, and_iff_right hx]
  · exact List.countP_eq_zero.2 fun t _ => by
      rw [beq_iff_eq, lookup_ref_eq_iff hk]
      exact fun h => hx h.1

/-- A member's message to named targets reaches each live player once for each time its id is
named, and no other client; the only response is one `EvTargetNotFound` to the sender listing
the named ids that are no player's, sent exactly when there is one. -/
theorem msgTargets_delivers (hk : KeyedAs true r.players) {c : ClientRef} (msg : RegularMsg)
    (ts : List ClientID) (d : Bytes) (hm : r.isMember c) :
    ∃ new, (r.msgTargets c msg ts d).out = r.out ++ new ∧
      (∀ x, (new.filterMap Out.sent).count (x, newEvMessage c.id d) =
        if r.isLivePlayer x then ts.count x.id else 0) ∧
      (new.filterMap Out.sent).filter (fun p => responseEvType ≤ p.2.etype) =
        if ∀ t ∈ ts, t ∈ r.players then []
        else [(c, newEvTargetNotFound msg (ts.filter (· ∉ r.players)))] := by
  have hne := response_ne (response_newEvTargetNotFound msg (ts.filter (· ∉ r.players)))
    (regular_newEvMessage c.id d)
  have hall : (ts.filter (· ∉ r.players)) = [] ↔ ∀ t ∈ ts, t ∈ r.players := by
    simp [List.filter_eq_nil_iff]
  rcases msgTargets_spec (r := r) c msg ts d with ⟨hn, -⟩ | ⟨-, he⟩
  · exact absurd hm hn
  rw [he]
  dsimp only
  by_cases ha : ts.filter (· ∉ r.players) = []
  · rw [if_pos ha, if_pos (hall.1 ha)]
    exact ⟨_, List.append_nil _, count_sends_named hk ts,
      responses_sent_named _ ts (regular_newEvMessage _ _)⟩
  · rw [if_neg ha, if_neg (mt hall.2 ha)]
    refine ⟨_, (List.append_assoc _ _ [Out.send c _]:), fun x => ?_, ?_⟩
    · have h0 : ([Out.send c (newEvTargetNotFound msg (ts.filter (· ∉ r.players)))].filterMap
          Out.sent).count (x, newEvMessage c.id d) = 0 :=
        List.count_eq_zero.2 fun h => hne (congrArg Prod.snd (List.mem_singleton.1 h)).symm
      rw [List.filterMap_append, List.count_append, count_sends_named hk, h0]
      rfl
    · rw [List.filterMap_append, List.filter_append,
        responses_sent_named _ ts (regular_newEvMessage _ _)]
      simp

/-- A member's message to the master reaches the master, a live player, and no one else. -/
theorem MemberInv.msgToMaster_delivers {st : ClientID → Nat} {k : Nat} (h : r.MemberInv st k)
    (c : ClientRef) (d : Bytes) (hm : r.isMember c) :
    ∃ m, r.master = some m ∧ r.isLivePlayer m ∧
      r.msgToMaster c d = .ok (r.sendTo m (newEvMessage c.id d)) := by
  obtain ⟨m, hmst, hl⟩ := h.master_live
  refine ⟨m, hmst, hl, ?_⟩
  unfold msgToMaster
  rw [if_neg (not_not.2 hm), masterRef_of_master hmst]
  rfl

/-! ## A ping -/

/-- Within the wire's limits on its ids and their number, the room's last-message table is
encodable. -/
theorem MemberInv.lastMsg_encodable {st : ClientID → Nat} {k : Nat} (h : r.MemberInv st k)
    (hids : ∀ id ∈ r.lastMsg, id.length < 256) (hn : r.lastMsg.entries.length < 256) :
    r.lastMsg.Encodable := by
  refine ⟨hn, fun e he => ⟨hids _ (List.mem_keys_of_mem he), ?_⟩⟩
  obtain ⟨u, hu⟩ := h.lastMsg_ulong e he
  rw [hu, length_marshalULong]
  decide

end Room

/-- In every state a room created with `RoomInfo.Players = 1` reaches while `done` is open,
each handler that announces a change sends the announcement exactly once to every member of
the room it leaves, and to no one else: a join that admits its client (as a rejoin when the
id was a player's), a live player's removal while players remain (with the new master's id),
the master's change of the room's properties, a live player's change of its own, a switch to
a present player whoever asked for it, and a member's broadcast message. -/
theorem announcements_reach_every_member {r₀ r : Room} {st : ClientID → Nat} {k : Nat}
    (h₀ : Created r₀) (hp : r₀.info.players = 1) (hrun : Run r₀ r st k)
    (hd : r.done = false) :
    (∀ info now r', r.msgJoin info now = .ok r' → (∃ o, r' = r.emit o) ∨
      ∃ cl, r'.players.lookup info.id = some cl ∧
        r.Announces (if (r.players.lookup info.id).isSome then newEvRejoined cl.info
          else newEvJoined cl.info) r') ∧
    (∀ c cause r', r.isLivePlayer c → r.removeClient c cause = .ok r' → r'.done = false →
      ∃ m, r'.master = some m ∧ r.Announces (newEvLeft c.id m.id) r') ∧
    (∀ c msg p r', r.master = some c → r.msgRoomProp c msg p = .ok r' →
      r.Announces (newEvRoomProp c.id p.eventPayload) r') ∧
    (∀ c msg props, r.isLivePlayer c →
      r.Announces (newEvClientProp c.id msg.payload) (r.msgClientProp c msg props)) ∧
    (∀ c msg t tc r', r.players.lookup t = some tc → r.msgSwitchMaster c msg t = .ok r' →
      r.Announces (newEvMasterSwitched c.id tc.ref.id) r') ∧
    ∀ c d, r.isMember c → r.Announces (newEvMessage c.id d) (r.msgBroadcast c d) := by
  have h := (Room.MemberInv.of_created h₀ hp).of_run hrun hd
  have hpk : Room.KeyedAs true r.players := h.players_keyed
  have hwk : Room.KeyedAs false r.watchers := h.watchers_keyed
  exact ⟨fun _ _ _ => Room.msgJoin_announces hpk hwk,
    fun _ _ _ hl hr => Room.removeClient_announces hpk hwk hl hr,
    fun _ _ _ _ hm => Room.msgRoomProp_announces hpk hwk hm,
    fun _ msg props hl => Room.msgClientProp_announces hpk hwk msg props hl,
    fun _ _ _ _ _ ht => Room.msgSwitchMaster_announces hpk hwk ht,
    fun _ d hm => Room.msgBroadcast_announces hpk hwk d hm⟩

/-- `A` joins the room `M` created and `W` watches it: two players and a watcher hear each
announcement. -/
theorem announcements_reach_every_member_watched :
    ∃ r st k, Run createdRoom r st k ∧ r.players.entries.length = 2 ∧
      r.watchers.entries.length = 1 ∧
      (∀ info now r', r.msgJoin info now = .ok r' → (∃ o, r' = r.emit o) ∨
        ∃ cl, r'.players.lookup info.id = some cl ∧
          r.Announces (if (r.players.lookup info.id).isSome then newEvRejoined cl.info
            else newEvJoined cl.info) r') ∧
      (∀ c cause r', r.isLivePlayer c → r.removeClient c cause = .ok r' → r'.done = false →
        ∃ m, r'.master = some m ∧ r.Announces (newEvLeft c.id m.id) r') ∧
      (∀ c msg p r', r.master = some c → r.msgRoomProp c msg p = .ok r' →
        r.Announces (newEvRoomProp c.id p.eventPayload) r') ∧
      (∀ c msg props, r.isLivePlayer c →
        r.Announces (newEvClientProp c.id msg.payload) (r.msgClientProp c msg props)) ∧
      (∀ c msg t tc r', r.players.lookup t = some tc → r.msgSwitchMaster c msg t = .ok r' →
        r.Announces (newEvMasterSwitched c.id tc.ref.id) r') ∧
      ∀ c d, r.isMember c → r.Announces (newEvMessage c.id d) (r.msgBroadcast c d) :=
  have h := ((@Run.start createdRoom).step rfl (.dispatch 6 (.join ⟨[65], []⟩) rfl rfl)).step
    rfl (.dispatch 7 (.watch ⟨[87], []⟩ 1) rfl rfl)
  ⟨_, _, _, h, rfl, rfl, announcements_reach_every_member createdRoom_created rfl h rfl⟩

/-- In every state a room created with `RoomInfo.Players = 1` reaches while `done` is open, a
member's message to named targets reaches each live player once for each time its id is named
(so a watcher's id names no one) and no other client, and the only response it causes is one
`EvTargetNotFound` to the sender listing, in order, the named ids that are no player's, sent
exactly when there is one; a member's message to the master goes, without a panic, to the master
alone, who is a live player. -/
theorem messages_reach_named_players {r₀ r : Room} {st : ClientID → Nat} {k : Nat}
    (h₀ : Created r₀) (hp : r₀.info.players = 1) (hrun : Run r₀ r st k)
    (hd : r.done = false) :
    (∀ c msg ts d, r.isMember c → ∃ new, (r.msgTargets c msg ts d).out = r.out ++ new ∧
      (∀ x, (new.filterMap Out.sent).count (x, newEvMessage c.id d) =
        if r.isLivePlayer x then ts.count x.id else 0) ∧
      (new.filterMap Out.sent).filter (fun p => responseEvType ≤ p.2.etype) =
        if ∀ t ∈ ts, t ∈ r.players then []
        else [(c, newEvTargetNotFound msg (ts.filter (· ∉ r.players)))]) ∧
    ∀ c d, r.isMember c → ∃ m, r.master = some m ∧ r.isLivePlayer m ∧
      r.msgToMaster c d = .ok (r.sendTo m (newEvMessage c.id d)) := by
  have h := (Room.MemberInv.of_created h₀ hp).of_run hrun hd
  exact ⟨fun _ msg ts d hm => Room.msgTargets_delivers h.players_keyed msg ts d hm,
    fun c d hm => h.msgToMaster_delivers c d hm⟩

/-- `A` joins the room `M` created and `W` watches it: messages to named targets and to the
master among two players and a watcher. -/
theorem messages_reach_named_players_watched :
    ∃ r st k, Run createdRoom r st k ∧ r.players.entries.length = 2 ∧
      r.watchers.entries.length = 1 ∧
      (∀ c msg ts d, r.isMember c → ∃ new, (r.msgTargets c msg ts d).out = r.out ++ new ∧
        (∀ x, (new.filterMap Out.sent).count (x, newEvMessage c.id d) =
          if r.isLivePlayer x then ts.count x.id else 0) ∧
        (new.filterMap Out.sent).filter (fun p => responseEvType ≤ p.2.etype) =
          if ∀ t ∈ ts, t ∈ r.players then []
          else [(c, newEvTargetNotFound msg (ts.filter (· ∉ r.players)))]) ∧
      ∀ c d, r.isMember c → ∃ m, r.master = some m ∧ r.isLivePlayer m ∧
        r.msgToMaster c d = .ok (r.sendTo m (newEvMessage c.id d)) :=
  have h := ((@Run.start createdRoom).step rfl (.dispatch 6 (.join ⟨[65], []⟩) rfl rfl)).step
    rfl (.dispatch 7 (.watch ⟨[87], []⟩ 1) rfl rfl)
  ⟨_, _, _, h, rfl, rfl, messages_reach_named_players createdRoom_created rfl h rfl⟩

/-- In every state a room created with `RoomInfo.Players = 1` reaches while `done` is open,
with removals wherever the loop does not lock them out, and while `lastMsg` holds fewer than
256 ids, each shorter than 256 bytes, a member's ping is answered with an `EvPong` to it alone,
which it decodes to its own timestamp, the room's watcher count and the table `lastMsg`: an
encoded `ULong` time for each id there, every player's among them. -/
theorem ping_reports_last_messages {r₀ : Room} {s : Running} {st : ClientID → Nat} {k : Nat}
    (h₀ : Created r₀) (hp : r₀.info.players = 1) (hrun : Running.Run r₀ s st k)
    (hd : s.room.done = false) (hids : ∀ id ∈ s.room.lastMsg, id.length < 256)
    (hn : s.room.lastMsg.entries.length < 256) :
    ∀ c t, s.room.isMember c → ∃ ev, s.room.msgPing c t = s.room.emit (.sendSystem c ev) ∧
      ev.etype = evTypePong ∧
      ∃ lm, unmarshalEvPongPayload ev.payload = .ok ⟨t, s.room.info.watchers, lm⟩ ∧
        (∀ id, lm.lookup id = s.room.lastMsg.lookup id) ∧ (∀ id ∈ s.room.players, id ∈ lm) ∧
        ∀ id v, lm.lookup id = some v → ∃ u, v = marshalULong u := by
  have h := (Room.MemberInv.of_created h₀ hp).of_running hrun hd
  intro c t hm
  refine ⟨_, if_pos hm, rfl, _,
    unmarshalEvPongPayload_newEvPong _ _ _ (h.lastMsg_encodable hids hn),
    lookup_dictOf _, fun id hid => ?_, fun id v hv => ?_⟩
  · rw [← AList.lookup_isSome, lookup_dictOf, AList.lookup_isSome]
    exact h.lastMsg_of_player id hid
  · rw [lookup_dictOf] at hv
    exact h.lastMsg_ulong ⟨id, v⟩ (AList.mem_lookup_iff.1 hv)

/-- The open room in which `A`'s time outlived `A`'s removal: a ping reports it. -/
theorem ping_reports_last_messages_removed :
    ∃ s st k, Running.Run createdRoom s st k ∧ s.room.done = false ∧
      [65] ∈ s.room.lastMsg ∧ [65] ∉ s.room.players ∧
      (∀ id ∈ s.room.lastMsg, id.length < 256) ∧ s.room.lastMsg.entries.length < 256 ∧
      ∀ c t, s.room.isMember c → ∃ ev, s.room.msgPing c t = s.room.emit (.sendSystem c ev) ∧
        ev.etype = evTypePong ∧
        ∃ lm, unmarshalEvPongPayload ev.payload = .ok ⟨t, s.room.info.watchers, lm⟩ ∧
          (∀ id, lm.lookup id = s.room.lastMsg.lookup id) ∧ (∀ id ∈ s.room.players, id ∈ lm) ∧
          ∀ id v, lm.lookup id = some v → ∃ u, v = marshalULong u := by
  obtain ⟨s, st, k, hrun, hd, hin, hout, hids, hn⟩ := run_lastMsg_of_removed
  exact ⟨s, st, k, hrun, hd, hin, hout, hids, hn,
    ping_reports_last_messages createdRoom_created rfl hrun hd hids hn⟩

end Game
end WSNet2
