import WSNet2.Game.Room.Membership

/-!
# Where the room's events go

A handler sends two kinds of regular events. A response (`EvSucceeded`,
`EvPermissionDenied`, `EvTargetNotFound`, from `ResponseEvType` on) answers one client's
message and goes to its sender. Every other event goes to a list of clients the handler
reads off the room: all players and watchers (`broadcast`), the present targets
(`msgTargets`) or the master (`msgToMaster`).

Each step of a running room keeps to this: its responses go to the sender of the message it
handles, and every other event to a client that is still a member of the room after the
step, the very client object stored under its id (`events_reach_members`). So no event is
sent to a client that has left, was kicked, or was replaced by a rejoin, and a removal
answers no one. A handler changes the membership before it sends, so each proof reads the
recipients off the room the handler leaves; they are members because every client is
stored under its own id, which the membership invariant keeps.
-/

namespace WSNet2
namespace Game

open Binary

/-- The client a client's message comes from; none for the control plane. -/
def Msg.sender : Msg → Option ClientRef
  | .create _ | .join _ | .watch _ _ | .getRoomInfo | .adminKick _ => none
  | .ping c _ | .nodeCount c _ | .leave c _ | .roomProp c _ _ | .clientProp c _ _
  | .targets c _ _ _ | .toMaster c _ | .broadcast c _ | .switchMaster c _ _ | .kick c _ _ _
  | .clientError c _ | .clientTimeout c => some c

/-- Where `o` may send in the room `r`: a response only to `sender`, any other regular event
only to a member of `r`. Effects that send no regular event are unconstrained. -/
def Out.Addressed (r : Room) (sender : Option ClientRef) : Out → Prop
  | .send c ev => if responseEvType ≤ ev.etype then sender = some c else r.isMember c
  | _ => True

namespace Room

/-- Every effect of `l` is addressed in `r` for `sender`. -/
def Sends (r : Room) (sender : Option ClientRef) (l : List Out) : Prop :=
  ∀ o ∈ l, o.Addressed r sender

/-- From `r` to `r'` the room only appends effects, each addressed in `r'` for `sender`. -/
def Addressed (sender : Option ClientRef) (r r' : Room) : Prop :=
  ∃ new, r'.out = r.out ++ new ∧ r'.Sends sender new

/-- Every client of `s` is stored under its own id, with the role `b`. -/
def KeyedAs (b : Bool) (s : Clients) : Prop :=
  ∀ id c, s.lookup id = some c → c.ref.id = id ∧ c.ref.isPlayer = b

variable {r r' : Room} {s : Option ClientRef}

/-! ## Effects one by one -/

@[simp] theorem sends_nil : r.Sends s [] := fun _ h => absurd h (List.not_mem_nil _)

@[simp] theorem sends_cons {o : Out} {l : List Out} :
    r.Sends s (o :: l) ↔ o.Addressed r s ∧ r.Sends s l :=
  List.forall_mem_cons

@[simp] theorem sends_append {l l' : List Out} :
    r.Sends s (l ++ l') ↔ r.Sends s l ∧ r.Sends s l' :=
  List.forall_mem_append

@[simp] theorem addressed_send {c : ClientRef} {ev : RegularEvent} :
    (Out.send c ev).Addressed r s ↔
      if responseEvType ≤ ev.etype then s = some c else r.isMember c :=
  Iff.rfl

@[simp] theorem addressed_sendSystem {c : ClientRef} {ev : SystemEvent} :
    (Out.sendSystem c ev).Addressed r s := trivial

@[simp] theorem addressed_removed {c : ClientRef} {b : Bytes} :
    (Out.removed c b).Addressed r s := trivial

@[simp] theorem addressed_updateRoomInfo {i : Pb.RoomInfo} :
    (Out.updateRoomInfo i).Addressed r s := trivial

@[simp] theorem addressed_playerLog {c : ClientRef} {k : PlayerLogKind} :
    (Out.playerLog c k).Addressed r s := trivial

@[simp] theorem addressed_joined {i : JoinedInfo} : (Out.joined i).Addressed r s := trivial

@[simp] theorem addressed_err {c : Code} {f : Failure} : (Out.err c f).Addressed r s := trivial

@[simp] theorem addressed_roomInfoRes {i : GetRoomInfoRes} :
    (Out.roomInfoRes i).Addressed r s := trivial

@[simp] theorem addressed_adminKickRes {f : Option Failure} :
    (Out.adminKickRes f).Addressed r s := trivial

@[simp] theorem sends_newDeadlines {β : Type} (l : List β) (f : β → ClientRef) (n : Nat) :
    r.Sends s (l.map fun b => .newDeadline (f b) n) := fun o ho => by
  obtain ⟨b, -, rfl⟩ := List.mem_map.1 ho
  trivial

/-! ## The two kinds of events -/

@[simp] theorem regular_newEvJoined (cli : Pb.ClientInfo) :
    ¬responseEvType ≤ (newEvJoined cli).etype := of_decide_eq_true rfl

@[simp] theorem regular_newEvRejoined (cli : Pb.ClientInfo) :
    ¬responseEvType ≤ (newEvRejoined cli).etype := of_decide_eq_true rfl

@[simp] theorem regular_newEvLeft (a b : Bytes) : ¬responseEvType ≤ (newEvLeft a b).etype :=
  of_decide_eq_true rfl

@[simp] theorem regular_newEvRoomProp (a b : Bytes) :
    ¬responseEvType ≤ (newEvRoomProp a b).etype := of_decide_eq_true rfl

@[simp] theorem regular_newEvClientProp (a b : Bytes) :
    ¬responseEvType ≤ (newEvClientProp a b).etype := of_decide_eq_true rfl

@[simp] theorem regular_newEvMasterSwitched (a b : Bytes) :
    ¬responseEvType ≤ (newEvMasterSwitched a b).etype := of_decide_eq_true rfl

@[simp] theorem regular_newEvMessage (a b : Bytes) :
    ¬responseEvType ≤ (newEvMessage a b).etype := of_decide_eq_true rfl

@[simp] theorem response_newEvSucceeded (msg : RegularMsg) :
    responseEvType ≤ (newEvSucceeded msg).etype := of_decide_eq_true rfl

@[simp] theorem response_newEvPermissionDenied (msg : RegularMsg) :
    responseEvType ≤ (newEvPermissionDenied msg).etype := of_decide_eq_true rfl

@[simp] theorem response_newEvTargetNotFound (msg : RegularMsg) (ids : List Bytes) :
    responseEvType ≤ (newEvTargetNotFound msg ids).etype := of_decide_eq_true rfl

/-! ## Steps -/

theorem Addressed.refl : r.Addressed s r := ⟨[], (List.append_nil _).symm, sends_nil⟩

/-- The effects a room appends are what its list has beyond the old one. -/
theorem Addressed.of_drop (hp : r.out <+: r'.out) (h : r'.Sends s (r'.out.drop r.out.length)) :
    r.Addressed s r' := by
  obtain ⟨l, hl⟩ := hp
  exact ⟨l, hl.symm, by rwa [← hl, List.drop_left] at h⟩

/-- A first effect addressed in the final room can be taken off the front. -/
theorem Addressed.of_emit {o : Out} (h : (r.emit o).Addressed s r') (ho : o.Addressed r' s) :
    r.Addressed s r' := by
  obtain ⟨new, hn, hs⟩ := h
  exact ⟨o :: new, by simp [hn], sends_cons.2 ⟨ho, hs⟩⟩

/-- Where a list of effects sends is read off the players and the watchers only. -/
theorem Sends.of_same {l : List Out} (h : r.Sends s l) (hp : r'.players = r.players)
    (hw : r'.watchers = r.watchers) : r'.Sends s l := by
  unfold Sends Out.Addressed isMember isLivePlayer isLiveWatcher at *
  rwa [hp, hw]

theorem Addressed.emit {o : Out} (h : r.Addressed s r') (ho : o.Addressed (r'.emit o) s) :
    r.Addressed s (r'.emit o) := by
  obtain ⟨new, hn, hs⟩ := h
  exact ⟨new ++ [o], by simp [hn],
    sends_append.2 ⟨hs.of_same rfl rfl, sends_cons.2 ⟨ho, sends_nil⟩⟩⟩

/-! ## Who is a member -/

theorem isMember_of_lookup_player (hk : KeyedAs true r.players) {id : ClientID} {c : Client}
    (hc : r.players.lookup id = some c) : r.isMember c.ref := by
  obtain ⟨hid, hp⟩ := hk id c hc
  show ite _ _ _
  rw [if_pos hp, isLivePlayer, hid, hc]; rfl

theorem isMember_of_lookup_watcher (hk : KeyedAs false r.watchers) {id : ClientID} {c : Client}
    (hc : r.watchers.lookup id = some c) : r.isMember c.ref := by
  obtain ⟨hid, hp⟩ := hk id c hc
  show ite _ _ _
  rw [if_neg (by simp [hp]), isLiveWatcher, hid, hc]; rfl

theorem isMember_of_isLivePlayer (hk : KeyedAs true r.players) {c : ClientRef}
    (hl : r.isLivePlayer c) : r.isMember c := by
  obtain ⟨c', hc', rfl⟩ := Option.map_eq_some'.1 hl
  exact isMember_of_lookup_player hk hc'

/-- A broadcast sends to the players, then to the watchers: each a member when every client
is stored under its own id. -/
theorem sends_broadcast (hp : KeyedAs true r.players) (hw : KeyedAs false r.watchers)
    {ev : RegularEvent} (hev : ¬responseEvType ≤ ev.etype) :
    r.Sends s (r.players.entries.map fun e => .send e.2.ref ev) ∧
      r.Sends s (r.watchers.entries.map fun e => .send e.2.ref ev) := by
  constructor <;> intro o ho <;> obtain ⟨e, he, rfl⟩ := List.mem_map.1 ho <;>
    rw [addressed_send, if_neg hev]
  · exact isMember_of_lookup_player hp (AList.mem_lookup_iff.2 he)
  · exact isMember_of_lookup_watcher hw (AList.mem_lookup_iff.2 he)

/-- `msgTargets` sends to the players it finds. -/
theorem sends_targets (hk : KeyedAs true r.players) (ts : List ClientID) {ev : RegularEvent}
    (hev : ¬responseEvType ≤ ev.etype) :
    r.Sends s (ts.filterMap fun t => (r.players.lookup t).map fun c => Out.send c.ref ev) :=
  fun o ho => by
    obtain ⟨t, -, ht⟩ := List.mem_filterMap.1 ho
    obtain ⟨c, hc, rfl⟩ := Option.map_eq_some'.1 ht
    rw [addressed_send, if_neg hev]
    exact isMember_of_lookup_player hk hc

theorem keyedAs_erase {b : Bool} {cs : Clients} (h : KeyedAs b cs) (a : ClientID) :
    KeyedAs b (cs.erase a) :=
  fun id c hc => h id c (lookup_of_lookup_erase hc).1

/-! ## One lemma per handler -/

theorem removePlayer_addressed {c : ClientRef} {cause : Bytes}
    (hr : r.removePlayer c cause = .ok r') (hp : KeyedAs true r.players)
    (hw : KeyedAs false r.watchers) : r.Addressed s r' := by
  rcases removePlayer_spec hr with ⟨-, rfl⟩ | ⟨-, -, -, rfl⟩ | ⟨-, -, m, rfl, -⟩
  · exact .refl
  · exact .of_drop (by simp) (by simp)
  · have hk := keyedAs_erase hp c.id
    refine .of_drop (by simp) ?_
    simp
    refine sends_broadcast ?_ ?_ (regular_newEvLeft _ _) <;> assumption

theorem removeWatcher_addressed (c : ClientRef) (cause : Bytes) :
    r.Addressed s (r.removeWatcher c cause) := by
  rcases removeWatcher_spec (r := r) c cause with h | ⟨w, -, -, h⟩ <;> rw [h]
  · exact .refl
  · exact .of_drop (by simp) (by simp)

theorem removeClient_addressed {c : ClientRef} {cause : Bytes}
    (hr : r.removeClient c cause = .ok r') (hp : KeyedAs true r.players)
    (hw : KeyedAs false r.watchers) : r.Addressed s r' := by
  rcases removeClient_ok hr with ⟨-, hr⟩ | ⟨-, rfl⟩
  · exact removePlayer_addressed hr hp hw
  · exact removeWatcher_addressed c cause

theorem msgCreate_addressed (info : Pb.ClientInfo) (now : UInt64) (hp : KeyedAs true r.players)
    (hw : KeyedAs false r.watchers) : r.Addressed s (r.msgCreate info now) := by
  rcases msgCreate_spec (r := r) info now with ⟨_, -, h⟩ | ⟨c, hc, h⟩ <;> rw [h]
  · exact .of_drop (by simp) (by simp)
  · have hk : KeyedAs true (r.players.insert c.ref.id c) :=
      keyed_insert hp ⟨rfl, by rw [(newClient_ok hc).1]⟩
    refine .of_drop (by simp) ?_
    simp [-AList.insert_entries]
    refine sends_broadcast ?_ ?_ (regular_newEvJoined _) <;> assumption

theorem msgJoin_addressed {info : Pb.ClientInfo} {now : UInt64} (hr : r.msgJoin info now = .ok r')
    (hp : KeyedAs true r.players) (hw : KeyedAs false r.watchers) : r.Addressed s r' := by
  rcases msgJoin_spec hr with ⟨_, _, rfl⟩ | ⟨-, -, client, hc, hj⟩
  · exact .of_drop (by simp) (by simp)
  have hk : KeyedAs true (r.players.insert client.ref.id client) :=
    keyed_insert hp ⟨rfl, by rw [(newClient_ok hc).1]⟩
  obtain ⟨m, ⟨old, -, -, rfl⟩ | ⟨-, -, rfl⟩⟩ := joinPlayer_spec hj <;>
    refine .of_drop (by simp) ?_ <;> simp [-AList.insert_entries]
  · refine sends_broadcast ?_ ?_ (regular_newEvRejoined _) <;> assumption
  · refine sends_broadcast ?_ ?_ (regular_newEvJoined _) <;> assumption

theorem msgWatch_addressed {info : Pb.ClientInfo} {n : UInt32} (hr : r.msgWatch info n = .ok r') :
    r.Addressed s r' := by
  rcases msgWatch_spec hr with ⟨_, _, rfl⟩ | ⟨-, client, -, hw⟩
  · exact .of_drop (by simp) (by simp)
  · obtain ⟨m, -, ⟨-, rfl⟩ | ⟨old, -, rfl⟩⟩ := watchWatcher_spec hw <;>
      exact .of_drop (by simp) (by simp)

theorem msgGetRoomInfo_addressed {ri : Pb.RoomInfo} (hr : r.msgGetRoomInfo ri = .ok r') :
    r.Addressed s r' := by
  obtain ⟨cis, lmt, m, -, rfl⟩ := msgGetRoomInfo_spec hr
  exact .of_drop (by simp) (by simp)

theorem msgAdminKick_addressed {t : ClientID} (hr : r.msgAdminKick t = .ok r')
    (hp : KeyedAs true r.players) (hw : KeyedAs false r.watchers) : r.Addressed s r' := by
  rcases msgAdminKick_spec hr with ⟨-, rfl⟩ | ⟨tc, r₁, -, h₁, rfl⟩
  · exact .of_drop (by simp) (by simp)
  · exact (removeClient_addressed h₁ hp hw).emit trivial

theorem msgPing_addressed (c : ClientRef) (t : UInt64) : r.Addressed s (r.msgPing c t) := by
  rcases msgPing_spec (r := r) c t with ⟨-, h⟩ | ⟨-, h⟩ <;> rw [h]
  · exact .of_drop (by simp) (by simp)
  · exact .refl

theorem msgNodeCount_addressed (c : ClientRef) (n : UInt32) :
    r.Addressed s (r.msgNodeCount c n) := by
  rcases msgNodeCount_spec (r := r) c n with h | ⟨w, -, -, h⟩ <;> rw [h]
  · exact .refl
  · exact .of_drop (by simp) (by simp)

theorem msgRoomProp_addressed {c : ClientRef} {msg : RegularMsg} {p : RoomPropPayload}
    (hr : r.msgRoomProp c msg p = .ok r') (hp : KeyedAs true r.players)
    (hw : KeyedAs false r.watchers) : r.Addressed (some c) r' := by
  rcases msgRoomProp_spec hr with ⟨-, -, rfl⟩ | ⟨-, pub, priv, pubB, privB, i, d, nd, -, hnd, rfl⟩
  · exact .of_drop (by simp) (by simp)
  · refine .of_drop (by simp) ?_
    rcases hnd with ⟨-, rfl⟩ | ⟨-, rfl⟩ <;> simp <;>
      refine sends_broadcast ?_ ?_ (regular_newEvRoomProp _ _) <;> assumption

theorem msgClientProp_addressed (c : ClientRef) (msg : RegularMsg) (props : Dict)
    (hp : KeyedAs true r.players) (hw : KeyedAs false r.watchers) :
    r.Addressed (some c) (r.msgClientProp c msg props) := by
  rcases msgClientProp_spec (r := r) c msg props with
    ⟨-, h⟩ | ⟨-, -, h⟩ | ⟨-, cl, ps, hcl, -, hps, h⟩ <;> rw [h]
  · exact .of_drop (by simp) (by simp)
  · exact .refl
  · have hk : KeyedAs true ps := by
      rcases hps with rfl | ⟨np, rfl⟩
      · exact hp
      · exact keyed_insert hp (hp c.id cl hcl)
    refine .of_drop (by simp) ?_
    simp [-AList.insert_entries]
    refine sends_broadcast ?_ ?_ (regular_newEvClientProp _ _) <;> assumption

theorem msgTargets_addressed (c : ClientRef) (msg : RegularMsg) (ts : List ClientID) (d : Bytes)
    (hp : KeyedAs true r.players) : r.Addressed (some c) (r.msgTargets c msg ts d) := by
  rcases msgTargets_spec (r := r) c msg ts d with ⟨-, h⟩ | ⟨-, h⟩ <;> rw [h]
  · exact .refl
  · refine .of_drop (by simp) ?_
    split <;> simp <;> refine sends_targets ?_ ts (regular_newEvMessage _ _) <;> exact hp

theorem msgToMaster_addressed {c : ClientRef} {d : Bytes} (hr : r.msgToMaster c d = .ok r')
    (hp : KeyedAs true r.players) (hm : ∃ m, r.master = some m ∧ r.isLivePlayer m) :
    r.Addressed (some c) r' := by
  rcases msgToMaster_spec hr with ⟨-, rfl⟩ | ⟨-, m, hm', rfl⟩
  · exact .refl
  · obtain ⟨m₀, hm₀, hl⟩ := hm
    rw [hm', Option.some_inj] at hm₀
    subst hm₀
    refine .of_drop (by simp) ?_
    simpa using isMember_of_isLivePlayer hp hl

theorem msgBroadcast_addressed (c : ClientRef) (d : Bytes) (hp : KeyedAs true r.players)
    (hw : KeyedAs false r.watchers) : r.Addressed (some c) (r.msgBroadcast c d) := by
  rcases msgBroadcast_spec (r := r) c d with ⟨-, h⟩ | ⟨-, h⟩ <;> rw [h]
  · refine .of_drop (by simp) ?_
    simp
    refine sends_broadcast ?_ ?_ (regular_newEvMessage _ _) <;> assumption
  · exact .refl

theorem switchMasterTo_addressed (c : ClientRef) (msg : RegularMsg) (t : ClientID)
    (hp : KeyedAs true r.players) (hw : KeyedAs false r.watchers) :
    r.Addressed (some c) (r.switchMasterTo c msg t) := by
  rcases switchMasterTo_spec (r := r) c msg t with ⟨-, h⟩ | ⟨tc, -, h⟩ <;> rw [h]
  · exact .of_drop (by simp) (by simp)
  · refine .of_drop (by simp) ?_
    simp
    refine sends_broadcast ?_ ?_ (regular_newEvMasterSwitched _ _) <;> assumption

theorem msgSwitchMaster_addressed {c : ClientRef} {msg : RegularMsg} {t : ClientID}
    (hr : r.msgSwitchMaster c msg t = .ok r') (hp : KeyedAs true r.players)
    (hw : KeyedAs false r.watchers) : r.Addressed (some c) r' := by
  rcases msgSwitchMaster_spec hr with ⟨-, -, rfl⟩ | ⟨-, rfl⟩
  · exact .of_emit (switchMasterTo_addressed c msg t hp hw) (by simp)
  · exact switchMasterTo_addressed c msg t hp hw

theorem msgKick_addressed {c : ClientRef} {msg : RegularMsg} {t : ClientID} {m : Bytes}
    (hr : r.msgKick c msg t m = .ok r') (hp : KeyedAs true r.players)
    (hw : KeyedAs false r.watchers) : r.Addressed (some c) r' := by
  rcases msgKick_spec hr with ⟨-, -, rfl⟩ | ⟨-, -, rfl⟩ | ⟨-, tc, -, hr⟩
  iterate 2 exact .of_drop (by simp) (by simp)
  exact .of_emit (removeClient_addressed hr hp hw) (by simp)

/-! ## The loop -/

variable {st : ClientID → Nat} {k : Nat}

/-- Every handler keeps to the addressing, for the message's own sender. -/
theorem MemberInv.dispatch_addressed (h : MemberInv st k r) {now : UInt64} {m : Msg}
    (hr : r.dispatch now m = .ok r') : r.Addressed m.sender r' := by
  have hp : KeyedAs true r.players := h.players_keyed
  have hw : KeyedAs false r.watchers := h.watchers_keyed
  cases m with
  | create info => cases hr; exact msgCreate_addressed info now hp hw
  | join info => exact msgJoin_addressed hr hp hw
  | watch info n => exact msgWatch_addressed hr
  | getRoomInfo => exact msgGetRoomInfo_addressed hr
  | adminKick t => exact msgAdminKick_addressed hr hp hw
  | ping c t => cases hr; exact msgPing_addressed c t
  | nodeCount c n => cases hr; exact msgNodeCount_addressed c n
  | leave c msg => exact removeClient_addressed hr hp hw
  | roomProp c msg p => exact msgRoomProp_addressed hr hp hw
  | clientProp c msg p => cases hr; exact msgClientProp_addressed c msg p hp hw
  | targets c msg ts d => cases hr; exact msgTargets_addressed c msg ts d hp
  | toMaster c d => exact msgToMaster_addressed hr hp h.master_live
  | broadcast c d => cases hr; exact msgBroadcast_addressed c d hp hw
  | switchMaster c msg t => exact msgSwitchMaster_addressed hr hp hw
  | kick c msg t b => exact msgKick_addressed hr hp hw
  | clientError c e => exact removeClient_addressed hr hp hw
  | clientTimeout c => exact removeClient_addressed hr hp hw

theorem MemberInv.loopStep_addressed (h : MemberInv st k r) {now : UInt64} {m : Msg}
    (hr : r.loopStep now m = .ok r') : r.Addressed m.sender r' := by
  obtain ⟨new, hn, hs⟩ := (h.of_updateLastMsg m.senderID now).dispatch_addressed hr
  exact ⟨new, by rw [hn, updateLastMsg_out], hs⟩

end Room

end Game
end WSNet2
