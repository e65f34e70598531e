import WSNet2.Game.Room.Inversion

/-!
# Master-only requests and stale senders

`msgRoomProp` and `msgKick` refuse a sender that is not `r.master`: they send it
`EvPermissionDenied` and return, leaving the room as it was. `msgSwitchMaster` sends the
same refusal but has no `return` after it, so the switch goes ahead: any player, a stale
client included, can make the player under any id the master (`msgSwitchMaster_of_not_master`).
The two concrete runs below reach such a switch from a freshly created room.

The room's settings, on the other hand, are written by one handler only: no step but the
master's `MsgRoomProp` changes `RoomInfo`'s flags, search group, player limit or props,
the decoded props or the client deadline (`settings_only_by_master`).
-/

namespace WSNet2
namespace Game

open Binary

namespace Room

variable {r r' : Room}

/-- A refused `MsgRoomProp` only tells the sender. -/
theorem msgRoomProp_of_not_master {c m : ClientRef} {msg : RegularMsg} {p : RoomPropPayload}
    (hm : r.master = some m) (hc : m ≠ c) :
    r.msgRoomProp c msg p = .ok (r.sendTo c (newEvPermissionDenied msg)) := by
  unfold msgRoomProp
  rw [if_pos (by rw [hm]; exact fun h => hc (Option.some_inj.1 h)), masterRef_of_master hm]
  rfl

/-- A refused `MsgKick` only tells the sender. -/
theorem msgKick_of_not_master {c m : ClientRef} {msg : RegularMsg} {t : ClientID} {b : Bytes}
    (hm : r.master = some m) (hc : m ≠ c) :
    r.msgKick c msg t b = .ok (r.sendTo c (newEvPermissionDenied msg)) := by
  unfold msgKick
  rw [if_pos (by rw [hm]; exact fun h => hc (Option.some_inj.1 h)), masterRef_of_master hm]
  rfl

/-- A refused `MsgSwitchMaster` still switches: after the refusal the player under `t`
becomes the master, the sender is told it succeeded and everyone is told of the switch. -/
theorem msgSwitchMaster_of_not_master {c m : ClientRef} {msg : RegularMsg} {t : ClientID}
    {tc : Client} (hm : r.master = some m) (hc : m ≠ c) (ht : r.players.lookup t = some tc) :
    r.msgSwitchMaster c msg t =
      .ok ((({ r with out := r.out ++ [.send c (newEvPermissionDenied msg)],
                      master := some tc.ref } : Room).sendTo c (newEvSucceeded msg)).broadcast
        (newEvMasterSwitched c.id tc.ref.id)) := by
  unfold msgSwitchMaster
  rw [if_pos (by rw [hm]; exact fun h => hc (Option.some_inj.1 h)), masterRef_of_master hm]
  simp only [map_ok, switchMasterTo, sendTo, emit, ht]

/-! ## Who changes the room's settings -/

/-- What only the master's `MsgRoomProp` writes: `RoomInfo`'s flags, search group, player
limit and props blobs, the decoded props and the client deadline. -/
structure Settings where
  visible : Bool
  joinable : Bool
  watchable : Bool
  searchGroup : UInt32
  maxPlayers : UInt32
  publicPropsBlob : Bytes
  privatePropsBlob : Bytes
  publicProps : Dict
  privateProps : Dict
  deadline : Nat

/-- The room's settings. -/
def settings (r : Room) : Settings :=
  ⟨r.info.visible, r.info.joinable, r.info.watchable, r.info.searchGroup, r.info.maxPlayers,
    r.info.publicProps, r.info.privateProps, r.publicProps, r.privateProps, r.deadline⟩

theorem settings_removeClient {c : ClientRef} {cause : Bytes}
    (hr : r.removeClient c cause = .ok r') : r'.settings = r.settings := by
  rcases removeClient_ok hr with ⟨-, hr⟩ | ⟨-, rfl⟩
  · obtain ⟨-, rfl⟩ | ⟨-, -, -, o, rfl⟩ | ⟨-, -, mst, o, rfl, -⟩ := removePlayer_ok hr <;>
      rfl
  · obtain he | ⟨w, o, -, -, he⟩ := removeWatcher_eq (r := r) c cause <;> rw [he]
    rfl

/-- Every handler but the master's `MsgRoomProp` keeps the settings. -/
theorem settings_dispatch {now : UInt64} {m : Msg} (hr : r.dispatch now m = .ok r')
    (hm : ∀ c msg p, m = .roomProp c msg p → r.master ≠ some c) :
    r'.settings = r.settings := by
  cases m with
  | create info =>
    cases hr
    rcases msgCreate_spec (r := r) info now with ⟨_, -, he⟩ | ⟨c, -, he⟩ <;> rw [he] <;> rfl
  | join info =>
    obtain ⟨o, rfl⟩ | ⟨-, -, client, -, hj⟩ := msgJoin_ok hr
    · rfl
    · obtain ⟨o, ⟨old, -, rfl⟩ | ⟨-, rfl⟩⟩ := joinPlayer_ok hj <;> rfl
  | watch info n =>
    obtain ⟨o, rfl⟩ | ⟨-, client, -, hw⟩ := msgWatch_ok hr
    · rfl
    · obtain ⟨o, rfl⟩ := watchWatcher_ok hw; rfl
  | getRoomInfo =>
    obtain ⟨cis, lmt, m, -, rfl⟩ := msgGetRoomInfo_spec hr
    rfl
  | adminKick t =>
    obtain ⟨o, rfl⟩ | ⟨tc, r₁, -, h₁, rfl⟩ := msgAdminKick_ok hr
    · rfl
    · exact (settings_removeClient h₁ : r₁.settings = r.settings)
  | ping c t =>
    cases hr
    rcases msgPing_spec (r := r) c t with ⟨-, he⟩ | ⟨-, he⟩ <;> rw [he]
    rfl
  | nodeCount c n =>
    cases hr
    obtain he | ⟨w, o, -, -, he⟩ := msgNodeCount_eq (r := r) c n <;> rw [he]
    rfl
  | leave c msg => exact settings_removeClient hr
  | roomProp c msg p =>
    obtain ⟨_, -, rfl⟩ := map_eq_ok.1 ((if_pos (hm c msg p rfl)).symm.trans hr)
    rfl
  | clientProp c msg p =>
    cases hr
    rcases msgClientProp_spec (r := r) c msg p with
      ⟨-, he⟩ | ⟨-, -, he⟩ | ⟨-, cl, ps, -, -, -, he⟩ <;> rw [he] <;> rfl
  | targets c msg ts d =>
    cases hr
    rcases msgTargets_spec (r := r) c msg ts d with ⟨-, he⟩ | ⟨-, he⟩ <;> rw [he]
    rfl
  | toMaster c d => rcases msgToMaster_spec hr with ⟨-, rfl⟩ | ⟨-, m, -, rfl⟩ <;> rfl
  | broadcast c d =>
    cases hr
    rcases msgBroadcast_spec (r := r) c d with ⟨-, he⟩ | ⟨-, he⟩ <;> rw [he]
    rfl
  | switchMaster c msg t =>
    obtain ⟨o, rfl | ⟨tc, -, rfl⟩⟩ := msgSwitchMaster_ok hr <;> rfl
  | kick c msg t b =>
    obtain ⟨o, rfl⟩ | ⟨tc, o, -, h⟩ := msgKick_ok hr
    · rfl
    · exact (settings_removeClient h).trans rfl
  | clientError c e => exact settings_removeClient hr
  | clientTimeout c => exact settings_removeClient hr

end Room

/-- In every step of a room, at any time and before or after `done` closes, the settings
stay as they were unless the step is a `MsgRoomProp` sent by the client that is
`r.master` at that moment. -/
theorem settings_only_by_master {r r' : Room} (hs : Step r r') :
    r'.settings = r.settings ∨
      ∃ now c msg p, r.master = some c ∧ r.loopStep now (.roomProp c msg p) = .ok r' := by
  cases hs with
  | remove c cause hr => exact .inl (Room.settings_removeClient hr)
  | dispatch now m _ hr =>
    have hu : (r.updateLastMsg m.senderID now).settings = r.settings ∧
        (r.updateLastMsg m.senderID now).master = r.master := by
      rcases Room.updateLastMsg_cases (r := r) m.senderID now with he | he <;> rw [he] <;>
        exact ⟨rfl, rfl⟩
    by_cases hm : ∃ c msg p, m = .roomProp c msg p ∧ r.master = some c
    · obtain ⟨c, msg, p, rfl, hc⟩ := hm
      exact .inr ⟨now, c, msg, p, hc, hr⟩
    · refine .inl ((Room.settings_dispatch hr fun c msg p he hc => ?_).trans hu.1)
      exact hm ⟨c, msg, p, he, hu.2 ▸ hc⟩

/-- `A` joins the room `M` created, and the master closes the room to joins: the settings
change, by the master's `MsgRoomProp`. -/
theorem settings_only_by_master_closed :
    ∃ r r₁, Reachable createdRoom r ∧ Step r r₁ ∧ r₁.info.joinable = false ∧
      (r₁.settings = r.settings ∨
        ∃ now c msg p, r.master = some c ∧ r.loopStep now (.roomProp c msg p) = .ok r₁) :=
  have h := (@Reachable.refl createdRoom).step (.dispatch 6 (.join ⟨[65], []⟩) rfl rfl)
  ⟨_, _, h, .dispatch 7 (.roomProp ⟨0, [77], true⟩ ⟨2, []⟩ ⟨true, false, true, 0, 4, 0, ∅, ∅, []⟩)
    rfl rfl, rfl, settings_only_by_master (.dispatch 7
      (.roomProp ⟨0, [77], true⟩ ⟨2, []⟩ ⟨true, false, true, 0, 4, 0, ∅, ∅, []⟩) rfl rfl)⟩

/-- From a room created by `M`, player `A` joins; `A`, not the master, sends
`SwitchMaster` naming itself and becomes the master. -/
theorem switchMaster_by_non_master :
    ∃ r₁ r₂, Reachable createdRoom r₁ ∧ r₁.master = some ⟨0, [77], true⟩ ∧ r₁.isLivePlayer ⟨1, [65], true⟩ ∧
      r₁.dispatch 7 (.switchMaster ⟨1, [65], true⟩ ⟨1, []⟩ [65]) = .ok r₂ ∧
      r₂.master = some ⟨1, [65], true⟩ :=
  ⟨_, _, .step .refl (.dispatch 6 (.join ⟨[65], []⟩) rfl rfl), rfl, rfl, rfl, rfl⟩

/-- From a room created by `M`, player `A` joins and rejoins as a new client; the replaced
client, now stale, sends `SwitchMaster` naming `A`, and the new `A` becomes the master. -/
theorem switchMaster_by_stale_sender :
    ∃ r₂ r₃, Reachable createdRoom r₂ ∧ ¬r₂.isLivePlayer ⟨1, [65], true⟩ ∧
      ¬r₂.isLiveWatcher ⟨1, [65], true⟩ ∧ r₂.master = some ⟨0, [77], true⟩ ∧
      r₂.dispatch 8 (.switchMaster ⟨1, [65], true⟩ ⟨1, []⟩ [65]) = .ok r₃ ∧
      r₃.master = some ⟨2, [65], true⟩ :=
  ⟨_, _, .step (.step .refl (.dispatch 6 (.join ⟨[65], []⟩) rfl rfl))
    (.dispatch 7 (.join ⟨[65], []⟩) rfl rfl), by decide, by decide, rfl, rfl, rfl⟩

end Game
end WSNet2
