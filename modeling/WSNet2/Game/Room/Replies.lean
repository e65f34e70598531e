import WSNet2.Game.Room.Delivery
import WSNet2.Game.Room.Safety

/-!
# Every request is answered once

The control plane waits for the answer to a request on a channel of the request's own:
`msg.Joined` or `msg.Err` for `MsgCreate`, `MsgJoin` and `MsgWatch`, `msg.Res` for
`MsgGetRoomInfo` and `MsgAdminKick`. A request left unanswered leaves its sender waiting; a
second answer would block the room's goroutine. A client's message has no such channel.

Each handler that completes sends one answer, of the kind its request waits for, and a
client's message or a removal sends none (`Replies`, one lemma per handler). In every running
state of a room created with one player every message is handled, so every request is
answered exactly once (`requests_answered_once`).
-/

namespace WSNet2
namespace Game

open Binary

/-- An answer on a request's channel: `msg.Joined <- ...`, `msg.Err <- ...` or
`msg.Res <- ...`. -/
@[simp] def Out.isReply : Out → Bool
  | .joined _ | .err _ _ | .roomInfoRes _ | .adminKickRes _ => true
  | _ => false

/-- The answers a message waits for: `Joined` or `Err` for a create, a join or a watch, the
`GetRoomInfoRes` for a room-info request, the error or `nil` for an admin kick; none for a
client's message. -/
def Msg.Awaits : Msg → Out → Prop
  | .create _, o | .join _, o | .watch _ _, o => (∃ i, o = .joined i) ∨ ∃ c f, o = .err c f
  | .getRoomInfo, o => ∃ res, o = .roomInfoRes res
  | .adminKick _, o => ∃ e, o = .adminKickRes e
  | _, _ => False

namespace Room

/-- From `r` to `r'` the room only appends effects, `n` of them answers, each one that `P`
allows. -/
def Replies (P : Out → Prop) (n : Nat) (r r' : Room) : Prop :=
  ∃ new, r'.out = r.out ++ new ∧ (new.filter Out.isReply).length = n ∧
    ∀ o ∈ new.filter Out.isReply, P o

variable {r r' r₂ : Room} {P : Out → Prop} {n n' : Nat}

/-! ## Effects one by one -/

@[simp] theorem filter_isReply_sends {β : Type} (l : List β) (f : β → ClientRef)
    (ev : RegularEvent) : (l.map fun b => Out.send (f b) ev).filter Out.isReply = [] :=
  List.filter_eq_nil_iff.2 fun o ho => by
    obtain ⟨b, -, rfl⟩ := List.mem_map.1 ho
    simp

@[simp] theorem filter_isReply_newDeadlines {β : Type} (l : List β) (f : β → ClientRef)
    (n : Nat) : (l.map fun b => Out.newDeadline (f b) n).filter Out.isReply = [] :=
  List.filter_eq_nil_iff.2 fun o ho => by
    obtain ⟨b, -, rfl⟩ := List.mem_map.1 ho
    simp

@[simp] theorem filter_isReply_targets (ts : List ClientID) (g : ClientID → Option Client)
    (ev : RegularEvent) :
    (ts.filterMap fun t => (g t).map fun c => Out.send c.ref ev).filter Out.isReply = [] :=
  List.filter_eq_nil_iff.2 fun o ho => by
    obtain ⟨t, -, ht⟩ := List.mem_filterMap.1 ho
    obtain ⟨c, -, rfl⟩ := Option.map_eq_some'.1 ht
    simp

/-! ## Steps -/

theorem Replies.refl : r.Replies P 0 r := ⟨[], (List.append_nil _).symm, rfl, by simp⟩

/-- The effects a room appends are what its list has beyond the old one. -/
theorem Replies.of_drop (hp : r.out <+: r'.out)
    (hn : ((r'.out.drop r.out.length).filter Out.isReply).length = n)
    (hP : ∀ o ∈ (r'.out.drop r.out.length).filter Out.isReply, P o) : r.Replies P n r' := by
  obtain ⟨new, hnew⟩ := hp
  rw [← hnew, List.drop_left] at hn hP
  exact ⟨new, hnew.symm, hn, hP⟩

theorem Replies.trans (h : r.Replies P n r') (h' : r'.Replies P n' r₂) :
    r.Replies P (n + n') r₂ := by
  obtain ⟨l, hl, hn, hP⟩ := h
  obtain ⟨l', hl', hn', hP'⟩ := h'
  refine ⟨l ++ l', by rw [hl', hl, List.append_assoc], ?_, ?_⟩
  · rw [List.filter_append, List.length_append, hn, hn']
  · intro o ho
    rw [List.filter_append] at ho
    exact (List.mem_append.1 ho).elim (hP o) (hP' o)

/-! ## Removals and client messages answer no one -/

theorem sendTo_replies (c : ClientRef) (ev : RegularEvent) : r.Replies P 0 (r.sendTo c ev) :=
  .of_drop (by simp) (by simp) (by simp)

theorem removePlayer_replies {c : ClientRef} {cause : Bytes}
    (hr : r.removePlayer c cause = .ok r') : r.Replies P 0 r' := by
  rcases removePlayer_spec hr with ⟨-, rfl⟩ | ⟨-, -, -, rfl⟩ | ⟨-, -, m, rfl, -⟩
  · exact .refl
  all_goals exact .of_drop (by simp) (by simp) (by simp)

theorem removeWatcher_replies (c : ClientRef) (cause : Bytes) :
    r.Replies P 0 (r.removeWatcher c cause) := by
  rcases removeWatcher_spec (r := r) c cause with h | ⟨w, -, -, h⟩ <;> rw [h]
  · exact .refl
  · exact .of_drop (by simp) (by simp) (by simp)

theorem removeClient_replies {c : ClientRef} {cause : Bytes}
    (hr : r.removeClient c cause = .ok r') : r.Replies P 0 r' := by
  rcases removeClient_ok hr with ⟨-, hr⟩ | ⟨-, rfl⟩
  · exact removePlayer_replies hr
  · exact removeWatcher_replies c cause

theorem msgPing_replies (c : ClientRef) (t : UInt64) : r.Replies P 0 (r.msgPing c t) := by
  rcases msgPing_spec (r := r) c t with ⟨-, h⟩ | ⟨-, h⟩ <;> rw [h]
  · exact .of_drop (by simp) (by simp) (by simp)
  · exact .refl

theorem msgNodeCount_replies (c : ClientRef) (n : UInt32) :
    r.Replies P 0 (r.msgNodeCount c n) := by
  rcases msgNodeCount_spec (r := r) c n with h | ⟨w, -, -, h⟩ <;> rw [h]
  · exact .refl
  · exact .of_drop (by simp) (by simp) (by simp)

theorem msgRoomProp_replies {c : ClientRef} {msg : RegularMsg} {p : RoomPropPayload}
    (hr : r.msgRoomProp c msg p = .ok r') : r.Replies P 0 r' := by
  rcases msgRoomProp_spec hr with ⟨-, -, rfl⟩ | ⟨-, pub, priv, pubB, privB, i, d, nd, -, hnd, rfl⟩
  · exact sendTo_replies c _
  · rcases hnd with ⟨-, rfl⟩ | ⟨-, rfl⟩ <;> exact .of_drop (by simp) (by simp) (by simp)

theorem msgClientProp_replies (c : ClientRef) (msg : RegularMsg) (props : Dict) :
    r.Replies P 0 (r.msgClientProp c msg props) := by
  rcases msgClientProp_spec (r := r) c msg props with
    ⟨-, h⟩ | ⟨-, -, h⟩ | ⟨-, cl, ps, -, -, -, h⟩ <;> rw [h]
  · exact sendTo_replies c _
  · exact .refl
  · exact .of_drop (by simp) (by simp) (by simp)

theorem msgTargets_replies (c : ClientRef) (msg : RegularMsg) (ts : List ClientID) (d : Bytes) :
    r.Replies P 0 (r.msgTargets c msg ts d) := by
  rcases msgTargets_spec (r := r) c msg ts d with ⟨-, h⟩ | ⟨-, h⟩ <;> rw [h]
  · exact .refl
  · split <;> exact .of_drop (by simp) (by simp) (by simp)

theorem msgToMaster_replies {c : ClientRef} {d : Bytes} (hr : r.msgToMaster c d = .ok r') :
    r.Replies P 0 r' := by
  rcases msgToMaster_spec hr with ⟨-, rfl⟩ | ⟨-, m, -, rfl⟩
  · exact .refl
  · exact sendTo_replies m _

theorem msgBroadcast_replies (c : ClientRef) (d : Bytes) :
    r.Replies P 0 (r.msgBroadcast c d) := by
  rcases msgBroadcast_spec (r := r) c d with ⟨-, h⟩ | ⟨-, h⟩ <;> rw [h]
  · exact .of_drop (by simp) (by simp) (by simp)
  · exact .refl

theorem switchMasterTo_replies (c : ClientRef) (msg : RegularMsg) (t : ClientID) :
    r.Replies P 0 (r.switchMasterTo c msg t) := by
  rcases switchMasterTo_spec (r := r) c msg t with ⟨-, h⟩ | ⟨tc, -, h⟩ <;> rw [h] <;>
    exact .of_drop (by simp) (by simp) (by simp)

theorem msgSwitchMaster_replies {c : ClientRef} {msg : RegularMsg} {t : ClientID}
    (hr : r.msgSwitchMaster c msg t = .ok r') : r.Replies P 0 r' := by
  rcases msgSwitchMaster_spec hr with ⟨-, -, rfl⟩ | ⟨-, rfl⟩
  · exact (sendTo_replies c _).trans (switchMasterTo_replies c msg t)
  · exact switchMasterTo_replies c msg t

theorem msgKick_replies {c : ClientRef} {msg : RegularMsg} {t : ClientID} {m : Bytes}
    (hr : r.msgKick c msg t m = .ok r') : r.Replies P 0 r' := by
  rcases msgKick_spec hr with ⟨-, -, rfl⟩ | ⟨-, -, rfl⟩ | ⟨-, tc, -, hr⟩
  iterate 2 exact sendTo_replies c _
  exact (sendTo_replies c _).trans (removeClient_replies hr)

/-! ## Requests are answered once -/

theorem emit_replies (o : Out) (ho : o.isReply = true) (hP : P o) :
    r.Replies P 1 (r.emit o) := by
  have hf : [o].filter Out.isReply = [o] := by rw [List.filter_cons_of_pos ho, List.filter_nil]
  exact ⟨[o], rfl, by rw [hf]; rfl, by rw [hf]; simpa using hP⟩

theorem msgCreate_replies (info : Pb.ClientInfo) (now : UInt64) :
    r.Replies (Msg.create info).Awaits 1 (r.msgCreate info now) := by
  rcases msgCreate_spec (r := r) info now with ⟨_, -, h⟩ | ⟨c, -, h⟩ <;> rw [h]
  · exact emit_replies _ rfl (.inr ⟨_, _, rfl⟩)
  · exact .of_drop (by simp) (by simp [-AList.insert_entries]) (by simp [Msg.Awaits])

theorem msgJoin_replies {info : Pb.ClientInfo} {now : UInt64} (hr : r.msgJoin info now = .ok r') :
    r.Replies (Msg.join info).Awaits 1 r' := by
  rcases msgJoin_spec hr with ⟨_, _, rfl⟩ | ⟨-, -, client, -, hj⟩
  · exact emit_replies _ rfl (.inr ⟨_, _, rfl⟩)
  · obtain ⟨m, ⟨old, -, -, rfl⟩ | ⟨-, -, rfl⟩⟩ := joinPlayer_spec hj <;>
      exact .of_drop (by simp) (by simp [-AList.insert_entries]) (by simp [Msg.Awaits])

theorem msgWatch_replies {info : Pb.ClientInfo} {n : UInt32} (hr : r.msgWatch info n = .ok r') :
    r.Replies (Msg.watch info n).Awaits 1 r' := by
  rcases msgWatch_spec hr with ⟨_, _, rfl⟩ | ⟨-, client, -, hw⟩
  · exact emit_replies _ rfl (.inr ⟨_, _, rfl⟩)
  · obtain ⟨m, -, ⟨-, rfl⟩ | ⟨old, -, rfl⟩⟩ := watchWatcher_spec hw <;>
      exact .of_drop (by simp) (by simp) (by simp [Msg.Awaits])

theorem msgGetRoomInfo_replies {ri : Pb.RoomInfo} (hr : r.msgGetRoomInfo ri = .ok r') :
    r.Replies Msg.getRoomInfo.Awaits 1 r' := by
  obtain ⟨cis, lmt, m, -, rfl⟩ := msgGetRoomInfo_spec hr
  exact emit_replies _ rfl ⟨_, rfl⟩

theorem msgAdminKick_replies {t : ClientID} (hr : r.msgAdminKick t = .ok r') :
    r.Replies (Msg.adminKick t).Awaits 1 r' := by
  rcases msgAdminKick_spec hr with ⟨-, rfl⟩ | ⟨tc, r₁, -, h₁, rfl⟩
  · exact emit_replies _ rfl ⟨_, rfl⟩
  · exact (removeClient_replies h₁).trans (emit_replies (.adminKickRes none) rfl ⟨_, rfl⟩)

/-! ## The loop -/

/-- A handler that completes answers its message once if the message is a request, and not
at all otherwise. -/
theorem dispatch_replies {now : UInt64} {m : Msg} (hr : r.dispatch now m = .ok r') :
    r.Replies m.Awaits (if m.sender = none then 1 else 0) r' := by
  cases m with
  | create info => cases hr; exact msgCreate_replies info now
  | join info => exact msgJoin_replies hr
  | watch info n => exact msgWatch_replies hr
  | getRoomInfo => exact msgGetRoomInfo_replies hr
  | adminKick t => exact msgAdminKick_replies hr
  | ping c t => cases hr; exact msgPing_replies c t
  | nodeCount c n => cases hr; exact msgNodeCount_replies c n
  | leave c msg => exact removeClient_replies hr
  | roomProp c msg p => exact msgRoomProp_replies hr
  | clientProp c msg p => cases hr; exact msgClientProp_replies c msg p
  | targets c msg ts d => cases hr; exact msgTargets_replies c msg ts d
  | toMaster c d => exact msgToMaster_replies hr
  | broadcast c d => cases hr; exact msgBroadcast_replies c d
  | switchMaster c msg t => exact msgSwitchMaster_replies hr
  | kick c msg t b => exact msgKick_replies hr
  | clientError c e => exact removeClient_replies hr
  | clientTimeout c => exact removeClient_replies hr

theorem loopStep_replies {now : UInt64} {m : Msg} (hr : r.loopStep now m = .ok r') :
    r.Replies m.Awaits (if m.sender = none then 1 else 0) r' := by
  obtain ⟨new, hn, h⟩ := dispatch_replies hr
  exact ⟨new, by rw [hn, updateLastMsg_out], h⟩

end Room

/-- In every state a room created with `RoomInfo.Players = 1` reaches while `done` is open,
the loop handles every message other than `MsgCreate`: a request gets exactly one answer, of
the kind it waits for, and a client's message none; a removal answers no one. -/
theorem requests_answered_once {r₀ r : Room} {st : ClientID → Nat} {k : Nat}
    (h₀ : Created r₀) (hp : r₀.info.players = 1) (hrun : Run r₀ r st k)
    (hd : r.done = false) :
    (∀ now m, m.isCreate = false → ∃ r', r.loopStep now m = .ok r' ∧ ∃ new,
      r'.out = r.out ++ new ∧
      (new.filter Out.isReply).length = (if m.sender = none then 1 else 0) ∧
      ∀ o ∈ new.filter Out.isReply, m.Awaits o) ∧
    ∀ c cause, ∃ r', r.removeClient c cause = .ok r' ∧ ∃ new, r'.out = r.out ++ new ∧
      new.filter Out.isReply = [] := by
  have h := (Room.MemberInv.of_created h₀ hp).of_run hrun hd
  refine ⟨fun now m hm => ?_, fun c cause => ?_⟩
  · obtain ⟨r', hr⟩ := h.exists_loopStep_ok hd now hm
    exact ⟨r', hr, Room.loopStep_replies hr⟩
  · obtain ⟨r', hr⟩ := h.exists_removeClient_ok hd c cause
    obtain ⟨new, hn, hl, -⟩ := Room.removeClient_replies (P := fun _ => True) hr
    exact ⟨r', hr, new, hn, List.length_eq_zero.1 hl⟩

/-- `A` joins the room `M` created: in the room of two players, every message and any
removal. -/
theorem requests_answered_once_joined :
    ∃ r st k, Run createdRoom r st k ∧ r.players.entries.length = 2 ∧
      (∀ now m, m.isCreate = false → ∃ r', r.loopStep now m = .ok r' ∧ ∃ new,
        r'.out = r.out ++ new ∧
        (new.filter Out.isReply).length = (if m.sender = none then 1 else 0) ∧
        ∀ o ∈ new.filter Out.isReply, m.Awaits o) ∧
      ∀ c cause, ∃ r', r.removeClient c cause = .ok r' ∧
        ∃ new, r'.out = r.out ++ new ∧ new.filter Out.isReply = [] :=
  have h := (@Run.start createdRoom).step rfl (.dispatch 6 (.join ⟨[65], []⟩) rfl rfl)
  ⟨_, _, _, h, rfl, requests_answered_once createdRoom_created rfl h rfl⟩

end Game
end WSNet2
