import WSNet2.Game.Room.Membership

/-!
# What the room last told: the publisher's `RoomInfo` and each player's deadline

A room tells two parties about its state through effects. `updateRoomInfo` hands the
publisher a snapshot of `RoomInfo`; the updater writes the latest one it has to the
database (`room_info_publisher`). A player learns the client deadline from the
`JoinedInfo` of its join and from `newDeadline` when the master's `MsgRoomProp` changes it.

Both are kept current along every run, before and after `done` closes: each handler that
changes `RoomInfo` ends with `updateRoomInfo`, so the last snapshot is the room's
`RoomInfo` (`room_info_synced`); and the deadline changes only with a `newDeadline` to
every player, while every join is answered with the current one, so each player's last
notice carries the room's deadline (`players_know_deadline`). Each is an observer of the
effect list, a fold that keeps the last value it sees, and one lemma per handler.
-/

namespace WSNet2
namespace Game

open Binary

/-! ## Observers of the effects -/

/-- The snapshot `o` hands to the publisher, if any. -/
def Out.snapshot : Out → Option Pb.RoomInfo
  | .updateRoomInfo s => some s
  | _ => none

/-- The last snapshot in `l`, or `d` when there is none. -/
def lastSnapshot (d : Pb.RoomInfo) (l : List Out) : Pb.RoomInfo :=
  l.foldl (fun s o => (o.snapshot).getD s) d

@[simp] theorem lastSnapshot_nil (d : Pb.RoomInfo) : lastSnapshot d [] = d := rfl

@[simp] theorem lastSnapshot_append (d : Pb.RoomInfo) (l l' : List Out) :
    lastSnapshot d (l ++ l') = lastSnapshot (lastSnapshot d l) l' := List.foldl_append ..

@[simp] theorem lastSnapshot_cons (d : Pb.RoomInfo) (o : Out) (l : List Out) :
    lastSnapshot d (o :: l) = lastSnapshot ((o.snapshot).getD d) l := rfl

/-- Effects that are not snapshots leave the last one. -/
theorem lastSnapshot_of_forall {d : Pb.RoomInfo} :
    ∀ {l : List Out}, (∀ o ∈ l, o.snapshot = none) → lastSnapshot d l = d
  | [], _ => rfl
  | o :: l, h => by
    rw [lastSnapshot_cons, h o (List.mem_cons_self o l), Option.getD_none]
    exact lastSnapshot_of_forall fun o' ho' => h o' (List.mem_cons_of_mem o ho')

@[simp] theorem lastSnapshot_map {β : Type} (d : Pb.RoomInfo) (l : List β) (f : β → Out)
    (hf : ∀ b, (f b).snapshot = none) : lastSnapshot d (l.map f) = d :=
  lastSnapshot_of_forall fun o ho => by
    obtain ⟨b, -, rfl⟩ := List.mem_map.1 ho
    exact hf b

/-- The client deadline `o` tells `c`, if any: `c.newDeadline <- seconds`, or the deadline
of the `JoinedInfo` `c` receives. -/
def Out.deadlineFor (c : ClientRef) : Out → Option Nat
  | .newDeadline c' s => if c' = c then some s else none
  | .joined i => if i.client = c then some i.deadline else none
  | _ => none

/-- The deadline `c` was told last in `l`, after `t`. -/
def toldDeadline (c : ClientRef) (t : Option Nat) (l : List Out) : Option Nat :=
  l.foldl (fun t o => (o.deadlineFor c).or t) t

@[simp] theorem toldDeadline_nil (c : ClientRef) (t : Option Nat) : toldDeadline c t [] = t := rfl

@[simp] theorem toldDeadline_append (c : ClientRef) (t : Option Nat) (l l' : List Out) :
    toldDeadline c t (l ++ l') = toldDeadline c (toldDeadline c t l) l' := List.foldl_append ..

@[simp] theorem toldDeadline_cons (c : ClientRef) (t : Option Nat) (o : Out) (l : List Out) :
    toldDeadline c t (o :: l) = toldDeadline c ((o.deadlineFor c).or t) l := rfl

/-- Effects that tell `c` no deadline leave what it was told. -/
theorem toldDeadline_of_forall {c : ClientRef} :
    ∀ {t : Option Nat} {l : List Out}, (∀ o ∈ l, o.deadlineFor c = none) →
      toldDeadline c t l = t
  | _, [], _ => rfl
  | t, o :: l, h => by
    rw [toldDeadline_cons, h o (List.mem_cons_self o l), Option.none_or]
    exact toldDeadline_of_forall fun o' ho' => h o' (List.mem_cons_of_mem o ho')

@[simp] theorem toldDeadline_map {β : Type} (c : ClientRef) (t : Option Nat) (l : List β)
    (f : β → Out) (hf : ∀ b, (f b).deadlineFor c = none) : toldDeadline c t (l.map f) = t :=
  toldDeadline_of_forall fun o ho => by
    obtain ⟨b, -, rfl⟩ := List.mem_map.1 ho
    exact hf b

/-- What `msgTargets` sends are messages. -/
theorem mem_filterMap_send {ts : List ClientID} {s : Clients} {ev : RegularEvent} {o : Out}
    (h : o ∈ ts.filterMap fun t => (s.lookup t).map fun c => Out.send c.ref ev) :
    ∃ c, o = .send c ev := by
  obtain ⟨t, -, ht⟩ := List.mem_filterMap.1 h
  obtain ⟨c, -, rfl⟩ := Option.map_eq_some'.1 ht
  exact ⟨c.ref, rfl⟩

/-- `newDeadline` to every element of `l`: whoever is among them is told `D` last. -/
theorem toldDeadline_newDeadlines {β : Type} (c : ClientRef) (t : Option Nat) (l : List β)
    (f : β → ClientRef) (D : Nat) :
    toldDeadline c t (l.map fun b => .newDeadline (f b) D) =
      if ∃ b ∈ l, f b = c then some D else t := by
  induction l generalizing t with
  | nil => simp
  | cons b l ih =>
    rw [List.map_cons, toldDeadline_cons, ih]
    by_cases hb : f b = c <;> simp [Out.deadlineFor, hb]

/-- A tell of the deadline already told changes nothing. -/
@[simp] theorem ite_some_or_some {p : Prop} [Decidable p] (a : Nat) :
    (if p then some a else none).or (some a) = some a := by
  split <;> rfl

/-! ## The publisher's `RoomInfo` -/

namespace Room

/-- The publisher's view is current: the last snapshot handed over, or `d` before the
first, is the room's `RoomInfo`. -/
def Synced (d : Pb.RoomInfo) (r : Room) : Prop := lastSnapshot d r.out = r.info

variable {d : Pb.RoomInfo} {r r' : Room}

theorem Synced.emit (h : r.Synced d) {o : Out} (ho : o.snapshot = none) :
    (r.emit o).Synced d := by
  simpa [Synced, ho] using h

theorem Synced.sendTo (h : r.Synced d) (c : ClientRef) (ev : RegularEvent) :
    (r.sendTo c ev).Synced d :=
  h.emit rfl

theorem Synced.of_msgJoin (h : r.Synced d) {info : Pb.ClientInfo} {now : UInt64}
    (hr : r.msgJoin info now = .ok r') : r'.Synced d := by
  rcases msgJoin_spec hr with ⟨_, _, rfl⟩ | ⟨-, -, client, -, hj⟩
  · exact h.emit rfl
  · unfold Synced at *
    obtain ⟨m, ⟨old, -, -, rfl⟩ | ⟨-, -, rfl⟩⟩ := joinPlayer_spec hj <;> simp [h, Out.snapshot]

theorem Synced.of_msgWatch (h : r.Synced d) {info : Pb.ClientInfo} {n : UInt32}
    (hr : r.msgWatch info n = .ok r') : r'.Synced d := by
  rcases msgWatch_spec hr with ⟨_, _, rfl⟩ | ⟨-, client, -, hw⟩
  · exact h.emit rfl
  · obtain ⟨m, -, ⟨-, rfl⟩ | ⟨old, -, rfl⟩⟩ := watchWatcher_spec hw <;>
      simp [Synced, Out.snapshot]

theorem Synced.of_msgGetRoomInfo (h : r.Synced d) {ri : Pb.RoomInfo}
    (hr : r.msgGetRoomInfo ri = .ok r') : r'.Synced d := by
  obtain ⟨cis, lmt, m, -, rfl⟩ := msgGetRoomInfo_spec hr
  exact h.emit rfl

theorem Synced.of_removePlayer (h : r.Synced d) {c : ClientRef} {cause : Bytes}
    (hr : r.removePlayer c cause = .ok r') : r'.Synced d := by
  rcases removePlayer_spec hr with ⟨-, rfl⟩ | ⟨-, -, -, rfl⟩ | ⟨-, -, m, rfl, -⟩
  · exact h
  · simpa [Synced, Out.snapshot] using h
  · simp [Synced, Out.snapshot]

theorem Synced.of_removeWatcher (h : r.Synced d) (c : ClientRef) (cause : Bytes) :
    (r.removeWatcher c cause).Synced d := by
  rcases removeWatcher_spec (r := r) c cause with hw | ⟨w, -, -, hw⟩ <;> rw [hw]
  · exact h
  · simp [Synced, Out.snapshot]

theorem Synced.of_removeClient (h : r.Synced d) {c : ClientRef} {cause : Bytes}
    (hr : r.removeClient c cause = .ok r') : r'.Synced d := by
  rcases removeClient_ok hr with ⟨-, hr⟩ | ⟨-, rfl⟩
  · exact h.of_removePlayer hr
  · exact h.of_removeWatcher c cause

theorem Synced.of_msgRoomProp (h : r.Synced d) {c : ClientRef} {msg : RegularMsg}
    {p : RoomPropPayload} (hr : r.msgRoomProp c msg p = .ok r') : r'.Synced d := by
  rcases msgRoomProp_spec hr with ⟨-, -, rfl⟩ | ⟨-, pub, priv, pubB, privB, i, dl, nd, -, hnd, rfl⟩
  · exact h.sendTo c _
  · rcases hnd with ⟨-, rfl⟩ | ⟨-, rfl⟩ <;> simp [Synced, Out.snapshot]

theorem Synced.of_msgCreate (h : r.Synced d) (info : Pb.ClientInfo) (now : UInt64) :
    (r.msgCreate info now).Synced d := by
  rcases msgCreate_spec (r := r) info now with ⟨_, -, hc⟩ | ⟨c, -, hc⟩ <;> rw [hc]
  · exact h.emit rfl
  · simpa [Synced, Out.snapshot] using h

theorem Synced.of_msgAdminKick (h : r.Synced d) {t : ClientID}
    (hr : r.msgAdminKick t = .ok r') : r'.Synced d := by
  rcases msgAdminKick_spec hr with ⟨-, rfl⟩ | ⟨tc, r₁, -, h₁, rfl⟩
  · exact h.emit rfl
  · exact (h.of_removeClient h₁).emit rfl

theorem Synced.of_msgPing (h : r.Synced d) (c : ClientRef) (t : UInt64) :
    (r.msgPing c t).Synced d := by
  rcases msgPing_spec (r := r) c t with ⟨-, hp⟩ | ⟨-, hp⟩ <;> rw [hp]
  · exact h.emit rfl
  · exact h

theorem Synced.of_msgNodeCount (h : r.Synced d) (c : ClientRef) (n : UInt32) :
    (r.msgNodeCount c n).Synced d := by
  rcases msgNodeCount_spec (r := r) c n with hn | ⟨w, -, -, hn⟩ <;> rw [hn]
  · exact h
  · simp [Synced, Out.snapshot]

theorem Synced.of_msgClientProp (h : r.Synced d) (c : ClientRef) (msg : RegularMsg)
    (props : Dict) : (r.msgClientProp c msg props).Synced d := by
  rcases msgClientProp_spec (r := r) c msg props with
    ⟨-, hc⟩ | ⟨-, -, hc⟩ | ⟨-, cl, ps, -, -, -, hc⟩ <;> rw [hc]
  · exact h.sendTo c _
  · exact h
  · simpa [Synced, Out.snapshot] using h

theorem Synced.of_msgTargets (h : r.Synced d) (c : ClientRef) (msg : RegularMsg)
    (ts : List ClientID) (data : Bytes) : (r.msgTargets c msg ts data).Synced d := by
  have hs : ∀ o ∈ ts.filterMap (fun t => (r.players.lookup t).map fun c' =>
      Out.send c'.ref (newEvMessage c.id data)), o.snapshot = none := fun o ho => by
    obtain ⟨_, rfl⟩ := mem_filterMap_send ho; rfl
  rcases msgTargets_spec (r := r) c msg ts data with ⟨-, ht⟩ | ⟨-, ht⟩ <;> rw [ht]
  · exact h
  · unfold Synced at *
    split_ifs <;> simp [h, Out.snapshot, lastSnapshot_of_forall hs]

theorem Synced.of_msgToMaster (h : r.Synced d) {c : ClientRef} {data : Bytes}
    (hr : r.msgToMaster c data = .ok r') : r'.Synced d := by
  rcases msgToMaster_spec hr with ⟨-, rfl⟩ | ⟨-, m, -, rfl⟩
  · exact h
  · exact h.sendTo m _

theorem Synced.of_msgBroadcast (h : r.Synced d) (c : ClientRef) (data : Bytes) :
    (r.msgBroadcast c data).Synced d := by
  rcases msgBroadcast_spec (r := r) c data with ⟨-, hb⟩ | ⟨-, hb⟩ <;> rw [hb]
  · simpa [Synced, Out.snapshot] using h
  · exact h

theorem Synced.of_switchMasterTo (h : r.Synced d) (c : ClientRef) (msg : RegularMsg)
    (t : ClientID) : (r.switchMasterTo c msg t).Synced d := by
  rcases switchMasterTo_spec (r := r) c msg t with ⟨-, hs⟩ | ⟨tc, -, hs⟩ <;> rw [hs]
  · exact h.sendTo c _
  · simpa [Synced, Out.snapshot] using h

theorem Synced.of_msgSwitchMaster (h : r.Synced d) {c : ClientRef} {msg : RegularMsg}
    {t : ClientID} (hr : r.msgSwitchMaster c msg t = .ok r') : r'.Synced d := by
  rcases msgSwitchMaster_spec hr with ⟨-, -, rfl⟩ | ⟨-, rfl⟩
  · exact (h.sendTo c _).of_switchMasterTo c msg t
  · exact h.of_switchMasterTo c msg t

theorem Synced.of_msgKick (h : r.Synced d) {c : ClientRef} {msg : RegularMsg} {t : ClientID}
    {b : Bytes} (hr : r.msgKick c msg t b = .ok r') : r'.Synced d := by
  rcases msgKick_spec hr with ⟨-, -, rfl⟩ | ⟨-, -, rfl⟩ | ⟨-, tc, -, hr⟩
  iterate 2 exact h.sendTo c _
  exact (h.sendTo c _).of_removeClient hr

/-- Every handler hands over the `RoomInfo` it leaves, if it changed it. -/
theorem Synced.of_dispatch (h : r.Synced d) {now : UInt64} {m : Msg}
    (hr : r.dispatch now m = .ok r') : r'.Synced d := by
  cases m with
  | create info => cases hr; exact h.of_msgCreate info now
  | join info => exact h.of_msgJoin hr
  | watch info n => exact h.of_msgWatch hr
  | getRoomInfo => exact h.of_msgGetRoomInfo hr
  | adminKick t => exact h.of_msgAdminKick hr
  | ping c t => cases hr; exact h.of_msgPing c t
  | nodeCount c n => cases hr; exact h.of_msgNodeCount c n
  | leave c msg => exact h.of_removeClient hr
  | roomProp c msg p => exact h.of_msgRoomProp hr
  | clientProp c msg p => cases hr; exact h.of_msgClientProp c msg p
  | targets c msg ts data => cases hr; exact h.of_msgTargets c msg ts data
  | toMaster c data => exact h.of_msgToMaster hr
  | broadcast c data => cases hr; exact h.of_msgBroadcast c data
  | switchMaster c msg t => exact h.of_msgSwitchMaster hr
  | kick c msg t b => exact h.of_msgKick hr
  | clientError c e => exact h.of_removeClient hr
  | clientTimeout c => exact h.of_removeClient hr

theorem Synced.of_step (h : r.Synced d) (hs : Step r r') : r'.Synced d := by
  cases hs with
  | dispatch now m _ hr =>
    have hu : (r.updateLastMsg m.senderID now).Synced d := by
      rcases updateLastMsg_cases (r := r) m.senderID now with hl | hl <;> rw [hl] <;> exact h
    exact hu.of_dispatch hr
  | remove c cause hr => exact h.of_removeClient hr

theorem msgCreate_info (info : Pb.ClientInfo) (now : UInt64) :
    (r.msgCreate info now).info = r.info := by
  rcases msgCreate_spec (r := r) info now with ⟨_, -, h⟩ | ⟨c, -, h⟩ <;> rw [h]
  rfl

/-- The room `MsgCreate` leaves has handed over no snapshot: the publisher's is the one
`NewRoom` started it with. -/
theorem Synced.of_created (h : Created r) : r.Synced r.info := by
  obtain ⟨master, now, hN, -⟩ := h
  rename_i rN
  have h0 : rN.Synced rN.info := by
    unfold newRoom at hN
    split at hN
    · cases hN; rfl
    · cases hN
  rw [msgCreate_info]
  exact h0.of_msgCreate master now

end Room

/-- In every state a room reaches, before or after `done` closes, the last snapshot of
`RoomInfo` it handed to the publisher, or the `RoomInfo` `NewRoom` started the publisher
with when there is none, is the room's `RoomInfo`: no change of `RoomInfo` is left
unpublished. -/
theorem room_info_synced {r₀ r : Room} (h₀ : Created r₀) (hr : Reachable r₀ r) :
    lastSnapshot r₀.info r.out = r.info := by
  show r.Synced r₀.info
  induction hr with
  | refl => exact Room.Synced.of_created h₀
  | step _ hs ih => exact ih.of_step hs

/-- `A` joins the room `M` created: the snapshot last handed over counts two players. -/
theorem room_info_synced_joined :
    ∃ r, Reachable createdRoom r ∧ r.info.players = 2 ∧
      lastSnapshot createdRoom.info r.out = r.info :=
  have h := (@Reachable.refl createdRoom).step (.dispatch 6 (.join ⟨[65], []⟩) rfl rfl)
  ⟨_, h, rfl, room_info_synced createdRoom_created h⟩

/-! ## The players' deadline -/

namespace Room

/-- Every player was last told the room's deadline. -/
def DeadlineKnown (r : Room) : Prop :=
  ∀ id c, r.players.lookup id = some c → toldDeadline c.ref none r.out = some r.deadline

variable {r r' : Room}

theorem lookup_insert_eq_some {s : Clients} {a id : ClientID} {b c : Client}
    (h : (s.insert a b).lookup id = some c) :
    (id = a ∧ c = b) ∨ (id ≠ a ∧ s.lookup id = some c) := by
  by_cases hid : id = a
  · subst hid; rw [AList.lookup_insert, Option.some_inj] at h; exact .inl ⟨rfl, h.symm⟩
  · rw [AList.lookup_insert_ne hid] at h; exact .inr ⟨hid, h⟩

theorem DeadlineKnown.emit (h : r.DeadlineKnown) {o : Out} (ho : ∀ c, o.deadlineFor c = none) :
    (r.emit o).DeadlineKnown := by
  simpa [DeadlineKnown, ho] using h

theorem DeadlineKnown.sendTo (h : r.DeadlineKnown) (c : ClientRef) (ev : RegularEvent) :
    (r.sendTo c ev).DeadlineKnown :=
  h.emit fun _ => rfl

theorem DeadlineKnown.of_joinPlayer (h : r.DeadlineKnown) {oldp : Option Client} {client : Client}
    {now : UInt64} (hr : r.joinPlayer oldp client now = .ok r') : r'.DeadlineKnown := by
  intro id c hc
  obtain ⟨m, ⟨old, -, -, rfl⟩ | ⟨-, -, rfl⟩⟩ := joinPlayer_spec hr <;>
    (rcases lookup_insert_eq_some hc with ⟨rfl, rfl⟩ | ⟨-, hc⟩ <;>
      [simp [Out.deadlineFor]; simp [Out.deadlineFor, h _ _ hc]])

theorem DeadlineKnown.of_msgJoin (h : r.DeadlineKnown) {info : Pb.ClientInfo} {now : UInt64}
    (hr : r.msgJoin info now = .ok r') : r'.DeadlineKnown := by
  rcases msgJoin_spec hr with ⟨_, _, rfl⟩ | ⟨-, -, client, -, hj⟩
  · exact h.emit fun _ => rfl
  · exact h.of_joinPlayer hj

theorem DeadlineKnown.of_msgWatch (h : r.DeadlineKnown) {info : Pb.ClientInfo} {n : UInt32}
    (hr : r.msgWatch info n = .ok r') : r'.DeadlineKnown := by
  rcases msgWatch_spec hr with ⟨_, _, rfl⟩ | ⟨-, client, -, hw⟩
  · exact h.emit fun _ => rfl
  · intro id c hc
    obtain ⟨m, -, ⟨-, rfl⟩ | ⟨old, -, rfl⟩⟩ := watchWatcher_spec hw <;>
      simp [Out.deadlineFor, h _ _ hc]

theorem DeadlineKnown.of_msgGetRoomInfo (h : r.DeadlineKnown) {ri : Pb.RoomInfo}
    (hr : r.msgGetRoomInfo ri = .ok r') : r'.DeadlineKnown := by
  obtain ⟨cis, lmt, m, -, rfl⟩ := msgGetRoomInfo_spec hr
  exact h.emit fun _ => rfl

theorem DeadlineKnown.of_removePlayer (h : r.DeadlineKnown) {c : ClientRef} {cause : Bytes}
    (hr : r.removePlayer c cause = .ok r') : r'.DeadlineKnown := by
  rcases removePlayer_spec hr with ⟨-, rfl⟩ | ⟨-, -, -, rfl⟩ | ⟨-, -, m, rfl, -⟩
  · exact h
  all_goals intro id c' hc; simp [Out.deadlineFor, h _ _ (lookup_of_lookup_erase hc).1]

theorem DeadlineKnown.of_removeWatcher (h : r.DeadlineKnown) (c : ClientRef) (cause : Bytes) :
    (r.removeWatcher c cause).DeadlineKnown := by
  rcases removeWatcher_spec (r := r) c cause with hw | ⟨w, -, -, hw⟩ <;> rw [hw]
  · exact h
  · intro id c' hc
    simp [Out.deadlineFor, h _ _ hc]

theorem DeadlineKnown.of_removeClient (h : r.DeadlineKnown) {c : ClientRef} {cause : Bytes}
    (hr : r.removeClient c cause = .ok r') : r'.DeadlineKnown := by
  rcases removeClient_ok hr with ⟨-, hr⟩ | ⟨-, rfl⟩
  · exact h.of_removePlayer hr
  · exact h.of_removeWatcher c cause

/-- The master's `MsgRoomProp`: a new deadline goes to every player. -/
theorem DeadlineKnown.of_msgRoomProp (h : r.DeadlineKnown) {c : ClientRef} {msg : RegularMsg}
    {p : RoomPropPayload} (hr : r.msgRoomProp c msg p = .ok r') : r'.DeadlineKnown := by
  rcases msgRoomProp_spec hr with ⟨-, -, rfl⟩ | ⟨-, pub, priv, pubB, privB, i, dl, nd, -, hnd, rfl⟩
  · exact h.sendTo c _
  · intro id c' hc
    rcases hnd with ⟨rfl, rfl⟩ | ⟨rfl, rfl⟩
    · simp [Out.deadlineFor, h _ _ hc]
    · have hmem : ∃ e ∈ r.players.entries, e.2.ref = c'.ref :=
        ⟨⟨id, c'⟩, AList.mem_lookup_iff.1 hc, rfl⟩
      simp [Out.deadlineFor, toldDeadline_newDeadlines, hmem]

theorem DeadlineKnown.of_msgCreate (h : r.DeadlineKnown) (info : Pb.ClientInfo) (now : UInt64) :
    (r.msgCreate info now).DeadlineKnown := by
  rcases msgCreate_spec (r := r) info now with ⟨_, -, hc⟩ | ⟨c, -, hc⟩ <;> rw [hc]
  · exact h.emit fun _ => rfl
  · intro id c' hc'
    rcases lookup_insert_eq_some hc' with ⟨rfl, rfl⟩ | ⟨-, hc'⟩ <;>
      [simp [Out.deadlineFor]; simp [Out.deadlineFor, h _ _ hc']]

theorem DeadlineKnown.of_msgAdminKick (h : r.DeadlineKnown) {t : ClientID}
    (hr : r.msgAdminKick t = .ok r') : r'.DeadlineKnown := by
  rcases msgAdminKick_spec hr with ⟨-, rfl⟩ | ⟨tc, r₁, -, h₁, rfl⟩
  · exact h.emit fun _ => rfl
  · exact (h.of_removeClient h₁).emit fun _ => rfl

theorem DeadlineKnown.of_msgPing (h : r.DeadlineKnown) (c : ClientRef) (t : UInt64) :
    (r.msgPing c t).DeadlineKnown := by
  rcases msgPing_spec (r := r) c t with ⟨-, hp⟩ | ⟨-, hp⟩ <;> rw [hp]
  · exact h.emit fun _ => rfl
  · exact h

theorem DeadlineKnown.of_msgNodeCount (h : r.DeadlineKnown) (c : ClientRef) (n : UInt32) :
    (r.msgNodeCount c n).DeadlineKnown := by
  rcases msgNodeCount_spec (r := r) c n with hn | ⟨w, -, -, hn⟩ <;> rw [hn]
  · exact h
  · simpa [DeadlineKnown, Out.deadlineFor] using h

/-- `MsgClientProp` replaces the sender's client object by one with the same pointer. -/
theorem DeadlineKnown.of_msgClientProp (h : r.DeadlineKnown) (c : ClientRef) (msg : RegularMsg)
    (props : Dict) : (r.msgClientProp c msg props).DeadlineKnown := by
  rcases msgClientProp_spec (r := r) c msg props with
    ⟨-, hc⟩ | ⟨-, -, hc⟩ | ⟨-, cl, ps, hcl, -, hps, hc⟩ <;> rw [hc]
  · exact h.sendTo c _
  · exact h
  · intro id c' hc'
    rcases hps with rfl | ⟨np, rfl⟩
    · simp [Out.deadlineFor, h _ _ hc']
    · rcases lookup_insert_eq_some hc' with ⟨rfl, rfl⟩ | ⟨-, hc'⟩ <;>
        [simp [Out.deadlineFor, h _ _ hcl]; simp [Out.deadlineFor, h _ _ hc']]

theorem DeadlineKnown.of_msgTargets (h : r.DeadlineKnown) (c : ClientRef) (msg : RegularMsg)
    (ts : List ClientID) (data : Bytes) : (r.msgTargets c msg ts data).DeadlineKnown := by
  have hs : ∀ (c' : ClientRef) t, toldDeadline c' t
      (ts.filterMap fun t => (r.players.lookup t).map fun c'' =>
        Out.send c''.ref (newEvMessage c.id data)) = t :=
    fun _ _ => toldDeadline_of_forall fun o ho => by
      obtain ⟨_, rfl⟩ := mem_filterMap_send ho; rfl
  rcases msgTargets_spec (r := r) c msg ts data with ⟨-, ht⟩ | ⟨-, ht⟩ <;> rw [ht]
  · exact h
  · intro id c' hc
    split_ifs <;> simp [Out.deadlineFor, hs, h _ _ hc]

theorem DeadlineKnown.of_msgToMaster (h : r.DeadlineKnown) {c : ClientRef} {data : Bytes}
    (hr : r.msgToMaster c data = .ok r') : r'.DeadlineKnown := by
  rcases msgToMaster_spec hr with ⟨-, rfl⟩ | ⟨-, m, -, rfl⟩
  · exact h
  · exact h.sendTo m _

theorem DeadlineKnown.of_msgBroadcast (h : r.DeadlineKnown) (c : ClientRef) (data : Bytes) :
    (r.msgBroadcast c data).DeadlineKnown := by
  rcases msgBroadcast_spec (r := r) c data with ⟨-, hb⟩ | ⟨-, hb⟩ <;> rw [hb]
  · simpa [DeadlineKnown, Out.deadlineFor] using h
  · exact h

theorem DeadlineKnown.of_switchMasterTo (h : r.DeadlineKnown) (c : ClientRef) (msg : RegularMsg)
    (t : ClientID) : (r.switchMasterTo c msg t).DeadlineKnown := by
  rcases switchMasterTo_spec (r := r) c msg t with ⟨-, hs⟩ | ⟨tc, -, hs⟩ <;> rw [hs]
  · exact h.sendTo c _
  · simpa [DeadlineKnown, Out.deadlineFor] using h

theorem DeadlineKnown.of_msgSwitchMaster (h : r.DeadlineKnown) {c : ClientRef}
    {msg : RegularMsg} {t : ClientID} (hr : r.msgSwitchMaster c msg t = .ok r') :
    r'.DeadlineKnown := by
  rcases msgSwitchMaster_spec hr with ⟨-, -, rfl⟩ | ⟨-, rfl⟩
  · exact (h.sendTo c _).of_switchMasterTo c msg t
  · exact h.of_switchMasterTo c msg t

theorem DeadlineKnown.of_msgKick (h : r.DeadlineKnown) {c : ClientRef} {msg : RegularMsg}
    {t : ClientID} {b : Bytes} (hr : r.msgKick c msg t b = .ok r') : r'.DeadlineKnown := by
  rcases msgKick_spec hr with ⟨-, -, rfl⟩ | ⟨-, -, rfl⟩ | ⟨-, tc, -, hr⟩
  iterate 2 exact h.sendTo c _
  exact (h.sendTo c _).of_removeClient hr

theorem DeadlineKnown.of_dispatch (h : r.DeadlineKnown) {now : UInt64} {m : Msg}
    (hr : r.dispatch now m = .ok r') : r'.DeadlineKnown := by
  cases m with
  | create info => cases hr; exact h.of_msgCreate info now
  | join info => exact h.of_msgJoin hr
  | watch info n => exact h.of_msgWatch hr
  | getRoomInfo => exact h.of_msgGetRoomInfo hr
  | adminKick t => exact h.of_msgAdminKick hr
  | ping c t => cases hr; exact h.of_msgPing c t
  | nodeCount c n => cases hr; exact h.of_msgNodeCount c n
  | leave c msg => exact h.of_removeClient hr
  | roomProp c msg p => exact h.of_msgRoomProp hr
  | clientProp c msg p => cases hr; exact h.of_msgClientProp c msg p
  | targets c msg ts data => cases hr; exact h.of_msgTargets c msg ts data
  | toMaster c data => exact h.of_msgToMaster hr
  | broadcast c data => cases hr; exact h.of_msgBroadcast c data
  | switchMaster c msg t => exact h.of_msgSwitchMaster hr
  | kick c msg t b => exact h.of_msgKick hr
  | clientError c e => exact h.of_removeClient hr
  | clientTimeout c => exact h.of_removeClient hr

theorem DeadlineKnown.of_step (h : r.DeadlineKnown) (hs : Step r r') : r'.DeadlineKnown := by
  cases hs with
  | dispatch now m _ hr =>
    have hu : (r.updateLastMsg m.senderID now).DeadlineKnown := by
      rcases updateLastMsg_cases (r := r) m.senderID now with hl | hl <;> rw [hl] <;> exact h
    exact hu.of_dispatch hr
  | remove c cause hr => exact h.of_removeClient hr

/-- The room `MsgCreate` leaves: its one player was told the deadline when it joined. -/
theorem DeadlineKnown.of_created (h : Created r) : r.DeadlineKnown := by
  obtain ⟨master, now, hN, -⟩ := h
  rename_i rN
  obtain ⟨hp, -⟩ := newRoom_some hN
  refine DeadlineKnown.of_msgCreate (fun id c hc => ?_) master now
  rw [hp] at hc
  cases hc

end Room

/-- In every state a room reaches, before or after `done` closes, each player's last
deadline notice, the `JoinedInfo` of its join or a later `newDeadline`, carries the
room's current client deadline. -/
theorem players_know_deadline {r₀ r : Room} (h₀ : Created r₀) (hr : Reachable r₀ r) :
    ∀ id c, r.players.lookup id = some c → toldDeadline c.ref none r.out = some r.deadline := by
  show r.DeadlineKnown
  induction hr with
  | refl => exact Room.DeadlineKnown.of_created h₀
  | step _ hs ih => exact ih.of_step hs

/-- `A` joins the room `M` created: both players were last told the deadline. -/
theorem players_know_deadline_joined :
    ∃ r, Reachable createdRoom r ∧ r.players.entries.length = 2 ∧
      ∀ id c, r.players.lookup id = some c → toldDeadline c.ref none r.out = some r.deadline :=
  have h := (@Reachable.refl createdRoom).step (.dispatch 6 (.join ⟨[65], []⟩) rfl rfl)
  ⟨_, h, rfl, players_know_deadline createdRoom_created h⟩

end Game
end WSNet2
