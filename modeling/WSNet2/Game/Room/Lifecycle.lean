import WSNet2.Game.Room.Delivery
import WSNet2.Game.Room.Safety

/-!
# Each client is let go once, when it leaves

The room admits a client object with the `Joined` reply to its join or watch request
(`msg.Joined <- info`, whose `Client` is the new object) and lets it go with
`c.Removed(cause)`, which ends the client's session. Every join and every watch makes a new
client object at the next pointer; a rejoin lets the old object go and admits the new one.

Over every run of a room created with one player (`removed_exactly_once`): no client object
is admitted twice; every member was admitted; and the room has told `Removed` exactly once
to each client it admitted and no longer holds, and never to a client it still holds or
never admitted. So no session is ended twice, none of a member is ended, and every client
that was removed, kicked or replaced had its session ended.

`Lifecycle.of_drop` says once what a step may do to the admitted clients, the removed clients
and the membership; one lemma per handler shows that the handler does no more. Only a message
other than `MsgCreate` steps a room: `msgCreate` on a room with players would replace a player
of the same id without telling it.
A kick lets go exactly its target: the master's kick of a present player, itself included,
and an admin's kick succeed, leave no player under the id and tell the kicked client alone
`Removed`, with the kick's message (`kick_removes_target`).
-/

namespace WSNet2
namespace Game

open Binary

/-- The client an effect lets go: `c.Removed(cause)`. -/
@[simp] def Out.removedRef : Out → Option ClientRef
  | .removed c _ => some c
  | _ => none

/-- The client an effect admits: the client of a `Joined` reply. -/
@[simp] def Out.joinedRef : Out → Option ClientRef
  | .joined i => some i.client
  | _ => none

namespace Room

/-- The clients `r` has admitted, in order. -/
def admitted (r : Room) : List ClientRef := r.out.filterMap Out.joinedRef

/-- The clients `r` has told `Removed`, in order. -/
def dismissed (r : Room) : List ClientRef := r.out.filterMap Out.removedRef

/-- The lifecycle invariant of a room's clients. -/
structure Lifecycle (r : Room) : Prop where
  /-- No client object is admitted twice, -/
  admitted_nodup : r.admitted.Nodup
  /-- each was allocated before `nextPtr`; -/
  admitted_ptr : ∀ c ∈ r.admitted, c.ptr < r.nextPtr
  /-- every member was admitted; -/
  member_admitted : ∀ c, r.isMember c → c ∈ r.admitted
  /-- a client admitted and no longer held was told `Removed` once, any other never. -/
  dismissed_count :
    ∀ c, r.dismissed.count c = if c ∈ r.admitted ∧ ¬r.isMember c then 1 else 0

variable {r r' : Room}

/-! ## What a step may do -/

/-- A step that appends effects telling `R` `Removed` and admitting `J`, where `R` were
members and leave, `J` are new clients at pointers the step allocates and enter, and no other
client enters or leaves, keeps the invariant. -/
theorem Lifecycle.of_drop (h : r.Lifecycle) (R J : List ClientRef) (hp : r.out <+: r'.out)
    (hq : (r'.out.drop r.out.length).filterMap Out.removedRef = R ∧
      (r'.out.drop r.out.length).filterMap Out.joinedRef = J)
    (hmem : ∀ x, r'.isMember x ↔ r.isMember x ∧ x ∉ R ∨ x ∈ J)
    (hR : ∀ x ∈ R, r.isMember x) (hRn : R.Nodup)
    (hJ : ∀ x ∈ J, r.nextPtr ≤ x.ptr ∧ x.ptr < r'.nextPtr) (hJn : J.Nodup)
    (hptr : r.nextPtr ≤ r'.nextPtr) : r'.Lifecycle := by
  obtain ⟨new, hnew⟩ := hp
  rw [← hnew, List.drop_left] at hq
  have ha : r'.admitted = r.admitted ++ J := by
    rw [admitted, admitted, ← hnew, List.filterMap_append, hq.2]
  have hd : r'.dismissed = r.dismissed ++ R := by
    rw [dismissed, dismissed, ← hnew, List.filterMap_append, hq.1]
  have hfresh : ∀ x ∈ J, x ∉ r.admitted := fun x hx hx' =>
    absurd (h.admitted_ptr x hx') (Nat.not_lt.2 (hJ x hx).1)
  have hRJ : ∀ x ∈ R, x ∉ J := fun x hx hxJ => hfresh x hxJ (h.member_admitted x (hR x hx))
  refine ⟨?_, ?_, ?_, ?_⟩
  · rw [ha]
    exact List.nodup_append.2 ⟨h.admitted_nodup, hJn, fun x hx hxJ => hfresh x hxJ hx⟩
  · intro c hc
    rcases List.mem_append.1 (ha ▸ hc) with hc | hc
    · exact Nat.lt_of_lt_of_le (h.admitted_ptr c hc) hptr
    · exact (hJ c hc).2
  · intro c hc
    rw [ha]
    rcases (hmem c).1 hc with ⟨hc, -⟩ | hc
    · exact List.mem_append_left _ (h.member_admitted c hc)
    · exact List.mem_append_right _ hc
  · intro c
    rw [hd, ha, List.count_append, h.dismissed_count c]
    by_cases hcR : c ∈ R
    · have hm := hR c hcR
      simp [hmem, hm, hcR, hRJ c hcR, h.member_admitted c hm, List.count_eq_one_of_mem hRn hcR]
    · rw [List.count_eq_zero_of_not_mem hcR]
      by_cases hcJ : c ∈ J
      · simp [hmem, hcJ, hfresh c hcJ]
      · simp [hmem, hcR, hcJ]

/-- A step that tells no one `Removed`, admits no one and keeps the members. -/
theorem Lifecycle.of_calm (h : r.Lifecycle) (hp : r.out <+: r'.out)
    (hq : (r'.out.drop r.out.length).filterMap Out.removedRef = [] ∧
      (r'.out.drop r.out.length).filterMap Out.joinedRef = [])
    (hmem : ∀ x, r'.isMember x ↔ r.isMember x) (hptr : r.nextPtr ≤ r'.nextPtr) :
    r'.Lifecycle :=
  h.of_drop [] [] hp hq (fun x => by simp [hmem]) (by simp) List.nodup_nil (by simp)
    List.nodup_nil hptr

/-- A step that lets the member `c` go, and only it. -/
theorem Lifecycle.of_leave (h : r.Lifecycle) (c : ClientRef) (hp : r.out <+: r'.out)
    (hq : (r'.out.drop r.out.length).filterMap Out.removedRef = [c] ∧
      (r'.out.drop r.out.length).filterMap Out.joinedRef = [])
    (hmem : ∀ x, r'.isMember x ↔ r.isMember x ∧ x ≠ c) (hc : r.isMember c)
    (hptr : r.nextPtr ≤ r'.nextPtr) : r'.Lifecycle :=
  h.of_drop [c] [] hp hq (fun x => by simp [hmem]) (by simpa using hc)
    (List.nodup_singleton c) (by simp) List.nodup_nil hptr

/-- A step that admits a new client `c` at the next pointer, in place of the member `old`
if there is one. -/
theorem Lifecycle.of_admit (h : r.Lifecycle) (old : Option ClientRef) (c : ClientRef)
    (hp : r.out <+: r'.out)
    (hq : (r'.out.drop r.out.length).filterMap Out.removedRef = old.toList ∧
      (r'.out.drop r.out.length).filterMap Out.joinedRef = [c])
    (hmem : ∀ x, r'.isMember x ↔ r.isMember x ∧ old ≠ some x ∨ x = c)
    (hold : ∀ o ∈ old, r.isMember o) (hc : c.ptr = r.nextPtr)
    (hptr : r'.nextPtr = r.nextPtr + 1) : r'.Lifecycle := by
  refine h.of_drop old.toList [c] hp hq (fun x => ?_) (fun x hx => hold x (by simpa using hx))
    (by cases old <;> simp) (by simp [hc, hptr]) (List.nodup_singleton c) (by omega)
  rw [hmem]
  cases old <;> simp [eq_comm]

/-- An effect that neither admits nor lets go. -/
theorem Lifecycle.of_emit (h : r.Lifecycle) (o : Out) (ho : o.removedRef = none)
    (hj : o.joinedRef = none) : (r.emit o).Lifecycle :=
  h.of_calm (by simp) (by simpa using And.intro ho hj) (fun _ => Iff.rfl) le_rfl

/-! ## Who is a member after a change -/

theorem KeyedAs.role {b : Bool} {s : Clients} (hk : KeyedAs b s) {a : ClientID} {x : ClientRef}
    (h : (s.lookup a).map Client.ref = some x) : x.id = a ∧ x.isPlayer = b := by
  obtain ⟨c, hc, rfl⟩ := Option.map_eq_some'.1 h
  exact hk a c hc

/-- Erasing the id of the client `c` stored there lets exactly `c` go. -/
theorem live_erase {s : Clients} {c x : ClientRef}
    (hc : (s.lookup c.id).map Client.ref = some c) :
    ((s.erase c.id).lookup x.id).map Client.ref = some x ↔
      (s.lookup x.id).map Client.ref = some x ∧ x ≠ c := by
  by_cases hid : x.id = c.id
  · rw [hid, AList.lookup_erase, hc]
    simp [eq_comm]
  · rw [AList.lookup_erase_ne hid]
    exact ⟨fun h => ⟨h, fun hxc => hid (hxc ▸ rfl)⟩, And.left⟩

/-- Storing `c` under its own id in a map keyed by id admits `c` and lets go only the client
stored there before. -/
theorem live_insert {b : Bool} {s : Clients} (hk : KeyedAs b s) {c : Client} {x : ClientRef} :
    ((s.insert c.ref.id c).lookup x.id).map Client.ref = some x ↔
      (s.lookup x.id).map Client.ref = some x ∧ (s.lookup c.ref.id).map Client.ref ≠ some x ∨
        x = c.ref := by
  rw [lookup_insert_ref]
  by_cases hid : x.id = c.ref.id
  · simp only [hid, if_true, Option.some.injEq]
    exact ⟨fun h => .inr h.symm, fun h => h.elim (fun h => absurd (hid ▸ h.1) h.2) Eq.symm⟩
  · rw [if_neg hid]
    refine ⟨fun h => .inl ⟨h, fun h' => hid (hk.role h').1⟩, ?_⟩
    rintro (⟨h, -⟩ | rfl)
    exacts [h, absurd rfl hid]

theorem isMember_erase_player (hk : KeyedAs true r.players) {c : ClientRef}
    (hc : r.isLivePlayer c) (hp : r'.players = r.players.erase c.id)
    (hw : r'.watchers = r.watchers) (x : ClientRef) :
    r'.isMember x ↔ r.isMember x ∧ x ≠ c := by
  have hcp := (hk.role hc).2
  unfold isMember isLivePlayer isLiveWatcher
  rw [hp, hw]
  split
  · exact live_erase hc
  · rename_i hx
    exact (and_iff_left (by rintro rfl; exact hx hcp)).symm

theorem isMember_erase_watcher (hk : KeyedAs false r.watchers) {c : ClientRef}
    (hc : r.isLiveWatcher c) (hp : r'.players = r.players)
    (hw : r'.watchers = r.watchers.erase c.id) (x : ClientRef) :
    r'.isMember x ↔ r.isMember x ∧ x ≠ c := by
  have hcp := (hk.role hc).2
  unfold isMember isLivePlayer isLiveWatcher
  rw [hp, hw]
  split
  · rename_i hx
    exact (and_iff_left (by rintro rfl; simp [hcp] at hx)).symm
  · exact live_erase hc

theorem isMember_insert_player (hk : KeyedAs true r.players) {c : Client}
    (hc : c.ref.isPlayer = true) (hp : r'.players = r.players.insert c.ref.id c)
    (hw : r'.watchers = r.watchers) (x : ClientRef) :
    r'.isMember x ↔
      r.isMember x ∧ (r.players.lookup c.ref.id).map Client.ref ≠ some x ∨ x = c.ref := by
  unfold isMember isLivePlayer isLiveWatcher
  rw [hp, hw]
  split
  · exact live_insert hk
  · rename_i hx
    refine ⟨fun h => .inl ⟨h, fun h' => hx (hk.role h').2⟩, ?_⟩
    rintro (⟨h, -⟩ | rfl)
    exacts [h, absurd hc hx]

theorem isMember_insert_watcher (hk : KeyedAs false r.watchers) {c : Client}
    (hc : c.ref.isPlayer = false) (hp : r'.players = r.players)
    (hw : r'.watchers = r.watchers.insert c.ref.id c) (x : ClientRef) :
    r'.isMember x ↔
      r.isMember x ∧ (r.watchers.lookup c.ref.id).map Client.ref ≠ some x ∨ x = c.ref := by
  unfold isMember isLivePlayer isLiveWatcher
  rw [hp, hw]
  split
  · rename_i hx
    refine ⟨fun h => .inl ⟨h, fun h' => by simp [(hk.role h').2] at hx⟩, ?_⟩
    rintro (⟨h, -⟩ | rfl)
    exacts [h, by simp [hc] at hx]
  · exact live_insert hk

/-! ## One lemma per handler -/

theorem Lifecycle.of_newRoom {info : Pb.RoomInfo} {d : UInt32} (h : newRoom info d = some r) :
    r.Lifecycle := by
  unfold newRoom at h
  split at h
  · cases h
    exact ⟨List.nodup_nil, by simp [admitted], fun c hc => by
      simp [isMember, isLivePlayer, isLiveWatcher] at hc, fun c => by simp [admitted, dismissed]⟩
  · cases h

theorem Lifecycle.of_msgCreate (h : r.Lifecycle) (hk : KeyedAs true r.players)
    {info : Pb.ClientInfo} (hn : r.players.lookup info.id = none) (now : UInt64) :
    (r.msgCreate info now).Lifecycle := by
  rcases msgCreate_spec (r := r) info now with ⟨_, -, he⟩ | ⟨c, hc, he⟩ <;> rw [he]
  · exact h.of_emit _ rfl rfl
  · obtain ⟨href, -⟩ := newClient_ok hc
    refine h.of_admit _ c.ref (by simp) ?_ (isMember_insert_player hk (by rw [href]) rfl rfl) ?_
      (by rw [href]) rfl <;> rw [href] <;> simp [hn]

theorem Lifecycle.of_removePlayer (h : r.Lifecycle) (hk : KeyedAs true r.players)
    {c : ClientRef} {cause : Bytes} (hr : r.removePlayer c cause = .ok r') : r'.Lifecycle := by
  rcases removePlayer_spec hr with ⟨-, rfl⟩ | ⟨hl, -, -, rfl⟩ | ⟨hl, -, m, rfl, -⟩
  · exact h
  all_goals
    exact h.of_leave c (by simp) (by simp) (isMember_erase_player hk hl rfl rfl)
      (isMember_of_isLivePlayer hk hl) le_rfl

theorem Lifecycle.of_removeWatcher (h : r.Lifecycle) (hk : KeyedAs false r.watchers)
    (c : ClientRef) (cause : Bytes) : (r.removeWatcher c cause).Lifecycle := by
  rcases removeWatcher_spec (r := r) c cause with he | ⟨w, hw, hwc, he⟩ <;> rw [he]
  · exact h
  · have hl : r.isLiveWatcher c := by simp [isLiveWatcher, hw, hwc]
    exact h.of_leave c (by simp) (by simp) (isMember_erase_watcher hk hl rfl rfl)
      (hwc ▸ isMember_of_lookup_watcher hk hw) le_rfl

theorem Lifecycle.of_removeClient (h : r.Lifecycle) (hp : KeyedAs true r.players)
    (hw : KeyedAs false r.watchers) {c : ClientRef} {cause : Bytes}
    (hr : r.removeClient c cause = .ok r') : r'.Lifecycle := by
  rcases removeClient_ok hr with ⟨-, hr⟩ | ⟨-, rfl⟩
  · exact h.of_removePlayer hp hr
  · exact h.of_removeWatcher hw c cause

theorem Lifecycle.of_msgJoin (h : r.Lifecycle) (hk : KeyedAs true r.players)
    {info : Pb.ClientInfo} {now : UInt64} (hr : r.msgJoin info now = .ok r') : r'.Lifecycle := by
  rcases msgJoin_spec hr with ⟨_, _, rfl⟩ | ⟨-, -, client, hc, hj⟩
  · exact h.of_emit _ rfl rfl
  obtain ⟨href, -⟩ := newClient_ok hc
  have hmem : ∀ x, ({ r with players := r.players.insert _ client } : Room).isMember x ↔ _ :=
    isMember_insert_player hk (by rw [href]) rfl rfl
  have hkey : (r.players.lookup client.ref.id).map Client.ref =
      (r.players.lookup info.id).map Client.ref := by rw [href]
  simp only [hkey] at hmem
  obtain ⟨m, ⟨old, hold, -, rfl⟩ | ⟨hold, -, rfl⟩⟩ := joinPlayer_spec hj <;>
    simp only [hold, Option.map_some', Option.map_none'] at hmem
  · exact h.of_admit _ client.ref (by simp) (by simp) hmem
      (by simpa using isMember_of_lookup_player hk hold) (by rw [href]) rfl
  · exact h.of_admit _ client.ref (by simp) (by simp) hmem (by simp) (by rw [href]) rfl

theorem Lifecycle.of_msgWatch (h : r.Lifecycle) (hk : KeyedAs false r.watchers)
    {info : Pb.ClientInfo} {n : UInt32} (hr : r.msgWatch info n = .ok r') : r'.Lifecycle := by
  rcases msgWatch_spec hr with ⟨_, _, rfl⟩ | ⟨-, client, hc, hw⟩
  · exact h.of_emit _ rfl rfl
  obtain ⟨href, -⟩ := newClient_ok hc
  have hmem : ∀ x, ({ r with watchers := r.watchers.insert _ client } : Room).isMember x ↔ _ :=
    isMember_insert_watcher hk (by rw [href]) rfl rfl
  obtain ⟨m, -, ⟨hold, rfl⟩ | ⟨old, hold, rfl⟩⟩ := watchWatcher_spec hw <;>
    simp only [hold, Option.map_some', Option.map_none'] at hmem
  · exact h.of_admit _ client.ref (by simp) (by simp) hmem (by simp) (by rw [href]) rfl
  · exact h.of_admit _ client.ref (by simp) (by simp) hmem
      (by simpa using isMember_of_lookup_watcher hk hold) (by rw [href]) rfl

theorem Lifecycle.of_msgGetRoomInfo (h : r.Lifecycle) {ri : Pb.RoomInfo}
    (hr : r.msgGetRoomInfo ri = .ok r') : r'.Lifecycle := by
  obtain ⟨cis, lmt, m, -, rfl⟩ := msgGetRoomInfo_spec hr
  exact h.of_emit _ rfl rfl

theorem Lifecycle.of_msgAdminKick (h : r.Lifecycle) (hp : KeyedAs true r.players)
    (hw : KeyedAs false r.watchers) {t : ClientID} (hr : r.msgAdminKick t = .ok r') :
    r'.Lifecycle := by
  rcases msgAdminKick_spec hr with ⟨-, rfl⟩ | ⟨tc, r₁, -, h₁, rfl⟩
  · exact h.of_emit _ rfl rfl
  · exact (h.of_removeClient hp hw h₁).of_emit _ rfl rfl

theorem Lifecycle.of_msgPing (h : r.Lifecycle) (c : ClientRef) (t : UInt64) :
    (r.msgPing c t).Lifecycle := by
  rcases msgPing_spec (r := r) c t with ⟨-, he⟩ | ⟨-, he⟩ <;> rw [he]
  · exact h.of_emit _ rfl rfl
  · exact h

theorem Lifecycle.of_msgNodeCount (h : r.Lifecycle) (c : ClientRef) (n : UInt32) :
    (r.msgNodeCount c n).Lifecycle := by
  rcases msgNodeCount_spec (r := r) c n with he | ⟨w, hw, -, he⟩ <;> rw [he]
  · exact h
  · exact h.of_calm (by simp) (by simp) (fun x => by
      simp only [isMember, isLivePlayer, isLiveWatcher, lookup_insert_same_ref hw]) le_rfl

theorem Lifecycle.of_msgRoomProp (h : r.Lifecycle) {c : ClientRef} {msg : RegularMsg}
    {p : RoomPropPayload} (hr : r.msgRoomProp c msg p = .ok r') : r'.Lifecycle := by
  rcases msgRoomProp_spec hr with ⟨-, -, rfl⟩ | ⟨-, pub, priv, pubB, privB, i, dl, nd, -, hnd, rfl⟩
  · exact h.of_emit _ rfl rfl
  · rcases hnd with ⟨-, rfl⟩ | ⟨-, rfl⟩ <;>
      exact h.of_calm (by simp) (by simp) (fun _ => Iff.rfl) le_rfl

theorem Lifecycle.of_msgClientProp (h : r.Lifecycle) (c : ClientRef) (msg : RegularMsg)
    (props : Dict) : (r.msgClientProp c msg props).Lifecycle := by
  rcases msgClientProp_spec (r := r) c msg props with
    ⟨-, he⟩ | ⟨-, -, he⟩ | ⟨-, cl, ps, hcl, -, hps, he⟩ <;> rw [he]
  · exact h.of_emit _ rfl rfl
  · exact h
  · rcases hps with rfl | ⟨np, rfl⟩
    · exact h.of_calm (by simp) (by simp) (fun _ => Iff.rfl) le_rfl
    · exact h.of_calm (by simp) (by simp) (fun x => by
        simp only [isMember, isLivePlayer, isLiveWatcher, lookup_insert_same_ref hcl]) le_rfl

theorem Lifecycle.of_msgTargets (h : r.Lifecycle) (c : ClientRef) (msg : RegularMsg)
    (ts : List ClientID) (d : Bytes) : (r.msgTargets c msg ts d).Lifecycle := by
  rcases msgTargets_spec (r := r) c msg ts d with ⟨-, he⟩ | ⟨-, he⟩ <;> rw [he]
  · exact h
  · split <;> exact h.of_calm (by simp)
      (by simp [List.filterMap_filterMap, Option.bind_map, Function.comp_def]) (fun _ => Iff.rfl)
      le_rfl

theorem Lifecycle.of_msgToMaster (h : r.Lifecycle) {c : ClientRef} {d : Bytes}
    (hr : r.msgToMaster c d = .ok r') : r'.Lifecycle := by
  rcases msgToMaster_spec hr with ⟨-, rfl⟩ | ⟨-, m, -, rfl⟩
  · exact h
  · exact h.of_emit _ rfl rfl

theorem Lifecycle.of_msgBroadcast (h : r.Lifecycle) (c : ClientRef) (d : Bytes) :
    (r.msgBroadcast c d).Lifecycle := by
  rcases msgBroadcast_spec (r := r) c d with ⟨-, he⟩ | ⟨-, he⟩ <;> rw [he]
  · exact h.of_calm (by simp) (by simp) (fun _ => Iff.rfl) le_rfl
  · exact h

theorem Lifecycle.of_switchMasterTo (h : r.Lifecycle) (c : ClientRef) (msg : RegularMsg)
    (t : ClientID) : (r.switchMasterTo c msg t).Lifecycle := by
  rcases switchMasterTo_spec (r := r) c msg t with ⟨-, he⟩ | ⟨tc, -, he⟩ <;> rw [he]
  · exact h.of_emit _ rfl rfl
  · exact h.of_calm (by simp) (by simp) (fun _ => Iff.rfl) le_rfl

theorem Lifecycle.of_msgSwitchMaster (h : r.Lifecycle) {c : ClientRef} {msg : RegularMsg}
    {t : ClientID} (hr : r.msgSwitchMaster c msg t = .ok r') : r'.Lifecycle := by
  rcases msgSwitchMaster_spec hr with ⟨-, -, rfl⟩ | ⟨-, rfl⟩
  · exact (h.of_emit (.send c (newEvPermissionDenied msg)) rfl rfl).of_switchMasterTo c msg t
  · exact h.of_switchMasterTo c msg t

theorem Lifecycle.of_msgKick (h : r.Lifecycle) (hp : KeyedAs true r.players)
    (hw : KeyedAs false r.watchers) {c : ClientRef} {msg : RegularMsg} {t : ClientID}
    {m : Bytes} (hr : r.msgKick c msg t m = .ok r') : r'.Lifecycle := by
  rcases msgKick_spec hr with ⟨-, -, rfl⟩ | ⟨-, -, rfl⟩ | ⟨-, tc, -, hr⟩
  iterate 2 exact h.of_emit _ rfl rfl
  exact (h.of_emit (.send c (newEvSucceeded msg)) rfl rfl).of_removeClient hp hw hr

/-! ## The loop -/

variable {st : ClientID → Nat} {k : Nat}

theorem Lifecycle.of_dispatch (h : r.Lifecycle) (hi : MemberInv st k r) {now : UInt64} {m : Msg}
    (hm : m.isCreate = false) (hr : r.dispatch now m = .ok r') : r'.Lifecycle := by
  have hp : KeyedAs true r.players := hi.players_keyed
  have hw : KeyedAs false r.watchers := hi.watchers_keyed
  cases m with
  | create info => cases hm
  | join info => exact h.of_msgJoin hp hr
  | watch info n => exact h.of_msgWatch hw hr
  | getRoomInfo => exact h.of_msgGetRoomInfo hr
  | adminKick t => exact h.of_msgAdminKick hp hw hr
  | ping c t => cases hr; exact h.of_msgPing c t
  | nodeCount c n => cases hr; exact h.of_msgNodeCount c n
  | leave c msg => exact h.of_removeClient hp hw hr
  | roomProp c msg p => exact h.of_msgRoomProp hr
  | clientProp c msg p => cases hr; exact h.of_msgClientProp c msg p
  | targets c msg ts d => cases hr; exact h.of_msgTargets c msg ts d
  | toMaster c d => exact h.of_msgToMaster hr
  | broadcast c d => cases hr; exact h.of_msgBroadcast c d
  | switchMaster c msg t => exact h.of_msgSwitchMaster hr
  | kick c msg t b => exact h.of_msgKick hp hw hr
  | clientError c e => exact h.of_removeClient hp hw hr
  | clientTimeout c => exact h.of_removeClient hp hw hr

theorem Lifecycle.of_updateLastMsg (h : r.Lifecycle) (cid : ClientID) (now : UInt64) :
    (r.updateLastMsg cid now).Lifecycle := by
  rcases updateLastMsg_cases (r := r) cid now with he | he <;> rw [he]
  · exact h
  · exact h.of_calm (by simp) (by simp) (fun _ => Iff.rfl) le_rfl

theorem Lifecycle.of_step (h : r.Lifecycle) (hi : MemberInv st k r) (hs : Step r r') :
    r'.Lifecycle := by
  cases hs with
  | dispatch now m hm hr =>
    exact (h.of_updateLastMsg m.senderID now).of_dispatch (hi.of_updateLastMsg m.senderID now) hm hr
  | remove c cause hr => exact h.of_removeClient hi.players_keyed hi.watchers_keyed hr

/-- `MsgCreate` on a new room admits its master, and no one else. -/
theorem Lifecycle.of_created (h : Created r) : r.Lifecycle := by
  obtain ⟨master, now, hN, -⟩ := h
  obtain ⟨hpl, -⟩ := newRoom_some hN
  exact (Lifecycle.of_newRoom hN).of_msgCreate (fun _ _ hc => by simp [hpl] at hc)
    (by simp [hpl]) now

/-! ## A kick -/

/-- The effects a step appends, read off the part after the old ones. -/
theorem exists_appended {P : List Out → Prop} (hp : r.out <+: r'.out)
    (hq : P (r'.out.drop r.out.length)) : ∃ new, r'.out = r.out ++ new ∧ P new := by
  obtain ⟨l, hl⟩ := hp
  rw [← hl, List.drop_left] at hq
  exact ⟨l, hl.symm, hq⟩

/-- Removing a live player leaves no player under its id and lets that player go alone, told
the cause. -/
theorem removePlayer_dismisses {c : ClientRef} {cause : Bytes} (hl : r.isLivePlayer c)
    (hr : r.removePlayer c cause = .ok r') :
    c.id ∉ r'.players ∧ ∃ new, r'.out = r.out ++ new ∧
      new.filterMap Out.removedRef = [c] ∧ .removed c cause ∈ new := by
  rcases removePlayer_spec hr with ⟨hn, -⟩ | ⟨-, -, -, rfl⟩ | ⟨-, -, m, rfl, -⟩
  · exact absurd hl hn
  all_goals exact ⟨by simp, exists_appended (by simp) ⟨by simp, by simp⟩⟩

/-- The master's kick of a present player answers the master, then removes the player: no
player is left under the id, and the kicked client alone is let go, told the kick's message. -/
theorem MemberInv.msgKick_removes (h : MemberInv st k r) (hd : r.done = false) {c : ClientRef}
    (msg : RegularMsg) {t : ClientID} (m : Bytes) {tc : Client} (hm : r.master = some c)
    (ht : r.players.lookup t = some tc) :
    ∃ r', r.msgKick c msg t m = .ok r' ∧ t ∉ r'.players ∧
      ∃ new, r'.out = r.out ++ .send c (newEvSucceeded msg) :: new ∧
        new.filterMap Out.removedRef = [tc.ref] ∧ .removed tc.ref m ∈ new := by
  obtain ⟨hid, hpl⟩ := h.players_keyed t tc ht
  obtain ⟨r', hr⟩ : ∃ r', (r.sendTo c (newEvSucceeded msg)).removeClient tc.ref m = .ok r' :=
    (h.of_same (SameMembers.out r (r.sendTo c (newEvSucceeded msg)).out)).exists_removeClient_ok
      hd tc.ref m
  have hr' := hr
  rw [removeClient_of_isPlayer m hpl] at hr'
  obtain ⟨hgone, new, hnew, hq, hmem⟩ :=
    removePlayer_dismisses (isLivePlayer_of_lookup (r := r.sendTo c _) ht hid) hr'
  exact ⟨r', (msgKick_of_master msg m hm ht).trans hr, hid ▸ hgone, new, by simp [hnew], hq, hmem⟩

/-- An admin's kick of a present player removes it the same way, then answers the admin
with no error. -/
theorem MemberInv.msgAdminKick_removes (h : MemberInv st k r) (hd : r.done = false)
    {t : ClientID} {tc : Client} (ht : r.players.lookup t = some tc) :
    ∃ r', r.msgAdminKick t = .ok r' ∧ t ∉ r'.players ∧
      ∃ new, r'.out = r.out ++ new ++ [.adminKickRes none] ∧
        new.filterMap Out.removedRef = [tc.ref] ∧ .removed tc.ref (utf8 "kicked by admin") ∈ new := by
  obtain ⟨hid, hpl⟩ := h.players_keyed t tc ht
  obtain ⟨r₁, hr⟩ := h.exists_removeClient_ok hd tc.ref (utf8 "kicked by admin")
  have hr' := hr
  rw [removeClient_of_isPlayer _ hpl] at hr'
  obtain ⟨hgone, new, hnew, hq, hmem⟩ :=
    removePlayer_dismisses (isLivePlayer_of_lookup ht hid) hr'
  exact ⟨_, msgAdminKick_of_lookup ht hr, hid ▸ hgone, new, by simp [hnew], hq, hmem⟩

end Room

theorem Room.Lifecycle.of_run {r₀ r : Room} {st : ClientID → Nat} {k : Nat}
    (h₀ : r₀.Lifecycle) (hi₀ : Room.MemberInv (fun _ => 0) 1 r₀) (hrun : Run r₀ r st k) : r.Lifecycle := by
  induction hrun with
  | start => exact h₀
  | step hrun hd hs ih => exact ih.of_step (hi₀.of_run hrun hd) hs

/-- In every state of a run of a room created with `RoomInfo.Players = 1`, before or after
`done` closes: no client object was admitted twice, every member was admitted, and each
client was told `Removed` exactly once if it was admitted and is no longer a member, and never
otherwise. -/
theorem removed_exactly_once {r₀ r : Room} {st : ClientID → Nat} {k : Nat} (h₀ : Created r₀)
    (hp : r₀.info.players = 1) (hrun : Run r₀ r st k) :
    r.admitted.Nodup ∧ (∀ c, r.isMember c → c ∈ r.admitted) ∧
      ∀ c, r.dismissed.count c = if c ∈ r.admitted ∧ ¬r.isMember c then 1 else 0 := by
  have h := (Room.Lifecycle.of_created h₀).of_run (Room.MemberInv.of_created h₀ hp) hrun
  exact ⟨h.admitted_nodup, h.member_admitted, h.dismissed_count⟩

/-- The master rejoins: its first client object is told `Removed`, once. -/
theorem removed_exactly_once_rejoin :
    ∃ r₁ st k, Run createdRoom r₁ st k ∧ r₁.dismissed = [⟨0, [77], true⟩] ∧
      r₁.admitted.Nodup ∧ (∀ c, r₁.isMember c → c ∈ r₁.admitted) ∧
      ∀ c, r₁.dismissed.count c = if c ∈ r₁.admitted ∧ ¬r₁.isMember c then 1 else 0 :=
  have h := (@Run.start createdRoom).step rfl (.dispatch 6 (.join ⟨[77], []⟩) rfl rfl)
  ⟨_, _, _, h, rfl, removed_exactly_once createdRoom_created rfl h⟩

/-- In every state a room created with `RoomInfo.Players = 1` reaches while `done` is open, the
master's kick of a present player, itself included, succeeds: it answers the master with
`EvSucceeded`, then leaves no player under the id and lets the kicked client alone go, told the
kick's message. An admin's kick of a present player does the same, told "kicked by admin", and
then answers the admin with no error. -/
theorem kick_removes_target {r₀ r : Room} {st : ClientID → Nat} {k : Nat} (h₀ : Created r₀)
    (hp : r₀.info.players = 1) (hrun : Run r₀ r st k) (hd : r.done = false) :
    (∀ c msg t m tc, r.master = some c → r.players.lookup t = some tc →
      ∃ r', r.msgKick c msg t m = .ok r' ∧ t ∉ r'.players ∧
        ∃ new, r'.out = r.out ++ .send c (newEvSucceeded msg) :: new ∧
          new.filterMap Out.removedRef = [tc.ref] ∧ .removed tc.ref m ∈ new) ∧
    ∀ t tc, r.players.lookup t = some tc →
      ∃ r', r.msgAdminKick t = .ok r' ∧ t ∉ r'.players ∧
        ∃ new, r'.out = r.out ++ new ++ [.adminKickRes none] ∧
          new.filterMap Out.removedRef = [tc.ref] ∧
          .removed tc.ref (utf8 "kicked by admin") ∈ new := by
  have h := (Room.MemberInv.of_created h₀ hp).of_run hrun hd
  exact ⟨fun _ msg _ m _ hm ht => h.msgKick_removes hd msg m hm ht,
    fun _ _ ht => h.msgAdminKick_removes hd ht⟩

/-- `A` joins the room `M` created; the master may kick either player, itself included, and
the admin either. -/
theorem kick_removes_target_joined :
    ∃ r st k, Run createdRoom r st k ∧ r.players.entries.length = 2 ∧
      (∀ c msg t m tc, r.master = some c → r.players.lookup t = some tc →
        ∃ r', r.msgKick c msg t m = .ok r' ∧ t ∉ r'.players ∧
          ∃ new, r'.out = r.out ++ .send c (newEvSucceeded msg) :: new ∧
            new.filterMap Out.removedRef = [tc.ref] ∧ .removed tc.ref m ∈ new) ∧
      ∀ t tc, r.players.lookup t = some tc →
        ∃ r', r.msgAdminKick t = .ok r' ∧ t ∉ r'.players ∧
          ∃ new, r'.out = r.out ++ new ++ [.adminKickRes none] ∧
            new.filterMap Out.removedRef = [tc.ref] ∧
            .removed tc.ref (utf8 "kicked by admin") ∈ new :=
  have h := (@Run.start createdRoom).step rfl (.dispatch 6 (.join ⟨[65], []⟩) rfl rfl)
  ⟨_, _, _, h, rfl, kick_removes_target createdRoom_created rfl h rfl⟩

end Game
end WSNet2
