import WSNet2.Game.Room.Dispatch

/-!
# What each handler can do

One spec lemma per handler (`_spec`): its paths, each with its guards and the room it
leaves, the effects it appends spelled out. The modules that reason about what a handler did
(`Membership`, `Watchers`, `Permission`, `Notify`, `Delivery`, `Replies`, `Lifecycle`,
`Announce`) take a handler's result apart through these alone. The frame lemmas (`_ok`, `_eq`)
follow from them: the room as `{ r with ... }` with the effects left abstract (`out := o`). A
few forward lemmas (`removeClient_of_isPlayer`, `msgAdminKick_of_lookup`, `msgKick_of_master`)
say what a handler returns on a given path.
-/

namespace WSNet2
namespace Game

open Binary

namespace Room

variable {r r' : Room}

/-! ## Creation -/

theorem newRoom_some {info : Pb.RoomInfo} {d : UInt32} (h : newRoom info d = some r) :
    r.players = ∅ ∧ r.masterOrder = [] ∧ r.watchers = ∅ ∧ r.lastMsg = ∅ ∧ r.done = false ∧
      r.info.players = info.players ∧ r.info.watchers = info.watchers := by
  unfold newRoom at h
  split at h
  · cases h; exact ⟨rfl, rfl, rfl, rfl, rfl, rfl, rfl⟩
  · cases h

/-- `NewPlayer` and `NewWatcher` allocate at the given pointer, under the request's id. -/
theorem newClient_ok {ptr : Nat} {info : Pb.ClientInfo} {isPlayer : Bool} {n : UInt32} {c : Client}
    (h : newClient ptr info isPlayer n = .ok c) :
    c.ref = ⟨ptr, info.id, isPlayer⟩ ∧ c.nodeCount = n := by
  unfold newClient at h
  split at h
  · cases h
  · cases h; exact ⟨rfl, rfl⟩

theorem msgCreate_spec (info : Pb.ClientInfo) (now : UInt64) :
    (∃ code, newClient r.nextPtr info true 0 = .error code ∧
      r.msgCreate info now = r.emit (.err code (.newPlayer info.id))) ∨
    ∃ c, newClient r.nextPtr info true 0 = .ok c ∧ r.msgCreate info now = { r with
      nextPtr := r.nextPtr + 1
      master := some c.ref
      players := r.players.insert c.ref.id c
      masterOrder := r.masterOrder ++ [c.ref.id]
      lastMsg := r.lastMsg.insert c.ref.id (marshalULong now)
      out := r.out ++ [.playerLog c.ref .create, .joined ⟨r.info, [c.info], c.ref, c.ref.id, r.deadline⟩] ++
        (r.players.insert c.ref.id c).entries.map (fun e => .send e.2.ref (newEvJoined c.info)) ++
        r.watchers.entries.map (fun e => .send e.2.ref (newEvJoined c.info)) } := by
  unfold msgCreate
  split
  · exact .inl ⟨_, ‹_›, rfl⟩
  · exact .inr ⟨_, ‹_›, by simp⟩

theorem msgCreate_ok {info : Pb.ClientInfo} (now : UInt64) {c : Client}
    (h : newClient r.nextPtr info true 0 = .ok c) : ∃ o,
    r.msgCreate info now = { r with
      nextPtr := r.nextPtr + 1
      master := some c.ref
      players := r.players.insert c.ref.id c
      masterOrder := r.masterOrder ++ [c.ref.id]
      lastMsg := r.lastMsg.insert c.ref.id (marshalULong now)
      out := o } := by
  rcases msgCreate_spec (r := r) info now with ⟨_, he, -⟩ | ⟨c', hc', he⟩
  · cases h.symm.trans he
  · cases h.symm.trans hc'; exact ⟨_, he⟩

/-! ## Leaving -/

theorem masterRef_ok {m : ClientRef} (h : r.masterRef = .ok m) : r.master = some m := by
  unfold masterRef at h; split at h <;> simp_all

theorem electMaster_ok {cid : ClientID} {r₂ : Room} (h : r.electMaster cid = .ok r₂) :
    ∃ mst, r₂ = { r with master := mst } ∧
    ∃ m, r.master = some m ∧ (m.id ≠ cid → mst = some m) ∧
      (m.id = cid → ∃ first rest, r.masterOrder = first :: rest ∧
        mst = (r.players.lookup first).map Client.ref) := by
  unfold electMaster at h
  obtain ⟨m, hm, h⟩ := bind_eq_ok.1 h
  have hm' := masterRef_ok hm
  split at h
  · rename_i heq
    split at h
    · cases h
    · cases h
      exact ⟨_, rfl, m, hm', fun hne => absurd heq hne, fun _ => ⟨_, _, ‹_›, rfl⟩⟩
  · cases h
    exact ⟨_, rfl, m, hm', fun _ => hm', fun heq => absurd heq ‹_›⟩

theorem closeDone_ok (h : r.closeDone = .ok r') : r.done = false ∧ r' = { r with done := true } := by
  unfold closeDone at h
  split at h
  · cases h
  · cases h; exact ⟨Bool.eq_false_iff.2 ‹_›, rfl⟩

/-- Everything a successful `removePlayer` does: nothing, for a stale client; drop the last
player, log and tell it, and close `done`; or drop the player, log and tell it, elect a new
master if it was the master, recount, publish, announce `EvLeft` and forget its time. -/
theorem removePlayer_spec {c : ClientRef} {cause : Bytes} (hr : r.removePlayer c cause = .ok r') :
    (¬r.isLivePlayer c ∧ r' = r) ∨
    (r.isLivePlayer c ∧ (r.players.erase c.id).entries.length = 0 ∧ r.done = false ∧
      r' = { r with
        players := r.players.erase c.id
        masterOrder := r.masterOrder.erase c.id
        done := true
        out := r.out ++ [.playerLog c .leave, .removed c cause] }) ∨
    (r.isLivePlayer c ∧ (r.players.erase c.id).entries.length ≠ 0 ∧ ∃ m,
      r' = { r with
        players := r.players.erase c.id
        masterOrder := r.masterOrder.erase c.id
        master := some m
        info := { r.info with players := UInt32.ofNat (r.players.erase c.id).entries.length }
        lastMsg := r.lastMsg.erase c.id
        out := r.out ++ [.playerLog c .leave, .removed c cause,
            .updateRoomInfo
              { r.info with players := UInt32.ofNat (r.players.erase c.id).entries.length }] ++
          (r.players.erase c.id).entries.map (fun e => .send e.2.ref (newEvLeft c.id m.id)) ++
          r.watchers.entries.map (fun e => .send e.2.ref (newEvLeft c.id m.id)) } ∧
      ∃ m₀, r.master = some m₀ ∧ (m₀.id ≠ c.id → m = m₀) ∧
        (m₀.id = c.id → ∃ first rest, r.masterOrder.erase c.id = first :: rest ∧
          ((r.players.erase c.id).lookup first).map Client.ref = some m)) := by
  unfold removePlayer at hr
  split at hr
  · exact .inl ⟨‹_›, (Except.ok.inj hr).symm⟩
  rename_i hl
  rw [not_not] at hl
  split at hr
  · obtain ⟨hd, rfl⟩ := closeDone_ok hr
    exact .inr (.inl ⟨hl, ‹_›, hd, by simp⟩)
  · unfold afterLeave at hr
    obtain ⟨r₂, he, h⟩ := bind_eq_ok.1 hr
    obtain ⟨mst, rfl, m₀, hm₀, hne, heq⟩ := electMaster_ok he
    obtain ⟨m, hm, h⟩ := bind_eq_ok.1 h
    cases h
    have hm' : mst = some m := masterRef_ok hm
    subst hm'
    refine .inr (.inr ⟨hl, ‹_›, m, by simp, m₀, hm₀, fun h => ?_, fun h => ?_⟩)
    · exact Option.some_inj.1 (hne h)
    · obtain ⟨first, rest, hfr, he⟩ := heq h
      exact ⟨first, rest, hfr, he.symm⟩

/-- `removePlayer` with its effects left abstract. -/
theorem removePlayer_ok {c : ClientRef} {cause : Bytes} (hr : r.removePlayer c cause = .ok r') :
    (¬r.isLivePlayer c ∧ r' = r) ∨
    (r.isLivePlayer c ∧ (r.players.erase c.id).entries.length = 0 ∧ r.done = false ∧ ∃ o,
      r' = { r with
        players := r.players.erase c.id
        masterOrder := r.masterOrder.erase c.id
        done := true
        out := o }) ∨
    (r.isLivePlayer c ∧ (r.players.erase c.id).entries.length ≠ 0 ∧ ∃ mst o,
      r' = { r with
        players := r.players.erase c.id
        masterOrder := r.masterOrder.erase c.id
        master := mst
        info := { r.info with players := UInt32.ofNat (r.players.erase c.id).entries.length }
        lastMsg := r.lastMsg.erase c.id
        out := o } ∧
      ∃ m, r.master = some m ∧ (m.id ≠ c.id → mst = some m) ∧
        (m.id = c.id → ∃ first rest, r.masterOrder.erase c.id = first :: rest ∧
          mst = ((r.players.erase c.id).lookup first).map Client.ref)) := by
  rcases removePlayer_spec hr with h | ⟨hl, h0, hd, rfl⟩ | ⟨hl, h0, m, rfl, m₀, hm₀, hne, heq⟩
  · exact .inl h
  · exact .inr (.inl ⟨hl, h0, hd, _, rfl⟩)
  · refine .inr (.inr ⟨hl, h0, some m, _, rfl, m₀, hm₀, fun h => congrArg some (hne h), fun h => ?_⟩)
    obtain ⟨first, rest, hfr, he⟩ := heq h
    exact ⟨first, rest, hfr, he.symm⟩

theorem removePlayer_players_sub {c : ClientRef} {cause : Bytes}
    (hr : r.removePlayer c cause = .ok r') : ∀ id ∈ r'.players, id ∈ r.players := by
  obtain ⟨-, rfl⟩ | ⟨-, -, -, o, rfl⟩ | ⟨-, -, mst, o, rfl, -⟩ := removePlayer_ok hr
  · exact fun _ => id
  all_goals exact fun id hid => (AList.mem_erase.1 hid).2

theorem removeWatcher_spec (c : ClientRef) (cause : Bytes) :
    r.removeWatcher c cause = r ∨ ∃ w, r.watchers.lookup c.id = some w ∧ w.ref = c ∧
      r.removeWatcher c cause = { r with
        watchers := r.watchers.erase c.id
        info := { r.info with watchers := r.info.watchers - w.nodeCount }
        out := r.out ++ [.updateRoomInfo { r.info with watchers := r.info.watchers - w.nodeCount },
          .removed c cause] } := by
  unfold removeWatcher
  split
  · split
    · exact .inr ⟨_, ‹_›, ‹_›, by simp⟩
    · exact .inl rfl
  · exact .inl rfl

theorem removeWatcher_eq (c : ClientRef) (cause : Bytes) :
    r.removeWatcher c cause = r ∨ ∃ w o, r.watchers.lookup c.id = some w ∧ w.ref = c ∧
      r.removeWatcher c cause = { r with
        watchers := r.watchers.erase c.id
        info := { r.info with watchers := r.info.watchers - w.nodeCount }
        out := o } := by
  rcases removeWatcher_spec (r := r) c cause with h | ⟨w, hw, hc, h⟩
  · exact .inl h
  · exact .inr ⟨w, _, hw, hc, h⟩

theorem removeClient_ok {c : ClientRef} {cause : Bytes} (hr : r.removeClient c cause = .ok r') :
    (c.isPlayer = true ∧ r.removePlayer c cause = .ok r') ∨
      (c.isPlayer = false ∧ r' = r.removeWatcher c cause) := by
  unfold removeClient at hr
  split at hr
  · exact .inl ⟨‹_›, hr⟩
  · exact .inr ⟨Bool.eq_false_iff.2 ‹_›, (Except.ok.inj hr).symm⟩

theorem removeClient_of_isPlayer {c : ClientRef} (cause : Bytes) (hc : c.isPlayer = true) :
    r.removeClient c cause = r.removePlayer c cause :=
  if_pos hc

theorem removeClient_players_sub {c : ClientRef} {cause : Bytes}
    (hr : r.removeClient c cause = .ok r') : ∀ id ∈ r'.players, id ∈ r.players := by
  rcases removeClient_ok hr with ⟨-, hr⟩ | ⟨-, rfl⟩
  · exact removePlayer_players_sub hr
  · obtain he | ⟨w, o, -, -, he⟩ := removeWatcher_eq (r := r) c cause <;> rw [he] <;>
      exact fun _ => id

/-- A removal changes `RoomInfo` in its player and watcher counts only. -/
theorem removeClient_info {c : ClientRef} {cause : Bytes} (hr : r.removeClient c cause = .ok r') :
    ∃ p w, r'.info = { r.info with players := p, watchers := w } := by
  rcases removeClient_ok hr with ⟨-, hr⟩ | ⟨-, rfl⟩
  · obtain ⟨-, rfl⟩ | ⟨-, -, -, o, rfl⟩ | ⟨-, -, mst, o, rfl, -⟩ := removePlayer_ok hr <;>
      exact ⟨_, _, rfl⟩
  · obtain he | ⟨w, o, -, -, he⟩ := removeWatcher_eq (r := r) c cause <;> rw [he] <;>
      exact ⟨_, _, rfl⟩

/-! ## Joining -/

/-- Everything a successful `joinPlayer` does: a rejoin replaces the client under its id,
tells the replaced client, hands the new one the mastership if the replaced client held it
and announces `EvRejoined`; a new player is appended to `masterOrder`, counted and
published, and `EvJoined` announced. Both log, answer with the `JoinedInfo` and record the
join time. -/
theorem joinPlayer_spec {oldp : Option Client} {client : Client} {now : UInt64}
    (h : r.joinPlayer oldp client now = .ok r') : ∃ m,
    (∃ old, oldp = some old ∧
      (if r.master = some old.ref then some client.ref else r.master) = some m ∧
      r' = { r with
        nextPtr := r.nextPtr + 1
        players := r.players.insert client.ref.id client
        master := if r.master = some old.ref then some client.ref else r.master
        lastMsg := r.lastMsg.insert client.ref.id (marshalULong now)
        out := r.out ++ [.removed old.ref (utf8 "client rejoined as a new client"),
            .playerLog client.ref .rejoin,
            .joined ⟨r.info, (r.players.insert client.ref.id client).entries.map (·.2.info),
              client.ref, m.id, r.deadline⟩] ++
          (r.players.insert client.ref.id client).entries.map
            (fun e => .send e.2.ref (newEvRejoined client.info)) ++
          r.watchers.entries.map (fun e => .send e.2.ref (newEvRejoined client.info)) }) ∨
    (oldp = none ∧ r.master = some m ∧
      r' = { r with
        nextPtr := r.nextPtr + 1
        players := r.players.insert client.ref.id client
        masterOrder := r.masterOrder ++ [client.ref.id]
        info := { r.info with
          players := UInt32.ofNat (r.players.insert client.ref.id client).entries.length }
        lastMsg := r.lastMsg.insert client.ref.id (marshalULong now)
        out := r.out ++ [.playerLog client.ref .join,
            .updateRoomInfo { r.info with
              players := UInt32.ofNat (r.players.insert client.ref.id client).entries.length },
            .joined ⟨{ r.info with
                players := UInt32.ofNat (r.players.insert client.ref.id client).entries.length },
              (r.players.insert client.ref.id client).entries.map (·.2.info), client.ref, m.id,
              r.deadline⟩] ++
          (r.players.insert client.ref.id client).entries.map
            (fun e => .send e.2.ref (newEvJoined client.info)) ++
          r.watchers.entries.map (fun e => .send e.2.ref (newEvJoined client.info)) }) := by
  unfold joinPlayer at h
  obtain ⟨m, hm, h⟩ := bind_eq_ok.1 h
  cases h
  cases oldp with
  | none => exact ⟨m, .inr ⟨rfl, masterRef_ok hm, by simp⟩⟩
  | some old => exact ⟨m, .inl ⟨old, rfl, masterRef_ok hm, by simp⟩⟩

theorem joinPlayer_ok {oldp : Option Client} {client : Client} {now : UInt64}
    (h : r.joinPlayer oldp client now = .ok r') : ∃ o,
    (∃ old, oldp = some old ∧
      r' = { r with
        nextPtr := r.nextPtr + 1
        players := r.players.insert client.ref.id client
        master := if r.master = some old.ref then some client.ref else r.master
        lastMsg := r.lastMsg.insert client.ref.id (marshalULong now)
        out := o }) ∨
    (oldp = none ∧
      r' = { r with
        nextPtr := r.nextPtr + 1
        players := r.players.insert client.ref.id client
        masterOrder := r.masterOrder ++ [client.ref.id]
        info := { r.info with
          players := UInt32.ofNat (r.players.insert client.ref.id client).entries.length }
        lastMsg := r.lastMsg.insert client.ref.id (marshalULong now)
        out := o }) := by
  obtain ⟨m, ⟨old, rfl, -, rfl⟩ | ⟨rfl, -, rfl⟩⟩ := joinPlayer_spec h
  · exact ⟨_, .inl ⟨old, rfl, rfl⟩⟩
  · exact ⟨_, .inr ⟨rfl, rfl⟩⟩

/-- What a successful `msgJoin` does: answer with an error, or admit the client. -/
theorem msgJoin_spec {info : Pb.ClientInfo} {now : UInt64} (h : r.msgJoin info now = .ok r') :
    (∃ code f, r' = r.emit (.err code f)) ∨
    (info.id ∉ r.watchers ∧
      (r.players.lookup info.id = none →
        UInt32.ofNat r.players.entries.length < r.info.maxPlayers) ∧
      ∃ client, newClient r.nextPtr info true 0 = .ok client ∧
        r.joinPlayer (r.players.lookup info.id) client now = .ok r') := by
  unfold msgJoin at h
  split at h
  · exact .inl ⟨_, _, (Except.ok.inj h).symm⟩
  split at h
  · exact .inl ⟨_, _, (Except.ok.inj h).symm⟩
  split at h
  · exact .inl ⟨_, _, (Except.ok.inj h).symm⟩
  rename_i hw hfull
  split at h
  · exact .inl ⟨_, _, (Except.ok.inj h).symm⟩
  · rename_i client hc
    refine .inr ⟨hw, ?_, client, hc, h⟩
    simpa using hfull

theorem msgJoin_ok {info : Pb.ClientInfo} {now : UInt64} (h : r.msgJoin info now = .ok r') :
    (∃ o, r' = { r with out := o }) ∨
    (info.id ∉ r.watchers ∧
      (r.players.lookup info.id = none →
        UInt32.ofNat r.players.entries.length < r.info.maxPlayers) ∧
      ∃ client, newClient r.nextPtr info true 0 = .ok client ∧
        r.joinPlayer (r.players.lookup info.id) client now = .ok r') := by
  rcases msgJoin_spec h with ⟨_, _, rfl⟩ | h
  · exact .inl ⟨_, rfl⟩
  · exact .inr h

/-- Everything a successful `watchWatcher` does: the client replaces a watcher of its id,
which is told, and whose node count leaves the total; its own joins it, the total is
published and the `JoinedInfo` answers. -/
theorem watchWatcher_spec {client : Client} (h : r.watchWatcher client = .ok r') : ∃ m,
    r.master = some m ∧
    ((r.watchers.lookup client.ref.id = none ∧ r' = { r with
        nextPtr := r.nextPtr + 1
        watchers := r.watchers.insert client.ref.id client
        info := { r.info with watchers := r.info.watchers + client.nodeCount }
        out := r.out ++ [.updateRoomInfo { r.info with watchers := r.info.watchers + client.nodeCount },
          .joined ⟨{ r.info with watchers := r.info.watchers + client.nodeCount },
            r.players.entries.map (·.2.info), client.ref, m.id, r.deadline⟩] }) ∨
    ∃ old, r.watchers.lookup client.ref.id = some old ∧ r' = { r with
        nextPtr := r.nextPtr + 1
        watchers := r.watchers.insert client.ref.id client
        info := { r.info with watchers := r.info.watchers - old.nodeCount + client.nodeCount }
        out := r.out ++ [.removed old.ref (utf8 "client rejoined as a new client"),
          .updateRoomInfo { r.info with watchers := r.info.watchers - old.nodeCount + client.nodeCount },
          .joined ⟨{ r.info with watchers := r.info.watchers - old.nodeCount + client.nodeCount },
            r.players.entries.map (·.2.info), client.ref, m.id, r.deadline⟩] }) := by
  unfold watchWatcher at h
  cases hc : r.watchers.lookup client.ref.id <;> simp only [hc] at h <;>
    obtain ⟨m, hm, h⟩ := bind_eq_ok.1 h <;> cases h
  · exact ⟨m, masterRef_ok hm, .inl ⟨rfl, by simp⟩⟩
  · exact ⟨m, masterRef_ok hm, .inr ⟨_, rfl, by simp⟩⟩

theorem watchWatcher_ok {client : Client} (h : r.watchWatcher client = .ok r') : ∃ o,
    r' = { r with
      nextPtr := r.nextPtr + 1
      watchers := r.watchers.insert client.ref.id client
      info := { r.info with
        watchers := ((r.watchers.lookup client.ref.id).elim r.info.watchers fun old =>
          r.info.watchers - old.nodeCount) + client.nodeCount }
      out := o } := by
  obtain ⟨m, -, ⟨hc, rfl⟩ | ⟨old, hc, rfl⟩⟩ := watchWatcher_spec h <;> exact ⟨_, by rw [hc]; rfl⟩

/-- What a successful `msgWatch` does: answer with an error, or admit the watcher. -/
theorem msgWatch_spec {info : Pb.ClientInfo} {n : UInt32} (h : r.msgWatch info n = .ok r') :
    (∃ code f, r' = r.emit (.err code f)) ∨
    (info.id ∉ r.players ∧ ∃ client, newClient r.nextPtr info false n = .ok client ∧
      r.watchWatcher client = .ok r') := by
  unfold msgWatch at h
  split at h
  · exact .inl ⟨_, _, (Except.ok.inj h).symm⟩
  split at h
  · exact .inl ⟨_, _, (Except.ok.inj h).symm⟩
  rename_i hp
  split at h
  · exact .inl ⟨_, _, (Except.ok.inj h).symm⟩
  · exact .inr ⟨hp, _, ‹_›, h⟩

theorem msgWatch_ok {info : Pb.ClientInfo} {n : UInt32} (h : r.msgWatch info n = .ok r') :
    (∃ o, r' = { r with out := o }) ∨
    (info.id ∉ r.players ∧ ∃ client, newClient r.nextPtr info false n = .ok client ∧
      r.watchWatcher client = .ok r') := by
  rcases msgWatch_spec h with ⟨_, _, rfl⟩ | h
  · exact .inl ⟨_, rfl⟩
  · exact .inr h

/-! ## The control plane's other requests -/

theorem msgGetRoomInfo_spec {ri : Pb.RoomInfo} (h : r.msgGetRoomInfo ri = .ok r') :
    ∃ cis lmt m, r.master = some m ∧ r' = r.emit (.roomInfoRes ⟨ri, cis, m.id, lmt⟩) := by
  obtain ⟨cis, -, h⟩ := bind_eq_ok.1 h
  obtain ⟨lmt, -, h⟩ := bind_eq_ok.1 h
  obtain ⟨m, hm, h⟩ := bind_eq_ok.1 h
  exact ⟨cis, lmt, m, masterRef_ok hm, (Except.ok.inj h).symm⟩

theorem msgAdminKick_spec {t : ClientID} (h : r.msgAdminKick t = .ok r') :
    (r.players.lookup t = none ∧ r' = r.emit (.adminKickRes (some (.playerNotFound t)))) ∨
    ∃ tc r₁, r.players.lookup t = some tc ∧
      r.removeClient tc.ref (utf8 "kicked by admin") = .ok r₁ ∧
      r' = r₁.emit (.adminKickRes none) := by
  unfold msgAdminKick at h
  split at h
  · exact .inl ⟨‹_›, (Except.ok.inj h).symm⟩
  · obtain ⟨r₁, h₁, h⟩ := bind_eq_ok.1 h
    exact .inr ⟨_, r₁, ‹_›, h₁, (Except.ok.inj h).symm⟩

/-- An admin's kick of a present player removes it, then answers with no error. -/
theorem msgAdminKick_of_lookup {t : ClientID} {tc : Client} {r₁ : Room}
    (ht : r.players.lookup t = some tc)
    (hr : r.removeClient tc.ref (utf8 "kicked by admin") = .ok r₁) :
    r.msgAdminKick t = .ok (r₁.emit (.adminKickRes none)) := by
  unfold msgAdminKick
  rw [ht]
  simp only [hr, ok_bind]
  rfl

/-- What a successful `msgAdminKick` does: reply, or remove the target, then reply. -/
theorem msgAdminKick_ok {t : ClientID} (h : r.msgAdminKick t = .ok r') :
    (∃ o, r' = { r with out := o }) ∨
    ∃ tc r₁, r.players.lookup t = some tc ∧
      r.removeClient tc.ref (utf8 "kicked by admin") = .ok r₁ ∧
      r' = r₁.emit (.adminKickRes none) := by
  rcases msgAdminKick_spec h with ⟨-, rfl⟩ | h
  · exact .inl ⟨_, rfl⟩
  · exact .inr h

/-! ## Client messages -/

theorem updateLastMsg_cases (cid : ClientID) (now : UInt64) :
    r.updateLastMsg cid now = r ∨ r.updateLastMsg cid now = r.writeLastMsg cid now := by
  unfold updateLastMsg
  split
  · exact .inr rfl
  · exact .inl rfl

theorem updateLastMsg_players (cid : ClientID) (now : UInt64) :
    (r.updateLastMsg cid now).players = r.players := by
  rcases updateLastMsg_cases (r := r) cid now with h | h <;> rw [h]; rfl

theorem updateLastMsg_info (cid : ClientID) (now : UInt64) :
    (r.updateLastMsg cid now).info = r.info := by
  rcases updateLastMsg_cases (r := r) cid now with h | h <;> rw [h]; rfl

theorem updateLastMsg_done (cid : ClientID) (now : UInt64) :
    (r.updateLastMsg cid now).done = r.done := by
  rcases updateLastMsg_cases (r := r) cid now with h | h <;> rw [h]; rfl

theorem updateLastMsg_out (cid : ClientID) (now : UInt64) :
    (r.updateLastMsg cid now).out = r.out := by
  rcases updateLastMsg_cases (r := r) cid now with h | h <;> rw [h]; rfl

theorem msgPing_spec (c : ClientRef) (t : UInt64) :
    (r.isMember c ∧
      r.msgPing c t = r.emit (.sendSystem c (newEvPong t r.info.watchers r.lastMsg))) ∨
    (¬r.isMember c ∧ r.msgPing c t = r) := by
  unfold msgPing
  split
  · exact .inl ⟨‹_›, rfl⟩
  · exact .inr ⟨‹_›, rfl⟩

theorem msgNodeCount_spec (c : ClientRef) (n : UInt32) :
    r.msgNodeCount c n = r ∨ ∃ w, r.watchers.lookup c.id = some w ∧ w.ref = c ∧
      r.msgNodeCount c n = { r with
        info := { r.info with watchers := r.info.watchers - w.nodeCount + n }
        watchers := r.watchers.insert c.id { w with nodeCount := n }
        out := r.out ++ [.updateRoomInfo { r.info with watchers := r.info.watchers - w.nodeCount + n }] } := by
  unfold msgNodeCount
  split
  · split
    · exact .inl rfl
    · rename_i hne
      exact .inr ⟨_, ‹_›, by by_contra h; exact hne (.inl h), rfl⟩
  · exact .inl rfl

/-- `msgNodeCount` changes nothing, or sets the live watcher's node count and moves the
total by the difference. -/
theorem msgNodeCount_eq (c : ClientRef) (n : UInt32) :
    r.msgNodeCount c n = r ∨ ∃ w o, r.watchers.lookup c.id = some w ∧ w.ref = c ∧
      r.msgNodeCount c n = { r with
        info := { r.info with watchers := r.info.watchers - w.nodeCount + n }
        watchers := r.watchers.insert c.id { w with nodeCount := n }
        out := o } := by
  rcases msgNodeCount_spec (r := r) c n with h | ⟨w, hw, hc, h⟩
  · exact .inl h
  · exact .inr ⟨w, _, hw, hc, h⟩

theorem applyRoomProps_eq (r : Room) (p : RoomPropPayload) : ∃ pub priv pubB privB,
    r.applyRoomProps p =
      { r with
        publicProps := pub
        privateProps := priv
        info := { r.info with publicProps := pubB, privateProps := privB } } := by
  unfold applyRoomProps
  split <;> split <;> exact ⟨_, _, _, _, rfl⟩

/-- Everything a successful `msgRoomProp` does: deny a sender that is not the master; or set
the settings, merge the props, publish, tell every player a new deadline if it changed,
answer `EvSucceeded` and announce `EvRoomProp`. -/
theorem msgRoomProp_spec {c : ClientRef} {msg : RegularMsg} {p : RoomPropPayload}
    (h : r.msgRoomProp c msg p = .ok r') :
    (r.master ≠ some c ∧ (∃ m, r.master = some m) ∧ r' = r.sendTo c (newEvPermissionDenied msg)) ∨
    (r.master = some c ∧ ∃ (pub priv : Dict) (pubB privB : Bytes) (i : Pb.RoomInfo) (d : Nat)
      (nd : List Out),
      i = { r.info with
        visible := p.visible
        joinable := p.joinable
        watchable := p.watchable
        searchGroup := p.searchGroup
        maxPlayers := p.maxPlayer
        publicProps := pubB
        privateProps := privB } ∧
      (d = r.deadline ∧ nd = [] ∨
        d = p.clientDeadline.toNat ∧ nd = r.players.entries.map fun e => .newDeadline e.2.ref d) ∧
      r' = { r with
        info := i
        publicProps := pub
        privateProps := priv
        deadline := d
        out := r.out ++ .updateRoomInfo i :: nd ++ [.send c (newEvSucceeded msg)] ++
          r.players.entries.map (fun e => .send e.2.ref (newEvRoomProp c.id p.eventPayload)) ++
          r.watchers.entries.map (fun e => .send e.2.ref (newEvRoomProp c.id p.eventPayload)) }) := by
  unfold msgRoomProp at h
  split at h
  · obtain ⟨m, hm, rfl⟩ := map_eq_ok.1 h
    exact .inl ⟨‹_›, ⟨m, masterRef_ok hm⟩, rfl⟩
  · rename_i hm
    rw [not_not] at hm
    cases h
    obtain ⟨pub, priv, pubB, privB, he⟩ := applyRoomProps_eq { r with
      info := { r.info with
        visible := p.visible
        joinable := p.joinable
        watchable := p.watchable
        searchGroup := p.searchGroup
        maxPlayers := p.maxPlayer } } p
    refine .inr ⟨hm, pub, priv, pubB, privB, ?_⟩
    dsimp only
    rw [he]
    split
    · exact ⟨_, _, _, rfl, .inr ⟨rfl, rfl⟩, by simp⟩
    · exact ⟨_, _, _, rfl, .inl ⟨rfl, rfl⟩, by simp⟩

/-- Everything `msgClientProp` does: deny a watcher; ignore a stale player; or merge the
player's props, answer `EvSucceeded` and announce `EvClientProp`. -/
theorem msgClientProp_spec (c : ClientRef) (msg : RegularMsg) (props : Dict) :
    (c.isPlayer = false ∧ r.msgClientProp c msg props = r.sendTo c (newEvPermissionDenied msg)) ∨
    (c.isPlayer = true ∧ ¬r.isLivePlayer c ∧ r.msgClientProp c msg props = r) ∨
    (c.isPlayer = true ∧ ∃ cl ps, r.players.lookup c.id = some cl ∧ cl.ref = c ∧
      (ps = r.players ∨ ∃ np, ps = r.players.insert c.id
        { cl with props := np, info := { cl.info with props := marshalDict np } }) ∧
      r.msgClientProp c msg props = { r with
        players := ps
        out := r.out ++ [.send c (newEvSucceeded msg)] ++
          ps.entries.map (fun e => .send e.2.ref (newEvClientProp c.id msg.payload)) ++
          r.watchers.entries.map (fun e => .send e.2.ref (newEvClientProp c.id msg.payload)) }) := by
  unfold msgClientProp
  split
  · rename_i hp
    exact .inl ⟨by simpa using hp, rfl⟩
  rename_i hp
  simp only [Bool.not_eq_true', Bool.not_eq_false] at hp
  split
  · rename_i cl hcl
    split
    · refine .inr (.inl ⟨hp, fun hl => ?_, rfl⟩)
      rw [isLivePlayer, hcl] at hl
      exact ‹¬_› (Option.some_inj.1 hl)
    · rw [not_not] at *
      split
      · exact .inr (.inr ⟨hp, cl, _, hcl, ‹_›, .inr ⟨mergeProps cl.props props, rfl⟩, by simp⟩)
      · exact .inr (.inr ⟨hp, cl, _, hcl, ‹_›, .inl rfl, by simp⟩)
  · refine .inr (.inl ⟨hp, fun hl => ?_, rfl⟩)
    rw [isLivePlayer, ‹r.players.lookup c.id = none›] at hl
    cases hl

theorem msgTargets_spec (c : ClientRef) (msg : RegularMsg) (ts : List ClientID) (d : Bytes) :
    (¬r.isMember c ∧ r.msgTargets c msg ts d = r) ∨
    (r.isMember c ∧ r.msgTargets c msg ts d = { r with
      out := r.out ++ ts.filterMap (fun t => (r.players.lookup t).map fun c' =>
          Out.send c'.ref (newEvMessage c.id d)) ++
        if ts.filter (· ∉ r.players) = [] then []
        else [.send c (newEvTargetNotFound msg (ts.filter (· ∉ r.players)))] }) := by
  unfold msgTargets
  split
  · exact .inl ⟨‹_›, rfl⟩
  · refine .inr ⟨not_not.1 ‹_›, ?_⟩
    dsimp only
    split <;> simp [*]

theorem msgToMaster_spec {c : ClientRef} {d : Bytes} (h : r.msgToMaster c d = .ok r') :
    (¬r.isMember c ∧ r' = r) ∨
    (r.isMember c ∧ ∃ m, r.master = some m ∧ r' = r.sendTo m (newEvMessage c.id d)) := by
  unfold msgToMaster at h
  split at h
  · exact .inl ⟨‹_›, (Except.ok.inj h).symm⟩
  · obtain ⟨m, hm, h⟩ := bind_eq_ok.1 h
    exact .inr ⟨not_not.1 ‹_›, m, masterRef_ok hm, (Except.ok.inj h).symm⟩

theorem msgBroadcast_spec (c : ClientRef) (d : Bytes) :
    (r.isMember c ∧ r.msgBroadcast c d = r.broadcast (newEvMessage c.id d)) ∨
    (¬r.isMember c ∧ r.msgBroadcast c d = r) := by
  unfold msgBroadcast
  split
  · exact .inl ⟨‹_›, rfl⟩
  · exact .inr ⟨‹_›, rfl⟩

theorem switchMasterTo_spec (c : ClientRef) (msg : RegularMsg) (t : ClientID) :
    (r.players.lookup t = none ∧
      r.switchMasterTo c msg t = r.sendTo c (newEvTargetNotFound msg [t])) ∨
    ∃ tc, r.players.lookup t = some tc ∧ r.switchMasterTo c msg t = { r with
      master := some tc.ref
      out := r.out ++ [.send c (newEvSucceeded msg)] ++
        r.players.entries.map (fun e => .send e.2.ref (newEvMasterSwitched c.id tc.ref.id)) ++
        r.watchers.entries.map (fun e => .send e.2.ref (newEvMasterSwitched c.id tc.ref.id)) } := by
  unfold switchMasterTo
  split
  · exact .inl ⟨‹_›, rfl⟩
  · exact .inr ⟨_, ‹_›, by simp⟩

/-- `msgSwitchMaster`: a sender that is not the master is denied, and the switch goes on. -/
theorem msgSwitchMaster_spec {c : ClientRef} {msg : RegularMsg} {t : ClientID}
    (h : r.msgSwitchMaster c msg t = .ok r') :
    (r.master ≠ some c ∧ (∃ m, r.master = some m) ∧
      r' = (r.sendTo c (newEvPermissionDenied msg)).switchMasterTo c msg t) ∨
    (r.master = some c ∧ r' = r.switchMasterTo c msg t) := by
  unfold msgSwitchMaster at h
  split at h
  · obtain ⟨m, hm, rfl⟩ := map_eq_ok.1 h
    exact .inl ⟨‹_›, ⟨m, masterRef_ok hm⟩, rfl⟩
  · exact .inr ⟨not_not.1 ‹_›, (Except.ok.inj h).symm⟩

/-- What a successful `msgSwitchMaster` does: at most make the player under `target` the
master, whoever sent it. -/
theorem msgSwitchMaster_ok {c : ClientRef} {msg : RegularMsg} {t : ClientID}
    (h : r.msgSwitchMaster c msg t = .ok r') : ∃ o,
    r' = { r with out := o } ∨ ∃ tc, r.players.lookup t = some tc ∧
      r' = { r with master := some tc.ref, out := o } := by
  have hto : ∀ o₁, ∃ o,
      ({ r with out := o₁ } : Room).switchMasterTo c msg t = { r with out := o } ∨
      ∃ tc, r.players.lookup t = some tc ∧
        ({ r with out := o₁ } : Room).switchMasterTo c msg t =
          { r with master := some tc.ref, out := o } := fun o₁ => by
    rcases switchMasterTo_spec (r := { r with out := o₁ }) c msg t with ⟨-, he⟩ | ⟨tc, ht, he⟩
    · exact ⟨_, .inl he⟩
    · exact ⟨_, .inr ⟨tc, ht, he⟩⟩
  rcases msgSwitchMaster_spec h with ⟨-, -, rfl⟩ | ⟨-, rfl⟩
  exacts [hto _, hto r.out]

theorem msgKick_spec {c : ClientRef} {msg : RegularMsg} {t : ClientID} {m : Bytes}
    (h : r.msgKick c msg t m = .ok r') :
    (r.master ≠ some c ∧ (∃ m, r.master = some m) ∧ r' = r.sendTo c (newEvPermissionDenied msg)) ∨
    (r.master = some c ∧ r.players.lookup t = none ∧
      r' = r.sendTo c (newEvTargetNotFound msg [t])) ∨
    (r.master = some c ∧ ∃ tc, r.players.lookup t = some tc ∧
      (r.sendTo c (newEvSucceeded msg)).removeClient tc.ref m = .ok r') := by
  unfold msgKick at h
  split at h
  · obtain ⟨m, hm, rfl⟩ := map_eq_ok.1 h
    exact .inl ⟨‹_›, ⟨m, masterRef_ok hm⟩, rfl⟩
  rename_i hm
  rw [not_not] at hm
  split at h
  · exact .inr (.inl ⟨hm, ‹_›, (Except.ok.inj h).symm⟩)
  · exact .inr (.inr ⟨hm, _, ‹_›, h⟩)

/-- The master's kick of a present player answers the master, then removes the player. -/
theorem msgKick_of_master {c : ClientRef} (msg : RegularMsg) {t : ClientID} (m : Bytes)
    {tc : Client} (hm : r.master = some c) (ht : r.players.lookup t = some tc) :
    r.msgKick c msg t m = (r.sendTo c (newEvSucceeded msg)).removeClient tc.ref m := by
  unfold msgKick
  rw [if_neg (not_not.2 hm), ht]

/-- What a successful `msgKick` does: reply, or remove the target after the reply. -/
theorem msgKick_ok {c : ClientRef} {msg : RegularMsg} {t : ClientID} {m : Bytes}
    (h : r.msgKick c msg t m = .ok r') :
    (∃ o, r' = { r with out := o }) ∨
    ∃ tc o, r.players.lookup t = some tc ∧
      ({ r with out := o } : Room).removeClient tc.ref m = .ok r' := by
  rcases msgKick_spec h with ⟨-, -, rfl⟩ | ⟨-, -, rfl⟩ | ⟨-, tc, ht, h⟩
  · exact .inl ⟨_, rfl⟩
  · exact .inl ⟨_, rfl⟩
  · exact .inr ⟨tc, _, ht, h⟩

end Room

end Game
end WSNet2
