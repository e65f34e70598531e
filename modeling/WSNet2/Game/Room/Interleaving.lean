import WSNet2.Game.Room.Membership

/-!
# The loop and the removals it does not lock out

`MsgLoop` takes a message from `msgCh`, calls `updateLastMsg`, which looks the sender up in
`lastMsg` and, when it is there, writes a new time, and then the handler. A removal that
`sendTo` defers runs in a goroutine of its own once it holds the write lock of `muClients`.
Each handler holds that lock or its read lock while it reads or changes the membership, so no
removal runs inside a handler; but `updateLastMsg` holds no lock, and `msgGetRoomInfo` clones
`RoomInfo` before its `RLock`. A removal can therefore run

* between `updateLastMsg`'s lookup and its write,
* between the write and the handler's lock, and
* between `msgGetRoomInfo`'s clone and its `RLock`.

`msgJoin` and `msgWatch` read `Joinable` and `Watchable` before their lock too, but a removal
changes `RoomInfo` in its counts only (`removeClient_info`), so it can run there as well as
before the lookup.

This file defines:

* `LoopAt`, the loop's position in an iteration, and `Running`, a room with its position;
* `Running.Step`, the loop's steps with a removal at every position, and `Running.Run`;
* the embedding `Run.running` of the steps of `WSNet2.Game.Step`, which run a whole iteration
  at once.

The membership invariant holds over every such run (`MemberInv.of_running`), and the clone a
waiting `msgGetRoomInfo` holds agrees with `RoomInfo` but for the counts
(`Running.Run.clonedAgrees`). `lastMsg` does not keep to the players' ids: a player removed
between the lookup and the write gets its time written back after it left.
-/

namespace WSNet2
namespace Game

open Binary

/-- Where `MsgLoop` is. -/
inductive LoopAt
  /-- At `select`, between two iterations. -/
  | select
  /-- `updateLastMsg` has looked the sender of `msg` up in `lastMsg`, and `found` it there or
  not; its write has not run. -/
  | checked (msg : Msg) (now : UInt64) (found : Bool)
  /-- `updateLastMsg` is done, and the handler of `msg` waits for its lock. -/
  | handling (msg : Msg) (now : UInt64)
  /-- `msgGetRoomInfo` has cloned `RoomInfo` as `ri` and waits for `RLock`. -/
  | cloned (ri : Pb.RoomInfo)

/-- A running room, with the position of its loop. -/
structure Running where
  room : Room
  pos : LoopAt

namespace Running

/-- The steps of the loop and of the removals `sendTo` defers. -/
inductive Step : Running → Running → Prop
  /-- `select` takes a message other than `MsgCreate`; `updateLastMsg` looks its sender up. -/
  | check {r : Room} (now : UInt64) (m : Msg) : m.isCreate = false →
      Step ⟨r, .select⟩ ⟨r, .checked m now (decide (m.senderID ∈ r.lastMsg))⟩
  /-- `updateLastMsg` writes the time when the lookup found the sender. -/
  | write {r : Room} {m : Msg} {now : UInt64} {found : Bool} :
      Step ⟨r, .checked m now found⟩
        ⟨if found then r.writeLastMsg m.senderID now else r, .handling m now⟩
  /-- The handler of a message other than `MsgGetRoomInfo` runs under its lock. -/
  | handle {r r' : Room} {m : Msg} {now : UInt64} : m.isCreate = false → m ≠ .getRoomInfo →
      r.dispatch now m = .ok r' → Step ⟨r, .handling m now⟩ ⟨r', .select⟩
  /-- `msgGetRoomInfo` clones `RoomInfo`, holding no lock. -/
  | clone {r : Room} {now : UInt64} : Step ⟨r, .handling .getRoomInfo now⟩ ⟨r, .cloned r.info⟩
  /-- `msgGetRoomInfo` takes `RLock` and answers with the clone. -/
  | answer {r r' : Room} {ri : Pb.RoomInfo} : r.msgGetRoomInfo ri = .ok r' →
      Step ⟨r, .cloned ri⟩ ⟨r', .select⟩
  /-- A removal deferred by `sendTo` runs, holding `muClients`, wherever the loop is. -/
  | remove {r r' : Room} {pos : LoopAt} (c : ClientRef) (cause : Bytes) :
      r.removeClient c cause = .ok r' → Step ⟨r, pos⟩ ⟨r', pos⟩

/-- The runs from the room `r₀` at `select` while `done` is open, each state with the logical
times at which the players entered, as for `WSNet2.Game.Run`. -/
inductive Run (r₀ : Room) : Running → (ClientID → Nat) → Nat → Prop
  | start : Run r₀ ⟨r₀, .select⟩ (fun _ => 0) 1
  | step {s s' : Running} {st : ClientID → Nat} {k : Nat} :
      Run r₀ s st k → s.room.done = false → Step s s' →
      Run r₀ s' (Room.restamp s.room s'.room st k) (k + 1)

end Running

/-! ## The whole iterations -/

/-- The lookup and the write together are `updateLastMsg`. -/
theorem write_checked (r : Room) (cid : ClientID) (now : UInt64) :
    (if decide (cid ∈ r.lastMsg) then r.writeLastMsg cid now else r) =
      r.updateLastMsg cid now := by
  by_cases h : cid ∈ r.lastMsg <;> simp [Room.updateLastMsg, h]

/-- An iteration of the loop with no removal inside it is a run of `Running.Step`s. -/
theorem Running.Run.loopStep {s : Running} (h : Running.Run r₀ s st k) (hat : s.pos = .select)
    (hd : s.room.done = false) {now : UInt64} {m : Msg} (hm : m.isCreate = false)
    (hl : s.room.loopStep now m = .ok r') : ∃ st' k', Running.Run r₀ ⟨r', .select⟩ st' k' := by
  obtain ⟨r, pos⟩ := s
  subst hat
  have hc := (h.step hd (.check now m hm)).step hd .write
  have hd' : (r.updateLastMsg m.senderID now).done = false :=
    (Room.updateLastMsg_done _ _).trans hd
  rw [Room.loopStep, ← write_checked] at hl
  rw [← write_checked] at hd'
  by_cases hg : m = .getRoomInfo
  · subst hg
    exact ⟨_, _, (hc.step hd' .clone).step hd' (.answer hl)⟩
  · exact ⟨_, _, hc.step hd' (.handle hm hg hl)⟩

/-- Every run of `Step`s is a run of `Running.Step`s, at other logical times. -/
theorem Run.running (h : Run r₀ r st k) : ∃ st' k', Running.Run r₀ ⟨r, .select⟩ st' k' := by
  induction h with
  | start => exact ⟨_, _, .start⟩
  | step _ hd hs ih =>
    obtain ⟨st', k', h'⟩ := ih
    cases hs with
    | dispatch now m hm hl => exact h'.loopStep rfl hd hm hl
    | remove c cause hr => exact ⟨_, _, h'.step hd (.remove c cause hr)⟩

/-! ## What every run keeps -/

namespace Room

variable {st : ClientID → Nat} {k : Nat}

/-- One step keeps the membership invariant, with the arrival times moved on by one tick. -/
theorem MemberInv.of_runningStep {s s' : Running} (h : MemberInv st k s.room)
    (hs : Running.Step s s') (hd : s'.room.done = false) :
    MemberInv (restamp s.room s'.room st k) (k + 1) s'.room := by
  cases hs with
  | check now m hm => exact h.restamp_of_no_entry fun _ => id
  | @write r m now found =>
    cases found
    · exact h.restamp_of_no_entry fun _ => id
    · exact (h.of_writeLastMsg m.senderID now).restamp_of_no_entry fun _ => id
  | handle hm _ hr => exact h.of_dispatch hm hr hd
  | clone => exact h.restamp_of_no_entry fun _ => id
  | answer hr =>
    have hs := same_msgGetRoomInfo hr
    exact (h.of_same hs).restamp_of_no_entry fun id hid => (hs.mem_players id).1 hid
  | remove c cause hr =>
    exact (h.of_removeClient hr hd).restamp_of_no_entry (removeClient_players_sub hr)

theorem MemberInv.of_running {r₀ : Room} {s : Running} (h₀ : MemberInv (fun _ => 0) 1 r₀)
    (hrun : Running.Run r₀ s st k) (hd : s.room.done = false) : MemberInv st k s.room := by
  induction hrun with
  | start => exact h₀
  | step _ hd' hs ih => exact (ih hd').of_runningStep hs hd

end Room

/-- Where `msgGetRoomInfo` waits for `RLock`, the room's `RoomInfo` is the clone but for the
player and watcher counts. -/
def Running.ClonedAgrees (s : Running) : Prop :=
  ∀ ri, s.pos = .cloned ri → ∃ p w, s.room.info = { ri with players := p, watchers := w }

theorem Running.Step.clonedAgrees {s s' : Running} (hs : Running.Step s s')
    (h : s.ClonedAgrees) : s'.ClonedAgrees := by
  cases hs with
  | clone => rintro ri ⟨⟩; exact ⟨_, _, rfl⟩
  | remove c cause hr =>
    intro ri hat
    obtain ⟨p, w, he⟩ := h ri hat
    obtain ⟨p', w', he'⟩ := Room.removeClient_info hr
    exact ⟨p', w', by rw [he', he]⟩
  | check | write | handle | answer => rintro ri ⟨⟩

theorem Running.Run.clonedAgrees {r₀ : Room} {s : Running} {st : ClientID → Nat} {k : Nat}
    (hrun : Running.Run r₀ s st k) : s.ClonedAgrees := by
  induction hrun with
  | start => rintro ri ⟨⟩
  | step _ _ hs ih => exact hs.clonedAgrees ih

/-! ## `lastMsg` -/

/-- From the room `M` created, `A` joins; `A`'s next message, a ping, is taken and
`updateLastMsg` finds `A` in `lastMsg`; a removal of `A` deferred after a failed send runs;
the write then puts `A`'s time back, and `msgPing` ignores the departed sender. `lastMsg` holds
`A`, who is no player, in a room that is still open. -/
theorem run_lastMsg_of_removed :
    ∃ s st k, Running.Run createdRoom s st k ∧ s.room.done = false ∧
      [65] ∈ s.room.lastMsg ∧ [65] ∉ s.room.players ∧
      (∀ id ∈ s.room.lastMsg, id.length < 256) ∧ s.room.lastMsg.entries.length < 256 := by
  have h₁ := (@Running.Run.start createdRoom).step rfl (.check 6 (.join ⟨[65], []⟩) rfl)
  have h₂ := h₁.step rfl .write
  have h₃ := h₂.step rfl (.handle rfl nofun rfl)
  have h₄ := h₃.step rfl (.check 7 (.ping ⟨1, [65], true⟩ 7) rfl)
  have h₅ := h₄.step rfl (.remove ⟨1, [65], true⟩ [] rfl)
  have h₆ := h₅.step rfl .write
  have h₇ := h₆.step rfl (.handle rfl nofun rfl)
  exact ⟨_, _, _, h₇, rfl, by decide, by decide, by decide, by decide⟩

/-- In every state a room created with `RoomInfo.Players = 1` reaches while `done` is open,
with removals at every point the loop does not lock them out: the membership invariant at the
run's arrival stamps, `masterOrder` without duplicates, and when `removePlayer` removes the
master and players remain, the new master is the player at the head of `masterOrder`, the
one present longest. But `lastMsg` can hold an id that no player has. -/
theorem membership_invariant_lastMsg_race :
    (∀ {r₀ : Room} {s : Running} {st : ClientID → Nat} {k : Nat}, Created r₀ →
      r₀.info.players = 1 → Running.Run r₀ s st k → s.room.done = false →
      Room.MemberInv st k s.room ∧ s.room.masterOrder.Nodup ∧
      ∀ c cause r', s.room.master = some c → s.room.removePlayer c cause = .ok r' →
        r'.players.entries ≠ [] →
        ∃ first rest, r'.masterOrder = first :: rest ∧ first ∈ r'.players ∧
          r'.master = (r'.players.lookup first).map Client.ref ∧
          ∀ id ∈ r'.players, id ≠ first → st first < st id) ∧
    ∃ s st k, Running.Run createdRoom s st k ∧ s.room.done = false ∧
      [65] ∈ s.room.lastMsg ∧ [65] ∉ s.room.players := by
  refine ⟨fun h₀ hp hrun hd => ?_, ?_⟩
  · have h := (Room.MemberInv.of_created h₀ hp).of_running hrun hd
    exact ⟨h, h.nodup, fun _ _ _ hm hr hne => h.removePlayer_master hd hm hr hne⟩
  · obtain ⟨s, st, k, hrun, hd, hin, hout, -⟩ := run_lastMsg_of_removed
    exact ⟨s, st, k, hrun, hd, hin, hout⟩

end Game
end WSNet2
