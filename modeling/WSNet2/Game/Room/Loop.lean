import WSNet2.Game.Room.Dispatch

/-!
# `MsgLoop` and `select`

The room's goroutine, the senders into `msgCh` and the removals `sendTo` defers, as one
step relation. `MsgLoop` selects between `<-r.Done()` and `<-r.msgCh`; when both are ready
Go picks either, so a message already queued when `done` closes may still be dispatched
(`Loop.Step.recv` has no guard on `done`). A `MsgJoin` dispatched so adds a player to a
room whose last player has left, with the departed master still in `r.master`, and the
new player's removal then closes `done` a second time (`join_after_done`).
-/

namespace WSNet2
namespace Game

open Binary

/-- `RoomMsgChSize`: the capacity of `msgCh`. -/
def roomMsgChSize : Nat := 10

/-- `MsgLoop`'s view of a room: the room, the messages queued in `msgCh`, oldest first,
and whether the loop has left (`break Loop`). -/
structure Loop where
  room : Room
  msgCh : List Msg
  exited : Bool

namespace Loop

/-- The steps of `MsgLoop`, of the goroutines that send into `msgCh`, and of the removals
`sendTo` defers. -/
inductive Step : Loop → Loop → Prop
  /-- A client or the control plane sends into `msgCh` while it has room. -/
  | send {s : Loop} (m : Msg) : m.isCreate = false →
      s.msgCh.length < roomMsgChSize → Step s { s with msgCh := s.msgCh ++ [m] }
  /-- `select` takes `<-r.msgCh`: `updateLastMsg`, then `dispatch`, `done` closed or not. -/
  | recv {s : Loop} {r' : Room} (now : UInt64) (m : Msg) (rest : List Msg) :
      s.exited = false → s.msgCh = m :: rest → s.room.loopStep now m = .ok r' →
      Step s { s with room := r', msgCh := rest }
  /-- `select` takes `<-r.Done()` and leaves the loop. -/
  | exit {s : Loop} : s.exited = false → s.room.done = true → Step s { s with exited := true }
  /-- `drainMsg` discards a message. -/
  | drain {s : Loop} (m : Msg) (rest : List Msg) :
      s.exited = true → s.msgCh = m :: rest → Step s { s with msgCh := rest }
  /-- A removal deferred by `sendTo` runs, holding `muClients`. -/
  | remove {s : Loop} {r' : Room} (c : ClientRef) (cause : Bytes) :
      s.room.removeClient c cause = .ok r' → Step s { s with room := r' }

/-- The states a run of `Step`s reaches from `s₀`. -/
inductive Reach (s₀ : Loop) : Loop → Prop
  | refl : Reach s₀ s₀
  | step {s s' : Loop} : Reach s₀ s → Step s s' → Reach s₀ s'

/-- Every room a run of the loop reaches is reachable by the room's own steps. -/
theorem Reach.reachable {s₀ s : Loop} (h : Reach s₀ s)
    (h₀ : ∀ m ∈ s₀.msgCh, m.isCreate = false) :
    Reachable s₀.room s.room ∧ ∀ m ∈ s.msgCh, m.isCreate = false := by
  induction h with
  | refl => exact ⟨.refl, h₀⟩
  | step _ hs ih =>
    obtain ⟨hr, hq⟩ := ih
    cases hs with
    | send m hm _ =>
      refine ⟨hr, fun m' hm' => ?_⟩
      rcases List.mem_append.1 hm' with hm' | hm'
      · exact hq m' hm'
      · rw [List.mem_singleton.1 hm']; exact hm
    | recv now m rest _ he hl =>
      rw [he] at hq
      exact ⟨.step hr (.dispatch now m (hq m (List.mem_cons_self _ _)) hl),
        fun m' hm' => hq m' (List.mem_cons_of_mem _ hm')⟩
    | exit => exact ⟨hr, hq⟩
    | drain m rest _ he =>
      rw [he] at hq
      exact ⟨hr, fun m' hm' => hq m' (List.mem_cons_of_mem _ hm')⟩
    | remove c cause hrm => exact ⟨.step hr (.remove c cause hrm), hq⟩

end Loop

/-- From a room created by `M`: `M` sends `Leave` and the lobby sends `A`'s `Join` while
`done` is open; the loop dispatches the `Leave`, which closes `done`, and `select` then takes
the queued `Join`. The room has `done` closed, a player `A`, and the departed `M` as master;
a removal of `A` (a deferred one after a failed send, say) closes `done` again and panics. -/
theorem join_after_done :
    let s₀ : Loop := ⟨createdRoom, [], false⟩
    ∃ s, Loop.Reach s₀ s ∧ s.room.done = true ∧ s.exited = false ∧ [65] ∈ s.room.players ∧
      s.room.master = some ⟨0, [77], true⟩ ∧ ¬s.room.isLivePlayer ⟨0, [77], true⟩ ∧
      s.room.removeClient ⟨1, [65], true⟩ (utf8 "timeout") = .error .closeOfClosedChannel :=
  ⟨_, .step (.step (.step (.step .refl (.send (.leave ⟨0, [77], true⟩ []) rfl (by decide)))
    (.send (.join ⟨[65], []⟩) rfl (by decide))) (.recv 6 _ _ rfl rfl rfl))
    (.recv 7 _ _ rfl rfl rfl),
    rfl, rfl, by decide, rfl, by decide, rfl⟩

end Game
end WSNet2
