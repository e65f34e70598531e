import WSNet2.Game.Room.Delivery
import WSNet2.Game.Room.Notify
import WSNet2.Game.Publisher

/-!
# What the database holds of a room's `RoomInfo`

The room and its `roomInfoUpdater` run side by side. Each `updateRoomInfo` a handler makes
hands a snapshot to the publisher (`Publisher.Step.update`); the updater takes tokens,
reads and writes on its own goroutine. Run together from `NewRoom`, the two keep the
database in step with the room (`database_holds_room_info`): the publisher's
`lastRoomInfo` is the room's `RoomInfo`; that `RoomInfo` always has a token pending, a
fetch under way or has been read; only `RoomInfo`s the room had are written, in the
order it had them; and whenever the updater rests with no token pending, the database
holds the room's current `RoomInfo`, as the last write or as the row written when the room
was created.

This composes the room's side, `lastSnapshot` of its effects is its `RoomInfo`, with the
publisher's invariant. The room steps while `done` is open; `roomInfoUpdater` leaves its
loop once `done` closes, which a run models by taking no more updater steps.
-/

namespace WSNet2
namespace Game

open Binary

/-! ## The publisher fed by the room -/

namespace Publisher

variable {α : Type} {s s' : Publisher α}

/-- The publishing side of `updateRoomInfo` as a function: `Step.update`'s state. -/
def publish (s : Publisher α) (ri : α) : Publisher α :=
  { s with lastRoomInfo := ri, chRoomInfo := true, published := s.published ++ [ri] }

/-- When the updater rests, it has written nothing yet or last wrote what it last read. -/
def Rested (s : Publisher α) : Prop :=
  s.updater = .idle →
    (s.writes = [] ∧ s.lastRead = 0) ∨ s.writes.getLast?.map Prod.fst = some s.lastRead

theorem rested_init (ri : α) : (init ri).Rested := fun _ => .inl ⟨rfl, rfl⟩

theorem Rested.step (hi : Inv s) (h : s.Rested) (hs : Step s s') : s'.Rested := by
  cases hs with
  | update ri => exact h
  | receive => exact fun h' => by cases h'
  | retry => exact h
  | read => exact fun h' => by cases h'
  | write pos ri hw =>
    obtain ⟨rfl, -⟩ := hi.writing pos ri hw
    exact fun _ => .inr (by simp)

theorem publish_foldl (l : List α) (s : Publisher α) :
    Inv s → s.Rested → Inv (l.foldl publish s) ∧ (l.foldl publish s).Rested ∧
      (l.foldl publish s).published = s.published ++ l ∧
      (l.foldl publish s).lastRead = s.lastRead ∧ (l.foldl publish s).writes = s.writes := by
  induction l generalizing s with
  | nil => exact fun hi hr => ⟨hi, hr, by simp, rfl, rfl⟩
  | cons ri l ih =>
    intro hi hr
    obtain ⟨hi', hr', hp, hl, hw⟩ := ih (s.publish ri) (hi.step (.update ri)) hr
    exact ⟨hi', hr', by rw [List.foldl_cons, hp]; simp [publish], hl, hw⟩

end Publisher

/-! ## The room and its publisher -/

/-- A game node's state for one room: the room and its `RoomInfo` publisher. -/
structure RoomNode where
  room : Room
  pub : Publisher Pb.RoomInfo

/-- The steps of a room and its updater, interleaved. -/
inductive RoomNode.Step : RoomNode → RoomNode → Prop
  /-- The running room takes a step; each snapshot it hands over is published in order. -/
  | room {n : RoomNode} {r' : Room} : n.room.done = false → Game.Step n.room r' →
      RoomNode.Step n
        ⟨r', ((r'.out.drop n.room.out.length).filterMap Out.snapshot).foldl Publisher.publish n.pub⟩
  /-- The updater takes a step of its own. -/
  | updater {n : RoomNode} {p' : Publisher Pb.RoomInfo} : Publisher.Step n.pub p' →
      p'.published = n.pub.published → RoomNode.Step n ⟨n.room, p'⟩

/-- The states a run of `RoomNode.Step`s reaches from `n₀`. -/
inductive RoomNode.Reach (n₀ : RoomNode) : RoomNode → Prop
  | refl : Reach n₀ n₀
  | step {n n' : RoomNode} : Reach n₀ n → RoomNode.Step n n' → Reach n₀ n'

/-- `NewRoom`'s node: the room `MsgCreate` leaves, and the publisher started with the
`RoomInfo` `NewRoom` built. -/
def RoomNode.start (r₀ : Room) : RoomNode := ⟨r₀, Publisher.init r₀.info⟩

/-- The snapshots the room has handed over, after `d`, end with the last one. -/
theorem getLast?_snapshots (d : Pb.RoomInfo) (l : List Out) :
    (d :: l.filterMap Out.snapshot).getLast? = some (lastSnapshot d l) := by
  induction l generalizing d with
  | nil => rfl
  | cons o l ih =>
    cases ho : o.snapshot with
    | none => simpa [List.filterMap_cons, ho, Option.getD_none] using ih d
    | some s => simpa [List.filterMap_cons, ho, Option.getD_some, List.getLast?_cons_cons] using ih s

/-- `MsgCreate` hands over no snapshot. -/
theorem Created.snapshots {r : Room} (h : Created r) : r.out.filterMap Out.snapshot = [] := by
  obtain ⟨master, now, hN, -⟩ := h
  rename_i rN
  have h0 : rN.out = [] := by
    unfold newRoom at hN
    split at hN
    · cases hN; rfl
    · cases hN
  unfold Room.msgCreate
  split <;> simp [h0, Out.snapshot, List.filterMap_map, Function.comp_def]

/-- A step of a running room only appends effects. -/
theorem Room.MemberInv.step_appends {r r' : Room} {st : ClientID → Nat} {k : Nat}
    (h : Room.MemberInv st k r) (hs : Step r r') : ∃ new, r'.out = r.out ++ new := by
  cases hs with
  | dispatch now m _ hr =>
    obtain ⟨new, hn, -⟩ := h.loopStep_addressed hr
    exact ⟨new, hn⟩
  | remove c cause hr =>
    obtain ⟨new, hn, -⟩ :=
      Room.removeClient_addressed (s := none) hr h.players_keyed h.watchers_keyed
    exact ⟨new, hn⟩

namespace RoomNode

variable {r₀ : Room} {n n' : RoomNode}

/-- What holds of every node a created room reaches. -/
structure Inv (r₀ : Room) (n : RoomNode) : Prop where
  pub : n.pub.Inv
  rested : n.pub.Rested
  /-- The publisher has seen `NewRoom`'s `RoomInfo`, then each snapshot the room handed over. -/
  published : n.pub.published = r₀.info :: n.room.out.filterMap Out.snapshot
  synced : n.room.Synced r₀.info
  run : n.room.done = false → ∃ st k, Run r₀ n.room st k

theorem Inv.of_start (h₀ : Created r₀) : Inv r₀ (start r₀) where
  pub := Publisher.inv_init _
  rested := Publisher.rested_init _
  published := by
    show [r₀.info] = r₀.info :: r₀.out.filterMap Out.snapshot
    rw [Created.snapshots h₀]
  synced := Room.Synced.of_created h₀
  run _ := ⟨_, _, .start⟩

theorem Inv.step (h₀ : Created r₀) (hp : r₀.info.players = 1) (h : Inv r₀ n)
    (hs : RoomNode.Step n n') : Inv r₀ n' := by
  cases hs with
  | room hd hs =>
    obtain ⟨st, k, hrun⟩ := h.run hd
    have hm := (Room.MemberInv.of_created h₀ hp).of_run hrun hd
    obtain ⟨new, hn⟩ := hm.step_appends hs
    obtain ⟨hi, hr, hpub, -, -⟩ :=
      Publisher.publish_foldl (new.filterMap Out.snapshot) n.pub h.pub h.rested
    refine ⟨?_, ?_, ?_, h.synced.of_step hs, fun hd' => ⟨_, _, hrun.step hd hs⟩⟩
    all_goals simp only [hn, List.drop_left]
    exacts [hi, hr, by rw [hpub, h.published, List.filterMap_append]; rfl]
  | updater hs hq =>
    exact ⟨h.pub.step hs, h.rested.step h.pub hs, hq.trans h.published, h.synced, h.run⟩

end RoomNode

/-- In every state a room created with one player and its `roomInfoUpdater` reach, however
their steps interleave: the publisher's `lastRoomInfo` is the room's `RoomInfo`; that
`RoomInfo` has a token pending, a fetch under way, or is what the updater last read; the
database is written only `RoomInfo`s the room had, in the order it had them; and when the
updater rests with no token pending, the database holds the room's `RoomInfo`, as the last
write, or as the row of the room's creation when nothing was written. -/
theorem database_holds_room_info {r₀ : Room} {n : RoomNode} (h₀ : Created r₀)
    (hp : r₀.info.players = 1) (h : RoomNode.Reach (RoomNode.start r₀) n) :
    n.pub.lastRoomInfo = n.room.info ∧
    (n.pub.chRoomInfo = true ∨ n.pub.updater = .connecting ∨
      n.pub.published[n.pub.lastRead]? = some n.room.info) ∧
    (n.pub.writes.map Prod.fst).Sorted (· < ·) ∧
    (∀ w ∈ n.pub.writes, w.2 ∈ r₀.info :: n.room.out.filterMap Out.snapshot) ∧
    (n.pub.updater = .idle → n.pub.chRoomInfo = false →
      n.pub.writes.getLast?.map Prod.snd = some n.room.info ∨
        n.pub.writes = [] ∧ n.room.info = r₀.info) := by
  have hi : RoomNode.Inv r₀ n := by
    induction h with
    | refl => exact .of_start h₀
    | step _ hs ih => exact ih.step h₀ hp hs
  have hlast : n.pub.published.getLast? = some n.room.info := by
    rw [hi.published, getLast?_snapshots]; exact congrArg some hi.synced
  have hcur : n.pub.lastRead + 1 = n.pub.published.length →
      n.pub.published[n.pub.lastRead]? = some n.room.info := fun he => by
    rw [show n.pub.lastRead = n.pub.published.length - 1 by omega, ← List.getLast?_eq_getElem?]
    exact hlast
  refine ⟨Option.some_inj.1 (hi.pub.last.symm.trans hlast), ?_, hi.pub.sorted,
    fun w hw => hi.published ▸ List.getElem?_mem (hi.pub.published_at w hw), fun hidle hc => ?_⟩
  · rcases hi.pub.notLost with h' | h' | h'
    · exact .inl h'
    · exact .inr (.inl h')
    · exact .inr (.inr (hcur h'))
  · have he : n.pub.lastRead + 1 = n.pub.published.length := by
      rcases hi.pub.notLost with h' | h' | h'
      · rw [hc] at h'; cases h'
      · rw [hidle] at h'; cases h'
      · exact h'
    rcases hi.rested hidle with ⟨hw, h0⟩ | hw
    · refine .inr ⟨hw, Option.some_inj.1 ?_⟩
      rw [← hcur he, h0, hi.published, List.getElem?_cons_zero]
    · obtain ⟨w, hwl, hw1⟩ := Option.map_eq_some'.1 hw
      refine .inl ?_
      rw [hwl, Option.map_some', ← hcur he, ← hw1,
        hi.pub.published_at w (List.mem_of_getLast?_eq_some hwl)]

/-- `A` joins the room `M` created, which hands over a snapshot of two players; the updater
takes the token, reads the snapshot and writes it, and the database holds it. -/
theorem database_holds_room_info_written :
    ∃ n, RoomNode.Reach (RoomNode.start createdRoom) n ∧ n.room.info.players = 2 ∧
      n.pub.writes.length = 1 ∧
      n.pub.lastRoomInfo = n.room.info ∧
      (n.pub.chRoomInfo = true ∨ n.pub.updater = .connecting ∨
        n.pub.published[n.pub.lastRead]? = some n.room.info) ∧
      (n.pub.writes.map Prod.fst).Sorted (· < ·) ∧
      (∀ w ∈ n.pub.writes, w.2 ∈ createdRoom.info :: n.room.out.filterMap Out.snapshot) ∧
      (n.pub.updater = .idle → n.pub.chRoomInfo = false →
        n.pub.writes.getLast?.map Prod.snd = some n.room.info ∨
          n.pub.writes = [] ∧ n.room.info = createdRoom.info) :=
  have h := ((((@RoomNode.Reach.refl (RoomNode.start createdRoom)).step
    (.room rfl (.dispatch 6 (.join ⟨[65], []⟩) rfl rfl))).step (.updater (.receive rfl rfl) rfl)).step
    (.updater (.read rfl) rfl)).step (.updater (.write _ _ rfl) rfl)
  ⟨_, h, rfl, rfl, database_holds_room_info createdRoom_created rfl h⟩

end Game
end WSNet2
