import WSNet2.Game.Room.Membership
import Mathlib.Data.UInt
import Mathlib.Algebra.Order.BigOperators.Group.List
import Mathlib.Algebra.Order.Ring.Nat

/-!
# The watcher count — `RoomInfo.Watchers`

`msgWatch`, `msgNodeCount` and `removeWatcher` update `RoomInfo.Watchers` incrementally, in
`uint32` arithmetic, as watchers arrive, change their downstream node count and leave. In
every reachable room the counter equals the sum of the current watchers' node counts
modulo 2^32 (`watcher_count_sum`), whatever the order of joins, rejoins, stale
`NodeCount` messages and removals. The proof keeps the equation in `UInt32`, where the
subtractions are exact, and reads it back in `Nat` at the end.
-/

namespace WSNet2
namespace Game

open Binary

/-! ## Sums of node counts -/

theorem uint32_toNat_add (a b : UInt32) : (a + b).toNat = (a.toNat + b.toNat) % 4294967296 := by
  show BitVec.toNat (a.toBitVec + b.toBitVec) = _
  rw [BitVec.toNat_add]; rfl

/-- `Σ nodeCount` over the watchers, in `uint32` arithmetic. -/
def nodeCountSum (ws : Clients) : UInt32 := (ws.entries.map fun e => e.2.nodeCount).sum

theorem sum_kerase (l : List (Σ _ : ClientID, Client)) (a : ClientID) :
    ((l.kerase a).map fun e => e.2.nodeCount).sum + (l.dlookup a).elim 0 Client.nodeCount =
      (l.map fun e => e.2.nodeCount).sum := by
  induction l with
  | nil => rfl
  | cons e l ih =>
    by_cases h : a = e.1
    · rw [List.kerase_cons_eq h, h, List.dlookup_cons_eq, List.map_cons, List.sum_cons]
      exact add_comm _ _
    · rw [List.kerase_cons_ne h, List.dlookup_cons_ne _ _ h, List.map_cons, List.sum_cons,
        List.map_cons, List.sum_cons, add_assoc, ih]

theorem nodeCountSum_erase (ws : Clients) (a : ClientID) :
    nodeCountSum (ws.erase a) = nodeCountSum ws - (ws.lookup a).elim 0 Client.nodeCount :=
  eq_sub_of_add_eq (sum_kerase ws.entries a)

theorem nodeCountSum_insert (ws : Clients) (a : ClientID) (c : Client) :
    nodeCountSum (ws.insert a c) =
      nodeCountSum ws - (ws.lookup a).elim 0 Client.nodeCount + c.nodeCount := by
  rw [← nodeCountSum_erase, nodeCountSum, AList.insert_entries, List.map_cons, List.sum_cons,
    add_comm]
  rfl

theorem nodeCountSum_toNat (ws : Clients) :
    (nodeCountSum ws).toNat = (ws.entries.map fun e => e.2.nodeCount.toNat).sum % 4294967296 := by
  unfold nodeCountSum
  induction ws.entries with
  | nil => rfl
  | cons e l ih =>
    rw [List.map_cons, List.sum_cons, uint32_toNat_add, ih, List.map_cons, List.sum_cons,
      Nat.add_mod_mod]

namespace Room

variable {r r' : Room}

/-! ## The invariant -/

/-- `RoomInfo.Watchers = Σ nodeCount over watchers`, in `uint32` arithmetic. -/
def WatchInv (r : Room) : Prop := r.info.watchers = nodeCountSum r.watchers

theorem WatchInv.of_same (h : r.WatchInv) (hs : SameMembers r r') : r'.WatchInv := by
  rw [WatchInv, hs.watcherCount, hs.watchers]; exact h

theorem WatchInv.of_removeWatcher (h : r.WatchInv) (c : ClientRef) (cause : Bytes) :
    (r.removeWatcher c cause).WatchInv := by
  obtain he | ⟨w, o, hw, -, he⟩ := removeWatcher_eq (r := r) c cause <;> rw [he]
  · exact h
  · show r.info.watchers - w.nodeCount = nodeCountSum (r.watchers.erase c.id)
    rw [nodeCountSum_erase, hw, h]; rfl

theorem WatchInv.of_removeClient {c : ClientRef} {cause : Bytes} (h : r.WatchInv)
    (hr : r.removeClient c cause = .ok r') : r'.WatchInv := by
  rcases removeClient_ok hr with ⟨-, hr⟩ | ⟨-, rfl⟩
  · obtain ⟨-, rfl⟩ | ⟨-, -, -, o, rfl⟩ | ⟨-, -, mst, o, rfl, -⟩ :=
      removePlayer_ok hr <;> exact h
  · exact h.of_removeWatcher c cause

theorem WatchInv.of_msgNodeCount (h : r.WatchInv) (c : ClientRef) (n : UInt32) :
    (r.msgNodeCount c n).WatchInv := by
  obtain he | ⟨w, o, hw, -, he⟩ := msgNodeCount_eq (r := r) c n <;> rw [he]
  · exact h
  · show r.info.watchers - w.nodeCount + n = nodeCountSum (r.watchers.insert c.id _)
    rw [nodeCountSum_insert, hw, h]; rfl

theorem WatchInv.of_msgWatch {info : Pb.ClientInfo} {n : UInt32} (h : r.WatchInv)
    (hr : r.msgWatch info n = .ok r') : r'.WatchInv := by
  obtain ⟨o, rfl⟩ | ⟨-, client, -, hw⟩ := msgWatch_ok hr
  · exact h
  obtain ⟨o, rfl⟩ := watchWatcher_ok hw
  show _ = nodeCountSum (r.watchers.insert client.ref.id client)
  rw [nodeCountSum_insert, ← h]
  cases r.watchers.lookup client.ref.id with
  | none => exact congrArg (· + client.nodeCount) (sub_zero _).symm
  | some old => rfl

theorem WatchInv.of_msgJoin {info : Pb.ClientInfo} {now : UInt64} (h : r.WatchInv)
    (hr : r.msgJoin info now = .ok r') : r'.WatchInv := by
  obtain ⟨o, rfl⟩ | ⟨-, -, client, -, hj⟩ := msgJoin_ok hr
  · exact h
  · obtain ⟨o, ⟨old, -, rfl⟩ | ⟨-, rfl⟩⟩ := joinPlayer_ok hj <;> exact h

theorem WatchInv.of_dispatch {now : UInt64} {m : Msg} (h : r.WatchInv) (hm : m.isCreate = false)
    (hr : r.dispatch now m = .ok r') : r'.WatchInv := by
  cases m with
  | create => cases hm
  | join info => exact h.of_msgJoin hr
  | watch info n => exact h.of_msgWatch hr
  | getRoomInfo => exact h.of_same (same_msgGetRoomInfo hr)
  | adminKick t =>
    obtain ⟨o, rfl⟩ | ⟨tc, r₁, -, hrm, rfl⟩ := msgAdminKick_ok hr
    · exact h
    · exact (h.of_removeClient hrm : r₁.WatchInv)
  | ping c t => cases hr; exact h.of_same (same_msgPing c t)
  | nodeCount c n => cases hr; exact h.of_msgNodeCount c n
  | leave c msg => exact h.of_removeClient hr
  | roomProp c msg p => exact h.of_same (same_msgRoomProp hr)
  | clientProp c msg p => cases hr; exact h.of_same (same_msgClientProp c msg p)
  | targets c msg ts d => cases hr; exact h.of_same (same_msgTargets c msg ts d)
  | toMaster c d => exact h.of_same (same_msgToMaster hr)
  | broadcast c d => cases hr; exact h.of_same (same_msgBroadcast c d)
  | switchMaster c msg t =>
    obtain ⟨o, rfl | ⟨tc, -, rfl⟩⟩ := msgSwitchMaster_ok hr <;> exact h
  | kick c msg t m =>
    obtain ⟨o, rfl⟩ | ⟨tc, o, -, hrm⟩ := msgKick_ok hr
    · exact h
    · exact WatchInv.of_removeClient (r := { r with out := o }) h hrm
  | clientError c e => exact h.of_removeClient hr
  | clientTimeout c => exact h.of_removeClient hr

theorem WatchInv.of_step (h : r.WatchInv) (hs : Step r r') : r'.WatchInv := by
  cases hs with
  | dispatch now m hm hr =>
    have h₁ : (r.updateLastMsg m.senderID now).WatchInv := by
      rcases updateLastMsg_cases (r := r) m.senderID now with he | he <;> rw [he] <;> exact h
    exact h₁.of_dispatch hm hr
  | remove c cause hr => exact h.of_removeClient hr

theorem WatchInv.of_created (h : Created r) (hw : r.info.watchers = 0) : r.WatchInv := by
  obtain ⟨master, now, hN, hc⟩ := h
  rename_i rN
  obtain ⟨-, -, hws, -⟩ := newRoom_some hN
  cases hcl : newClient rN.nextPtr master true 0 with
  | error e => rw [hcl] at hc; cases hc
  | ok c =>
    obtain ⟨o, he⟩ := msgCreate_ok now hcl
    rw [he] at hw ⊢
    show rN.info.watchers = nodeCountSum rN.watchers
    rw [hw, hws]; rfl

end Room

/-! ## Every reachable room -/

theorem Room.WatchInv.of_reachable {r₀ r : Room} (h₀ : r₀.WatchInv) (hr : Reachable r₀ r) :
    r.WatchInv := by
  induction hr with
  | refl => exact h₀
  | step _ hs ih => exact ih.of_step hs

/-- In every reachable room `RoomInfo.Watchers` is the watchers' node counts summed modulo
2^32; while that sum is below 2^32, no watcher's count exceeds the total, so the three
subtractions of a current watcher's count do not wrap. -/
theorem watcher_count_sum {r₀ r : Room} (h₀ : Created r₀) (hw : r₀.info.watchers = 0)
    (hr : Reachable r₀ r) :
    r.info.watchers.toNat = (r.watchers.entries.map fun e => e.2.nodeCount.toNat).sum % 2 ^ 32 ∧
    ((r.watchers.entries.map fun e => e.2.nodeCount.toNat).sum < 2 ^ 32 →
      ∀ id w, r.watchers.lookup id = some w → w.nodeCount.toNat ≤ r.info.watchers.toNat) := by
  have h : r.WatchInv := (Room.WatchInv.of_created h₀ hw).of_reachable hr
  have hsum : r.info.watchers.toNat =
      (r.watchers.entries.map fun e => e.2.nodeCount.toNat).sum % 2 ^ 32 := by
    rw [h, nodeCountSum_toNat]; rfl
  refine ⟨hsum, fun hlt id w hlk => ?_⟩
  rw [hsum, Nat.mod_eq_of_lt hlt]
  exact List.le_sum_of_mem (List.mem_map.2 ⟨⟨id, w⟩, AList.mem_lookup_iff.1 hlk, rfl⟩)

/-- `W` watches the room `M` created through a hub of three nodes: the room counts three
watchers, the nodes of its one watcher. -/
theorem watcher_count_sum_watched :
    ∃ r, Reachable createdRoom r ∧ r.info.watchers = 3 ∧ r.watchers.entries.length = 1 ∧
      r.info.watchers.toNat = (r.watchers.entries.map fun e => e.2.nodeCount.toNat).sum % 2 ^ 32 ∧
      ((r.watchers.entries.map fun e => e.2.nodeCount.toNat).sum < 2 ^ 32 →
        ∀ id w, r.watchers.lookup id = some w → w.nodeCount.toNat ≤ r.info.watchers.toNat) :=
  have h := (@Reachable.refl createdRoom).step (.dispatch 6 (.watch ⟨[87], []⟩ 3) rfl rfl)
  ⟨_, h, rfl, rfl, watcher_count_sum createdRoom_created rfl h⟩

end Game
end WSNet2
