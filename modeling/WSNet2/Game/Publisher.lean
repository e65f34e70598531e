import Mathlib.Data.List.Sort

/-!
# The `RoomInfo` publisher — `updateRoomInfo` and `roomInfoUpdater`

The room publishes a snapshot of `RoomInfo` with `updateRoomInfo`: under `mRoomInfo` it
replaces `lastRoomInfo` and makes a non-blocking send on the one-slot `chRoomInfo`.
`roomInfoUpdater` takes a token, gets a database connection (retrying on failure), reads
`lastRoomInfo` and drains `chRoomInfo` under `mRoomInfo`, and writes what it read. Each
step below is one of these critical sections or one receive.

Beside the program's variables the state carries two ghost ones: every snapshot
published so far, oldest first, and the position in that list of the one the updater
last read. The snapshot `NewRoom` starts from is position 0 and counts as read.
-/

namespace WSNet2
namespace Game

/-- Where `roomInfoUpdater` is. -/
inductive Updater (α : Type)
  /-- In the outer `select`, waiting for a token. -/
  | idle
  /-- Took a token; getting a connection. -/
  | connecting
  /-- Read the snapshot at position `pos`, `ri`, and drained; writing it. -/
  | writing (pos : Nat) (ri : α)

/-- Whether the updater holds a token it has not yet written for. -/
def Updater.busy {α : Type} : Updater α → Bool
  | .idle => false
  | _ => true

/-- The publishing side and the updater, over snapshots of type `α`. -/
structure Publisher (α : Type) where
  lastRoomInfo : α
  /-- A token is in `chRoomInfo`. -/
  chRoomInfo : Bool
  updater : Updater α
  /-- Ghost: every snapshot published, oldest first. -/
  published : List α
  /-- Ghost: the position of the snapshot the updater last read. -/
  lastRead : Nat
  /-- The `(position, snapshot)` of each `repo.updateRoomInfo` call, in order. -/
  writes : List (Nat × α)

namespace Publisher

variable {α : Type} {s s' s₁ s₂ : Publisher α}

/-- The state `NewRoom` leaves: `lastRoomInfo` is the room's first snapshot, the channel
is empty and the updater waits. -/
def init (ri : α) : Publisher α :=
  ⟨ri, false, .idle, [ri], 0, []⟩

/-- The steps of the two sides. -/
inductive Step : Publisher α → Publisher α → Prop
  /-- `updateRoomInfo`: a new snapshot, and a token unless one is pending. -/
  | update {s : Publisher α} (ri : α) :
      Step s { s with lastRoomInfo := ri, chRoomInfo := true, published := s.published ++ [ri] }
  /-- The updater receives a token. -/
  | receive {s : Publisher α} : s.updater = .idle → s.chRoomInfo = true →
      Step s { s with chRoomInfo := false, updater := .connecting }
  /-- `Connx` fails; the updater sleeps and retries. -/
  | retry {s : Publisher α} : s.updater = .connecting → Step s s
  /-- Under `mRoomInfo`: read `lastRoomInfo` and drain `chRoomInfo`. -/
  | read {s : Publisher α} : s.updater = .connecting →
      Step s { s with
        chRoomInfo := false
        updater := .writing (s.published.length - 1) s.lastRoomInfo
        lastRead := s.published.length - 1 }
  /-- `repo.updateRoomInfo(ri, conn)`. -/
  | write {s : Publisher α} (pos : Nat) (ri : α) : s.updater = .writing pos ri →
      Step s { s with updater := .idle, writes := s.writes ++ [(pos, ri)] }

/-- The states reachable from `s₀`. -/
inductive Reach (s₀ : Publisher α) : Publisher α → Prop
  | refl : Reach s₀ s₀
  | step {s s' : Publisher α} : Reach s₀ s → Step s s' → Reach s₀ s'

/-- The writes still owed: one for a pending token, one for a taken token not yet written. -/
def pending (s : Publisher α) : Nat :=
  s.chRoomInfo.toNat + s.updater.busy.toNat

/-! ## The invariant -/

/-- What holds of every reachable state. -/
structure Inv (s : Publisher α) : Prop where
  /-- `lastRoomInfo` is the latest snapshot published. -/
  last : s.published.getLast? = some s.lastRoomInfo
  /-- A token is pending, or the updater holds one, or it last read the latest snapshot. -/
  notLost : s.chRoomInfo = true ∨ s.updater = .connecting ∨ s.lastRead + 1 = s.published.length
  /-- A pending token means a snapshot newer than the last read. -/
  token_newer : s.chRoomInfo = true → s.lastRead + 1 < s.published.length
  /-- So does a taken token. -/
  connecting_newer : s.updater = .connecting → s.lastRead + 1 < s.published.length
  read_lt : s.lastRead < s.published.length
  /-- The snapshot being written is the last read, newer than every write so far. -/
  writing : ∀ pos ri, s.updater = .writing pos ri →
    pos = s.lastRead ∧ s.published[pos]? = some ri ∧ ∀ w ∈ s.writes, w.1 < pos
  /-- Otherwise every write is at most the last read. -/
  writes_le : (∀ pos ri, s.updater ≠ .writing pos ri) → ∀ w ∈ s.writes, w.1 ≤ s.lastRead
  /-- Writes are in publication order, -/
  sorted : (s.writes.map Prod.fst).Sorted (· < ·)
  /-- each the snapshot published at its position. -/
  published_at : ∀ w ∈ s.writes, s.published[w.1]? = some w.2

theorem inv_init (ri : α) : Inv (init ri) where
  last := rfl
  notLost := .inr (.inr rfl)
  token_newer h := by cases h
  connecting_newer h := by cases h
  read_lt := Nat.zero_lt_one
  writing _ _ h := by cases h
  writes_le _ _ h := by cases h
  sorted := List.sorted_nil
  published_at _ h := by cases h

theorem getElem?_append_of_some {l l' : List α} {i : Nat} {a : α} (h : l[i]? = some a) :
    (l ++ l')[i]? = some a := by
  rw [List.getElem?_append_left (List.getElem?_eq_some_iff.1 h).1]; exact h

/-- Every step keeps the invariant. -/
theorem Inv.step (h : Inv s) (hs : Step s s') : Inv s' := by
  cases hs with
  | update ri =>
    have := h.read_lt
    exact
      { last := by simp
        notLost := .inl rfl
        token_newer := fun _ => by simp; omega
        connecting_newer := fun _ => by simp; omega
        read_lt := by simp; omega
        writing := fun pos ri' hw => by
          obtain ⟨rfl, hp, hlt⟩ := h.writing pos ri' hw
          exact ⟨rfl, getElem?_append_of_some hp, hlt⟩
        writes_le := h.writes_le
        sorted := h.sorted
        published_at := fun w hw => getElem?_append_of_some (h.published_at w hw) }
  | receive hi hc =>
    exact
      { h with
        notLost := .inr (.inl rfl)
        token_newer := fun h' => by cases h'
        connecting_newer := fun _ => h.token_newer hc
        writing := fun _ _ hw => by cases hw
        writes_le := fun _ => h.writes_le (by rw [hi]; exact fun _ _ h' => by cases h') }
  | retry => exact h
  | read hc =>
    have hle := h.writes_le (by rw [hc]; exact fun _ _ h' => by cases h')
    have hlt := h.connecting_newer hc
    exact
      { h with
        notLost := .inr (.inr (show s.published.length - 1 + 1 = s.published.length by omega))
        token_newer := fun h' => by cases h'
        connecting_newer := fun h' => by cases h'
        read_lt := show s.published.length - 1 < s.published.length by omega
        writing := fun pos ri hw => by
          cases hw
          refine ⟨rfl, ?_, fun w hw => by have := hle w hw; omega⟩
          rw [← List.getLast?_eq_getElem?]; exact h.last
        writes_le := fun hn => absurd rfl (hn _ _) }
  | write pos ri hw =>
    obtain ⟨rfl, hp, hlt⟩ := h.writing pos ri hw
    exact
      { h with
        notLost := by
          rcases h.notLost with h' | h' | h'
          · exact .inl h'
          · rw [hw] at h'; cases h'
          · exact .inr (.inr h')
        connecting_newer := fun h' => by cases h'
        writing := fun _ _ h' => by cases h'
        writes_le := fun _ => List.forall_mem_append.2
          ⟨fun w hw' => Nat.le_of_lt (hlt w hw'), List.forall_mem_singleton.2 (Nat.le_refl _)⟩
        sorted := by
          rw [List.map_append, List.Sorted, List.pairwise_append]
          exact ⟨h.sorted, List.pairwise_singleton _ _, fun a ha b hb => by
            obtain ⟨w, hw', rfl⟩ := List.mem_map.1 ha
            rw [List.mem_singleton.1 hb]; exact hlt w hw'⟩
        published_at :=
          List.forall_mem_append.2 ⟨h.published_at, List.forall_mem_singleton.2 hp⟩ }

theorem Inv.of_reach {s₀ : Publisher α} (h₀ : Inv s₀) (h : Reach s₀ s) : Inv s := by
  induction h with
  | refl => exact h₀
  | step _ hs ih => exact ih.step hs

/-! ## Coalescing -/

/-- The runs from `s₀` in which nothing is published. -/
inductive Quiet (s₀ : Publisher α) : Publisher α → Prop
  | refl : Quiet s₀ s₀
  | step {s s' : Publisher α} : Quiet s₀ s → Step s s' → s'.published = s.published → Quiet s₀ s'

/-- A step that publishes nothing does not add to the writes done plus the writes owed. -/
theorem Step.pending_le (hs : Step s s') (hp : s'.published = s.published) :
    s'.writes.length + s'.pending ≤ s.writes.length + s.pending := by
  cases hs with
  | update ri => exact absurd (congrArg List.length hp) (by simp)
  | receive hi hc => simp [pending, hi, hc, Updater.busy]
  | retry => exact le_rfl
  | read hc => cases s.chRoomInfo <;> simp [pending, hc, Updater.busy]
  | write pos ri hw => simp [pending, hw, Updater.busy]; omega

/-- Once nothing more is published, the updater writes at most what it owes. -/
theorem Quiet.writes_le {s₀ : Publisher α} (h : Quiet s₀ s) :
    s.writes.length + s.pending ≤ s₀.writes.length + s₀.pending := by
  induction h with
  | refl => exact le_rfl
  | step _ hs hp ih => exact (hs.pending_le hp).trans ih

end Publisher

open Publisher in
/-- In every state the two sides reach from `NewRoom`, the latest snapshot is pending, being
fetched, or already read; the writes are distinct snapshots in publication order; and once
updates stop, the updater writes at most the one it holds and one follow-up. -/
theorem room_info_publisher {α : Type} {ri₀ : α} {s : Publisher α} (h : Reach (init ri₀) s) :
    (s.chRoomInfo = true ∨ s.updater = .connecting ∨
      s.published[s.lastRead]? = some s.lastRoomInfo ∧ s.lastRead + 1 = s.published.length) ∧
    s.published.getLast? = some s.lastRoomInfo ∧
    (s.writes.map Prod.fst).Sorted (· < ·) ∧ (∀ w ∈ s.writes, s.published[w.1]? = some w.2) ∧
    ∀ s', Quiet s s' → s'.writes.length ≤ s.writes.length + s.updater.busy.toNat + s.chRoomInfo.toNat := by
  have hi := (inv_init ri₀).of_reach h
  refine ⟨?_, hi.last, hi.sorted, hi.published_at, fun s' hq => ?_⟩
  · rcases hi.notLost with h' | h' | h'
    · exact .inl h'
    · exact .inr (.inl h')
    · refine .inr (.inr ⟨?_, h'⟩)
      rw [show s.lastRead = s.published.length - 1 by omega, ← List.getLast?_eq_getElem?]
      exact hi.last
  · have := hq.writes_le
    simp only [pending] at this
    omega

/-- Over snapshots numbered by `Nat`: `NewRoom` publishes snapshot 0, an update publishes
snapshot 1, and the updater takes the token, reads snapshot 1 and writes it. -/
theorem room_info_publisher_written :
    ∃ s : Publisher Nat, Publisher.Reach (Publisher.init 0) s ∧ s.published = [0, 1] ∧
      s.writes = [(1, 1)] ∧
      (s.chRoomInfo = true ∨ s.updater = .connecting ∨
        s.published[s.lastRead]? = some s.lastRoomInfo ∧ s.lastRead + 1 = s.published.length) ∧
      s.published.getLast? = some s.lastRoomInfo ∧
      (s.writes.map Prod.fst).Sorted (· < ·) ∧ (∀ w ∈ s.writes, s.published[w.1]? = some w.2) ∧
      ∀ s', Publisher.Quiet s s' →
        s'.writes.length ≤ s.writes.length + s.updater.busy.toNat + s.chRoomInfo.toNat :=
  have h := ((((@Publisher.Reach.refl Nat (Publisher.init 0)).step (.update 1)).step
    (.receive rfl rfl)).step (.read rfl)).step (.write 1 1 rfl)
  ⟨_, h, rfl, rfl, room_info_publisher h⟩

end Game
end WSNet2
