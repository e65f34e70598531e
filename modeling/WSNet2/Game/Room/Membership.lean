import WSNet2.Game.Room.Inversion
import Mathlib.Data.List.Sort

/-!
# Membership invariant

`masterOrder` lists exactly the players, oldest arrival first; the master is the live
player under its id; no id is both a player and a watcher; `lastMsg` has exactly the
players' keys; `RoomInfo.Players` counts the players. All of this holds in every state a
room reaches while `done` is open, whatever the messages and whenever the deferred
removals run (`membership_invariant`).

"Oldest arrival" refers to the run's history: `Run` carries, beside the room, the logical
time at which each id last entered `players` as a new key, so a rejoin, which replaces the
client under an id already there, keeps its time.
-/

namespace WSNet2
namespace Game

open Binary

/-! ## Finite maps -/

namespace AList

variable {β : Type} {s t : AList (fun _ : ClientID => β)} {a : ClientID}

theorem length_keys (s : AList (fun _ : ClientID => β)) : s.keys.length = s.entries.length :=
  List.length_map _ _

theorem length_eq_of_mem_iff (h : ∀ a, a ∈ s ↔ a ∈ t) :
    s.entries.length = t.entries.length := by
  rw [← length_keys, ← length_keys]
  exact ((List.perm_ext_iff_of_nodup s.keys_nodup t.keys_nodup).2 fun a => by
    simpa [AList.mem_keys] using h a).length_eq

theorem length_erase (h : a ∈ s) : (s.erase a).entries.length = s.entries.length - 1 := by
  rw [← length_keys, ← length_keys, AList.keys_erase]
  simp [List.length_erase, AList.mem_keys.1 h]

theorem length_insert_of_not_mem (b : β) (h : a ∉ s) :
    (s.insert a b).entries.length = s.entries.length + 1 := by
  rw [AList.insert_entries_of_neg h, List.length_cons]

/-- Inserting under a key already present adds no key. -/
theorem mem_insert_of_mem_iff (b : β) (h : a ∈ s) (x : ClientID) :
    x ∈ s.insert a b ↔ x ∈ s := by
  rw [AList.mem_insert]; exact ⟨by rintro (rfl | hx) <;> assumption, .inr⟩

theorem length_insert_of_mem (b : β) (h : a ∈ s) :
    (s.insert a b).entries.length = s.entries.length := by
  rw [← length_keys, ← length_keys, AList.keys_insert, List.length_cons]
  have : 0 < s.keys.length := List.length_pos_of_mem (AList.mem_keys.1 h)
  simp [List.length_erase, AList.mem_keys.1 h]
  omega

end AList

namespace Room

variable {r r' : Room} {st : ClientID → Nat} {k : Nat}

/-! ## Two rooms with the same membership -/

/-- `r'` has the same membership as `r`: the same client pointer under each player id, the
same watchers (their node counts included) and node-count total, the same master and
`masterOrder`, the same `lastMsg`, the same player count and the same `done`. Props,
`RoomInfo`'s other fields and the effects may differ. -/
structure SameMembers (r r' : Room) : Prop where
  players : ∀ id, (r'.players.lookup id).map Client.ref = (r.players.lookup id).map Client.ref
  watchers : r'.watchers = r.watchers
  watcherCount : r'.info.watchers = r.info.watchers
  master : r'.master = r.master
  masterOrder : r'.masterOrder = r.masterOrder
  lastMsg : r'.lastMsg = r.lastMsg
  count : r'.info.players = r.info.players
  done : r'.done = r.done

theorem SameMembers.refl (r : Room) : SameMembers r r :=
  ⟨fun _ => rfl, rfl, rfl, rfl, rfl, rfl, rfl, rfl⟩

/-- Appending effects changes no membership. -/
theorem SameMembers.out (r : Room) (o : List Out) : SameMembers r { r with out := o } :=
  ⟨fun _ => rfl, rfl, rfl, rfl, rfl, rfl, rfl, rfl⟩

theorem SameMembers.mem_players {r r' : Room} (h : SameMembers r r') (id : ClientID) :
    id ∈ r'.players ↔ id ∈ r.players := by
  have := h.players id
  rw [← AList.lookup_isSome, ← AList.lookup_isSome]
  cases h₁ : r'.players.lookup id <;> cases h₂ : r.players.lookup id <;> simp_all

theorem SameMembers.isLivePlayer {r r' : Room} (h : SameMembers r r') (c : ClientRef) :
    r'.isLivePlayer c ↔ r.isLivePlayer c := by
  rw [Room.isLivePlayer, Room.isLivePlayer, h.players]

/-- The pointer under `id` after `s[a] = b`. -/
theorem lookup_insert_ref (s : Clients) (a id : ClientID) (b : Client) :
    ((s.insert a b).lookup id).map Client.ref =
      if id = a then some b.ref else (s.lookup id).map Client.ref := by
  by_cases h : id = a
  · subst h; simp
  · simp [h, AList.lookup_insert_ne h]

/-- Replacing a client object by one with the same pointer keeps the membership. -/
theorem lookup_insert_same_ref {s : Clients} {a : ClientID} {w b : Client}
    (hw : s.lookup a = some w) (hb : b.ref = w.ref) (id : ClientID) :
    ((s.insert a b).lookup id).map Client.ref = (s.lookup id).map Client.ref := by
  rw [lookup_insert_ref]
  split
  · subst id; simp [hw, hb]
  · rfl

/-- A client inserted under its own id keeps every client of a map stored under its own id
with the role `b`. -/
theorem keyed_insert {s : Clients} {a : ClientID} {c : Client} {b : Bool}
    (h : ∀ id c', s.lookup id = some c' → c'.ref.id = id ∧ c'.ref.isPlayer = b)
    (hc : c.ref.id = a ∧ c.ref.isPlayer = b) :
    ∀ id c', (s.insert a c).lookup id = some c' → c'.ref.id = id ∧ c'.ref.isPlayer = b := by
  intro id c' hc'
  by_cases hid : id = a
  · subst hid
    rw [AList.lookup_insert, Option.some_inj] at hc'
    exact hc' ▸ hc
  · rw [AList.lookup_insert_ne hid] at hc'; exact h id c' hc'

/-! ## Handlers that keep the membership -/

theorem same_msgPing (c : ClientRef) (t : UInt64) : SameMembers r (r.msgPing c t) := by
  rcases msgPing_spec (r := r) c t with ⟨-, h⟩ | ⟨-, h⟩ <;> rw [h]
  · exact SameMembers.out r _
  · exact SameMembers.refl r

/-- `applyRoomProps` only touches the props and their blobs. -/
theorem same_msgRoomProp {c : ClientRef} {msg : RegularMsg} {p : RoomPropPayload}
    (h : r.msgRoomProp c msg p = .ok r') : SameMembers r r' := by
  rcases msgRoomProp_spec h with ⟨-, -, rfl⟩ | ⟨-, pub, priv, pubB, privB, i, dl, nd, rfl, -, rfl⟩
  · exact SameMembers.out r _
  · exact ⟨fun _ => rfl, rfl, rfl, rfl, rfl, rfl, rfl, rfl⟩

theorem same_msgClientProp (c : ClientRef) (msg : RegularMsg) (props : Dict) :
    SameMembers r (r.msgClientProp c msg props) := by
  rcases msgClientProp_spec (r := r) c msg props with
    ⟨-, h⟩ | ⟨-, -, h⟩ | ⟨-, cl, ps, hcl, -, hps, h⟩ <;> rw [h]
  · exact SameMembers.out r _
  · exact SameMembers.refl r
  · rcases hps with rfl | ⟨np, rfl⟩
    · exact SameMembers.out r _
    · exact ⟨lookup_insert_same_ref hcl rfl, rfl, rfl, rfl, rfl, rfl, rfl, rfl⟩

theorem same_msgTargets (c : ClientRef) (msg : RegularMsg) (ts : List ClientID) (d : Bytes) :
    SameMembers r (r.msgTargets c msg ts d) := by
  rcases msgTargets_spec (r := r) c msg ts d with ⟨-, h⟩ | ⟨-, h⟩ <;> rw [h]
  · exact SameMembers.refl r
  · exact SameMembers.out r _

theorem same_msgToMaster {c : ClientRef} {d : Bytes} (h : r.msgToMaster c d = .ok r') :
    SameMembers r r' := by
  rcases msgToMaster_spec h with ⟨-, rfl⟩ | ⟨-, m, -, rfl⟩
  · exact SameMembers.refl _
  · exact SameMembers.out r _

theorem same_msgBroadcast (c : ClientRef) (d : Bytes) : SameMembers r (r.msgBroadcast c d) := by
  rcases msgBroadcast_spec (r := r) c d with ⟨-, h⟩ | ⟨-, h⟩ <;> rw [h]
  · exact SameMembers.out r _
  · exact SameMembers.refl r

theorem same_msgGetRoomInfo {ri : Pb.RoomInfo} (h : r.msgGetRoomInfo ri = .ok r') :
    SameMembers r r' := by
  obtain ⟨cis, lmt, m, -, rfl⟩ := msgGetRoomInfo_spec h
  exact SameMembers.out r _

/-! ## The invariant -/

/-- The membership invariant of a room whose players last entered at the times `stamp`,
all before `clock`. -/
structure MemberInv (stamp : ClientID → Nat) (clock : Nat) (r : Room) : Prop where
  /-- `masterOrder` holds exactly the players' ids, -/
  mem_masterOrder : ∀ id, id ∈ r.masterOrder ↔ id ∈ r.players
  /-- in the order they last entered as new players, -/
  sorted : (r.masterOrder.map stamp).Sorted (· < ·)
  /-- all of them before `clock`. -/
  stamp_lt : ∀ id ∈ r.players, stamp id < clock
  /-- `players[master.ID()] == master`. -/
  master_live : ∃ m, r.master = some m ∧ r.isLivePlayer m
  /-- No id is both a player and a watcher. -/
  disjoint : ∀ id ∈ r.players, id ∉ r.watchers
  /-- every player has a last-message time, -/
  lastMsg_of_player : ∀ id ∈ r.players, id ∈ r.lastMsg
  /-- each holding a marshaled `ULong`. -/
  lastMsg_ulong : ∀ e ∈ r.lastMsg.entries, ∃ t, e.2 = marshalULong t
  /-- `RoomInfo.Players = len(players)`. -/
  count : r.info.players.toNat = r.players.entries.length
  /-- Each player is stored under its own id, and is a player. -/
  players_keyed : ∀ id c, r.players.lookup id = some c → c.ref.id = id ∧ c.ref.isPlayer = true
  /-- Each watcher is stored under its own id, and is a watcher. -/
  watchers_keyed : ∀ id c, r.watchers.lookup id = some c → c.ref.id = id ∧ c.ref.isPlayer = false

theorem MemberInv.nodup {st : ClientID → Nat} {k : Nat} {r : Room} (h : MemberInv st k r) :
    r.masterOrder.Nodup :=
  List.Nodup.of_map st h.sorted.nodup

/-- The invariant only reads the membership. -/
theorem MemberInv.of_same {st : ClientID → Nat} {k : Nat} {r r' : Room} (h : MemberInv st k r)
    (hs : SameMembers r r') : MemberInv st k r' where
  mem_masterOrder id := by rw [hs.masterOrder, hs.mem_players]; exact h.mem_masterOrder id
  sorted := hs.masterOrder ▸ h.sorted
  stamp_lt id hid := h.stamp_lt id ((hs.mem_players id).1 hid)
  master_live := by
    obtain ⟨m, hm, hl⟩ := h.master_live
    exact ⟨m, hs.master ▸ hm, (hs.isLivePlayer m).2 hl⟩
  disjoint id hid := hs.watchers ▸ h.disjoint id ((hs.mem_players id).1 hid)
  lastMsg_of_player id hid := hs.lastMsg ▸ h.lastMsg_of_player id ((hs.mem_players id).1 hid)
  lastMsg_ulong := hs.lastMsg ▸ h.lastMsg_ulong
  count := by
    rw [hs.count, h.count]
    exact AList.length_eq_of_mem_iff fun id => (hs.mem_players id).symm
  players_keyed id c hc := by
    have := hs.players id
    rw [hc] at this
    obtain ⟨c₀, h₀, he⟩ := Option.map_eq_some'.1 this.symm
    rw [← he]
    exact h.players_keyed id c₀ h₀
  watchers_keyed := hs.watchers ▸ h.watchers_keyed

/-! ## Arrival times -/

/-- The arrival times after a step from `r` to `r'`: an id that is a player in `r'` but was
not one in `r` entered now, at `clock`; every other id keeps its time. -/
def restamp (r r' : Room) (stamp : ClientID → Nat) (clock : Nat) (id : ClientID) : Nat :=
  if id ∈ r'.players ∧ id ∉ r.players then clock else stamp id

/-- A step in which nobody entered keeps every player's time. -/
theorem MemberInv.restamp_of_no_entry (h : MemberInv st k r')
    (hsub : ∀ id ∈ r'.players, id ∈ r.players) :
    MemberInv (restamp r r' st k) (k + 1) r' := by
  have heq : ∀ id ∈ r'.players, restamp r r' st k id = st id := fun id hid => by
    simp [restamp, hsub id hid]
  refine { h with sorted := ?_, stamp_lt := fun id hid => ?_ }
  · rw [List.map_congr_left fun id hid => heq id ((h.mem_masterOrder id).1 hid)]
    exact h.sorted
  · rw [heq id hid]; exact Nat.lt_succ_of_lt (h.stamp_lt id hid)


/-! ## Each step keeps the invariant -/

theorem lookup_of_lookup_erase {s : Clients} {a id : ClientID} {c : Client}
    (h : (s.erase a).lookup id = some c) : s.lookup id = some c ∧ id ≠ a := by
  by_cases hid : id = a
  · subst hid; simp at h
  · rw [AList.lookup_erase_ne hid] at h; exact ⟨h, hid⟩

/-- A client found under its own id is the live player there. -/
theorem isLivePlayer_of_lookup {id : ClientID} {c : Client} (hc : r.players.lookup id = some c)
    (hid : c.ref.id = id) : r.isLivePlayer c.ref := by
  rw [isLivePlayer, hid, hc]; rfl

theorem mem_of_isLivePlayer {c : ClientRef} (h : r.isLivePlayer c) : c.id ∈ r.players := by
  obtain ⟨_, hc, -⟩ := Option.map_eq_some'.1 h
  exact AList.lookup_isSome.1 (by rw [hc]; rfl)

theorem toNat_ofNat_players {n : Nat} (h : n ≤ r.info.players.toNat) :
    (UInt32.ofNat n).toNat = n :=
  UInt32.toNat_ofNat_of_lt (Nat.lt_of_le_of_lt h r.info.players.toNat_lt_size)

/-- A live player's departure, other players remaining, keeps the invariant. -/
theorem MemberInv.of_removePlayer {c : ClientRef} {cause : Bytes} (h : MemberInv st k r)
    (hr : r.removePlayer c cause = .ok r') (hd : r'.done = false) : MemberInv st k r' := by
  obtain ⟨-, rfl⟩ | ⟨-, -, -, o, rfl⟩ | ⟨hl, -, mst, o, rfl, m, hm, hkeep, hswitch⟩ :=
    removePlayer_ok hr
  · exact h
  · cases hd
  have hcmem := mem_of_isLivePlayer hl
  have hmo : ∀ id, id ∈ r.masterOrder.erase c.id ↔ id ∈ r.players.erase c.id := fun id => by
    rw [h.nodup.mem_erase_iff, AList.mem_erase, h.mem_masterOrder]
  have hkeyed : ∀ id c', (r.players.erase c.id).lookup id = some c' →
      c'.ref.id = id ∧ c'.ref.isPlayer = true := fun id c' hc' =>
    h.players_keyed id c' (lookup_of_lookup_erase hc').1
  refine
    { mem_masterOrder := hmo
      sorted := h.sorted.sublist ((List.erase_sublist _ _).map _)
      stamp_lt := fun id hid => h.stamp_lt id (AList.mem_erase.1 hid).2
      master_live := ?_
      disjoint := fun id hid => h.disjoint id (AList.mem_erase.1 hid).2
      lastMsg_of_player := fun id hid => AList.mem_erase.2
        ⟨(AList.mem_erase.1 hid).1, h.lastMsg_of_player id (AList.mem_erase.1 hid).2⟩
      lastMsg_ulong := fun e he => h.lastMsg_ulong e ((List.kerase_sublist _ _).subset he)
      count := ?_
      players_keyed := hkeyed
      watchers_keyed := h.watchers_keyed }
  · by_cases hmc : m.id = c.id
    · obtain ⟨first, rest, hfr, rfl⟩ := hswitch hmc
      obtain ⟨c₁, hc₁⟩ := Option.isSome_iff_exists.1
        (AList.lookup_isSome.2 ((hmo first).1 (hfr ▸ List.mem_cons_self _ _)))
      exact ⟨c₁.ref, by rw [hc₁]; rfl, isLivePlayer_of_lookup hc₁ (hkeyed _ _ hc₁).1⟩
    · obtain ⟨m₀, hm₀, hl₀⟩ := h.master_live
      obtain rfl : m₀ = m := Option.some_inj.1 (hm₀.symm.trans hm)
      refine ⟨m₀, hkeep hmc, ?_⟩
      show ((r.players.erase c.id).lookup m₀.id).map Client.ref = some m₀
      rw [AList.lookup_erase_ne hmc]; exact hl₀
  · show (UInt32.ofNat _).toNat = _
    rw [AList.length_erase hcmem] at *
    exact toNat_ofNat_players (r := r) (by rw [h.count]; omega)


theorem restamp_of_mem {st : ClientID → Nat} {k : Nat} {id : ClientID} (hid : id ∈ r.players) :
    restamp r r' st k id = st id := by
  simp [restamp, hid]

theorem lastMsg_ulong_insert {d : Dict} (h : ∀ e ∈ d.entries, ∃ t, e.2 = marshalULong t)
    (a : ClientID) (now : UInt64) :
    ∀ e ∈ (d.insert a (marshalULong now)).entries, ∃ t, e.2 = marshalULong t := by
  intro e he
  rw [AList.insert_entries, List.mem_cons] at he
  rcases he with rfl | he
  · exact ⟨now, rfl⟩
  · exact h e ((List.kerase_sublist _ _).subset he)

/-- A write of a last-message time keeps the invariant, whoever the id belongs to. -/
theorem MemberInv.of_writeLastMsg (h : MemberInv st k r) (cid : ClientID) (now : UInt64) :
    MemberInv st k (r.writeLastMsg cid now) :=
  { h with
    lastMsg_of_player := fun id hid => (AList.mem_insert _).2 (.inr (h.lastMsg_of_player id hid))
    lastMsg_ulong := lastMsg_ulong_insert h.lastMsg_ulong cid now }

theorem MemberInv.of_updateLastMsg (h : MemberInv st k r) (cid : ClientID) (now : UInt64) :
    MemberInv st k (r.updateLastMsg cid now) := by
  rcases updateLastMsg_cases (r := r) cid now with he | he <;> rw [he]
  · exact h
  · exact h.of_writeLastMsg cid now

theorem MemberInv.of_removeWatcher (h : MemberInv st k r) (c : ClientRef) (cause : Bytes) :
    MemberInv st k (r.removeWatcher c cause) := by
  obtain he | ⟨w, o, -, -, he⟩ := removeWatcher_eq (r := r) c cause <;> rw [he]
  · exact h
  · exact { h with
      disjoint := fun id hid hw => h.disjoint id hid (AList.mem_erase.1 hw).2
      watchers_keyed := fun id c' hc' => h.watchers_keyed id c' (lookup_of_lookup_erase hc').1 }

theorem MemberInv.of_msgNodeCount (h : MemberInv st k r) (c : ClientRef) (n : UInt32) :
    MemberInv st k (r.msgNodeCount c n) ∧ (r.msgNodeCount c n).players = r.players := by
  obtain he | ⟨w, o, hw, -, he⟩ := msgNodeCount_eq (r := r) c n <;> rw [he]
  · exact ⟨h, rfl⟩
  have hmem : c.id ∈ r.watchers := AList.lookup_isSome.1 (by rw [hw]; rfl)
  refine ⟨{ h with
    disjoint := fun id hid hw' => by
      rcases (AList.mem_insert _).1 hw' with rfl | hw'
      · exact h.disjoint _ hid hmem
      · exact h.disjoint id hid hw'
    watchers_keyed := keyed_insert h.watchers_keyed (h.watchers_keyed _ w hw) }, rfl⟩

theorem MemberInv.of_removeClient {c : ClientRef} {cause : Bytes} (h : MemberInv st k r)
    (hr : r.removeClient c cause = .ok r') (hd : r'.done = false) : MemberInv st k r' := by
  rcases removeClient_ok hr with ⟨-, hr⟩ | ⟨-, rfl⟩
  · exact h.of_removePlayer hr hd
  · exact h.of_removeWatcher c cause

theorem MemberInv.of_msgSwitchMaster {c : ClientRef} {msg : RegularMsg} {t : ClientID}
    (h : MemberInv st k r) (hr : r.msgSwitchMaster c msg t = .ok r') :
    MemberInv st k r' ∧ r'.players = r.players := by
  obtain ⟨o, rfl | ⟨tc, htc, rfl⟩⟩ := msgSwitchMaster_ok hr
  · exact ⟨h.of_same (SameMembers.out r o), rfl⟩
  · exact ⟨{ h with
      master_live := ⟨_, rfl, isLivePlayer_of_lookup htc (h.players_keyed _ _ htc).1⟩ }, rfl⟩

/-- A rejoin keeps the keys, so the invariant holds with the same arrival times. -/
theorem MemberInv.of_rejoin {old client : Client} {now : UInt64} (h : MemberInv st k r)
    (hold : r.players.lookup client.ref.id = some old) (hp : client.ref.isPlayer = true)
    (o : List Out) :
    MemberInv st k { r with
      nextPtr := r.nextPtr + 1
      players := r.players.insert client.ref.id client
      master := if r.master = some old.ref then some client.ref else r.master
      lastMsg := r.lastMsg.insert client.ref.id (marshalULong now)
      out := o } := by
  have hmem : client.ref.id ∈ r.players := AList.lookup_isSome.1 (by rw [hold]; rfl)
  have hkeys := AList.mem_insert_of_mem_iff client hmem
  obtain ⟨m, hm, hl⟩ := h.master_live
  refine
    { mem_masterOrder := fun id => (h.mem_masterOrder id).trans (hkeys id).symm
      sorted := h.sorted
      stamp_lt := fun id hid => h.stamp_lt id ((hkeys id).1 hid)
      master_live := ?_
      disjoint := fun id hid => h.disjoint id ((hkeys id).1 hid)
      lastMsg_of_player := fun id hid =>
        (AList.mem_insert _).2 (.inr (h.lastMsg_of_player id ((hkeys id).1 hid)))
      lastMsg_ulong := lastMsg_ulong_insert h.lastMsg_ulong _ now
      count := by
        rw [h.count]; exact (AList.length_insert_of_mem client hmem).symm
      players_keyed := keyed_insert h.players_keyed ⟨rfl, hp⟩
      watchers_keyed := h.watchers_keyed }
  rw [hm]
  by_cases hmo : m = old.ref
  · subst hmo
    refine ⟨client.ref, if_pos rfl, ?_⟩
    show ((r.players.insert client.ref.id client).lookup client.ref.id).map Client.ref = _
    rw [AList.lookup_insert]; rfl
  · refine ⟨m, if_neg fun he => hmo (Option.some_inj.1 he), ?_⟩
    have hne : m.id ≠ client.ref.id := fun he => by
      unfold isLivePlayer at hl; rw [he, hold] at hl; exact hmo (Option.some_inj.1 hl).symm
    show ((r.players.insert client.ref.id client).lookup m.id).map Client.ref = _
    rw [AList.lookup_insert_ne hne]; exact hl

/-- A new player enters at time `clock`, after everyone present. -/
theorem MemberInv.of_addPlayer {client : Client} {now : UInt64} (h : MemberInv st k r)
    (hnew : client.ref.id ∉ r.players) (hw : client.ref.id ∉ r.watchers)
    (hp : client.ref.isPlayer = true)
    (hroom : UInt32.ofNat r.players.entries.length < r.info.maxPlayers) (o : List Out) :
    let r' : Room := { r with
      nextPtr := r.nextPtr + 1
      players := r.players.insert client.ref.id client
      masterOrder := r.masterOrder ++ [client.ref.id]
      info := { r.info with
        players := UInt32.ofNat (r.players.insert client.ref.id client).entries.length }
      lastMsg := r.lastMsg.insert client.ref.id (marshalULong now)
      out := o }
    MemberInv (restamp r r' st k) (k + 1) r' := by
  intro r'
  have hst : ∀ id ∈ r.players, restamp r r' st k id = st id := fun _ => restamp_of_mem
  have hk : restamp r r' st k client.ref.id = k := by
    simp [restamp, r', hnew, AList.mem_insert]
  have hlen : (r.players.insert client.ref.id client).entries.length =
      r.players.entries.length + 1 := AList.length_insert_of_not_mem client hnew
  obtain ⟨m, hm, hl⟩ := h.master_live
  have hmne : m.id ≠ client.ref.id := fun he => hnew (he ▸ mem_of_isLivePlayer hl)
  refine
    { mem_masterOrder := fun id => by
        rw [List.mem_append, List.mem_singleton, h.mem_masterOrder, AList.mem_insert, or_comm]
      sorted := ?_
      stamp_lt := fun id hid => ?_
      master_live := ⟨m, hm, by
        show ((r.players.insert client.ref.id client).lookup m.id).map Client.ref = _
        rw [AList.lookup_insert_ne hmne]; exact hl⟩
      disjoint := fun id hid => by
        rcases (AList.mem_insert _).1 hid with rfl | hid
        · exact hw
        · exact h.disjoint id hid
      lastMsg_of_player := fun id hid => (AList.mem_insert _).2
        (((AList.mem_insert _).1 hid).imp_right (h.lastMsg_of_player id))
      lastMsg_ulong := lastMsg_ulong_insert h.lastMsg_ulong _ now
      count := ?_
      players_keyed := keyed_insert h.players_keyed ⟨rfl, hp⟩
      watchers_keyed := h.watchers_keyed }
  · show ((r.masterOrder ++ [client.ref.id]).map (restamp r r' st k)).Sorted (· < ·)
    rw [List.map_append, List.map_congr_left fun id hid => hst id ((h.mem_masterOrder id).1 hid),
      List.map_singleton, hk, List.Sorted, List.pairwise_append]
    refine ⟨h.sorted, List.pairwise_singleton _ k, fun a ha b hb => ?_⟩
    obtain ⟨id, hid, rfl⟩ := List.mem_map.1 ha
    rw [List.mem_singleton.1 hb]
    exact h.stamp_lt id ((h.mem_masterOrder id).1 hid)
  · rcases (AList.mem_insert _).1 hid with rfl | hid
    · rw [hk]; exact Nat.lt_succ_self k
    · rw [hst id hid]; exact Nat.lt_succ_of_lt (h.stamp_lt id hid)
  · show (UInt32.ofNat _).toNat = _
    have h₁ : (UInt32.ofNat r.players.entries.length).toNat = r.players.entries.length :=
      UInt32.toNat_ofNat_of_lt (h.count ▸ r.info.players.toNat_lt_size)
    have h₂ : (UInt32.ofNat r.players.entries.length).toNat < r.info.maxPlayers.toNat := hroom
    have h₃ := r.info.maxPlayers.toNat_lt_size
    rw [hlen]
    exact UInt32.toNat_ofNat_of_lt (by omega)

theorem MemberInv.of_msgJoin {info : Pb.ClientInfo} {now : UInt64} (h : MemberInv st k r)
    (hr : r.msgJoin info now = .ok r') : MemberInv (restamp r r' st k) (k + 1) r' := by
  obtain ⟨o, rfl⟩ | ⟨hw, hroom, client, hc, hj⟩ := msgJoin_ok hr
  · exact (h.of_same (SameMembers.out r o)).restamp_of_no_entry fun _ => id
  have hid : client.ref.id = info.id := by rw [(newClient_ok hc).1]
  have hp : client.ref.isPlayer = true := by rw [(newClient_ok hc).1]
  rw [← hid] at hw hroom hj
  obtain ⟨o, ⟨old, hold, rfl⟩ | ⟨hnone, rfl⟩⟩ := joinPlayer_ok hj
  · refine (h.of_rejoin hold hp o).restamp_of_no_entry fun id hid' => ?_
    rcases (AList.mem_insert _).1 hid' with rfl | hx
    · exact AList.lookup_isSome.1 (by rw [hold]; rfl)
    · exact hx
  · exact h.of_addPlayer (fun hm => by simp [← AList.lookup_isSome, hnone] at hm) hw hp
      (hroom hnone) o

theorem MemberInv.of_msgWatch {info : Pb.ClientInfo} {n : UInt32} (h : MemberInv st k r)
    (hr : r.msgWatch info n = .ok r') : MemberInv st k r' ∧ r'.players = r.players := by
  obtain ⟨o, rfl⟩ | ⟨hp, client, hc, hw⟩ := msgWatch_ok hr
  · exact ⟨h.of_same (SameMembers.out r o), rfl⟩
  obtain ⟨o, rfl⟩ := watchWatcher_ok hw
  have hid : client.ref.id = info.id := by rw [(newClient_ok hc).1]
  have hnp : client.ref.isPlayer = false := by rw [(newClient_ok hc).1]
  refine ⟨{ h with
    disjoint := fun id hid' hw' => by
      rcases (AList.mem_insert _).1 hw' with rfl | hw'
      · exact hp (hid ▸ hid')
      · exact h.disjoint id hid' hw'
    watchers_keyed := keyed_insert h.watchers_keyed ⟨rfl, hnp⟩ }, rfl⟩

theorem MemberInv.of_msgKick {c : ClientRef} {msg : RegularMsg} {t : ClientID} {m : Bytes}
    (h : MemberInv st k r) (hr : r.msgKick c msg t m = .ok r') (hd : r'.done = false) :
    MemberInv st k r' ∧ ∀ id ∈ r'.players, id ∈ r.players := by
  obtain ⟨o, rfl⟩ | ⟨tc, o, -, hrm⟩ := msgKick_ok hr
  · exact ⟨h.of_same (SameMembers.out r o), fun _ => id⟩
  · exact ⟨(h.of_same (SameMembers.out r o)).of_removeClient hrm hd,
      removeClient_players_sub (r := { r with out := o }) hrm⟩

theorem MemberInv.of_msgAdminKick {t : ClientID} (h : MemberInv st k r)
    (hr : r.msgAdminKick t = .ok r') (hd : r'.done = false) :
    MemberInv st k r' ∧ ∀ id ∈ r'.players, id ∈ r.players := by
  obtain ⟨o, rfl⟩ | ⟨tc, r₁, -, hrm, rfl⟩ := msgAdminKick_ok hr
  · exact ⟨h.of_same (SameMembers.out r o), fun _ => id⟩
  · exact ⟨(h.of_removeClient hrm hd).of_same (SameMembers.out r₁ _),
      fun id hid => removeClient_players_sub hrm id hid⟩

/-- `dispatch` of any message but `MsgCreate` keeps the invariant, with the arrival times
moved on by one tick. -/
theorem MemberInv.of_dispatch {now : UInt64} {m : Msg} (h : MemberInv st k r)
    (hm : m.isCreate = false) (hr : r.dispatch now m = .ok r') (hd : r'.done = false) :
    MemberInv (restamp r r' st k) (k + 1) r' := by
  have keep : MemberInv st k r' ∧ (∀ id ∈ r'.players, id ∈ r.players) →
      MemberInv (restamp r r' st k) (k + 1) r' := fun h' => h'.1.restamp_of_no_entry h'.2
  have same : SameMembers r r' → MemberInv (restamp r r' st k) (k + 1) r' := fun hs =>
    keep ⟨h.of_same hs, fun id hid => (hs.mem_players id).1 hid⟩
  have remove : ∀ {c cause}, r.removeClient c cause = .ok r' →
      MemberInv (restamp r r' st k) (k + 1) r' := fun hrm =>
    keep ⟨h.of_removeClient hrm hd, removeClient_players_sub hrm⟩
  cases m with
  | create => cases hm
  | join info => exact h.of_msgJoin hr
  | watch info n =>
    obtain ⟨h', hp⟩ := h.of_msgWatch hr
    exact keep ⟨h', fun id hid => hp ▸ hid⟩
  | getRoomInfo => exact same (same_msgGetRoomInfo hr)
  | adminKick t => exact keep (h.of_msgAdminKick hr hd)
  | ping c t => cases hr; exact same (same_msgPing c t)
  | nodeCount c n =>
    cases hr
    obtain ⟨h', hp⟩ := h.of_msgNodeCount c n
    exact keep ⟨h', fun id hid => hp ▸ hid⟩
  | leave c msg => exact remove hr
  | roomProp c msg p => exact same (same_msgRoomProp hr)
  | clientProp c msg p => cases hr; exact same (same_msgClientProp c msg p)
  | targets c msg ts d => cases hr; exact same (same_msgTargets c msg ts d)
  | toMaster c d => exact same (same_msgToMaster hr)
  | broadcast c d => cases hr; exact same (same_msgBroadcast c d)
  | switchMaster c msg t =>
    obtain ⟨h', hp⟩ := h.of_msgSwitchMaster hr
    exact keep ⟨h', fun id hid => hp ▸ hid⟩
  | kick c msg t m => exact keep (h.of_msgKick hr hd)
  | clientError c e => exact remove hr
  | clientTimeout c => exact remove hr

/-- One step of a running room keeps the invariant. -/
theorem MemberInv.of_step (h : MemberInv st k r) (hs : Step r r') (hd : r'.done = false) :
    MemberInv (restamp r r' st k) (k + 1) r' := by
  cases hs with
  | dispatch now m hm hr =>
    have he : restamp (r.updateLastMsg m.senderID now) r' st k = restamp r r' st k := by
      funext id; simp only [restamp, updateLastMsg_players]
    exact he ▸ (h.of_updateLastMsg m.senderID now).of_dispatch hm hr hd
  | remove c cause hr =>
    exact (h.of_removeClient hr hd).restamp_of_no_entry (removeClient_players_sub hr)

/-- The room `MsgCreate` leaves satisfies the invariant, its master having arrived at time 0. -/
theorem MemberInv.of_created (h : Created r) (hp : r.info.players = 1) :
    MemberInv (fun _ => 0) 1 r := by
  obtain ⟨master, now, hN, hc⟩ := h
  rename_i rN
  obtain ⟨hpl, hmo, hw, hlm, -⟩ := newRoom_some hN
  cases hcl : newClient rN.nextPtr master true 0 with
  | error e => rw [hcl] at hc; cases hc
  | ok c =>
    obtain ⟨hcref, -⟩ := newClient_ok hcl
    obtain ⟨o, he⟩ := msgCreate_ok now hcl
    rw [he] at hp ⊢
    have hmem : ∀ id, id ∈ rN.players.insert c.ref.id c ↔ id = c.ref.id := fun id => by
      rw [AList.mem_insert, hpl]; simp
    exact
      { mem_masterOrder := fun id => by rw [hmo, hmem]; simp
        sorted := by rw [hmo]; exact List.sorted_singleton 0
        stamp_lt := fun _ _ => Nat.zero_lt_one
        master_live := ⟨c.ref, rfl, by
          show ((rN.players.insert c.ref.id c).lookup c.ref.id).map Client.ref = _
          rw [AList.lookup_insert]; rfl⟩
        disjoint := fun id _ hid => by rw [hw] at hid; exact AList.not_mem_empty id hid
        lastMsg_of_player := fun id hid => by rw [hlm, (hmem id).1 hid]; exact (AList.mem_insert _).2 (.inl rfl)
        lastMsg_ulong := fun e he' => by
          rw [hlm] at he'
          exact lastMsg_ulong_insert (fun e h => absurd h (List.not_mem_nil e)) _ now e he'
        count := by
          rw [hp, hpl, AList.length_insert_of_not_mem c (AList.not_mem_empty _)]; rfl
        players_keyed := keyed_insert (fun _ _ hc' => by rw [hpl] at hc'; cases hc')
          ⟨rfl, by rw [hcref]⟩
        watchers_keyed := fun id c' hc' => by rw [hw] at hc'; cases hc' }

/-- When the master leaves and players remain, the new master is the head of `masterOrder`,
the remaining player that entered first. -/
theorem MemberInv.removePlayer_master {c : ClientRef} {cause : Bytes} (h : MemberInv st k r)
    (hd : r.done = false) (hm : r.master = some c) (hr : r.removePlayer c cause = .ok r')
    (hne : r'.players.entries ≠ []) :
    ∃ first rest, r'.masterOrder = first :: rest ∧ first ∈ r'.players ∧
      r'.master = (r'.players.lookup first).map Client.ref ∧
      ∀ id ∈ r'.players, id ≠ first → st first < st id := by
  have h' := h.of_removePlayer hr
  obtain ⟨hnl, rfl⟩ | ⟨-, h0, -, o, rfl⟩ | ⟨-, -, mst, o, rfl, m, hm', -, hswitch⟩ :=
    removePlayer_ok hr
  · obtain ⟨m, hm', hl⟩ := h.master_live
    rw [hm, Option.some_inj] at hm'
    exact absurd (hm' ▸ hl) hnl
  · exact absurd (List.length_eq_zero.1 h0) hne
  rw [hm, Option.some_inj] at hm'
  subst hm'
  obtain ⟨first, rest, hfr, rfl⟩ := hswitch rfl
  have h' := h' hd
  refine ⟨first, rest, hfr, (h'.mem_masterOrder first).1 (hfr ▸ List.mem_cons_self _ _), rfl,
    fun id hid hne' => ?_⟩
  have hsorted := h'.sorted
  have hrest : id ∈ rest := by
    have := (h'.mem_masterOrder id).2 hid
    rw [hfr] at this
    exact (List.mem_cons.1 this).resolve_left hne'
  rw [hfr, List.map_cons, List.sorted_cons] at hsorted
  exact hsorted.1 (st id) (List.mem_map_of_mem st hrest)

end Room

/-- The runs of a room from `r₀` while `done` is open, each state with the logical time at
which each id last entered `players` as a new key, and the next time. -/
inductive Run (r₀ : Room) : Room → (ClientID → Nat) → Nat → Prop
  | start : Run r₀ r₀ (fun _ => 0) 1
  | step {r r' : Room} {st : ClientID → Nat} {k : Nat} :
      Run r₀ r st k → r.done = false → Step r r' → Run r₀ r' (Room.restamp r r' st k) (k + 1)

theorem Room.MemberInv.of_run {r₀ r : Room} {st : ClientID → Nat} {k : Nat}
    (h₀ : Room.MemberInv (fun _ => 0) 1 r₀) (hrun : Run r₀ r st k) (hd : r.done = false) :
    Room.MemberInv st k r := by
  induction hrun with
  | start => exact h₀
  | step _ hd' hs ih => exact (ih hd').of_step hs hd

end Game
end WSNet2
