import WSNet2.Binary.Codec

/-!
# The lobby's app table — `lobby.RoomService`

`NewRoomService` loads the `app` table into `rs.apps`, a map from an app id to a `*pb.App`,
and `GetAppKey` reads an app's key through it. The module declares `go 1.16` (`go.mod`):
a `range` clause declares its iteration variable once and reuses it in every iteration, so
the loop stores the one address `&app` under every id, and each row overwrites the value
there.

The heap is modelled as far as this loop uses it: the cells that hold `pb.App` values,
allocated at the end of a list and stored with `List.set`. The database is the
environment: the query's result, its rows or its error, is an argument. The caches, `db`
and `conf` are left out.

`Create` and `Join` first check the app id against `rs.apps`; the rest of each, the game
cache and the call to a game server, is not under `src/` and is an argument. The check lets
through exactly the ids of the loaded rows (`create_join_after_load`).

`Search` filters the rooms the room cache returns for an app and a search group. The cache
and `PropQueries.match` are not under `src/`: the cache's answer and the match function are
arguments. Its loop reads `props[i]` for each query, breaks at the first match and stops
once `limit` rooms are found; `search_eq` says it computes the matching rooms in the
cache's order, at most `limit` of them, and exactly when it panics.
-/

namespace WSNet2
namespace Lobby

open Binary

/-! ## The service -/

/-- `pb.App`, with the two columns the query selects. -/
structure App where
  id : Bytes
  key : Bytes
  deriving DecidableEq, Repr

/-- The cells of Go's heap that hold `pb.App` values, by address. -/
abbrev Heap := List App

/-- A map from app id to the address of a `pb.App`. -/
abbrev AppMap := AList (fun _ : Bytes => Nat)

/-- `RoomService`, with the fields `NewRoomService` and `GetAppKey` use. Every address in
`apps` is allocated, as every Go pointer is. -/
structure RoomService where
  heap : Heap
  apps : AppMap
  apps_valid : ∀ id p, apps.lookup id = some p → p < heap.length

/-- `for _, app := range apps { rs.apps[app.Id] = &app }` under Go 1.16: `app` is the one
variable at address `p`; each iteration copies the row into it, then stores its address
under the row's id. -/
def rangeApps (p : Nat) : List App → Heap × AppMap → Heap × AppMap
  | [], hm => hm
  | app :: rest, (heap, m) => rangeApps p rest (heap.set p app, m.insert app.id p)

/-! ## What the loop leaves -/

/-- After the loop the heap has its length; every id of the rows points at `p`, which holds
the last row; any other id keeps the address it had. -/
theorem rangeApps_spec (p : Nat) (apps : List App) (hm : Heap × AppMap)
    (hp : p < hm.1.length) :
    (rangeApps p apps hm).1.length = hm.1.length ∧
    (∀ id, (rangeApps p apps hm).2.lookup id =
      if id ∈ apps.map App.id then some p else hm.2.lookup id) ∧
    ∀ last, apps.getLast? = some last → (rangeApps p apps hm).1[p]? = some last := by
  induction apps generalizing hm with
  | nil => exact ⟨rfl, fun id => by simp [rangeApps], fun _ h => by cases h⟩
  | cons app rest ih =>
    obtain ⟨heap, m⟩ := hm
    obtain ⟨hlen, hl, hc⟩ := ih (heap.set p app, m.insert app.id p) (by simpa using hp)
    refine ⟨hlen.trans (List.length_set ..), fun id => ?_, fun last hlast => ?_⟩
    · rw [rangeApps, hl, List.map_cons]
      split_ifs with h₂ h₃ h₃
      · rfl
      · exact absurd (List.mem_cons_of_mem _ h₂) h₃
      · obtain rfl := (List.mem_cons.1 h₃).resolve_right h₂
        exact AList.lookup_insert _
      · exact AList.lookup_insert_ne fun he => h₃ (he ▸ List.mem_cons_self _ _)
    · cases rest with
      | nil =>
        obtain rfl : app = last := by simpa using hlast
        exact List.getElem?_set_self hp
      | cons b rest => exact hc last (by simpa [List.getLast?_cons_cons] using hlast)

/-- So the loop keeps every address in the map allocated, if `p` is. -/
theorem rangeApps_valid (p : Nat) (apps : List App) (hm : Heap × AppMap)
    (hp : p < hm.1.length) (hv : ∀ id q, hm.2.lookup id = some q → q < hm.1.length) :
    ∀ id q, (rangeApps p apps hm).2.lookup id = some q → q < (rangeApps p apps hm).1.length := by
  obtain ⟨hlen, hl, -⟩ := rangeApps_spec p apps hm hp
  intro id q hq
  rw [hlen]
  rw [hl] at hq
  split_ifs at hq
  · exact Option.some_inj.1 hq ▸ hp
  · exact hv id q hq

/-- `NewRoomService`: the query's error, or the service with every row loaded. `var app
pb.App` is allocated at the end of the heap before the loop. -/
def newRoomService (rows : Except Bytes (List App)) (heap : Heap) : Except Bytes RoomService :=
  match rows with
  | .error err => .error (utf8 "select apps error: " ++ err)
  | .ok apps =>
    let heap := heap ++ [⟨[], []⟩]
    let hm := rangeApps (heap.length - 1) apps (heap, ∅)
    have hv := rangeApps_valid (heap.length - 1) apps (heap, ∅) (by simp [heap])
      fun _ _ h => absurd h (by simp)
    .ok ⟨hm.1, hm.2, hv⟩

/-- `GetAppKey`: the key of the `pb.App` stored under the id, or `""` and `false`. -/
def RoomService.getAppKey (rs : RoomService) (appId : Bytes) : Bytes × Bool :=
  match h : rs.apps.lookup appId with
  | none => ([], false)
  | some p => ((rs.heap.get ⟨p, rs.apps_valid appId p h⟩).key, true)

/-! ## What `GetAppKey` answers -/

theorem getAppKey_of_lookup_none {rs : RoomService} {id : Bytes}
    (h : rs.apps.lookup id = none) : rs.getAppKey id = ([], false) := by
  unfold RoomService.getAppKey
  split
  · rfl
  · simp_all

theorem getAppKey_of_lookup_some {rs : RoomService} {id : Bytes} {p : Nat} {app : App}
    (h : rs.apps.lookup id = some p) (hc : rs.heap[p]? = some app) :
    rs.getAppKey id = (app.key, true) := by
  unfold RoomService.getAppKey
  split
  · simp_all
  · rename_i q hq
    obtain rfl : q = p := Option.some_inj.1 (hq.symm.trans h)
    simp [List.getElem?_eq_some_iff.1 hc |>.2]

/-- What `GetAppKey` answers after `NewRoomService` under Go 1.16: the id of any loaded row
gets the key of the last row, whichever row it came from; any other id is unknown. -/
theorem getAppKey_after_load {apps : List App} {heap : Heap} {rs : RoomService}
    (h : newRoomService (.ok apps) heap = .ok rs) :
    (∀ a ∈ apps, ∃ last, apps.getLast? = some last ∧ rs.getAppKey a.id = (last.key, true)) ∧
    ∀ id, id ∉ apps.map App.id → rs.getAppKey id = ([], false) := by
  cases h
  obtain ⟨-, hl, hc⟩ := rangeApps_spec ((heap ++ [App.mk [] []]).length - 1) apps
    (heap ++ [App.mk [] []], ∅) (by simp)
  refine ⟨fun a ha => ?_, fun id hid => getAppKey_of_lookup_none ?_⟩
  · obtain ⟨last, hlast⟩ := Option.isSome_iff_exists.1
      (List.getLast?_isSome.2 (List.ne_nil_of_mem ha))
    exact ⟨last, hlast, getAppKey_of_lookup_some
      ((hl a.id).trans (if_pos (List.mem_map_of_mem App.id ha))) (hc last hlast)⟩
  · exact (hl id).trans (if_neg hid)

/-- The table of two apps loaded into an empty heap. -/
theorem getAppKey_after_load_two_apps :
    ∃ rs, newRoomService (.ok [⟨utf8 "a", utf8 "k1"⟩, ⟨utf8 "b", utf8 "k2"⟩]) [] = .ok rs ∧
      (∀ a ∈ [App.mk (utf8 "a") (utf8 "k1"), ⟨utf8 "b", utf8 "k2"⟩], ∃ last,
        [App.mk (utf8 "a") (utf8 "k1"), ⟨utf8 "b", utf8 "k2"⟩].getLast? = some last ∧
        rs.getAppKey a.id = (last.key, true)) ∧
      ∀ id, id ∉ [App.mk (utf8 "a") (utf8 "k1"), ⟨utf8 "b", utf8 "k2"⟩].map App.id →
        rs.getAppKey id = ([], false) :=
  ⟨_, rfl, getAppKey_after_load rfl⟩

/-- Two apps, `a` with key `k1` and `b` with key `k2`: after `NewRoomService`,
`GetAppKey("a")` answers `b`'s key. -/
theorem getAppKey_aliased_key :
    ∃ rs, newRoomService (.ok [⟨utf8 "a", utf8 "k1"⟩, ⟨utf8 "b", utf8 "k2"⟩]) [] = .ok rs ∧
      rs.getAppKey (utf8 "a") = (utf8 "k2", true) :=
  ⟨_, rfl, rfl⟩

/-! ## Create and Join -/

/-- The check `Create` and `Join` open with, `if _, found := rs.apps[appId]; !found`: an
unknown app id is refused; for a known one the rest of the function runs. That rest, the
game cache and the gRPC call to a game server, is not under `src/`, so its outcome `call`
is an argument; the room option, room id and client info only go into its request. -/
def RoomService.withApp {α : Type} (rs : RoomService) (appId : Bytes) (call : Except Bytes α) :
    Except Bytes α :=
  match rs.apps.lookup appId with
  | none => .error (utf8 "Unknown appId: " ++ appId)
  | some _ => call

/-- `Create`. -/
def RoomService.create {α : Type} (rs : RoomService) (appId : Bytes) (call : Except Bytes α) :
    Except Bytes α :=
  rs.withApp appId call

/-- `Join`. -/
def RoomService.join {α : Type} (rs : RoomService) (appId : Bytes) (call : Except Bytes α) :
    Except Bytes α :=
  rs.withApp appId call

theorem withApp_eq {α : Type} (rs : RoomService) (appId : Bytes) (call : Except Bytes α) :
    rs.withApp appId call =
      if appId ∈ rs.apps then call else .error (utf8 "Unknown appId: " ++ appId) := by
  unfold RoomService.withApp
  split <;> rename_i hl <;> simp [← AList.lookup_isSome, hl]

theorem getAppKey_found (rs : RoomService) (appId : Bytes) :
    (rs.getAppKey appId).2 = decide (appId ∈ rs.apps) := by
  unfold RoomService.getAppKey
  split <;> rename_i hl <;> simp [← AList.lookup_isSome, hl]

/-- After `NewRoomService`, `Create` and `Join` let exactly the ids of the loaded rows through
to the game server and refuse any other with `Unknown appId`, and `GetAppKey` reports the
same ids as found: the aliasing of `getAppKey_aliased_key` reaches the keys, not this check. -/
theorem create_join_after_load {apps : List App} {heap : Heap} {rs : RoomService}
    (h : newRoomService (.ok apps) heap = .ok rs) {α : Type} (appId : Bytes)
    (call : Except Bytes α) :
    rs.create appId call =
      (if appId ∈ apps.map App.id then call else .error (utf8 "Unknown appId: " ++ appId)) ∧
    rs.join appId call =
      (if appId ∈ apps.map App.id then call else .error (utf8 "Unknown appId: " ++ appId)) ∧
    (rs.getAppKey appId).2 = decide (appId ∈ apps.map App.id) := by
  cases h
  obtain ⟨-, hl, -⟩ := rangeApps_spec ((heap ++ [App.mk [] []]).length - 1) apps
    (heap ++ [App.mk [] []], ∅) (by simp)
  have hmem : appId ∈ (rangeApps ((heap ++ [App.mk [] []]).length - 1) apps
      (heap ++ [App.mk [] []], ∅)).2 ↔ appId ∈ apps.map App.id := by
    rw [← AList.lookup_isSome, hl]
    split_ifs with h' <;> simp [h']
  simp only [RoomService.create, RoomService.join, withApp_eq, getAppKey_found, hmem, and_self]

/-- The table of two apps: an id it does not hold is refused, and `GetAppKey` does not find
it. -/
theorem create_join_after_load_unknown :
    ∃ rs, newRoomService (.ok [⟨utf8 "a", utf8 "k1"⟩, ⟨utf8 "b", utf8 "k2"⟩]) [] = .ok rs ∧
      (rs.create (utf8 "c") (.ok ()) =
        (if utf8 "c" ∈ [App.mk (utf8 "a") (utf8 "k1"), ⟨utf8 "b", utf8 "k2"⟩].map App.id
          then .ok () else .error (utf8 "Unknown appId: " ++ utf8 "c")) ∧
      rs.join (utf8 "c") (.ok ()) =
        (if utf8 "c" ∈ [App.mk (utf8 "a") (utf8 "k1"), ⟨utf8 "b", utf8 "k2"⟩].map App.id
          then .ok () else .error (utf8 "Unknown appId: " ++ utf8 "c")) ∧
      (rs.getAppKey (utf8 "c")).2 =
        decide (utf8 "c" ∈ [App.mk (utf8 "a") (utf8 "k1"), ⟨utf8 "b", utf8 "k2"⟩].map App.id)) :=
  ⟨_, rfl, create_join_after_load rfl (utf8 "c") (.ok ())⟩

/-! ## Search -/

/-- The runtime panic `Search` can hit. -/
inductive Panic
  /-- `index out of range`, of `props[i]`. -/
  | indexOutOfRange
  deriving DecidableEq, Repr

section Search

variable {Info Props Query : Type} (queryMatch : Query → Props → Bool)

/-- The inner loop of `Search`, `for _, q := range queries { if q.match(props[i]) { …; break } }`:
whether some query matches, stopping at the first that does. `props[i]` is read by each
iteration, so a missing entry panics when there is a query. -/
def matchAny : List Query → Option Props → Except Panic Bool
  | [], _ => .ok false
  | _ :: _, none => .error .indexOutOfRange
  | q :: qs, some p => if queryMatch q p then .ok true else matchAny qs (some p)

/-- The outer loop of `Search` from index `i`, with the rooms `filtered` so far: a matching
room is appended, and the loop breaks once `limit > 0 && len(filtered) >= limit`. -/
def searchLoop (queries : List Query) (props : List Props) (limit : Int) :
    Nat → List Info → List Info → Except Panic (List Info)
  | _, [], filtered => .ok filtered
  | i, r :: rooms, filtered =>
    match matchAny queryMatch queries props[i]? with
    | .error e => .error e
    | .ok hit =>
      let filtered := if hit then filtered ++ [r] else filtered
      if limit > 0 ∧ (filtered.length : Int) ≥ limit then .ok filtered
      else searchLoop queries props limit (i + 1) rooms filtered

/-- `Search`, given what `rs.roomCache.GetRooms(appId, searchGroup)` returns: the rooms and
their props, or its error. -/
def search (rooms : Except Bytes (List Info × List Props)) (queries : List Query) (limit : Int) :
    Except Panic (Except Bytes (List Info)) :=
  match rooms with
  | .error err => .ok (.error (utf8 "RoomCache error: " ++ err))
  | .ok (rooms, props) => (searchLoop queryMatch queries props limit 0 rooms []).map .ok

/-- What `Search` is for: the rooms, in the cache's order, whose props some query matches.
A room with no props entry matches nothing. -/
def hits (queries : List Query) (rooms : List Info) (props : List Props) : List Info :=
  ((rooms.zip props).filter fun rp => queries.any (queryMatch · rp.2)).map Prod.fst

/-- `n` results reach the limit; a limit that is not positive is none. -/
def limitReached (limit : Int) (n : Nat) : Prop := 0 < limit ∧ limit ≤ n

instance (limit : Int) (n : Nat) : Decidable (limitReached limit n) :=
  inferInstanceAs (Decidable (_ ∧ _))

/-- At most `limit` results, when the limit is positive. -/
def upTo (limit : Int) (l : List Info) : List Info := if 0 < limit then l.take limit.toNat else l

theorem matchAny_some (queries : List Query) (p : Props) :
    matchAny queryMatch queries (some p) = .ok (queries.any (queryMatch · p)) := by
  induction queries with
  | nil => rfl
  | cons q qs ih => unfold matchAny; split_ifs with h <;> simp [h, ih]

theorem searchLoop_no_queries (props : List Props) (limit : Int) (i : Nat)
    (rooms filtered : List Info) :
    searchLoop queryMatch [] props limit i rooms filtered = .ok filtered := by
  induction rooms generalizing i with
  | nil => rfl
  | cons r rs ih =>
    unfold searchLoop
    simp only [matchAny, if_false, Bool.false_eq_true]
    split_ifs
    · rfl
    · exact ih _

theorem hits_no_queries (rooms : List Info) (props : List Props) :
    hits queryMatch [] rooms props = [] := by
  simp [hits]

theorem hits_cons {queries : List Query} {r : Info} {rooms : List Info} {props : List Props}
    {i : Nat} (hi : i < props.length) :
    hits queryMatch queries (r :: rooms) (props.drop i) =
      (if queries.any (queryMatch · props[i]) then [r] else []) ++
        hits queryMatch queries rooms (props.drop (i + 1)) := by
  rw [List.drop_eq_getElem_cons hi]
  unfold hits
  split_ifs with h <;> simp only [List.zip_cons_cons, List.filter_cons, h, if_true, if_false,
    List.map_cons, List.singleton_append, List.nil_append, Bool.false_eq_true]

theorem upTo_of_not_reached {limit : Int} {l : List Info} (h : ¬ limitReached limit l.length) :
    upTo limit l = l := by
  unfold upTo limitReached at *
  split_ifs
  · exact List.take_of_length_le (by omega)
  · rfl

/-- The loop from index `i`, before the limit is reached, with at least one query: it
panics when it runs past the props before reaching the limit, and otherwise ends with the
matches so far followed by the rest, cut at the limit. -/
theorem searchLoop_eq {queries : List Query} (hq : queries ≠ []) (props : List Props)
    (limit : Int) (rooms : List Info) : ∀ (i : Nat) (filtered : List Info), i ≤ props.length →
    ¬ limitReached limit filtered.length →
    searchLoop queryMatch queries props limit i rooms filtered =
      if props.length < i + rooms.length ∧ ¬ limitReached limit
          (filtered.length + (hits queryMatch queries rooms (props.drop i)).length)
      then .error .indexOutOfRange
      else .ok (upTo limit (filtered ++ hits queryMatch queries rooms (props.drop i))) := by
  obtain ⟨q, qs, rfl⟩ := List.exists_cons_of_ne_nil hq
  induction rooms with
  | nil =>
    intro i filtered hi hf
    simp only [hits, List.zip_nil_left, List.filter_nil, List.map_nil, List.append_nil,
      List.length_nil]
    rw [if_neg (by omega), upTo_of_not_reached hf]
    rfl
  | cons r rs ih =>
    intro i filtered hi hf
    rcases Nat.lt_or_eq_of_le hi with hi | rfl
    · unfold searchLoop
      rw [List.getElem?_eq_getElem hi, matchAny_some, hits_cons queryMatch hi]
      dsimp only
      generalize (q :: qs).any (queryMatch · props[i]) = hit
      have e : filtered ++ ((if hit then [r] else []) ++ hits queryMatch (q :: qs) rs
          (props.drop (i + 1))) = (if hit then filtered ++ [r] else filtered) ++
          hits queryMatch (q :: qs) rs (props.drop (i + 1)) := by
        cases hit <;> simp
      have hlen : (if hit then filtered ++ [r] else filtered).length ≤ filtered.length + 1 ∧
          filtered.length + (if hit then [r] else []).length =
          (if hit then filtered ++ [r] else filtered).length := by
        cases hit <;> simp
      have e3 : i + (r :: rs).length = i + 1 + rs.length := by
        simp only [List.length_cons]; omega
      rw [e, List.length_append, ← Nat.add_assoc, hlen.2, e3]
      generalize (if hit then filtered ++ [r] else filtered) = f' at hlen ⊢
      by_cases hreach : limitReached limit f'.length
      · -- the break: exactly `limit` rooms are found
        have hn : f'.length = limit.toNat := by unfold limitReached at hf hreach; omega
        rw [if_pos (show limit > 0 ∧ (f'.length : Int) ≥ limit from hreach),
          if_neg fun h => h.2 ⟨hreach.1, by push_cast; omega⟩, upTo, if_pos hreach.1,
          List.take_left' hn]
      · rw [if_neg (show ¬(limit > 0 ∧ (f'.length : Int) ≥ limit) from hreach)]
        exact ih (i + 1) f' hi hreach
    · -- `props[i]` is past the end
      unfold searchLoop
      rw [List.getElem?_eq_none le_rfl]
      simp only [matchAny, hits, List.drop_length, List.zip_nil_right, List.filter_nil,
        List.map_nil, List.length_nil, Nat.add_zero, List.length_cons]
      rw [if_pos ⟨by omega, hf⟩]

/-- `Search` over any answer of the cache: it returns the rooms whose props some query
matches, in the cache's order, the first `limit` of them when `limit > 0`; it panics on
`props[i]` exactly when there is a query, the cache returned fewer props than rooms, and
the limit is not reached within the rooms that have props. -/
theorem search_eq (rooms : List Info) (props : List Props) (queries : List Query)
    (limit : Int) :
    search queryMatch (.ok (rooms, props)) queries limit =
      if 0 < queries.length ∧ props.length < rooms.length ∧
          ¬ limitReached limit (hits queryMatch queries rooms props).length
      then .error .indexOutOfRange
      else .ok (.ok (upTo limit (hits queryMatch queries rooms props))) := by
  unfold search
  dsimp only
  cases queries with
  | nil =>
    rw [searchLoop_no_queries, hits_no_queries, if_neg fun h => absurd h.1 (Nat.lt_irrefl 0)]
    simp only [upTo, List.take_nil, ite_self]
    rfl
  | cons q qs =>
    have h0 : ¬ limitReached limit ([] : List Info).length := fun h => by
      unfold limitReached at h; simp at h; omega
    rw [searchLoop_eq queryMatch (List.cons_ne_nil q qs) props limit rooms 0 [] (Nat.zero_le _) h0]
    simp only [List.drop_zero, List.length_nil, Nat.zero_add, List.nil_append, List.length_cons,
      Nat.zero_lt_succ, true_and]
    split_ifs <;> rfl

end Search

end Lobby
end WSNet2
