import WSNet2.Game.Room.Basic

/-!
# Room handlers — `game/room.go`

One definition per handler of `dispatch`, in the order of the source, then `dispatch`, the
body of one `MsgLoop` iteration, and the step relation of a running room. Each handler
keeps the source's checks and their order: a check that returns early returns the room
unchanged except for the reply it emits.
-/

namespace WSNet2
namespace Game

open Binary

/-- The merge loop of `msgRoomProp` and `msgClientProp`, over the update in the map's
iteration order: an entry deletes its key when the key is present and the value empty;
otherwise it sets the key. -/
def mergeProps (props upd : Dict) : Dict :=
  upd.entries.foldl (fun d e => if e.1 ∈ d ∧ e.2.length = 0 then d.erase e.1 else d.insert e.1 e.2)
    props

namespace Room

variable (r : Room)

/-! ## Leaving -/

/-- `if r.master.ID() == cid { r.master = r.players[r.masterOrder[0]] }`. -/
def electMaster (cid : ClientID) : Except Panic Room := do
  let m ← r.masterRef
  if m.id = cid then
    match r.masterOrder with
    | [] => .error .indexOutOfRange
    | first :: _ => pure { r with master := (r.players.lookup first).map Client.ref }
  else pure r

/-- The first part of `removePlayer`: the player leaves `players` and `masterOrder` (the
loop drops the first occurrence), is logged, and is told. -/
@[simp] def dropPlayer (c : ClientRef) (cause : Bytes) : Room :=
  (({ r with players := r.players.erase c.id, masterOrder := r.masterOrder.erase c.id } : Room).emit
    (.playerLog c .leave)).emit (.removed c cause)

/-- The rest of `removePlayer` when players remain: elect a new master if `cid` was the
master, recount, publish, announce `EvLeft`, forget `cid`'s last-message time. The room's
call `NewEvLeft(string(cid), r.master.Id, cause)` passes the cause as a third argument, which
the binary package's `NewEvLeft(cliId, masterId)` has no parameter for; the event carries the
two ids only, and the cause reaches the leaving client alone, in `Removed`. -/
def afterLeave (cid : ClientID) : Except Panic Room := do
  let r ← r.electMaster cid
  let r := ({ r with info := { r.info with players := UInt32.ofNat r.players.entries.length } } : Room)
  let r := r.updateRoomInfo
  let m ← r.masterRef
  pure ((r.broadcast (newEvLeft cid m.id)).removeLastMsg cid)

/-- `removePlayer`. The last player's departure closes `done` and returns at once. -/
def removePlayer (c : ClientRef) (cause : Bytes) : Except Panic Room :=
  if ¬r.isLivePlayer c then .ok r
  else if (r.dropPlayer c cause).players.entries.length = 0 then (r.dropPlayer c cause).closeDone
  else (r.dropPlayer c cause).afterLeave c.id

/-- `removeWatcher`. -/
def removeWatcher (c : ClientRef) (cause : Bytes) : Room :=
  match r.watchers.lookup c.id with
  | some w =>
    if w.ref = c then
      let r := { r with watchers := r.watchers.erase c.id
                        info := { r.info with watchers := r.info.watchers - w.nodeCount } }
      r.updateRoomInfo.emit (.removed c cause)
    else r
  | none => r

/-- `removeClient`. -/
def removeClient (c : ClientRef) (cause : Bytes) : Except Panic Room :=
  if c.isPlayer then r.removePlayer c cause else .ok (r.removeWatcher c cause)

/-! ## Control plane -/

/-- `msgCreate`. -/
def msgCreate (info : Pb.ClientInfo) (now : UInt64) : Room :=
  match newClient r.nextPtr info true 0 with
  | .error code => r.emit (.err code (.newPlayer info.id))
  | .ok master =>
    let r := { r with nextPtr := r.nextPtr + 1, master := some master.ref
                      players := r.players.insert master.ref.id master
                      masterOrder := r.masterOrder ++ [master.ref.id] }
    let r := r.emit (.playerLog master.ref .create)
    let r := r.emit (.joined ⟨r.info, [master.info], master.ref, master.ref.id, r.deadline⟩)
    (r.broadcast (newEvJoined master.info)).writeLastMsg master.ref.id now

/-- The success path of `msgJoin`: `client` replaces `oldp` on a rejoin and is added
otherwise. A rejoin keeps the slot in `masterOrder` and takes over the mastership. -/
def joinPlayer (oldp : Option Client) (client : Client) (now : UInt64) : Except Panic Room := do
  let r := { r with nextPtr := r.nextPtr + 1, players := r.players.insert client.ref.id client }
  let r := match oldp with
    | some old =>
      let r := r.emit (.removed old.ref (utf8 "client rejoined as a new client"))
      let r := { r with master := if r.master = some old.ref then some client.ref else r.master }
      r.emit (.playerLog client.ref .rejoin)
    | none =>
      let r := { r with masterOrder := r.masterOrder ++ [client.ref.id] }
      let r := r.emit (.playerLog client.ref .join)
      let r := { r with info := { r.info with players := UInt32.ofNat r.players.entries.length } }
      r.updateRoomInfo
  let m ← r.masterRef
  let r := r.emit (.joined ⟨r.info, r.players.entries.map (·.2.info), client.ref, m.id, r.deadline⟩)
  let r := r.broadcast (if oldp.isSome then newEvRejoined client.info else newEvJoined client.info)
  pure (r.writeLastMsg client.ref.id now)

/-- `msgJoin`. -/
def msgJoin (info : Pb.ClientInfo) (now : UInt64) : Except Panic Room :=
  if !r.info.joinable then .ok (r.emit (.err .failedPrecondition (.notJoinable r.info.id info.id)))
  else if info.id ∈ r.watchers then
    .ok (r.emit (.err .alreadyExists (.playerIsWatcher r.info.id info.id)))
  else if (r.players.lookup info.id).isNone ∧
      r.info.maxPlayers ≤ UInt32.ofNat r.players.entries.length then
    .ok (r.emit (.err .resourceExhausted (.roomFull r.info.id r.info.maxPlayers info.id)))
  else
    match newClient r.nextPtr info true 0 with
    | .error code => .ok (r.emit (.err code (.newPlayerIn r.info.id info.id)))
    | .ok client => r.joinPlayer (r.players.lookup info.id) client now

/-- The success path of `msgWatch`: `client` replaces a watcher of the same id, whose node
count leaves the total, and its own count joins it. -/
def watchWatcher (client : Client) : Except Panic Room := do
  let oldc := r.watchers.lookup client.ref.id
  let r := { r with nextPtr := r.nextPtr + 1, watchers := r.watchers.insert client.ref.id client }
  let r := match oldc with
    | some old =>
      let r := r.emit (.removed old.ref (utf8 "client rejoined as a new client"))
      { r with info := { r.info with watchers := r.info.watchers - old.nodeCount } }
    | none => r
  let r := { r with info := { r.info with watchers := r.info.watchers + client.nodeCount } }
  let r := r.updateRoomInfo
  let m ← r.masterRef
  pure (r.emit (.joined ⟨r.info, r.players.entries.map (·.2.info), client.ref, m.id, r.deadline⟩))

/-- `msgWatch`. -/
def msgWatch (info : Pb.ClientInfo) (nodeCount : UInt32) : Except Panic Room :=
  if !r.info.watchable then .ok (r.emit (.err .failedPrecondition (.notWatchable r.info.id info.id)))
  else if info.id ∈ r.players then
    .ok (r.emit (.err .alreadyExists (.watcherIsPlayer r.info.id info.id)))
  else
    match newClient r.nextPtr info false nodeCount with
    | .error code => .ok (r.emit (.err code (.newWatcher r.info.id info.id)))
    | .ok client => r.watchWatcher client

/-- `msgGetRoomInfo` from `RLock` on, given the clone `ri` of `RoomInfo` it took before the
lock. A `masterOrder` id with no player, or a last-message time that does not decode,
panics. -/
def msgGetRoomInfo (ri : Pb.RoomInfo) : Except Panic Room := do
  let cis ← r.masterOrder.mapM fun id =>
    match r.players.lookup id with
    | some c => .ok c.info
    | none => .error .nilDereference
  let lmt ← r.lastMsg.entries.mapM fun e =>
    match unmarshalAs e.2 [typeULong] with
    | .ok (t, _) => .ok (e.1, t.asULong)
    | .error _ => .error .interfaceConversion
  let m ← r.masterRef
  pure (r.emit (.roomInfoRes ⟨ri, cis, m.id, lmt⟩))

/-- `msgAdminKick`. -/
def msgAdminKick (target : ClientID) : Except Panic Room :=
  match r.players.lookup target with
  | none => .ok (r.emit (.adminKickRes (some (.playerNotFound target))))
  | some t => do
    let r ← r.removeClient t.ref (utf8 "kicked by admin")
    pure (r.emit (.adminKickRes none))

/-! ## Client messages -/

/-- `msgPing`. -/
def msgPing (sender : ClientRef) (timestamp : UInt64) : Room :=
  if r.isMember sender then
    r.emit (.sendSystem sender (newEvPong timestamp r.info.watchers r.lastMsg))
  else r

/-- `msgNodeCount`. -/
def msgNodeCount (c : ClientRef) (count : UInt32) : Room :=
  match r.watchers.lookup c.id with
  | some w =>
    if w.ref ≠ c ∨ w.nodeCount = count then r
    else
      let r := { r with info := { r.info with watchers := r.info.watchers - w.nodeCount + count }
                        watchers := r.watchers.insert c.id { w with nodeCount := count } }
      r.updateRoomInfo
  | none => r

/-- `msgLeave`. -/
def msgLeave (sender : ClientRef) (message : Bytes) : Except Panic Room :=
  r.removeClient sender message

/-- The props a master's `MsgRoomProp` leaves: each dict merged when its update is not
empty, with `RoomInfo`'s blob re-marshaled. -/
def applyRoomProps (p : RoomPropPayload) : Room :=
  let r := if p.publicProps.entries.length > 0 then
      let pp := mergeProps r.publicProps p.publicProps
      { r with publicProps := pp, info := { r.info with publicProps := marshalDict pp } }
    else r
  if p.privateProps.entries.length > 0 then
    let pp := mergeProps r.privateProps p.privateProps
    { r with privateProps := pp, info := { r.info with privateProps := marshalDict pp } }
  else r

/-- `msgRoomProp`. -/
def msgRoomProp (sender : ClientRef) (msg : RegularMsg) (p : RoomPropPayload) :
    Except Panic Room :=
  if r.master ≠ some sender then r.masterRef.map fun _ => r.sendTo sender (newEvPermissionDenied msg)
  else
    let r := { r with
      info := { r.info with
        visible := p.visible
        joinable := p.joinable
        watchable := p.watchable
        searchGroup := p.searchGroup
        maxPlayers := p.maxPlayer } }
    let r := (r.applyRoomProps p).updateRoomInfo
    let r := if p.clientDeadline ≠ 0 ∧ p.clientDeadline.toNat ≠ r.deadline then
        { r with
          deadline := p.clientDeadline.toNat
          out := r.out ++ r.players.entries.map fun e => .newDeadline e.2.ref p.clientDeadline.toNat }
      else r
    .ok ((r.sendTo sender (newEvSucceeded msg)).broadcast (newEvRoomProp sender.id p.eventPayload))

/-- `msgClientProp`. -/
def msgClientProp (sender : ClientRef) (msg : RegularMsg) (props : Dict) : Room :=
  if !sender.isPlayer then r.sendTo sender (newEvPermissionDenied msg)
  else
    match r.players.lookup sender.id with
    | some c =>
      if c.ref ≠ sender then r
      else
        let r := if props.entries.length > 0 then
            let np := mergeProps c.props props
            { r with
              players := r.players.insert sender.id
                { c with props := np, info := { c.info with props := marshalDict np } } }
          else r
        (r.sendTo sender (newEvSucceeded msg)).broadcast (newEvClientProp sender.id msg.payload)
    | none => r

/-- `msgTargets`: the message to each present target in order, then one
`EvTargetNotFound` listing the absent ones. -/
def msgTargets (sender : ClientRef) (msg : RegularMsg) (targets : List ClientID) (data : Bytes) :
    Room :=
  if ¬r.isMember sender then r
  else
    let ev := newEvMessage sender.id data
    let r := { r with out := r.out ++ targets.filterMap fun t =>
      (r.players.lookup t).map fun c => Out.send c.ref ev }
    let absent := targets.filter fun t => t ∉ r.players
    if absent = [] then r else r.sendTo sender (newEvTargetNotFound msg absent)

/-- `msgToMaster`. -/
def msgToMaster (sender : ClientRef) (data : Bytes) : Except Panic Room :=
  if ¬r.isMember sender then .ok r
  else do
    let m ← r.masterRef
    pure (r.sendTo m (newEvMessage sender.id data))

/-- `msgBroadcast`. -/
def msgBroadcast (sender : ClientRef) (data : Bytes) : Room :=
  if r.isMember sender then r.broadcast (newEvMessage sender.id data) else r

/-- The part of `msgSwitchMaster` after the permission check. -/
def switchMasterTo (sender : ClientRef) (msg : RegularMsg) (target : ClientID) : Room :=
  match r.players.lookup target with
  | none => r.sendTo sender (newEvTargetNotFound msg [target])
  | some t =>
    let r := { r with master := some t.ref }
    (r.sendTo sender (newEvSucceeded msg)).broadcast (newEvMasterSwitched sender.id t.ref.id)

/-- `msgSwitchMaster`. The permission check sends `EvPermissionDenied` and goes on. -/
def msgSwitchMaster (sender : ClientRef) (msg : RegularMsg) (target : ClientID) :
    Except Panic Room :=
  if r.master ≠ some sender then
    r.masterRef.map fun _ => (r.sendTo sender (newEvPermissionDenied msg)).switchMasterTo sender msg target
  else .ok (r.switchMasterTo sender msg target)

/-- `msgKick`. -/
def msgKick (sender : ClientRef) (msg : RegularMsg) (target : ClientID) (message : Bytes) :
    Except Panic Room :=
  if r.master ≠ some sender then r.masterRef.map fun _ => r.sendTo sender (newEvPermissionDenied msg)
  else
    match r.players.lookup target with
    | none => .ok (r.sendTo sender (newEvTargetNotFound msg [target]))
    | some t => (r.sendTo sender (newEvSucceeded msg)).removeClient t.ref message

/-- `msgClientError`. -/
def msgClientError (sender : ClientRef) (errMsg : Bytes) : Except Panic Room :=
  r.removeClient sender errMsg

/-- `msgClientTimeout`. -/
def msgClientTimeout (sender : ClientRef) : Except Panic Room :=
  r.removeClient sender (utf8 "timeout")

/-! ## The loop -/

/-- `dispatch`, at time `now` (unix milliseconds). -/
def dispatch (now : UInt64) : Msg → Except Panic Room
  | .create info => .ok (r.msgCreate info now)
  | .join info => r.msgJoin info now
  | .watch info n => r.msgWatch info n
  | .ping c t => .ok (r.msgPing c t)
  | .nodeCount c n => .ok (r.msgNodeCount c n)
  | .leave c m => r.msgLeave c m
  | .roomProp c msg p => r.msgRoomProp c msg p
  | .clientProp c msg p => .ok (r.msgClientProp c msg p)
  | .targets c msg ts d => .ok (r.msgTargets c msg ts d)
  | .toMaster c d => r.msgToMaster c d
  | .broadcast c d => .ok (r.msgBroadcast c d)
  | .switchMaster c msg t => r.msgSwitchMaster c msg t
  | .kick c msg t m => r.msgKick c msg t m
  | .adminKick t => r.msgAdminKick t
  | .getRoomInfo => r.msgGetRoomInfo r.info
  | .clientError c e => r.msgClientError c e
  | .clientTimeout c => r.msgClientTimeout c

/-- One iteration of `MsgLoop` that receives `m`: `updateLastMsg`, then `dispatch`. -/
def loopStep (now : UInt64) (m : Msg) : Except Panic Room :=
  (r.updateLastMsg m.senderID now).dispatch now m

end Room

/-- The steps of a running room in the schedules where every removal that `sendTo` deferred to
a goroutine of its own runs between two iterations of the loop: the loop handles a message
other than `MsgCreate` in one step, or such a removal runs, for any client, which covers every
failed send. The loop holds no lock in `updateLastMsg`, nor in `msgGetRoomInfo` before its
`RLock`, so a removal can also run inside an iteration; those schedules are
`WSNet2.Game.Running.Step`, which contains these (`Step.running`). A panic ends the room: no
step leaves it. -/
inductive Step : Room → Room → Prop
  | dispatch {r r' : Room} (now : UInt64) (m : Msg) :
      m.isCreate = false → r.loopStep now m = .ok r' → Step r r'
  | remove {r r' : Room} (c : ClientRef) (cause : Bytes) :
      r.removeClient c cause = .ok r' → Step r r'

/-- The rooms a sequence of steps reaches from `r₀`, before or after `done` closes. -/
inductive Reachable (r₀ : Room) : Room → Prop
  | refl : Reachable r₀ r₀
  | step {r r' : Room} : Reachable r₀ r → Step r r' → Reachable r₀ r'

/-- A room just after `NewRoom` and a successful `MsgCreate`. -/
inductive Created : Room → Prop
  | mk {info : Pb.RoomInfo} {deadlineSec : UInt32} {r₀ : Room} (master : Pb.ClientInfo)
      (now : UInt64) :
      newRoom info deadlineSec = some r₀ → (newClient r₀.nextPtr master true 0).toBool →
      Created (r₀.msgCreate master now)

/-- The room of the witnesses and counterexamples: `NewRoom` for room `[1]`, joinable,
watchable and searchable, for up to 4 players, without props and with a 30 s deadline, then
`MsgCreate` at time 5 by the client `[77]`. -/
def createdRoom : Room := Room.msgCreate
  { info := ⟨[1], true, true, true, 0, 4, 1, 0, marshalDict ∅, marshalDict ∅⟩, deadline := 30,
    publicProps := ∅, privateProps := ∅, players := ∅, master := none, masterOrder := [],
    watchers := ∅, lastMsg := ∅, done := false, nextPtr := 0, out := [] } ⟨[77], []⟩ 5

theorem createdRoom_created : Created createdRoom :=
  @Created.mk ⟨[1], true, true, true, 0, 4, 1, 0, [], []⟩ 30 _ ⟨[77], []⟩ 5 rfl rfl

end Game
end WSNet2
