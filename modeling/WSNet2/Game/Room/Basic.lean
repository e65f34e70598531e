import WSNet2.Binary.Event

/-!
# Room state — `game/room.go`

The state the room actor owns, the messages it receives and what its handlers do outside
that state. The handlers themselves are in `WSNet2.Game.Room.Dispatch`.

A `*Client` is modelled by `ClientRef` (its pointer and the fields fixed at creation) and
`Client` (the object as the room's maps hold it). The room only ever mutates the object of
a current member, after checking `r.players[id] == c` or `r.watchers[id] == c`, so the
object in the map is always the live one and a stale pointer's fields are never read.

Every handler appends its effects on other components to `Room.out`: events sent to
clients, replies on the control plane's channels, snapshots handed to the `RoomInfo`
publisher. A Go panic (a second `close`, an index out of range, a nil dereference) ends
the room's goroutine; handlers that can panic return `Except Panic Room`.
-/

namespace WSNet2

namespace Pb

/-- `pb.RoomInfo`: the fields the room reads or writes. -/
structure RoomInfo where
  id : Binary.Bytes
  visible : Bool
  joinable : Bool
  watchable : Bool
  searchGroup : UInt32
  maxPlayers : UInt32
  players : UInt32
  watchers : UInt32
  publicProps : Binary.Bytes
  privateProps : Binary.Bytes
  deriving DecidableEq, Repr

end Pb

namespace Game

open Binary

/-- `ClientID`. -/
abbrev ClientID := Bytes

/-- A `*Client` pointer with the fields fixed when the client was created. Two values are
the same pointer exactly when they are equal. -/
structure ClientRef where
  ptr : Nat
  id : ClientID
  isPlayer : Bool
  deriving DecidableEq, Repr

/-- A client object as `players` or `watchers` holds it: its props, its `ClientInfo` (whose
`Props` is the marshaled form of `props`) and, for a watcher, its downstream node count. -/
structure Client where
  ref : ClientRef
  props : Dict
  info : Pb.ClientInfo
  nodeCount : UInt32

/-- `map[ClientID]*Client`. -/
abbrev Clients := AList (fun _ : ClientID => Client)

/-! ## Clients the room creates -/

/-- Modelled from the spec: `common.InitProps` (not in the sources) decodes a props blob,
`Dict` or `Null`, into the dict it holds; an empty blob is the empty dict. -/
def initProps (props : Bytes) : Option (Dict × Bytes) :=
  if props = [] then some (∅, marshalDict ∅)
  else
    match unmarshalAs props [typeDict, typeNull] with
    | .ok (v, _) => some (v.asDict, props)
    | .error _ => none

/-- The error codes the room replies with (`google.golang.org/grpc/codes`). -/
inductive Code
  | invalidArgument
  | failedPrecondition
  | alreadyExists
  | resourceExhausted
  deriving DecidableEq, Repr

/-- Modelled from the spec: `NewPlayer` and `NewWatcher` (`client.go`, not in the sources)
fail with `InvalidArgument` on props that do not decode, and otherwise allocate a client
object at pointer `ptr`. `NewWatcher`'s starting node count is taken as given; a player's
is never read. -/
def newClient (ptr : Nat) (info : Pb.ClientInfo) (isPlayer : Bool) (nodeCount : UInt32) :
    Except Code Client :=
  match initProps info.props with
  | none => .error .invalidArgument
  | some (props, iProps) => .ok ⟨⟨ptr, info.id, isPlayer⟩, props, { info with props := iProps }, nodeCount⟩

/-! ## Messages -/

/-- `MsgRoomProp`'s decoded payload (`binary.MsgRoomPropPayload`). -/
structure RoomPropPayload where
  visible : Bool
  joinable : Bool
  watchable : Bool
  searchGroup : UInt32
  maxPlayer : UInt32
  clientDeadline : UInt32
  publicProps : Dict
  privateProps : Dict
  eventPayload : Bytes

/-- The messages `dispatch` handles. Control-plane messages carry the request; a client's
message carries its sender and, when a response event may echo it, the `RegularMsg`. The
reply channels are `Out` values. `MsgCreate` is sent once, by `NewRoom`, before any other. -/
inductive Msg
  | create (info : Pb.ClientInfo)
  | join (info : Pb.ClientInfo)
  | watch (info : Pb.ClientInfo) (nodeCount : UInt32)
  | getRoomInfo
  | adminKick (target : ClientID)
  | ping (sender : ClientRef) (timestamp : UInt64)
  | nodeCount (sender : ClientRef) (count : UInt32)
  | leave (sender : ClientRef) (message : Bytes)
  | roomProp (sender : ClientRef) (msg : RegularMsg) (payload : RoomPropPayload)
  | clientProp (sender : ClientRef) (msg : RegularMsg) (props : Dict)
  | targets (sender : ClientRef) (msg : RegularMsg) (targets : List ClientID) (data : Bytes)
  | toMaster (sender : ClientRef) (data : Bytes)
  | broadcast (sender : ClientRef) (data : Bytes)
  | switchMaster (sender : ClientRef) (msg : RegularMsg) (target : ClientID)
  | kick (sender : ClientRef) (msg : RegularMsg) (target : ClientID) (message : Bytes)
  | clientError (sender : ClientRef) (errMsg : Bytes)
  | clientTimeout (sender : ClientRef)

/-- `SenderID()`: the requesting client for a control-plane join, none for the other
control-plane messages. -/
def Msg.senderID : Msg → ClientID
  | .create info | .join info | .watch info _ => info.id
  | .getRoomInfo | .adminKick _ => []
  | .ping c _ | .nodeCount c _ | .leave c _ | .roomProp c _ _ | .clientProp c _ _
  | .targets c _ _ _ | .toMaster c _ | .broadcast c _ | .switchMaster c _ _ | .kick c _ _ _
  | .clientError c _ | .clientTimeout c => c.id

/-- Whether the message is a `MsgCreate`. -/
def Msg.isCreate : Msg → Bool
  | .create _ => true
  | _ => false

/-! ## Effects on other components -/

/-- The `repo.PlayerLog` kinds. -/
inductive PlayerLogKind
  | create
  | join
  | rejoin
  | leave
  deriving DecidableEq, Repr

/-- Why a control-plane request failed: the `xerrors.Errorf` template, with its arguments. -/
inductive Failure
  /-- "NewPlayer(%v): %w" -/
  | newPlayer (client : ClientID)
  /-- "Room is not joinable. room=%v, client=%v" -/
  | notJoinable (room client : Bytes)
  /-- "Player already exists as a watcher. room=%v, client=%v" -/
  | playerIsWatcher (room client : Bytes)
  /-- "Room full. room=%v max=%v, client=%v" -/
  | roomFull (room : Bytes) (max : UInt32) (client : Bytes)
  /-- "NewPlayer room=%v, client=%v: %w" -/
  | newPlayerIn (room client : Bytes)
  /-- "Room is not watchable. room=%v, client=%v" -/
  | notWatchable (room client : Bytes)
  /-- "Watcher already exists as a player. room=%v, client=%v" -/
  | watcherIsPlayer (room client : Bytes)
  /-- "NewWatcher error. room=%v, client=%v: %w" -/
  | newWatcher (room client : Bytes)
  /-- "player not found: target=%v" -/
  | playerNotFound (target : ClientID)
  deriving DecidableEq, Repr

/-- `JoinedInfo`. -/
structure JoinedInfo where
  roomInfo : Pb.RoomInfo
  players : List Pb.ClientInfo
  client : ClientRef
  masterId : ClientID
  deadline : Nat

/-- `pb.GetRoomInfoRes`; `LastMsgTimes` as (player, unix milliseconds) pairs. -/
structure GetRoomInfoRes where
  roomInfo : Pb.RoomInfo
  clientInfos : List Pb.ClientInfo
  masterId : ClientID
  lastMsgTimes : List (ClientID × UInt64)

/-- What a handler does outside the room's state. -/
inductive Out
  /-- `sendTo(c, ev)`: `c.Send(ev)`; a failed send defers `removeClient(c)` to a goroutine. -/
  | send (c : ClientRef) (ev : RegularEvent)
  /-- `c.SendSystemEvent(ev)`. -/
  | sendSystem (c : ClientRef) (ev : SystemEvent)
  /-- `c.Removed(cause)`. -/
  | removed (c : ClientRef) (cause : Bytes)
  /-- `c.newDeadline <- deadline`, in seconds. -/
  | newDeadline (c : ClientRef) (seconds : Nat)
  /-- `r.updateRoomInfo()`: a snapshot of `RoomInfo` handed to the publisher. -/
  | updateRoomInfo (snapshot : Pb.RoomInfo)
  /-- `r.repo.PlayerLog(c, kind)`. -/
  | playerLog (c : ClientRef) (kind : PlayerLogKind)
  /-- `msg.Joined <- info`. -/
  | joined (info : JoinedInfo)
  /-- `msg.Err <- WithCode(err, code)`. -/
  | err (code : Code) (why : Failure)
  /-- `msg.Res <- res` of `MsgGetRoomInfo`. -/
  | roomInfoRes (res : GetRoomInfoRes)
  /-- `msg.Res <- err` of `MsgAdminKick`; `none` is `nil`. -/
  | adminKickRes (err : Option Failure)

/-- The runtime panics the room's goroutine can hit. -/
inductive Panic
  /-- `close` of a closed channel. -/
  | closeOfClosedChannel
  /-- `index out of range [0] with length 0`. -/
  | indexOutOfRange
  /-- `invalid memory address or nil pointer dereference`. -/
  | nilDereference
  /-- `interface conversion: interface is nil, not uint64`. -/
  | interfaceConversion
  deriving DecidableEq, Repr

/-! ## Handlers that can panic -/

@[simp] theorem ok_bind {ε α β : Type} (a : α) (f : α → Except ε β) :
    (Except.ok a >>= f) = f a :=
  rfl

@[simp] theorem error_bind {ε α β : Type} (e : ε) (f : α → Except ε β) :
    (Except.error e >>= f) = .error e :=
  rfl

@[simp] theorem pure_eq_ok {ε α : Type} (a : α) : (pure a : Except ε α) = .ok a := rfl

@[simp] theorem map_ok {ε α β : Type} (f : α → β) (a : α) :
    (Except.ok a : Except ε α).map f = .ok (f a) :=
  rfl

@[simp] theorem map_error {ε α β : Type} (f : α → β) (e : ε) :
    (Except.error e : Except ε α).map f = .error e :=
  rfl

theorem map_eq_ok {ε α β : Type} {x : Except ε α} {f : α → β} {b : β} :
    x.map f = .ok b ↔ ∃ a, x = .ok a ∧ f a = b := by
  cases x <;> simp

theorem bind_eq_ok {ε α β : Type} {x : Except ε α} {f : α → Except ε β} {b : β} :
    x >>= f = .ok b ↔ ∃ a, x = .ok a ∧ f a = .ok b := by
  cases x <;> simp

/-! ## The room -/

/-- The state of a `Room`: `RoomInfo`, the client deadline in seconds, the decoded props,
the membership (`players`, `master`, `masterOrder`, `watchers`), the last-message times,
whether `done` is closed, the next pointer to allocate and the effects so far. -/
structure Room where
  info : Pb.RoomInfo
  deadline : Nat
  publicProps : Dict
  privateProps : Dict
  players : Clients
  master : Option ClientRef
  masterOrder : List ClientID
  watchers : Clients
  lastMsg : Dict
  done : Bool
  nextPtr : Nat
  out : List Out

/-- `NewRoom`: a room with no client yet, or `none` when a props blob does not decode
(`InvalidArgument`). The loop and the `RoomInfo` publisher start; `MsgCreate` follows. -/
def newRoom (info : Pb.RoomInfo) (deadlineSec : UInt32) : Option Room :=
  match initProps info.publicProps, initProps info.privateProps with
  | some (pub, pubBlob), some (priv, privBlob) =>
    some { info := { info with publicProps := pubBlob, privateProps := privBlob }
           deadline := deadlineSec.toNat
           publicProps := pub
           privateProps := priv
           players := ∅
           master := none
           masterOrder := []
           watchers := ∅
           lastMsg := ∅
           done := false
           nextPtr := 0
           out := [] }
  | _, _ => none

namespace Room

variable (r : Room)

/-- `r.players[c.ID()] == c`. -/
def isLivePlayer (c : ClientRef) : Prop := (r.players.lookup c.id).map Client.ref = some c

/-- `r.watchers[c.ID()] == c`. -/
def isLiveWatcher (c : ClientRef) : Prop := (r.watchers.lookup c.id).map Client.ref = some c

/-- The sender check of `msgPing`, `msgTargets`, `msgToMaster` and `msgBroadcast`: a player
must be the live player under its id, a watcher the live watcher. -/
def isMember (c : ClientRef) : Prop := if c.isPlayer then r.isLivePlayer c else r.isLiveWatcher c

instance (c : ClientRef) : Decidable (r.isLivePlayer c) :=
  inferInstanceAs (Decidable (_ = _))

instance (c : ClientRef) : Decidable (r.isLiveWatcher c) :=
  inferInstanceAs (Decidable (_ = _))

instance (c : ClientRef) : Decidable (r.isMember c) :=
  inferInstanceAs (Decidable (ite _ _ _))

/-- Append one effect. -/
@[simp] def emit (o : Out) : Room := { r with out := r.out ++ [o] }

/-- `sendTo`. -/
@[simp] def sendTo (c : ClientRef) (ev : RegularEvent) : Room := r.emit (.send c ev)

/-- `broadcast`: every player, then every watcher, in the maps' iteration order. -/
@[simp] def broadcast (ev : RegularEvent) : Room :=
  { r with out := r.out ++ r.players.entries.map (fun e => .send e.2.ref ev) ++
      r.watchers.entries.map (fun e => .send e.2.ref ev) }

/-- `updateRoomInfo`: hand a snapshot of `RoomInfo` to the publisher. -/
@[simp] def updateRoomInfo : Room := r.emit (.updateRoomInfo r.info)

/-- `writeLastMsg`: the time, in unix milliseconds, as a marshaled `ULong`. -/
@[simp] def writeLastMsg (cid : ClientID) (now : UInt64) : Room :=
  { r with lastMsg := r.lastMsg.insert cid (marshalULong now) }

/-- `removeLastMsg`. -/
@[simp] def removeLastMsg (cid : ClientID) : Room := { r with lastMsg := r.lastMsg.erase cid }

/-- `updateLastMsg`: only a player already registered has its time written. -/
def updateLastMsg (cid : ClientID) (now : UInt64) : Room :=
  if cid ∈ r.lastMsg then r.writeLastMsg cid now else r

/-- `close(r.done)`. -/
def closeDone : Except Panic Room :=
  if r.done then .error .closeOfClosedChannel else .ok { r with done := true }

/-- `r.master`, dereferenced. -/
def masterRef : Except Panic ClientRef :=
  match r.master with
  | some m => .ok m
  | none => .error .nilDereference

theorem masterRef_of_master {r : Room} {m : ClientRef} (h : r.master = some m) :
    r.masterRef = .ok m := by
  simp [masterRef, h]

end Room

end Game
end WSNet2
