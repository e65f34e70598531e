import WSNet2.Binary.Codec

/-!
# Events — `binary/event.go`

Server-to-client events. A regular event carries a 32-bit sequence number, a system event
does not; `UnmarshalEvent` tells them apart by the type byte alone. Each event type has a
constructor and, for most, a payload decoder.

The round trips proved here are the wire contract the peer relies on when it replays
buffered events after a reconnect: `unmarshalEvent_marshal_regular` for every sequence
number a frame can carry, and one decoder lemma per constructor. `EvTypeRejoined` and its
constructor are not in this revision of the file; they follow the spec ("Joined=30, Left,
RoomProp, ClientProp, MasterSwitched, Message, Rejoined (contiguous from 30)").
-/

namespace WSNet2

namespace Pb

/-- `pb.ClientInfo`: the two fields the game server reads. -/
structure ClientInfo where
  id : Binary.Bytes
  props : Binary.Bytes
  deriving DecidableEq, Repr

end Pb

namespace Binary

/-! ## Event types -/

/-- `EvType`: one byte on the wire. -/
abbrev EvType := UInt8

def regularEvType : UInt8 := 30
def responseEvType : UInt8 := 128

def evTypePeerReady : EvType := 1
def evTypePong : EvType := 2
def evTypeJoined : EvType := regularEvType
def evTypeLeft : EvType := regularEvType + 1
def evTypeRoomProp : EvType := regularEvType + 2
def evTypeClientProp : EvType := regularEvType + 3
def evTypeMasterSwitched : EvType := regularEvType + 4
def evTypeMessage : EvType := regularEvType + 5
/-- Modelled from the spec: `EvTypeRejoined`, next after `EvTypeMessage`. -/
def evTypeRejoined : EvType := regularEvType + 6
def evTypeSucceeded : EvType := responseEvType
def evTypePermissionDenied : EvType := responseEvType + 1
def evTypeTargetNotFound : EvType := responseEvType + 2

/-! ## Regular and system events -/

/-- `RegularEvent`: `| 8bit EvType | 32bit-be sequence number | payload … |` on the wire. -/
structure RegularEvent where
  etype : EvType
  payload : Bytes
  deriving DecidableEq, Repr

/-- `(*RegularEvent).Marshal`. -/
def RegularEvent.marshal (ev : RegularEvent) (seqNum : Nat) : Bytes :=
  ev.etype :: (put32 seqNum ++ ev.payload)

/-- `SystemEvent`: `| 8bit EvType | payload … |`. -/
structure SystemEvent where
  etype : EvType
  payload : Bytes
  deriving DecidableEq, Repr

/-- `(*SystemEvent).Marshal`. -/
def SystemEvent.marshal (ev : SystemEvent) : Bytes := ev.etype :: ev.payload

/-- The `Event` interface value `UnmarshalEvent` returns. -/
inductive Event
  | regular (ev : RegularEvent)
  | system (ev : SystemEvent)
  deriving DecidableEq, Repr

/-- `UnmarshalEvent`: the event and its sequence number (0 for a system event). -/
def unmarshalEvent : Bytes → Except String (Event × Nat)
  | [] => .error "data length not enough: 0"
  | et :: data =>
    if et < regularEvType then .ok (.system ⟨et, data⟩, 0)
    else if data.length < 4 then .error ("data length not enough: " ++ toString data.length)
    else .ok (.regular ⟨et, data.drop 4⟩, get32 data)

/-! ## The values behind `interface{}`

`UnmarshalAs` only returns values of the types it was asked for, so the decoders' type
assertions (`d.(string)`, `d.(Dict)`, …) never fail; the fallbacks below are unreachable. -/

/-- `d.(string)`. -/
def Value.asStr8 : Value → Bytes
  | .str8 s => s
  | _ => []

/-- `if d != nil { … = d.(Dict) }`: a `Null` leaves the dict nil, read as empty. -/
def Value.asDict : Value → Dict
  | .dict d => d
  | _ => ∅

/-- `d.(uint64)`. -/
def Value.asULong : Value → UInt64
  | .ulong v => v
  | _ => 0

/-- `d.(uint32)`. -/
def Value.asUInt : Value → UInt32
  | .uint v => v
  | _ => 0

/-! ## System events -/

/-- `NewEvPeerReady`: `| 24bit-be msg sequence number |`. -/
def newEvPeerReady (seqNum : Nat) : SystemEvent := ⟨evTypePeerReady, put24 seqNum⟩

/-- `UnmarshalEvPeerReadyPayload`. -/
def unmarshalEvPeerReadyPayload (payload : Bytes) : Except String Nat :=
  if payload.length < 3 then .error ("data length not enough: " ++ toString payload.length)
  else .ok (get24 payload)

/-- `NewEvPong`: ping timestamp, watcher count, last-message times of the players. -/
def newEvPong (pingtime : UInt64) (watchers : UInt32) (lastMsg : Dict) : SystemEvent :=
  ⟨evTypePong, marshalULong pingtime ++ (marshalUInt watchers.toNat ++ marshalDict lastMsg)⟩

/-- `EvPongPayload`. -/
structure EvPongPayload where
  timestamp : UInt64
  watchers : UInt32
  lastMsg : Dict

/-- `UnmarshalEvPongPayload`. -/
def unmarshalEvPongPayload (payload : Bytes) : Except String EvPongPayload :=
  match unmarshalAs payload [typeULong] with
  | .error e => .error ("Invalid EvPong payload (timestamp): " ++ e)
  | .ok (d, l) =>
    let payload := payload.drop l
    match unmarshalAs payload [typeUInt] with
    | .error e => .error ("Invalid EvPong payload (watchers): " ++ e)
    | .ok (w, l) =>
      match unmarshalAs (payload.drop l) [typeDict, typeNull] with
      | .error e => .error ("Invalid EvPong payload (lastmsg): " ++ e)
      | .ok (m, _) => .ok ⟨d.asULong, w.asUInt, m.asDict⟩

/-! ## Regular events -/

/-- `NewEvJoined`: the client's id, then its props, already marshaled as a dict. -/
def newEvJoined (cli : Pb.ClientInfo) : RegularEvent :=
  ⟨evTypeJoined, marshalStr8 cli.id ++ cli.props⟩

/-- Modelled from the spec: `NewEvRejoined`, a rejoin announced as a join is. -/
def newEvRejoined (cli : Pb.ClientInfo) : RegularEvent :=
  ⟨evTypeRejoined, marshalStr8 cli.id ++ cli.props⟩

/-- `EvJoinedPayload`. -/
structure EvJoinedPayload where
  clientId : Bytes
  clientProps : Dict

/-- `UnmarshalEvJoinedPayload`. -/
def unmarshalEvJoinedPayload (payload : Bytes) : Except String EvJoinedPayload :=
  match unmarshalAs payload [typeStr8] with
  | .error e => .error ("Invalid EvJoined payload (client id): " ++ e)
  | .ok (d, l) =>
    match unmarshalAs (payload.drop l) [typeDict, typeNull] with
    | .error e => .error ("Invalid EvJoined payload (client props): " ++ e)
    | .ok (p, _) => .ok ⟨d.asStr8, p.asDict⟩

/-- `NewEvLeft(cliId, masterId)`: the departed client's id and the master's; no cause. -/
def newEvLeft (cliId masterId : Bytes) : RegularEvent :=
  ⟨evTypeLeft, marshalStr8 cliId ++ marshalStr8 masterId⟩

/-- `EvLeftPayload`. -/
structure EvLeftPayload where
  clientId : Bytes
  masterId : Bytes
  deriving DecidableEq, Repr

/-- `UnmarshalEvLeftPayload`. -/
def unmarshalEvLeftPayload (payload : Bytes) : Except String EvLeftPayload :=
  match unmarshalAs payload [typeStr8] with
  | .error e => .error ("Invalid EvLeft payload (client id): " ++ e)
  | .ok (d, l) =>
    match unmarshalAs (payload.drop l) [typeStr8] with
    | .error e => .error ("Invalid EvLeft payload (master id): " ++ e)
    | .ok (m, _) => .ok ⟨d.asStr8, m.asStr8⟩

/-- `NewEvRoomProp`: the payload the client's `MsgRoomProp` already prepared. -/
def newEvRoomProp (_cliId : Bytes) (eventPayload : Bytes) : RegularEvent :=
  ⟨evTypeRoomProp, eventPayload⟩

/-- `NewEvClientProp`. -/
def newEvClientProp (cliId props : Bytes) : RegularEvent :=
  ⟨evTypeClientProp, marshalStr8 cliId ++ props⟩

/-- `EvClientPropPayload`. -/
structure EvClientPropPayload where
  clientId : Bytes
  clientProps : Dict

/-- `UnmarshalEvClientPropPayload`. -/
def unmarshalEvClientPropPayload (payload : Bytes) : Except String EvClientPropPayload :=
  match unmarshalAs payload [typeStr8] with
  | .error e => .error ("Invalid EvClientProp payload (client id): " ++ e)
  | .ok (d, l) =>
    match unmarshalAs (payload.drop l) [typeDict, typeNull] with
    | .error e => .error ("Invalid EvClientProp payload (client props): " ++ e)
    | .ok (p, _) => .ok ⟨d.asStr8, p.asDict⟩

/-- `NewEvMasterSwitched`: only the new master's id goes on the wire. -/
def newEvMasterSwitched (_cliId masterId : Bytes) : RegularEvent :=
  ⟨evTypeMasterSwitched, marshalStr8 masterId⟩

/-- `UnmarshalEvMasterSwitchedPayload`. -/
def unmarshalEvMasterSwitchedPayload (payload : Bytes) : Except String Bytes :=
  match unmarshalAs payload [typeStr8] with
  | .error e => .error ("Invalid EvMasterSwitched payload (master id): " ++ e)
  | .ok (d, _) => .ok d.asStr8

/-- `NewEvMessage`. -/
def newEvMessage (cliId body : Bytes) : RegularEvent :=
  ⟨evTypeMessage, marshalStr8 cliId ++ body⟩

/-! ## Response events

They answer a client's message and echo its sequence number. -/

/-- The `RegularMsg` interface: a client message's sequence number and raw payload. -/
structure RegularMsg where
  seqNum : Nat
  payload : Bytes
  deriving DecidableEq, Repr

/-- `NewEvSucceeded`. -/
def newEvSucceeded (msg : RegularMsg) : RegularEvent := ⟨evTypeSucceeded, put24 msg.seqNum⟩

/-- `NewEvPermissionDenied`: the message is echoed back whole. -/
def newEvPermissionDenied (msg : RegularMsg) : RegularEvent :=
  ⟨evTypePermissionDenied, put24 msg.seqNum ++ msg.payload⟩

/-- `NewEvTargetNotFound`: the absent ids, then the message echoed back. -/
def newEvTargetNotFound (msg : RegularMsg) (cliIds : List Bytes) : RegularEvent :=
  ⟨evTypeTargetNotFound, put24 msg.seqNum ++ (marshalStrings cliIds ++ msg.payload)⟩

/-! ## Round trips -/

/-- A regular event reads back with the low 32 bits of its sequence number. -/
theorem unmarshalEvent_marshal_regular (ev : RegularEvent) (seq : Nat)
    (ht : regularEvType ≤ ev.etype) :
    unmarshalEvent (ev.marshal seq) = .ok (.regular ev, seq % 4294967296) := by
  have hlt : ¬ev.etype < regularEvType := UInt8.not_lt.2 ht
  simp [RegularEvent.marshal, unmarshalEvent, hlt, List.drop_left' (length_put32 seq)]

/-- A system event reads back as itself. -/
theorem unmarshalEvent_marshal_system (ev : SystemEvent) (ht : ev.etype < regularEvType) :
    unmarshalEvent ev.marshal = .ok (.system ev, 0) := by
  simp [SystemEvent.marshal, unmarshalEvent, ht]

theorem unmarshalEvPeerReadyPayload_newEvPeerReady (m : Nat) :
    unmarshalEvPeerReadyPayload (newEvPeerReady m).payload = .ok (m % 16777216) := by
  simpa [unmarshalEvPeerReadyPayload, newEvPeerReady] using get24_put24 m []

theorem unmarshalEvPongPayload_newEvPong (t : UInt64) (w : UInt32) (lastMsg : Dict)
    (hl : lastMsg.Encodable) :
    unmarshalEvPongPayload (newEvPong t w lastMsg).payload =
      .ok ⟨t, w, dictOf lastMsg.entries⟩ := by
  have hw : UInt32.ofNat w.toNat = w := by
    apply UInt32.toNat.inj
    simp [UInt32.toNat, UInt32.ofNat, BitVec.toNat_ofNat, Nat.mod_eq_of_lt w.toNat_lt_size]
  have hd := unmarshalAs_marshalDict lastMsg [] [typeDict, typeNull] (by simp) hl
  rw [List.append_nil] at hd
  simp only [unmarshalEvPongPayload, newEvPong,
    unmarshalAs_marshalULong _ _ _ (List.mem_singleton_self _),
    List.drop_left' (length_marshalULong t),
    unmarshalAs_marshalUInt _ _ _ (List.mem_singleton_self _),
    List.drop_left' (length_marshalUInt _), hd, Value.asULong, Value.asUInt, Value.asDict, hw]

theorem unmarshalEvJoinedPayload_newEvJoined (id : Bytes) (d : Dict) (hid : id.length < 256)
    (hd : d.Encodable) :
    unmarshalEvJoinedPayload (newEvJoined ⟨id, marshalDict d⟩).payload =
      .ok ⟨id, dictOf d.entries⟩ := by
  have h := unmarshalAs_marshalDict d [] [typeDict, typeNull] (by simp) hd
  rw [List.append_nil] at h
  simp [unmarshalEvJoinedPayload, newEvJoined, unmarshalAs_marshalStr8 _ _ _ _ hid, h,
    Value.asStr8, Value.asDict]

theorem unmarshalEvLeftPayload_newEvLeft (id masterId : Bytes) (hid : id.length < 256)
    (hm : masterId.length < 256) :
    unmarshalEvLeftPayload (newEvLeft id masterId).payload = .ok ⟨id, masterId⟩ := by
  have h := unmarshalAs_marshalStr8 masterId [] [typeStr8] (by simp) hm
  rw [List.append_nil] at h
  simp [unmarshalEvLeftPayload, newEvLeft, unmarshalAs_marshalStr8 _ _ _ _ hid, h, Value.asStr8]

theorem unmarshalEvClientPropPayload_newEvClientProp (id : Bytes) (d : Dict)
    (hid : id.length < 256) (hd : d.Encodable) :
    unmarshalEvClientPropPayload (newEvClientProp id (marshalDict d)).payload =
      .ok ⟨id, dictOf d.entries⟩ := by
  have h := unmarshalAs_marshalDict d [] [typeDict, typeNull] (by simp) hd
  rw [List.append_nil] at h
  simp [unmarshalEvClientPropPayload, newEvClientProp, unmarshalAs_marshalStr8 _ _ _ _ hid, h,
    Value.asStr8, Value.asDict]

theorem unmarshalEvMasterSwitchedPayload_newEvMasterSwitched (id masterId : Bytes)
    (hm : masterId.length < 256) :
    unmarshalEvMasterSwitchedPayload (newEvMasterSwitched id masterId).payload = .ok masterId := by
  have h := unmarshalAs_marshalStr8 masterId [] [typeStr8] (by simp) hm
  rw [List.append_nil] at h
  simp [unmarshalEvMasterSwitchedPayload, newEvMasterSwitched, h, Value.asStr8]

/-- The event codec's round trips, for every sequence number a regular event carries and
every id and dict the wire's length fields can hold: events read back with their type,
payload and sequence number, and each payload decoder inverts its constructor, a dict up
to the order of its entries. -/
theorem event_codec_round_trip (seq : Nat) (hseq : seq < 4294967296) (id masterId body : Bytes)
    (hid : id.length < 256) (hm : masterId.length < 256) (d : Dict) (hd : d.Encodable)
    (t : UInt64) (w : UInt32) (lastMsg : Dict) (hl : lastMsg.Encodable) (m : Nat)
    (hmsg : m < 16777216) :
    (∀ ev ∈ [newEvJoined ⟨id, marshalDict d⟩, newEvLeft id masterId,
        newEvClientProp id (marshalDict d), newEvMasterSwitched id masterId,
        newEvMessage id body],
      unmarshalEvent (ev.marshal seq) = .ok (.regular ev, seq)) ∧
    (∀ ev ∈ [newEvPeerReady m, newEvPong t w lastMsg],
      unmarshalEvent ev.marshal = .ok (.system ev, 0)) ∧
    (∃ p, unmarshalEvJoinedPayload (newEvJoined ⟨id, marshalDict d⟩).payload = .ok p ∧
      p.clientId = id ∧ p.clientProps.entries.Perm d.entries) ∧
    unmarshalEvLeftPayload (newEvLeft id masterId).payload = .ok ⟨id, masterId⟩ ∧
    (∃ p, unmarshalEvClientPropPayload (newEvClientProp id (marshalDict d)).payload = .ok p ∧
      p.clientId = id ∧ p.clientProps.entries.Perm d.entries) ∧
    unmarshalEvMasterSwitchedPayload (newEvMasterSwitched id masterId).payload = .ok masterId ∧
    (∃ p, unmarshalEvPongPayload (newEvPong t w lastMsg).payload = .ok p ∧
      p.timestamp = t ∧ p.watchers = w ∧ p.lastMsg.entries.Perm lastMsg.entries) ∧
    unmarshalEvPeerReadyPayload (newEvPeerReady m).payload = .ok m := by
  refine ⟨?regular, ?system, ⟨_, unmarshalEvJoinedPayload_newEvJoined id d hid hd, rfl,
    dictOf_entries_perm d⟩, unmarshalEvLeftPayload_newEvLeft id masterId hid hm,
    ⟨_, unmarshalEvClientPropPayload_newEvClientProp id d hid hd, rfl, dictOf_entries_perm d⟩,
    unmarshalEvMasterSwitchedPayload_newEvMasterSwitched id masterId hm,
    ⟨_, unmarshalEvPongPayload_newEvPong t w lastMsg hl, rfl, rfl, dictOf_entries_perm _⟩, ?_⟩
  case regular =>
    intro ev hev
    have ht : regularEvType ≤ ev.etype := by
      simp only [List.mem_cons, List.mem_singleton, List.not_mem_nil, or_false] at hev
      rcases hev with rfl | rfl | rfl | rfl | rfl <;>
        simp [newEvJoined, newEvLeft, newEvClientProp, newEvMasterSwitched, newEvMessage,
          evTypeJoined, evTypeLeft, evTypeClientProp, evTypeMasterSwitched, evTypeMessage,
          regularEvType]
    rw [unmarshalEvent_marshal_regular ev seq ht, Nat.mod_eq_of_lt hseq]
  case system =>
    intro ev hev
    simp only [List.mem_cons, List.mem_singleton, List.not_mem_nil, or_false] at hev
    rcases hev with rfl | rfl <;>
      exact unmarshalEvent_marshal_system _ (by simp [newEvPeerReady, newEvPong,
        evTypePeerReady, evTypePong, regularEvType])
  rw [unmarshalEvPeerReadyPayload_newEvPeerReady, Nat.mod_eq_of_lt hmsg]

/-- The same round trip without the wire's limits fails: a 256-byte key does not fit its
`Str8` length byte, and the props come back holding one empty key instead. -/
theorem event_codec_long_key_lost :
    ((unmarshalEvJoinedPayload (newEvJoined ⟨[],
        marshalDict ((∅ : Dict).insert (List.replicate 256 0) [])⟩).payload).toOption.map
      fun p => p.clientProps.keys) = some [[]] ∧
    ((∅ : Dict).insert (List.replicate 256 0) []).keys ≠ [[]] := by
  set_option maxRecDepth 20000 in decide

/-- `event_codec_round_trip` at sequence number 7, ids `A` and `B` and one prop. -/
theorem event_codec_round_trip_small :
    Dict.Encodable ((∅ : Dict).insert [107] [0]) ∧
    unmarshalEvLeftPayload (newEvLeft [65] [66]).payload = .ok ⟨[65], [66]⟩ :=
  ⟨by decide, (event_codec_round_trip 7 (by decide) [65] [66] [1, 2] (by decide) (by decide)
    ((∅ : Dict).insert [107] [0]) (by decide) 5 3 ∅ (by decide) 9 (by decide)).2.2.2.1⟩

end Binary
end WSNet2
