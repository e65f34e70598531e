import WSNet2.Binary.Event

/-!
# The peer — `game/peer.go`

A `Peer` owns one websocket. Its writers (`SendReady`, `SendSystemEvent`, `SendEvents`, and
`closeWithMessage` behind `Close`, `CloseWithClientError`, `NewPeer`'s rejected attach and
`MsgLoop`'s read errors) run one at a time under `muWrite`, so each is one step here.

The socket is the list of frames written to it, failed writes included, and the number of
`conn.Close()` calls. Whether a write fails is not up to the peer: `fail i` is the error of
the `i`-th write attempt on the socket, `none` when it succeeds, and every result holds for
every `fail`. The client's event buffer, `common.RingBuf`, is not in the sources and is
modelled by its contract. What a client decodes from the socket with `UnmarshalEvent` is the
buffer's events in order, each once (`peer_stream_decodes`).
-/

namespace WSNet2
namespace Game

open Binary

/-! ## The event buffer -/

/-- Modelled from the spec: `common.RingBuf` (not in the sources). `Write` numbers events
1, 2, 3, … in order; `log` holds every event written, the one numbered `i + 1` at index
`i`, and `oldest` is the number of the oldest event still buffered. -/
structure RingBuf where
  log : List RegularEvent
  oldest : Nat
  oldest_pos : 0 < oldest
  oldest_le : oldest ≤ log.length + 1

namespace RingBuf

/-- Modelled from the spec: `Write` appends. -/
def write (b : RingBuf) (ev : RegularEvent) : RingBuf :=
  ⟨b.log ++ [ev], b.oldest, b.oldest_pos, by simp; have := b.oldest_le; omega⟩

/-- Modelled from the spec: eviction of the oldest buffered event. -/
def evict (b : RingBuf) (h : b.oldest ≤ b.log.length) : RingBuf :=
  ⟨b.log, b.oldest + 1, Nat.succ_pos _, Nat.succ_le_succ h⟩

/-- Modelled from the spec: `Read(n)` returns the buffered events numbered above `n`, in
order, and fails with `TooOld` when `n + 1` is no longer buffered. -/
def read (b : RingBuf) (n : Nat) : Except Bytes (List RegularEvent) :=
  if n + 1 < b.oldest then .error (utf8 "TooOld") else .ok (b.log.drop n)

/-- What a successful `Read(n)` returns. -/
theorem eq_drop_of_read_ok {b : RingBuf} {n : Nat} {evs : List RegularEvent}
    (h : b.read n = .ok evs) : evs = b.log.drop n := by
  unfold read at h; split at h
  · cases h
  · exact (Except.ok.inj h).symm

/-- `Write` keeps every event already logged. -/
theorem getElem?_log_write {b : RingBuf} {e ev : RegularEvent} {i : Nat}
    (h : b.log[i]? = some ev) : (b.write e).log[i]? = some ev := by
  rw [write, List.getElem?_append_left (List.getElem?_eq_some_iff.1 h).1]; exact h

end RingBuf

/-! ## Frames and the peer -/

/-- `websocket.CloseNormalClosure`. -/
def closeNormalClosure : Nat := 1000
/-- `websocket.CloseGoingAway`. -/
def closeGoingAway : Nat := 1001
/-- `websocket.CloseInvalidFramePayloadData`. -/
def closeInvalidFramePayloadData : Nat := 1007
/-- `websocket.CloseInternalServerErr`. -/
def closeInternalServerErr : Nat := 1011

/-- `websocket.CloseNoStatusReceived`, a code no close frame may carry. -/
def closeNoStatusReceived : Nat := 1005

namespace Websocket

/-- The websocket library's `FormatCloseMessage` (not in the sources): the close code as two
big-endian bytes, then the text; an empty payload for `CloseNoStatusReceived`. -/
def formatCloseMessage (closeCode : Nat) (text : Bytes) : Bytes :=
  if closeCode = closeNoStatusReceived then [] else put16 closeCode ++ text

end Websocket

/-- `formatCloseMessage`: the text cut to 123 bytes, then the library's payload. -/
def formatCloseMessage (closeCode : Nat) (text : Bytes) : Bytes :=
  let text := if text.length > 123 then text.take 123 else text
  Websocket.formatCloseMessage closeCode text

/-- A frame written to the socket. A regular event's frame carries, as ghost, the sequence
number it was marshaled with. -/
inductive Frame
  | regular (seq : Nat) (data : Bytes)
  | system (data : Bytes)
  | close (payload : Bytes)

/-- A frame's sequence number and bytes, for a regular event's. -/
def Frame.regular? : Frame → Option (Nat × Bytes)
  | .regular seq data => some (seq, data)
  | _ => none

/-- Whether the frame is a close frame. -/
def Frame.isClose : Frame → Bool
  | .close _ => true
  | _ => false

/-- The state of a `Peer` and of its socket. -/
structure Peer where
  closed : Bool
  evSeqNum : Nat
  /-- Every frame written to `conn`, oldest first. -/
  frames : List Frame
  /-- How many times `conn.Close()` ran. -/
  connCloses : Nat

namespace Peer

/-- The peer `NewPeer` builds for a client whose last event is `lastEvSeq`. -/
def new (lastEvSeq : Nat) : Peer := ⟨false, lastEvSeq, [], 0⟩

/-- The regular events' frames, with their sequence numbers. -/
def regulars (p : Peer) : List (Nat × Bytes) := p.frames.filterMap Frame.regular?

variable (fail : Nat → Option Bytes)

/-- `writeMessage`: the frame goes on the socket; the write's error, if it fails. -/
def write (p : Peer) (f : Frame) : Peer × Option Bytes :=
  ({ p with frames := p.frames ++ [f] }, fail p.frames.length)

/-- What every failure path does: write the close frame (ignoring its error), set
`p.closed` and call `p.conn.Close()`. -/
def shutdown (p : Peer) (code : Nat) (text : Bytes) : Peer :=
  { p with
    frames := p.frames ++ [.close (formatCloseMessage code text)]
    closed := true
    connCloses := p.connCloses + 1 }

/-- `SendReady`, with the error it returns. -/
def sendReady (p : Peer) (lastMsgSeq : Nat) : Peer × Option Bytes :=
  if p.closed then (p, some (utf8 "peer closed"))
  else p.write fail (.system (newEvPeerReady lastMsgSeq).marshal)

/-- `SendSystemEvent`. -/
def sendSystemEvent (p : Peer) (ev : SystemEvent) : Peer :=
  if p.closed then p
  else
    match p.write fail (.system ev.marshal) with
    | (p, none) => p
    | (p, some err) => p.shutdown closeInternalServerErr err

/-- The loop of `SendEvents`, from `seqNum`: each event is marshaled with the next number;
a failed write closes the peer and ends the call without storing `seqNum`. -/
def sendLoop : Peer → Nat → List RegularEvent → Peer
  | p, seqNum, [] => { p with evSeqNum := seqNum }
  | p, seqNum, ev :: evs =>
    match p.write fail (.regular (seqNum + 1) (ev.marshal (seqNum + 1))) with
    | (p, none) => sendLoop p (seqNum + 1) evs
    | (p, some err) => p.shutdown closeInternalServerErr err

/-- The sequence numbers and bytes `sendLoop` writes from `seqNum` when every write
succeeds: the `i`-th event marshaled with `seqNum + i + 1`. -/
def regPairs (seqNum : Nat) (evs : List RegularEvent) : List (Nat × Bytes) :=
  (evs.enumFrom (seqNum + 1)).map fun x => (x.1, x.2.marshal x.1)

/-- Those frames. -/
def regFrames (seqNum : Nat) (evs : List RegularEvent) : List Frame :=
  (regPairs seqNum evs).map fun x => .regular x.1 x.2

@[simp] theorem regFrames_nil (seqNum : Nat) : regFrames seqNum [] = [] := rfl

@[simp] theorem regFrames_cons (seqNum : Nat) (ev : RegularEvent) (evs : List RegularEvent) :
    regFrames seqNum (ev :: evs) =
      .regular (seqNum + 1) (ev.marshal (seqNum + 1)) :: regFrames (seqNum + 1) evs := rfl

/-- `SendEvents`; `true` when it returns an error. -/
def sendEvents (buf : RingBuf) (p : Peer) : Peer × Bool :=
  if p.closed then (p, false)
  else
    match buf.read p.evSeqNum with
    | .error err => (p.shutdown closeGoingAway err, true)
    | .ok evs => (sendLoop fail p p.evSeqNum evs, false)

/-- `closeWithMessage`. -/
def closeWithMessage (p : Peer) (code : Nat) (msg : Bytes) : Peer :=
  if p.closed then p else p.shutdown code msg

/-! ### What each writer does -/

/-- Everything `sendLoop` can do: write every frame and store the last number, or write
a prefix of them, the last one failing, and close. -/
theorem sendLoop_cases (p : Peer) (seqNum : Nat) (evs : List RegularEvent) :
    (sendLoop fail p seqNum evs =
        { p with frames := p.frames ++ regFrames seqNum evs, evSeqNum := seqNum + evs.length } ∧
      ∀ i, p.frames.length ≤ i → i < p.frames.length + evs.length → fail i = none) ∨
    ∃ j < evs.length, ∃ err, fail (p.frames.length + j) = some err ∧
      sendLoop fail p seqNum evs =
        ({ p with frames := p.frames ++ (regFrames seqNum evs).take (j + 1) } : Peer).shutdown
          closeInternalServerErr err := by
  induction evs generalizing p seqNum with
  | nil => exact .inl ⟨by simp [sendLoop], fun i h₁ h₂ => by simp at h₂; omega⟩
  | cons ev evs ih =>
    simp only [sendLoop, write]
    cases hf : fail p.frames.length with
    | some err =>
      exact .inr ⟨0, by simp, err, by simpa using hf, by simp⟩
    | none =>
      rcases ih { p with frames := p.frames ++ [.regular (seqNum + 1) (ev.marshal (seqNum + 1))] }
        (seqNum + 1) with ⟨he, hok⟩ | ⟨j, hj, err, hf', he⟩
      · refine .inl ⟨by simp [he, Nat.add_right_comm, Nat.add_assoc], fun i h₁ h₂ => ?_⟩
        rcases Nat.eq_or_lt_of_le h₁ with rfl | h₁
        · exact hf
        · exact hok i (by simpa using h₁) (by simp at h₂ ⊢; omega)
      · refine .inr ⟨j + 1, by simpa using hj, err,
          by simpa [Nat.add_assoc, Nat.add_comm 1] using hf', ?_⟩
        simp [he]

/-- How a writer leaves an open peer: open, with data frames appended and perhaps a new
sequence number, or closed by one `shutdown` after data frames. -/
inductive Outcome (p : Peer) : Peer → Prop
  | data (ds : List Frame) (n : Nat) : (∀ f ∈ ds, f.isClose = false) →
      Outcome p { p with frames := p.frames ++ ds, evSeqNum := n }
  | shut (ds : List Frame) (code : Nat) (text : Bytes) : (∀ f ∈ ds, f.isClose = false) →
      Outcome p (({ p with frames := p.frames ++ ds } : Peer).shutdown code text)

theorem regFrames_not_close (seqNum : Nat) (evs : List RegularEvent) :
    ∀ f ∈ regFrames seqNum evs, f.isClose = false := fun _ hf => by
  obtain ⟨x, -, rfl⟩ := List.mem_map.1 hf; rfl

/-- Closing at once is a `shutdown` after no data frame. -/
theorem Outcome.shutdown (p : Peer) (code : Nat) (text : Bytes) :
    Outcome p (p.shutdown code text) := by
  have h := Outcome.shut (p := p) [] code text (by simp)
  simpa using h

variable {p : Peer}

theorem outcome_sendReady (hp : p.closed = false) (m : Nat) : Outcome p (p.sendReady fail m).1 := by
  rw [sendReady, if_neg (by simp [hp])]
  exact .data [.system (newEvPeerReady m).marshal] p.evSeqNum (by simp [Frame.isClose])

theorem outcome_sendSystemEvent (hp : p.closed = false) (ev : SystemEvent) :
    Outcome p (p.sendSystemEvent fail ev) := by
  rw [sendSystemEvent, if_neg (by simp [hp]), write]
  cases fail p.frames.length with
  | none => exact .data [.system ev.marshal] p.evSeqNum (by simp [Frame.isClose])
  | some err => exact .shut [.system ev.marshal] _ err (by simp [Frame.isClose])

theorem outcome_closeWithMessage (hp : p.closed = false) (code : Nat) (msg : Bytes) :
    Outcome p (p.closeWithMessage code msg) := by
  rw [closeWithMessage, if_neg (by simp [hp])]
  exact .shutdown p code msg

theorem outcome_sendEvents (hp : p.closed = false) (buf : RingBuf) :
    Outcome p (p.sendEvents fail buf).1 := by
  rw [sendEvents, if_neg (by simp [hp])]
  cases buf.read p.evSeqNum with
  | error err => exact .shutdown p closeGoingAway err
  | ok evs =>
    dsimp only
    rcases sendLoop_cases fail p p.evSeqNum evs with ⟨he, -⟩ | ⟨j, -, err, -, he⟩ <;>
      rw [he]
    · exact .data _ _ (regFrames_not_close _ _)
    · exact .shut _ _ err fun f hf => regFrames_not_close _ _ f (List.mem_of_mem_take hf)

/-- A closed peer's writers change nothing. -/
theorem sendReady_closed (hp : p.closed = true) (m : Nat) : (p.sendReady fail m).1 = p := by
  simp [sendReady, hp]

theorem sendSystemEvent_closed (hp : p.closed = true) (ev : SystemEvent) :
    p.sendSystemEvent fail ev = p := by
  simp [sendSystemEvent, hp]

theorem sendEvents_closed (hp : p.closed = true) (buf : RingBuf) :
    (p.sendEvents fail buf).1 = p := by
  simp [sendEvents, hp]

theorem closeWithMessage_closed (hp : p.closed = true) (code : Nat) (msg : Bytes) :
    p.closeWithMessage code msg = p := by
  simp [closeWithMessage, hp]

end Peer

/-! ## Runs -/

/-- A peer and its client's event buffer. -/
structure Session where
  peer : Peer
  buf : RingBuf

/-- The steps of a session under the write failures `fail`: the client loop writes to or
evicts from its buffer, or one of the peer's writers runs. `close` is `closeWithMessage`
with the code of any of its callers: `Close` (`NormalClosure`), `CloseWithClientError`
and a read error in `MsgLoop` (`InternalServerErr`), a bad frame (`InvalidFramePayloadData`),
a rejected attach (`GoingAway`). -/
inductive Session.Step (fail : Nat → Option Bytes) : Session → Session → Prop
  | write {s : Session} (ev : RegularEvent) : Step fail s { s with buf := s.buf.write ev }
  | evict {s : Session} (h : s.buf.oldest ≤ s.buf.log.length) :
      Step fail s { s with buf := s.buf.evict h }
  | sendReady {s : Session} (lastMsgSeq : Nat) :
      Step fail s { s with peer := (s.peer.sendReady fail lastMsgSeq).1 }
  | sendSystemEvent {s : Session} (ev : SystemEvent) :
      Step fail s { s with peer := s.peer.sendSystemEvent fail ev }
  | sendEvents {s : Session} : Step fail s { s with peer := (s.peer.sendEvents fail s.buf).1 }
  | close {s : Session} (code : Nat) (msg : Bytes) :
      Step fail s { s with peer := s.peer.closeWithMessage code msg }

/-- The sessions reachable from `s₀` under `fail`. -/
inductive Session.Reach (fail : Nat → Option Bytes) (s₀ : Session) : Session → Prop
  | refl : Reach fail s₀ s₀
  | step {s s' : Session} : Reach fail s₀ s → Step fail s s' → Reach fail s₀ s'

namespace Session

variable {fail : Nat → Option Bytes} {s s' : Session}

/-- A step from a closed peer leaves the peer as it is. -/
theorem Step.peer_of_closed (hs : Step fail s s') (hc : s.peer.closed = true) :
    s'.peer = s.peer := by
  cases hs with
  | write | evict => rfl
  | sendReady m => exact Peer.sendReady_closed fail hc m
  | sendSystemEvent ev => exact Peer.sendSystemEvent_closed fail hc ev
  | sendEvents => exact Peer.sendEvents_closed fail hc _
  | close code msg => exact Peer.closeWithMessage_closed hc code msg

/-- The client's log only grows. -/
theorem Step.log_mono (hs : Step fail s s') {i : Nat} {ev : RegularEvent}
    (h : s.buf.log[i]? = some ev) : s'.buf.log[i]? = some ev := by
  cases hs with
  | write e => exact RingBuf.getElem?_log_write h
  | _ => exact h

/-- A step from an open peer is one of the writers' outcomes, or leaves the peer as it is. -/
theorem Step.outcome (hs : Step fail s s') (ho : s.peer.closed = false) :
    s'.peer = s.peer ∨ s.peer.Outcome s'.peer := by
  cases hs with
  | write | evict => exact .inl rfl
  | sendReady m => exact .inr (Peer.outcome_sendReady fail ho m)
  | sendSystemEvent ev => exact .inr (Peer.outcome_sendSystemEvent fail ho ev)
  | sendEvents => exact .inr (Peer.outcome_sendEvents fail ho _)
  | close code msg => exact .inr (Peer.outcome_closeWithMessage ho code msg)

end Session

/-! ## One close -/

/-- While the peer is open its socket has no close frame and no `conn.Close()`; once it is
closed, exactly one of each, the close frame last. -/
structure Peer.CloseInv (p : Peer) : Prop where
  opened : p.closed = false → p.connCloses = 0 ∧ ∀ f ∈ p.frames, f.isClose = false
  shut : p.closed = true →
    p.connCloses = 1 ∧
      ∃ pre c, p.frames = pre ++ [.close c] ∧ ∀ f ∈ pre, f.isClose = false

theorem Peer.CloseInv.of_outcome {p p' : Peer} (h : p.CloseInv) (hp : p.closed = false)
    (ho : p.Outcome p') : p'.CloseInv := by
  obtain ⟨h₀, hf⟩ := h.opened hp
  cases ho with
  | data ds n hds =>
    exact ⟨fun _ => ⟨h₀, List.forall_mem_append.2 ⟨hf, hds⟩⟩,
      fun h' => absurd (hp ▸ h' : false = true) (by simp)⟩
  | shut ds code text hds =>
    exact ⟨fun h' => absurd h' (by simp [shutdown]),
      fun _ => ⟨by simp [shutdown, h₀], _, _, rfl, List.forall_mem_append.2 ⟨hf, hds⟩⟩⟩

theorem Session.Step.closeInv {fail : Nat → Option Bytes} {s s' : Session} (hs : Step fail s s')
    (h : s.peer.CloseInv) : s'.peer.CloseInv := by
  cases hc : s.peer.closed
  · rcases hs.outcome hc with he | ho
    · exact he ▸ h
    · exact h.of_outcome hc ho
  · exact hs.peer_of_closed hc ▸ h

/-- A frame list with no close frame before its last frame has none after a close frame. -/
theorem close_last {pre fs post : List Frame} {c c' : Bytes}
    (hpre : ∀ f ∈ pre, f.isClose = false)
    (h : fs ++ Frame.close c' :: post = pre ++ [.close c]) : post = [] := by
  rcases List.append_eq_append_iff.1 h with ⟨a, rfl, ha⟩ | ⟨a, -, ha⟩
  · cases a with
    | nil => exact (by simpa using ha : _ ∧ post = []).2
    | cons x a =>
      simp only [List.cons_append, List.cons.injEq] at ha
      have := hpre x (List.mem_append_right _ (List.mem_cons_self _ _))
      rw [← ha.1] at this; cases this
  · cases a with
    | nil => exact (by simpa using ha : _ ∧ post = []).2
    | cons x a => simp at ha

/-- Whatever the calls and the write failures, the socket of a peer gets at most one close
frame and at most one `conn.Close()`, no frame after the close frame, and once the peer is
closed no call writes anything. -/
theorem peer_closes_once {fail : Nat → Option Bytes} {k : Nat} {b : RingBuf} {s : Session}
    (h : Session.Reach fail ⟨Peer.new k, b⟩ s) :
    (s.peer.frames.filter Frame.isClose).length ≤ 1 ∧ s.peer.connCloses ≤ 1 ∧
    (∀ pre post c, s.peer.frames = pre ++ Frame.close c :: post → post = []) ∧
    (s.peer.closed = true → ∀ s', Session.Step fail s s' → s'.peer = s.peer) := by
  have hi : s.peer.CloseInv := by
    induction h with
    | refl => exact ⟨fun _ => ⟨rfl, by simp [Peer.new]⟩, fun h' => by cases h'⟩
    | step _ hs ih => exact hs.closeInv ih
  cases hc : s.peer.closed
  · obtain ⟨h0, hf⟩ := hi.opened hc
    refine ⟨?_, by omega, fun pre post c he => ?_, nofun⟩
    · rw [List.filter_eq_nil_iff.2 fun f hf' => by simp [hf f hf']]; simp
    · exact absurd (hf _ (he ▸ List.mem_append_right _ (List.mem_cons_self _ _)))
        (by simp [Frame.isClose])
  · obtain ⟨h1, pre, c, he, hpre⟩ := hi.shut hc
    refine ⟨?_, h1.le, fun pre' post c' he' => close_last hpre (he'.symm.trans he),
      fun _ s' hs => hs.peer_of_closed hc⟩
    rw [he, List.filter_append, List.filter_eq_nil_iff.2 fun f hf => by simp [hpre f hf]]
    simp [Frame.isClose]

/-- One buffered event, then `SendEvents` with every write failing: one close frame and one
`conn.Close()`. -/
theorem peer_closes_once_failed_write :
    let s₀ : Session := ⟨Peer.new 0, ⟨[], 1, by decide, by decide⟩⟩
    let s₁ : Session := { s₀ with buf := s₀.buf.write ⟨regularEvType, []⟩ }
    let s₂ : Session := { s₁ with peer := (s₁.peer.sendEvents (fun _ => some []) s₁.buf).1 }
    Session.Reach (fun _ => some []) s₀ s₂ ∧
      (s₂.peer.frames.filter Frame.isClose).length ≤ 1 ∧ s₂.peer.connCloses ≤ 1 :=
  ⟨.step (.step .refl (.write _)) .sendEvents,
    (peer_closes_once (.step (.step .refl (.write _)) .sendEvents)).1,
    (peer_closes_once (.step (.step .refl (.write _)) .sendEvents)).2.1⟩

/-! ## Sequence numbers -/

namespace Peer

theorem regPairs_fst (seqNum : Nat) (evs : List RegularEvent) :
    (regPairs seqNum evs).map Prod.fst = List.range' (seqNum + 1) evs.length := by
  rw [regPairs, List.map_map]; exact List.enumFrom_map_fst _ _

@[simp] theorem length_regPairs (seqNum : Nat) (evs : List RegularEvent) :
    (regPairs seqNum evs).length = evs.length := by
  simp [regPairs]

theorem take_range' (a n m : Nat) : (List.range' a n).take m = List.range' a (min m n) := by
  rw [List.range'_eq_map_range, List.range'_eq_map_range, ← List.map_take, List.take_range]

@[simp] theorem regulars_shutdown (p : Peer) (code : Nat) (text : Bytes) :
    (p.shutdown code text).regulars = p.regulars := by
  simp [shutdown, regulars, Frame.regular?]

@[simp] theorem regulars_append_system (p : Peer) (d : Bytes) :
    ({ p with frames := p.frames ++ [.system d] } : Peer).regulars = p.regulars := by
  simp [regulars, Frame.regular?]

theorem regulars_regFrames_take (seqNum : Nat) (evs : List RegularEvent) (m : Nat) :
    ((regFrames seqNum evs).take m).filterMap Frame.regular? = (regPairs seqNum evs).take m := by
  rw [regFrames, ← List.map_take, List.filterMap_map]
  exact List.filterMap_some _

/-- The frames read from the buffer at `n` carry the numbers the buffer gave their events. -/
theorem mem_regPairs_drop {log : List RegularEvent} {n q : Nat} {d : Bytes}
    (h : (q, d) ∈ regPairs n (log.drop n)) :
    ∃ ev, log[q - 1]? = some ev ∧ d = ev.marshal q := by
  obtain ⟨⟨q', ev⟩, hx, he⟩ := List.mem_map.1 h
  cases he
  obtain ⟨h₁, h₂, hev⟩ := List.mem_enumFrom hx
  refine ⟨ev, ?_, rfl⟩
  have : (log.drop n)[q' - (n + 1)]? = some ev := by rw [hev]; exact List.getElem?_eq_getElem _
  rwa [List.getElem?_drop, show n + (q' - (n + 1)) = q' - 1 by omega] at this

end Peer

/-- The regular frames of a peer `NewPeer` built at `k`: numbered `k + 1`, `k + 2`, … with
no gap or repeat, each the marshal of the buffer's event of that number; while the peer
is open, `evSeqNum` is the last number written. -/
structure Session.SeqInv (k : Nat) (s : Session) : Prop where
  seqs : s.peer.regulars.map Prod.fst = List.range' (k + 1) s.peer.regulars.length
  evSeq : s.peer.closed = false → s.peer.evSeqNum = k + s.peer.regulars.length
  data : ∀ q d, (q, d) ∈ s.peer.regulars →
    ∃ ev, s.buf.log[q - 1]? = some ev ∧ d = ev.marshal q

namespace Session

variable {fail : Nat → Option Bytes} {k : Nat} {s s' : Session}

/-- A step that writes no regular frame, and moves `evSeqNum` only of a peer it closes,
keeps the invariant while the buffer keeps its events. -/
theorem SeqInv.of_regulars (h : SeqInv k s)
    (hlog : ∀ (i : Nat) (ev : RegularEvent), s.buf.log[i]? = some ev → s'.buf.log[i]? = some ev)
    (hr : s'.peer.regulars = s.peer.regulars)
    (he : s'.peer.closed = false → s.peer.closed = false ∧ s'.peer.evSeqNum = s.peer.evSeqNum) :
    SeqInv k s' where
  seqs := hr ▸ h.seqs
  evSeq hc := by rw [(he hc).2, hr]; exact h.evSeq (he hc).1
  data q d hq := by
    obtain ⟨ev, hev, hd⟩ := h.data q d (hr ▸ hq)
    exact ⟨ev, hlog _ _ hev, hd⟩

/-- `SendEvents` from an open peer writes the first `m` frames of what it read, and leaves
the peer open only when it wrote all of them and stored the last number. -/
theorem SeqInv.of_send (h : SeqInv k s) (hc : s.peer.closed = false) (hb : s'.buf = s.buf) (m : Nat)
    (hr : s'.peer.regulars =
      s.peer.regulars ++ (Peer.regPairs s.peer.evSeqNum (s.buf.log.drop s.peer.evSeqNum)).take m)
    (he : s'.peer.closed = false →
      m = (s.buf.log.drop s.peer.evSeqNum).length ∧ s'.peer.evSeqNum = s.peer.evSeqNum + m) :
    SeqInv k s' := by
  have hn := h.evSeq hc
  have hlen : s'.peer.regulars.length =
      s.peer.regulars.length + min m (s.buf.log.drop s.peer.evSeqNum).length := by
    rw [hr, List.length_append, List.length_take, Peer.length_regPairs]
  refine ⟨?_, fun hc' => ?_, fun q d hq => ?_⟩
  · rw [hlen, hr, List.map_append, List.map_take, Peer.regPairs_fst, h.seqs, Peer.take_range', hn,
      Nat.add_right_comm, List.range'_append_1, Nat.add_comm (min _ _)]
  · obtain ⟨hm, hs⟩ := he hc'
    rw [hs, hlen]; omega
  · rw [hr] at hq
    rcases List.mem_append.1 hq with hq | hq
    · exact hb ▸ h.data q d hq
    · exact hb ▸ Peer.mem_regPairs_drop (List.mem_of_mem_take hq)

/-- `SendEvents` on an open peer: a failed `Read` closes it; otherwise it writes the first
`m` frames of what it read, staying open only when it wrote them all. -/
theorem sendEvents_regulars (fail : Nat → Option Bytes) (p : Peer) (hp : p.closed = false)
    (buf : RingBuf) :
    (∃ err, buf.read p.evSeqNum = .error err ∧
      (p.sendEvents fail buf).1 = p.shutdown closeGoingAway err) ∨
    ∃ evs m, buf.read p.evSeqNum = .ok evs ∧
      (p.sendEvents fail buf).1.regulars = p.regulars ++ (Peer.regPairs p.evSeqNum evs).take m ∧
      ((p.sendEvents fail buf).1.closed = false →
        m = evs.length ∧ (p.sendEvents fail buf).1.evSeqNum = p.evSeqNum + m) := by
  rw [Peer.sendEvents, if_neg (by simp [hp])]
  cases hr : buf.read p.evSeqNum with
  | error err => exact .inl ⟨err, rfl, rfl⟩
  | ok evs =>
    dsimp only
    rcases Peer.sendLoop_cases fail p p.evSeqNum evs with ⟨he, -⟩ | ⟨j, -, err, -, he⟩ <;>
      rw [he]
    · refine .inr ⟨evs, evs.length, rfl, ?_, fun _ => ⟨rfl, rfl⟩⟩
      rw [← Peer.regulars_regFrames_take, List.take_of_length_le (by simp [Peer.regFrames])]
      simp [Peer.regulars, List.filterMap_append]
    · refine .inr ⟨evs, j + 1, rfl, ?_, fun h' => by simp [Peer.shutdown] at h'⟩
      rw [Peer.regulars_shutdown, ← Peer.regulars_regFrames_take]
      simp [Peer.regulars, List.filterMap_append]

/-- Every step keeps the invariant. -/
theorem SeqInv.step (h : SeqInv k s) (hs : Step fail s s') : SeqInv k s' := by
  have hlog : ∀ i ev, s.buf.log[i]? = some ev → s'.buf.log[i]? = some ev :=
    fun _ _ => hs.log_mono
  cases hc : s.peer.closed
  case true =>
    have hp := hs.peer_of_closed hc
    exact h.of_regulars hlog (by rw [hp]) fun hc' => ⟨hp ▸ hc', by rw [hp]⟩
  · cases hs with
    | write | evict => exact h.of_regulars hlog rfl fun hc' => ⟨hc', rfl⟩
    | sendReady m =>
      refine h.of_regulars (fun _ _ => id) ?_ fun _ => ⟨hc, ?_⟩ <;>
        simp [Peer.sendReady, hc, Peer.write, Peer.regulars, Frame.regular?]
    | sendSystemEvent ev =>
      simp only [Peer.sendSystemEvent, hc, Peer.write]
      cases fail s.peer.frames.length with
      | none =>
        exact h.of_regulars (fun _ _ => id) (by simp [Peer.regulars, Frame.regular?])
          fun _ => ⟨hc, rfl⟩
      | some err =>
        exact h.of_regulars (fun _ _ => id) (by simp [Peer.regulars, Frame.regular?, Peer.shutdown])
          fun h' => by simp [Peer.shutdown] at h'
    | sendEvents =>
      rcases sendEvents_regulars fail s.peer hc s.buf with
        ⟨err, -, he⟩ | ⟨evs, m, hr, hreg, he⟩
      · exact h.of_regulars (fun _ _ => id) (by simp [he])
          fun h' => by simp [he, Peer.shutdown] at h'
      · obtain rfl := RingBuf.eq_drop_of_read_ok hr
        exact h.of_send hc rfl m hreg he
    | close code msg =>
      exact h.of_regulars (fun _ _ => id) (by simp [Peer.closeWithMessage, hc])
        fun h' => by simp [Peer.closeWithMessage, hc, Peer.shutdown] at h'

/-- From a closed peer, no run changes the peer. -/
theorem Reach.peer_of_closed (h : Reach fail s s') (hc : s.peer.closed = true) :
    s'.peer = s.peer := by
  induction h with
  | refl => rfl
  | step _ hs ih => rw [hs.peer_of_closed (by rw [ih]; exact hc), ih]

/-- Every session reachable from a fresh peer keeps the invariant. -/
theorem SeqInv.of_reach {b : RingBuf} (h : Reach fail ⟨Peer.new k, b⟩ s) : SeqInv k s := by
  induction h with
  | refl => exact ⟨rfl, fun _ => rfl, fun q d h => by simp [Peer.new, Peer.regulars] at h⟩
  | step _ hs ih => exact ih.step hs

end Session

namespace Peer

variable (fail : Nat → Option Bytes)

/-- `SendEvents` returns an error exactly when the peer is open and `Read` fails. -/
theorem sendEvents_error_iff (p : Peer) (buf : RingBuf) :
    (p.sendEvents fail buf).2 = true ↔
      p.closed = false ∧ ∃ err, buf.read p.evSeqNum = .error err := by
  cases hc : p.closed
  · cases hr : buf.read p.evSeqNum <;> simp [sendEvents, hc, hr]
  · simp [sendEvents, hc]

/-- A `SendEvents` call on an open peer whose `Read` fails, or one of whose writes fails,
leaves the peer closed. -/
theorem sendEvents_closed_of_failure (p : Peer) (buf : RingBuf) (hp : p.closed = false)
    (hf : (∃ err, buf.read p.evSeqNum = .error err) ∨
      ∃ i, p.frames.length ≤ i ∧ i < (p.sendEvents fail buf).1.frames.length ∧
        (fail i).isSome) :
    (p.sendEvents fail buf).1.closed = true := by
  cases hr : buf.read p.evSeqNum with
  | error err => simp [sendEvents, hp, hr, shutdown]
  | ok evs =>
    simp only [sendEvents, hp, hr, Bool.false_eq_true, if_false, reduceCtorEq, exists_false,
      false_or] at hf ⊢
    rcases sendLoop_cases fail p p.evSeqNum evs with ⟨he, hok⟩ | ⟨j, -, err, -, he⟩ <;>
      rw [he] at hf ⊢
    · obtain ⟨i, h₁, h₂, h₃⟩ := hf
      simp only [List.length_append, regFrames, List.length_map, length_regPairs] at h₂
      rw [hok i h₁ h₂] at h₃; cases h₃
    · rfl

end Peer

/-- The last of the numbers `k + 1`, …, `k + n`, or `k` when there are none. -/
theorem getLast?_range'_getD (k n : Nat) : ((List.range' (k + 1) n).getLast?).getD k = k + n := by
  cases n with
  | zero => rfl
  | succ n => rw [List.getLast?_range']; simp; omega

/-- For every run from a peer `NewPeer` built at `k`, whatever the client's buffer does and
whichever writes fail: the regular frames carry `k + 1`, `k + 2`, … with no gap or repeat,
each the marshal of the buffer's event of its number; an open peer's `evSeqNum` is the
number of its last regular frame, or `k`; `SendEvents` returns an error exactly when `Read`
fails; a call whose `Read` or write fails closes the peer, and no run from a closed peer
writes anything. -/
theorem peer_event_seqs {fail : Nat → Option Bytes} {k : Nat} {b : RingBuf} {s : Session}
    (h : Session.Reach fail ⟨Peer.new k, b⟩ s) :
    s.peer.regulars.map Prod.fst = List.range' (k + 1) s.peer.regulars.length ∧
    (∀ q d, (q, d) ∈ s.peer.regulars →
      ∃ ev, s.buf.log[q - 1]? = some ev ∧ d = ev.marshal q) ∧
    (s.peer.closed = false → s.peer.evSeqNum = (s.peer.regulars.getLast?.map Prod.fst).getD k) ∧
    ((s.peer.sendEvents fail s.buf).2 = true ↔
      s.peer.closed = false ∧ ∃ err, s.buf.read s.peer.evSeqNum = .error err) ∧
    (s.peer.closed = false →
      ((∃ err, s.buf.read s.peer.evSeqNum = .error err) ∨
        ∃ i, s.peer.frames.length ≤ i ∧ i < (s.peer.sendEvents fail s.buf).1.frames.length ∧
          (fail i).isSome) →
      (s.peer.sendEvents fail s.buf).1.closed = true) ∧
    (s.peer.closed = true → ∀ s', Session.Reach fail s s' → s'.peer = s.peer) := by
  have hi := Session.SeqInv.of_reach h
  refine ⟨hi.seqs, hi.data, fun hc => ?_, Peer.sendEvents_error_iff fail s.peer s.buf,
    Peer.sendEvents_closed_of_failure fail s.peer s.buf, fun hc s' h' => h'.peer_of_closed hc⟩
  rw [hi.evSeq hc, ← List.getLast?_map, hi.seqs, getLast?_range'_getD]

/-- One buffered event, then `SendEvents` with every write succeeding: the frame is numbered 1. -/
theorem peer_event_seqs_one_event :
    let s₀ : Session := ⟨Peer.new 0, ⟨[], 1, by decide, by decide⟩⟩
    let s₁ : Session := { s₀ with buf := s₀.buf.write ⟨regularEvType, []⟩ }
    let s₂ : Session := { s₁ with peer := (s₁.peer.sendEvents (fun _ => none) s₁.buf).1 }
    Session.Reach (fun _ => none) s₀ s₂ ∧
      s₂.peer.regulars.map Prod.fst = List.range' 1 s₂.peer.regulars.length :=
  ⟨.step (.step .refl (.write _)) .sendEvents,
    (peer_event_seqs (.step (.step .refl (.write _)) .sendEvents)).1⟩

/-! ## What the client reads -/

/-- What the client reads from the socket of any run from a peer `NewPeer` built at `k`,
whatever the buffer does and whichever writes fail, when every buffered event is a regular
one: `UnmarshalEvent` of the regular frames, in order, gives the buffer's events numbered
`k + 1`, `k + 2`, …, each once, with its number cut to the frame's 32 bits. -/
theorem peer_stream_decodes {fail : Nat → Option Bytes} {k : Nat} {b : RingBuf} {s : Session}
    (h : Session.Reach fail ⟨Peer.new k, b⟩ s)
    (hreg : ∀ ev ∈ s.buf.log, regularEvType ≤ ev.etype) :
    s.peer.regulars.map (fun f => unmarshalEvent f.2) =
      (((s.buf.log.drop k).take s.peer.regulars.length).enumFrom (k + 1)).map fun p =>
        .ok (.regular p.2, p.1 % 4294967296) := by
  have hi := Session.SeqInv.of_reach h
  -- the `i`-th regular frame carries number `k + 1 + i` and the marshal of event `k + i`
  have hf : ∀ i (hi : i < s.peer.regulars.length), ∃ ev, s.buf.log[k + i]? = some ev ∧
      s.peer.regulars[i] = (k + 1 + i, ev.marshal (k + 1 + i)) := by
    intro i hlt
    have hq : s.peer.regulars[i].1 = k + 1 + i := by
      have := congrArg (·[i]?) hi.seqs
      simp only [List.getElem?_map, List.getElem?_eq_getElem hlt, List.getElem?_range' _ _ hlt,
        Option.map_some', Option.some_inj, Nat.one_mul] at this
      exact this
    obtain ⟨ev, hev, hd⟩ :=
      hi.data s.peer.regulars[i].1 s.peer.regulars[i].2 (List.getElem_mem hlt)
    rw [hq, show k + 1 + i - 1 = k + i by omega] at hev
    exact ⟨ev, hev, Prod.ext hq (hd.trans (by rw [hq]))⟩
  have hlen : s.peer.regulars.length ≤ (s.buf.log.drop k).length := by
    rcases Nat.eq_zero_or_pos s.peer.regulars.length with h0 | hpos
    · rw [h0]; exact Nat.zero_le _
    · obtain ⟨ev, hev, -⟩ := hf _ (Nat.sub_lt hpos Nat.one_pos)
      have := (List.getElem?_eq_some_iff.1 hev).1
      rw [List.length_drop]; omega
  apply List.ext_getElem
  · rw [List.length_map, List.length_map, List.enumFrom_length, List.length_take,
      Nat.min_eq_left hlen]
  · intro i h₁ h₂
    have hi' : i < s.peer.regulars.length := by simpa using h₁
    obtain ⟨ev, hev, he⟩ := hf i hi'
    have hmem : ev ∈ s.buf.log := List.getElem?_mem hev
    simp only [List.getElem_map, he, List.getElem_enumFrom, List.getElem_take, List.getElem_drop]
    rw [unmarshalEvent_marshal_regular ev _ (hreg ev hmem), Nat.add_assoc,
      (List.getElem?_eq_some_iff.1 hev).2]

/-- One buffered regular event, then `SendEvents` with every write succeeding. -/
theorem peer_stream_decodes_one_event :
    let s₀ : Session := ⟨Peer.new 0, ⟨[], 1, by decide, by decide⟩⟩
    let s₁ : Session := { s₀ with buf := s₀.buf.write ⟨regularEvType, []⟩ }
    let s₂ : Session := { s₁ with peer := (s₁.peer.sendEvents (fun _ => none) s₁.buf).1 }
    Session.Reach (fun _ => none) s₀ s₂ ∧ (∀ ev ∈ s₂.buf.log, regularEvType ≤ ev.etype) ∧
      s₂.peer.regulars.map (fun f => unmarshalEvent f.2) =
        (((s₂.buf.log.drop 0).take s₂.peer.regulars.length).enumFrom 1).map fun p =>
          .ok (.regular p.2, p.1 % 4294967296) :=
  have h : Session.Reach (fun _ => none) _ _ := .step (.step .refl (.write _)) .sendEvents
  have hreg : ∀ ev ∈ [(⟨regularEvType, []⟩ : RegularEvent)], regularEvType ≤ ev.etype := by
    decide
  ⟨h, hreg, peer_stream_decodes h hreg⟩

/-! ## Close payloads -/

/-- Every close payload fits a control frame: two bytes of code and at most 123 of text. -/
theorem length_formatCloseMessage_le (closeCode : Nat) (text : Bytes) :
    (formatCloseMessage closeCode text).length ≤ 125 := by
  unfold formatCloseMessage Websocket.formatCloseMessage
  split_ifs <;> simp <;> omega

/-- Past the code, the payload is the text's first 123 bytes, wherever they cut a character. -/
theorem formatCloseMessage_eq {closeCode : Nat} (h : closeCode ≠ closeNoStatusReceived)
    (text : Bytes) : formatCloseMessage closeCode text = put16 closeCode ++ text.take 123 := by
  unfold formatCloseMessage Websocket.formatCloseMessage
  rw [if_neg h]
  split_ifs with hl
  · rfl
  · rw [List.take_of_length_le (by omega)]

/-- A valid 124-byte text whose last character, `é` (`C3 A9`), straddles byte 123: the close
frame `Close` writes carries the text's first 123 bytes, which end in the lead byte `0xC3` and
are no string's encoding. -/
theorem close_reason_splits_char :
    let text : Bytes := utf8 (String.mk (List.replicate 122 'a' ++ ['é']))
    text.length = 124 ∧
    ((Peer.new 0).closeWithMessage closeNormalClosure text).frames =
      [.close (put16 closeNormalClosure ++ text.take 123)] ∧
    ¬ ∃ s : String, utf8 s = text.take 123 := by
  intro text
  have hlast : (text.take 123).getLast? = some 0xC3 := rfl
  refine ⟨rfl, ?_, fun ⟨s, hs⟩ => absurd (getLast?_utf8 s 0xC3 (hs ▸ hlast)) (by decide)⟩
  rw [← formatCloseMessage_eq (by decide)]
  rfl

end Game
end WSNet2
