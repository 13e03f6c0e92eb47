/-
Module: HftAlgorithms.Proofs.FeedBytes
Purpose: The listener on the bytes of the feed does what the listener on records does,
  event by event: packets that are processed as they come, packets that are kept
  as bytes and read again when the catch-up ends, and quiet periods.
Trusted boundary: none
Main exports: Listener.hold, Listener.process_hold, ByteListener.Follows,
  WireEvent, ByteListener.follows_next, ByteListener.follows_feed
-/
import HftAlgorithms.Proofs.LateSnapshots
import HftAlgorithms.Proofs.PacketEncoding

namespace HftAlgorithms

open LittleEndian

/-! ### The buffer does not matter -/

namespace Listener

/-- The listener with other packets in its live buffer. -/
def hold (listener : Listener) (packets : List Packet) : Listener :=
  { listener with liveBuffer := packets }

section Hold

variable (listener : Listener) (packets : List Packet)

theorem dispatch_hold (msg : BookMsg) :
    (listener.hold packets).dispatch msg = (listener.dispatch msg).hold packets := by
  have same : (listener.hold packets).target msg = listener.target msg := by
    cases msg <;> rfl
  rw [dispatch_eq, dispatch_eq, same]
  cases listener.target msg <;> rfl

theorem take_hold (record : SnapshotRecord) :
    (listener.hold packets).take record = (listener.take record).hold packets := by
  cases record <;> rfl

theorem foldl_dispatch_hold (msgs : List BookMsg) :
    msgs.foldl dispatch (listener.hold packets) = (msgs.foldl dispatch listener).hold packets :=
  List.foldl_hom (fun other : Listener => other.hold packets)
    fun other msg => dispatch_hold other packets msg

theorem readSnapshot_hold (records : List SnapshotRecord) :
    (listener.hold packets).readSnapshot records =
      (listener.readSnapshot records).hold packets := by
  rw [readSnapshot_eq, readSnapshot_eq]
  exact List.foldl_hom (fun other : Listener => other.hold packets)
    fun other record => take_hold other packets record

/-- A packet that is processed does not meet the packets that are kept. -/
theorem process_hold (packet : Packet) :
    (listener.hold packets).process packet = (listener.process packet).hold packets := by
  cases packet with
  | snapshot records => exact readSnapshot_hold listener packets records
  | book msg =>
      have handled := dispatch_hold listener packets msg
      rw [process, handled]
      rfl
  | heartbeat => rfl
  | otherMessage => rfl
  | foreign => rfl

end Hold

end Listener

/-! ### Events -/

/-- What happens on the two channels. -/
inductive WireEvent where
  | live (sent : WirePacket)
  | replay (sent : WirePacket)
  | timeout

namespace WireEvent

def bytes : WireEvent → ByteEvent
  | .live sent => .live sent.bytes
  | .replay sent => .replay sent.bytes
  | .timeout => .timeout

def event : WireEvent → ListenerEvent
  | .live sent => .live sent.packet
  | .replay sent => .replay sent.packet
  | .timeout => .timeout

/-- The packet, if there is one, is sound and fits the 1500 bytes of the buffer. -/
def Sound : WireEvent → Prop
  | .live sent => sent.Sound ∧ sent.bytes.length ≤ 1500
  | .replay sent => sent.Sound ∧ sent.bytes.length ≤ 1500
  | .timeout => True

end WireEvent

namespace ByteListener

/-- The packets kept as bytes are those that the listener on records keeps; all else is the same,
whatever the buffer of the last `read` holds. -/
def Follows (state : ByteListener) (listener : Listener) : Prop :=
  ∃ kept : List WirePacket, (∀ sent ∈ kept, sent.Sound) ∧
    state.liveBuffer = kept.map WirePacket.bytes ∧
      listener = state.listener.hold (kept.map WirePacket.packet)

/-! ### One packet -/

/-- What is put over the start of the buffer stands there. -/
theorem holds_received (buf : Memory) (bytes : List UInt8) :
    Holds (RawPacket.received buf bytes).buf 0 bytes :=
  holds_getD bytes buf

theorem process_received {sent : WirePacket} (sound : sent.Sound)
    {budget : Nat} (enough : sent.bytes.length ≤ budget) (state : ByteListener) :
    state.process budget (.received state.buf sent.bytes) =
      some
        { state with
          listener := state.listener.process sent.packet
          buf := (RawPacket.received state.buf sent.bytes).buf } := by
  have holds := holds_received state.buf sent.bytes
  cases snapshot : sent.isSnapshot with
  | true =>
      cases sent <;> cases snapshot
      rename_i blocks
      obtain ⟨magic, reads⟩ := WirePacket.readPacket_of_holds sound holds
      have isSnapshot : (RawPacket.received state.buf (packetBytes blocks)).IsSnapshot := magic
      have read : Listener.readPacket (.received state.buf (packetBytes blocks)) budget
          state.listener .start = _ := reads budget enough state.listener
      rw [process, WirePacket.bytes, if_pos isSnapshot, read]
      rfl
  | false =>
      have notSnapshot : ¬ (RawPacket.received state.buf sent.bytes).IsSnapshot :=
        (WirePacket.readMagicNumber_message sound snapshot holds).1
      have said : (RawPacket.received state.buf sent.bytes).parse = sent.packet :=
        WirePacket.parse_of_holds sound snapshot holds sent.bytes.length
      rw [process, if_neg notSnapshot, said]

/-- A packet that was kept is read as it would have been when it came; a snapshot is not. -/
theorem bookMsg_received {sent : WirePacket} (sound : sent.Sound) (buf : Memory) :
    (RawPacket.received buf sent.bytes).parse.bookMsg = sent.packet.bookMsg := by
  have holds := holds_received buf sent.bytes
  cases snapshot : sent.isSnapshot with
  | true =>
      cases sent <;> cases snapshot
      rename_i blocks
      have magic := (WirePacket.readPacket_of_holds sound holds).1
      have notMessage : ¬ (RawPacket.received buf (packetBytes blocks)).IsMessage := by
        intro isMessage
        have same : MAGIC_NUMBER = SNAPSHOT_MAGIC_NUMBER := isMessage.symm.trans magic
        exact absurd same (by decide)
      rw [RawPacket.parse, WirePacket.bytes, if_neg notMessage]
      rfl
  | false =>
      have said := WirePacket.parse_of_holds sound snapshot holds sent.bytes.length
      exact congrArg Packet.bookMsg said

/-! ### The catch-up -/

/-- Packets read again one after the other, each over the one before. -/
theorem foldl_drainOne {kept : List WirePacket} (sound : ∀ sent ∈ kept, sent.Sound)
    (state : ByteListener) :
    ((kept.map WirePacket.bytes).foldl drainOne state).listener =
      ((kept.map WirePacket.packet).filterMap Packet.bookMsg).foldl Listener.dispatch
        state.listener := by
  induction kept generalizing state with
  | nil => rfl
  | cons sent kept inductionHypothesis =>
      have read := bookMsg_received (sound sent List.mem_cons_self) state.buf
      rw [List.map_cons, List.foldl_cons, List.map_cons,
        inductionHypothesis fun later member => sound later (List.mem_cons_of_mem _ member),
        drainOne]
      dsimp only
      rw [read]
      cases message : sent.packet.bookMsg with
      | none => rw [List.filterMap_cons_none message]; rfl
      | some msg => rw [List.filterMap_cons_some message]; rfl

theorem follows_drain {state : ByteListener} {listener : Listener}
    (follows : state.Follows listener) : state.drain.Follows listener.drain := by
  obtain ⟨kept, sound, buffer, rfl⟩ := follows
  have drained := foldl_drainOne sound state
  have empty : state.drain.liveBuffer = [] := by rw [drain]
  refine ⟨[], by simp, empty, ?_⟩
  rw [drain, buffer, Listener.drain, drained]
  have messages : (state.listener.hold (kept.map WirePacket.packet)).liveBuffer =
      kept.map WirePacket.packet := rfl
  rw [messages, Listener.foldl_dispatch_hold]
  rfl

theorem follows_quiet {state : ByteListener} {listener : Listener}
    (follows : state.Follows listener) : state.quiet.Follows listener.quiet := by
  have counted : state.counted.Follows
      { listener with noReplayCount := listener.noReplayCount + 1 } := by
    obtain ⟨kept, sound, buffer, rfl⟩ := follows
    exact ⟨kept, sound, buffer, rfl⟩
  have flags : state.listener.caughtUp = listener.caughtUp ∧
      state.listener.receivedSnapshot = listener.receivedSnapshot ∧
        state.counted.listener.noReplayCount = listener.noReplayCount + 1 := by
    obtain ⟨kept, -, -, rfl⟩ := follows
    exact ⟨rfl, rfl, rfl⟩
  obtain ⟨caughtUp, receivedSnapshot, noReplayCount⟩ := flags
  rw [quiet, Listener.quiet, counts, caughtUp, receivedSnapshot]
  by_cases counting : ¬ listener.caughtUp ∧ listener.receivedSnapshot
  · rw [if_pos (by simpa using counting), if_pos counting]
    by_cases enough : listener.noReplayCount + 1 > 100
    · rw [if_pos (by rwa [noReplayCount]), if_pos enough]
      exact follows_drain counted
    · rw [if_neg (by rwa [noReplayCount]), if_neg enough]
      exact counted
  · rw [if_neg (by simpa using counting), if_neg counting]
    exact follows

/-! ### The feed -/

theorem follows_process {state : ByteListener} {listener : Listener}
    (follows : state.Follows listener) {sent : WirePacket} (sound : sent.Sound) {budget : Nat}
    (enough : sent.bytes.length ≤ budget) :
    ∃ after, state.process budget (.received state.buf sent.bytes) = some after ∧
      after.Follows (listener.process sent.packet) := by
  obtain ⟨kept, keptSound, buffer, rfl⟩ := follows
  refine ⟨_, process_received sound enough state, kept, keptSound, buffer, ?_⟩
  exact Listener.process_hold state.listener (kept.map WirePacket.packet) sent.packet

theorem follows_bufferLive {state : ByteListener} {listener : Listener}
    (follows : state.Follows listener) {sent : WirePacket} (sound : sent.Sound) :
    (state.bufferLive sent.bytes).Follows (listener.bufferLive sent.packet) := by
  obtain ⟨kept, keptSound, buffer, rfl⟩ := follows
  have size : state.liveBuffer.length =
      (state.listener.hold (kept.map WirePacket.packet)).liveBuffer.length := by
    simp [buffer, Listener.hold]
  rw [bufferLive, Listener.bufferLive, size]
  dsimp only
  split
  · exact ⟨kept, keptSound, buffer, rfl⟩
  · refine ⟨kept ++ [sent], ?_, ?_, ?_⟩
    · intro other member
      rcases List.mem_append.mp member with earlier | last
      · exact keptSound other earlier
      · rw [List.mem_singleton.mp last]
        exact sound
    · simp [buffer]
    · simp [Listener.hold]

/-- One event.  The loops over a snapshot end, so the listener is never stuck. -/
theorem follows_next {state : ByteListener} {listener : Listener}
    (follows : state.Follows listener) {event : WireEvent} (sound : event.Sound) {budget : Nat}
    (enough : 1500 ≤ budget) :
    ∃ after, state.next budget event.bytes = some after ∧
      after.Follows (listener.next event.event) := by
  have flags : state.listener.running = listener.running ∧
      state.listener.caughtUp = listener.caughtUp := by
    obtain ⟨kept, -, -, rfl⟩ := follows
    exact ⟨rfl, rfl⟩
  rw [next.eq_def, Listener.next.eq_def, flags.1]
  by_cases stopped : ¬ listener.running
  · rw [if_pos (by simpa using stopped), if_pos (by simpa using stopped)]
    exact ⟨state, rfl, follows⟩
  rw [if_neg (by simpa using stopped), if_neg (by simpa using stopped)]
  cases event with
  | live sent =>
      simp only [WireEvent.bytes, WireEvent.event, flags.2]
      by_cases caughtUp : listener.caughtUp = true
      · rw [if_pos caughtUp, if_pos caughtUp]
        exact follows_process follows sound.1 (sound.2.trans enough)
      · rw [if_neg caughtUp, if_neg caughtUp]
        exact ⟨_, rfl, follows_bufferLive follows sound.1⟩
  | replay sent => exact follows_process follows sound.1 (sound.2.trans enough)
  | timeout => exact ⟨_, rfl, follows_quiet follows⟩

/-- Event after event. -/
def run (budget : Nat) (state : ByteListener) (events : List ByteEvent) : Option ByteListener :=
  events.foldlM (fun current event => current.next budget event) state

/-- However the packets of the feed, the replayed snapshots and the quiet periods follow each
other, the listener on bytes comes through, and it ends with the books, the positions, the routes
and the flags that the listener on records ends with; what is still kept as bytes are the packets
which that one keeps. -/
theorem follows_feed {budget : Nat} (enough : 1500 ≤ budget) {events : List WireEvent}
    (sound : ∀ event ∈ events, event.Sound) {state : ByteListener} {listener : Listener}
    (follows : state.Follows listener) :
    ∃ after, state.run budget (events.map WireEvent.bytes) = some after ∧
      after.Follows ((events.map WireEvent.event).foldl Listener.next listener) := by
  induction events generalizing state listener with
  | nil => exact ⟨state, rfl, follows⟩
  | cons event events inductionHypothesis =>
      obtain ⟨between, first, followed⟩ := follows_next follows (sound event List.mem_cons_self)
        enough
      obtain ⟨after, later, ends⟩ := inductionHypothesis
        (fun other member => sound other (List.mem_cons_of_mem _ member)) followed
      refine ⟨after, ?_, ends⟩
      rw [run] at later
      rw [run, List.map_cons, List.foldlM_cons, first]
      exact later

/-- A live order that comes before the snapshot, the snapshot, and one quiet period. -/
def openingEvents : List WireEvent :=
  [.live (.newOrder 1 ⟨⟨20, .NEW_ORDER⟩, 9, 3, .BUY, 4, 101⟩ 0),
    .replay (.snapshot Listener.twoDorms), .timeout]

/-- The buffer of the listener holds rubbish. -/
def fresh : ByteListener := { listener := .start .empty, buf := fun _ => 170, liveBuffer := [] }

theorem follows_feed_openingEvents :
    ∃ after, fresh.run 1500 (openingEvents.map WireEvent.bytes) = some after ∧
      (after.listener.manager.slots 3).bestBidPrice = 100 ∧ after.listener.noReplayCount = 1 := by
  have sound : ∀ event ∈ openingEvents, event.Sound := by
    intro event member
    simp only [openingEvents, List.mem_cons, List.not_mem_nil, or_false] at member
    rcases member with rfl | rfl | rfl
    · exact ⟨⟨rfl, Or.inl rfl⟩, by decide⟩
    · refine ⟨⟨⟨_, _, rfl, rfl⟩, ?_⟩, by decide +kernel⟩
      intro sent block
      simp only [Listener.twoDorms, List.mem_cons, List.not_mem_nil, or_false] at block
      rcases block with rfl | rfl <;> constructor <;> decide
    · trivial
  have opened : fresh.Follows (.start .empty) := ⟨[], by simp, rfl, rfl⟩
  obtain ⟨after, ran, kept, -, -, same⟩ := follows_feed (Nat.le_refl 1500) sound opened
  refine ⟨after, ran, ?_, ?_⟩
  · have prices := congrArg (fun listener => (listener.manager.slots 3).bestBidPrice) same
    exact prices.symm.trans (by decide +kernel)
  · exact (congrArg Listener.noReplayCount same).symm

end ByteListener

end HftAlgorithms
