/-
Module: HftAlgorithms.Proofs.LiveOrder
Purpose: What the listener does with the live feed: every book message that arrives
  live is handled once, in the order of arrival, none before the replay has gone
  quiet, and the listener ends only when its buffer overflows before that.
Trusted boundary: none
Main exports: Handled, Listener.handle, Listener.handles, Listener.contents,
  Listener.contents_next, Listener.live_handled_once
-/
import HftAlgorithms.Proofs.LateSnapshots

namespace HftAlgorithms

open StateMachine

/-- What the listener handles: a record of a snapshot packet, or a message that came by one of the
two channels. -/
inductive Handled where
  | record (record : SnapshotRecord)
  | replayed (msg : BookMsg)
  | live (msg : BookMsg)
deriving DecidableEq, Repr

/-- The message, if it came by the live channel. -/
def Handled.liveMsg : Handled → Option BookMsg
  | .live msg => some msg
  | _ => none

/-- The book message of a live packet. -/
def ListenerEvent.liveMsgs : ListenerEvent → List BookMsg
  | .live packet => packet.bookMsg.toList
  | _ => []

namespace Listener

def handle (listener : Listener) : Handled → Listener
  | .record record => listener.take record
  | .replayed msg => listener.dispatch msg
  | .live msg => listener.dispatch msg

/-- What a packet that is not buffered is handled as. -/
def handledAs (channel : BookMsg → Handled) : Packet → List Handled
  | .snapshot records => (taken (some 0) records).map .record
  | .book msg => [channel msg]
  | .heartbeat | .otherMessage | .foreign => []

/-- What an event makes the listener handle, in order. -/
def handles (listener : Listener) (event : ListenerEvent) : List Handled :=
  if ¬ listener.running then []
  else
    match event with
    | .live packet => if listener.caughtUp then handledAs .live packet else []
    | .replay packet => handledAs .replayed packet
    | .timeout =>
        if (¬ listener.caughtUp ∧ listener.receivedSnapshot) ∧ listener.noReplayCount + 1 > 100 then
          (listener.liveBuffer.filterMap Packet.bookMsg).map .live
        else []

/-- Books, caches, positions and routes. -/
def contents (listener : Listener) : SymbolManager × FiniteMap UInt64 UInt32 :=
  (listener.manager, listener.orderToSymbol)

/-! ### One event -/

theorem contents_dispatch_congr {first second : Listener}
    (same : first.contents = second.contents) (msg : BookMsg) :
    (first.dispatch msg).contents = (second.dispatch msg).contents := by
  simp only [contents, Prod.mk.injEq] at same
  have target : first.target msg = second.target msg := by
    cases msg <;> simp only [Listener.target, same.2]
  rw [dispatch_eq, dispatch_eq, target]
  cases second.target msg <;> simp [contents, same]

theorem contents_handle_congr {first second : Listener}
    (same : first.contents = second.contents) (item : Handled) :
    (first.handle item).contents = (second.handle item).contents := by
  cases item with
  | record record =>
      cases record with
      | info msg =>
          simp only [contents, Prod.mk.injEq] at same
          simp [handle, take, openBlock, contents, same]
      | order msg => exact contents_dispatch_congr same (.newOrder msg)
      | other => exact same
  | replayed msg => exact contents_dispatch_congr same msg
  | live msg => exact contents_dispatch_congr same msg

theorem foldl_handledAs (listener : Listener) {channel : BookMsg → Handled}
    (handles : ∀ (listener : Listener) msg, listener.handle (channel msg) = listener.dispatch msg)
    (packet : Packet) :
    (handledAs channel packet).foldl handle listener =
      listener.afterHandling (handledOf packet) := by
  cases packet with
  | snapshot records =>
      rw [handledAs, List.foldl_map]
      rfl
  | book msg => exact handles listener msg
  | heartbeat => rfl
  | otherMessage => rfl
  | foreign => rfl

/-- An event changes books and routes as the items it makes the listener handle do. -/
theorem contents_next (listener : Listener) (event : ListenerEvent) :
    (listener.next event).contents = ((listener.handles event).foldl handle listener).contents := by
  have items : (listener.handles event).foldl handle listener =
      listener.afterHandling (listener.handled event) := by
    rw [handles.eq_def, handled.eq_def]
    split
    · rfl
    · cases event with
      | live packet =>
          dsimp only
          split
          · exact foldl_handledAs listener (fun _ _ => rfl) packet
          · rfl
      | replay packet => exact foldl_handledAs listener (fun _ _ => rfl) packet
      | timeout =>
          dsimp only
          split
          · rw [List.foldl_map]
            rfl
          · rfl
  obtain ⟨manager, routes⟩ := listener.next_eq_afterHandling event
  rw [items]
  exact Prod.ext manager routes

theorem contents_run (listener : Listener) (events : List ListenerEvent) :
    (events.foldl next listener).contents =
      ((emitted next handles listener events).foldl handle listener).contents := by
  have onward : ∀ items : List Handled, ∀ first second : Listener,
      first.contents = second.contents →
        (items.foldl handle first).contents = (items.foldl handle second).contents := by
    intro items
    induction items with
    | nil => exact fun _ _ same => same
    | cons item items inductionHypothesis =>
        intro first second same
        exact inductionHypothesis _ _ (contents_handle_congr same item)
  induction events generalizing listener with
  | nil => rfl
  | cons event events inductionHypothesis =>
      rw [List.foldl_cons, inductionHypothesis, emitted_cons, List.foldl_append]
      exact onward _ _ _ (listener.contents_next event)

/-! ### The queue -/

/-- Once caught up nothing is held back; the buffer never goes more than one packet over its
limit, and goes over it only when the listener ends before it has caught up. -/
structure Queued (listener : Listener) : Prop where
  drained : listener.caughtUp = true → listener.liveBuffer = []
  limited : listener.liveBuffer.length ≤ 100001
  overflown : listener.running = false →
    listener.liveBuffer.length = 100001 ∧ listener.caughtUp = false

theorem queued_congr {first second : Listener} (same : second.loopState = first.loopState)
    (queued : first.Queued) : second.Queued := by
  simp only [loopState, Prod.mk.injEq] at same
  obtain ⟨buffer, caught, runs⟩ := same
  constructor
  · intro now
    rw [buffer]
    exact queued.drained (caught.symm.trans now)
  · rw [buffer]
    exact queued.limited
  · intro ended
    rw [buffer, caught]
    exact queued.overflown (runs.symm.trans ended)

theorem running_drain (listener : Listener) : listener.drain.running = listener.running := by
  have kept : ∀ (before : Listener) (msg : BookMsg), before.running = listener.running →
      (before.dispatch msg).running = listener.running := by
    intro before msg same
    exact (congrArg (fun state => state.2.2) (loopState_dispatch before msg)).trans same
  exact @invariant_foldl_always _ _ dispatch (fun state => state.running = listener.running) kept
    listener rfl (listener.liveBuffer.filterMap Packet.bookMsg)

theorem queued_next {listener : Listener} (queued : listener.Queued) (event : ListenerEvent) :
    (listener.next event).Queued := by
  rw [next.eq_def]
  split
  · exact queued
  · rename_i runs
    cases event with
    | live packet =>
        dsimp only
        split
        · exact queued_congr (loopState_process listener packet) queued
        · rename_i catching
          rw [bufferLive]
          split
          · rename_i full
            refine ⟨queued.drained, queued.limited, fun _ => ⟨?_, by simpa using catching⟩⟩
            exact Nat.le_antisymm queued.limited full
          · rename_i room
            refine ⟨fun caught => absurd caught catching, ?_, fun ended => ?_⟩
            · simp only [List.length_append, List.length_singleton]
              omega
            · exact absurd ended (by simpa using runs)
    | replay packet => exact queued_congr (loopState_process listener packet) queued
    | timeout =>
        have running : listener.running = true := by simpa using runs
        rcases next_timeout_cases running with ⟨count, counted⟩ | ⟨count, drained⟩
        · rw [next, if_neg runs] at counted
          dsimp only at counted ⊢
          rw [counted]
          exact @queued_congr listener _ rfl queued
        · rw [next, if_neg runs] at drained
          dsimp only at drained ⊢
          rw [drained]
          refine ⟨fun _ => rfl, Nat.zero_le _, fun ended => ?_⟩
          rw [running_drain] at ended
          exact absurd (running.symm.trans ended) (by decide)

/-- The book messages that wait in the buffer. -/
def waiting (listener : Listener) : List BookMsg :=
  listener.liveBuffer.filterMap Packet.bookMsg

theorem liveMsgs_handledAs_live (packet : Packet) :
    (handledAs .live packet).filterMap Handled.liveMsg = packet.bookMsg.toList := by
  cases packet with
  | snapshot records => simp [handledAs, Packet.bookMsg, Handled.liveMsg, List.filterMap_map]
  | book msg => rfl
  | heartbeat => rfl
  | otherMessage => rfl
  | foreign => rfl

theorem liveMsgs_handledAs_replayed (packet : Packet) :
    (handledAs .replayed packet).filterMap Handled.liveMsg = [] := by
  cases packet with
  | snapshot records => simp [handledAs, Handled.liveMsg, List.filterMap_map]
  | book msg => rfl
  | heartbeat => rfl
  | otherMessage => rfl
  | foreign => rfl

theorem running_of_next {listener : Listener} {event : ListenerEvent}
    (runsOn : (listener.next event).running = true) : listener.running = true := by
  by_contra ended
  rw [next.eq_def, if_pos ended] at runsOn
  exact ended runsOn

theorem waiting_process (listener : Listener) (packet : Packet) :
    (listener.process packet).waiting = listener.waiting :=
  congrArg (fun state => state.1.filterMap Packet.bookMsg) (loopState_process listener packet)

/-- What an event hands on of the live channel, and what then waits, is what waited before and what
arrives. -/
theorem conserves_next {listener : Listener} (queued : listener.Queued) {event : ListenerEvent}
    (runsOn : (listener.next event).running = true) :
    (listener.handles event).filterMap Handled.liveMsg ++ (listener.next event).waiting =
      listener.waiting ++ event.liveMsgs := by
  have running := running_of_next runsOn
  have runs : ¬ ¬ listener.running = true := not_not.mpr running
  cases event with
  | live packet =>
      by_cases caught : listener.caughtUp = true
      · have processed : listener.next (.live packet) = listener.process packet := by
          rw [next, if_neg runs, if_pos caught]
        have handled : listener.handles (.live packet) = handledAs .live packet := by
          rw [handles, if_neg runs, if_pos caught]
        have empty : listener.waiting = [] := by simp [waiting, queued.drained caught]
        rw [processed, handled, liveMsgs_handledAs_live, waiting_process, empty]
        simp [ListenerEvent.liveMsgs]
      · have buffered : listener.next (.live packet) = listener.bufferLive packet := by
          rw [next, if_neg runs, if_neg caught]
        have handled : listener.handles (.live packet) = [] := by
          rw [handles, if_neg runs, if_neg caught]
        rw [buffered, bufferLive] at runsOn ⊢
        rw [handled]
        split at runsOn
        · cases runsOn
        · rename_i room
          rw [if_neg room]
          cases packet <;> simp [waiting, ListenerEvent.liveMsgs, Packet.bookMsg]
  | replay packet =>
      have processed : listener.next (.replay packet) = listener.process packet := by
        rw [next, if_neg runs]
      have handled : listener.handles (.replay packet) = handledAs .replayed packet := by
        rw [handles, if_neg runs]
      rw [processed, handled, liveMsgs_handledAs_replayed, waiting_process]
      simp [ListenerEvent.liveMsgs]
  | timeout =>
      have quiets : listener.next .timeout = listener.quiet := by rw [next, if_neg runs]
      rw [quiets, handles, if_neg runs, quiet]
      by_cases catching : ¬ listener.caughtUp ∧ listener.receivedSnapshot
      · rw [if_pos catching]
        dsimp only
        by_cases longEnough : listener.noReplayCount + 1 > 100
        · rw [if_pos longEnough, if_pos ⟨catching, longEnough⟩, List.filterMap_map]
          have all : (Handled.liveMsg ∘ Handled.live) = some := rfl
          rw [all, List.filterMap_some]
          simp [waiting, drain, ListenerEvent.liveMsgs]
        · rw [if_neg longEnough, if_neg fun both => longEnough both.2]
          simp [waiting, ListenerEvent.liveMsgs]
      · rw [if_neg catching, if_neg fun both => catching both.1]
        simp [ListenerEvent.liveMsgs]

/-- Nothing of the live channel is handled by an event that leaves the listener catching up. -/
theorem liveMsgs_of_catching {listener : Listener} {event : ListenerEvent}
    (catching : (listener.next event).caughtUp = false) :
    (listener.handles event).filterMap Handled.liveMsg = [] := by
  by_cases runs : ¬ listener.running = true
  · rw [handles.eq_def, if_pos runs]
    rfl
  · cases event with
    | live packet =>
        by_cases caught : listener.caughtUp = true
        · rw [next, if_neg runs, if_pos caught, caughtUp_process, caught] at catching
          cases catching
        · rw [handles, if_neg runs, if_neg caught]
          rfl
    | replay packet =>
        rw [handles, if_neg runs]
        exact liveMsgs_handledAs_replayed packet
    | timeout =>
        rw [next, if_neg runs, quiet] at catching
        rw [handles, if_neg runs]
        by_cases drains :
            (¬ listener.caughtUp ∧ listener.receivedSnapshot) ∧ listener.noReplayCount + 1 > 100
        · rw [if_pos drains.1] at catching
          dsimp only at catching
          rw [if_pos drains.2] at catching
          cases catching
        · rw [if_neg drains]
          rfl

theorem caughtUp_next {listener : Listener} (caught : listener.caughtUp = true)
    (event : ListenerEvent) : (listener.next event).caughtUp = true := by
  rw [next.eq_def]
  split
  · exact caught
  · cases event with
    | live packet => exact (caughtUp_process listener packet).trans caught
    | replay packet => exact (caughtUp_process listener packet).trans caught
    | timeout =>
        dsimp only
        rw [quiet, if_neg fun both => both.1 caught]
        exact caught

/-! ### Runs -/

theorem queued_start (manager : SymbolManager) : (start manager).Queued where
  drained := fun caught => by cases caught
  limited := Nat.zero_le _
  overflown := fun ended => by cases ended

/-- A listener that runs at the end has run all along. -/
theorem along_running {listener : Listener} {events : List ListenerEvent}
    (running : (events.foldl next listener).running = true) :
    Along next (fun before event => (before.next event).running = true) listener events := by
  induction events generalizing listener with
  | nil => trivial
  | cons event events inductionHypothesis =>
      refine ⟨?_, inductionHypothesis running⟩
      have onward : ∀ (events : List ListenerEvent) (before : Listener),
          (events.foldl next before).running = true → before.running = true := by
        intro events
        induction events with
        | nil => exact fun _ runs => runs
        | cons event events inductionHypothesis =>
            exact fun before runs => running_of_next (inductionHypothesis _ runs)
      exact onward events _ running

/-- A listener that is catching up at the end has been all along. -/
theorem along_catching {listener : Listener} {events : List ListenerEvent}
    (catching : (events.foldl next listener).caughtUp = false) :
    Along next (fun before event => (before.next event).caughtUp = false) listener events := by
  induction events generalizing listener with
  | nil => trivial
  | cons event events inductionHypothesis =>
      refine ⟨?_, inductionHypothesis catching⟩
      by_contra caught
      have stays := @invariant_foldl_always _ _ next (fun state => state.caughtUp = true)
        (fun _ event caught => caughtUp_next caught event) (listener.next event)
        (by simpa using caught) events
      rw [List.foldl_cons, stays] at catching
      cases catching

/-- For every sequence of packets on the two channels and of quiet periods: books, positions and
routes are what the handled items make of them in order; as long as the listener runs, the items
of the live channel and behind them the messages that still wait in its buffer are exactly the book
messages that arrived live, in the order of arrival; nothing waits once it has caught up, and none
of them is handled before; and it has ended only if its buffer held 100001 packets before it had
caught up. -/
theorem live_handled_once (manager : SymbolManager) (events : List ListenerEvent) :
    let final := events.foldl next (start manager)
    let items := emitted next handles (start manager) events
    final.contents = (items.foldl handle (start manager)).contents ∧
      (final.running = true →
        items.filterMap Handled.liveMsg ++ final.waiting =
          events.flatMap ListenerEvent.liveMsgs) ∧
      (final.caughtUp = true → final.waiting = []) ∧
      (final.caughtUp = false → items.filterMap Handled.liveMsg = []) ∧
      (final.running = false → final.liveBuffer.length = 100001 ∧ final.caughtUp = false) := by
  intro final items
  have queued : final.Queued :=
    @invariant_foldl_always _ _ next Queued (fun _ event queued => queued_next queued event) _
      (queued_start manager) events
  refine ⟨contents_run (start manager) events, ?_, ?_, ?_, queued.overflown⟩
  · intro running
    have conserved := @emitted_append_held _ _ _ next
      (fun listener event => (listener.handles event).filterMap Handled.liveMsg) _ Queued waiting
      ListenerEvent.liveMsgs (fun _ event queued _ => queued_next queued event)
      (fun _ event queued runsOn => conserves_next queued runsOn) (start manager) events
      (queued_start manager) (along_running running)
    rw [filterMap_emitted]
    exact conserved
  · intro caught
    simp [waiting, queued.drained caught]
  · intro catching
    rw [filterMap_emitted, List.eq_nil_iff_forall_not_mem]
    have nothing : Along next
        (fun before event => ∀ msg ∈ (before.handles event).filterMap Handled.liveMsg, False)
        (start manager) events := by
      apply @Along.of_invariant _ _ next _ _ (fun _ => True) (fun _ _ _ _ => trivial) _ _ _ trivial
        (along_catching catching)
      intro before event _ here
      simp [liveMsgs_of_catching here]
    exact emitted_forall nothing

end Listener

end HftAlgorithms
