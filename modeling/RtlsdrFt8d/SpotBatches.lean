import RtlsdrFt8d.PskReporterPackets
import RtlsdrFt8d.SlotDecoding

/-!
# Batches of spots

`postSpots` pushes the spots of a slot to `dec_results_queue` one at a time, and
`pskUploader` drains that queue once a minute into packets of at most 64
records.  The queue is locked for one push or pop only, so new spots arrive in
the middle of a drain.  The reporter forgets its records before it tries to send
them, and the uploader does not look at the result.
-/

namespace RtlsdrFt8d

/-- `PskReporter::PskReporter`; the identifier is a random number. -/
def PskReporter.construct (randomIdentifier : UInt32)
    (callsign gridSquare software : List UInt8) : PskReporter where
  currentSequenceNumber := 0
  randomIdentifier := randomIdentifier
  receiverCallsign := callsign
  receiverGridSquare := gridSquare
  decodingSoftware := software
  recordList := []

namespace Uploading

/-- `MAX_REPORTS_PER_PACKET`. -/
def maxReportsPerPacket : Nat := 64

/-- The fields of `struct decoder_results` that `postSpots` sets. -/
structure Spot where
  call : CString 13
  freq : Int32
  snr : Int32
  deriving DecidableEq

/-- The spot of a decoded result, on the air instead of in the audio. -/
def spotOf (result : DecoderResult) (dial : UInt32) : Spot where
  call := .snprintf 13 (result.call.chars.take 12)
  freq := result.freq + dial.toInt32
  snr := result.snr

/-- `tsq_push`. -/
def tsqPush {α : Type} (queue : List α) (v : α) : List α :=
  queue ++ [v]

/-- `tsq_pop`: the front element and the queue without it. -/
def tsqPop {α : Type} : List α → Option (α × List α)
  | [] => none
  | front :: queue => some (front, queue)

theorem eq_cons_of_tsqPop {α : Type} {queue rest : List α} {front : α}
    (popped : tsqPop queue = some (front, rest)) : queue = front :: rest := by
  cases queue with
  | nil => simp [tsqPop] at popped
  | cons first queue => simpa [tsqPop] using popped

/-! ## The threads -/

/-- Where `pskUploader` stands. -/
inductive UploaderPc where
  | loopTest
  | sleeping (i : Nat)
  | exitTest
  | reportingTest
  | discarding
  | popping
  | adding (dr : Spot)
  | sendingFull
  | flushing
  | returned
  deriving DecidableEq

/-- The packet of one call of `send`. -/
structure Packet where
  records : List SenderRecord
  datagram : Option (List UInt8)
  /-- What `send` returned. -/
  isSent : Bool
  deriving DecidableEq

structure State where
  noreport : Bool
  exitFlag : Bool
  reporter : Option PskReporter
  decResultsQueue : List Spot
  /-- The results that `postSpots` has still to push. -/
  posting : List DecoderResult
  pc : UploaderPc
  inPacket : Nat
  anyInPacket : Bool
  /-- Every spot pushed, every spot popped and every packet made so far. -/
  pushed : List Spot
  popped : List Spot
  packets : List Packet

/-- An event is one step of a thread.  It carries what the step reads outside of
the program: the dial frequency, or the time and the results of the network. -/
inductive Event where
  | postSpots (results : List DecoderResult)
  | push (dial : UInt32)
  | uploader (now : UInt32) (network : PskReporter.NetworkResults)
  | setReporting (enabled : Bool)
  | programQuit
  deriving DecidableEq

namespace State

def start (reporter : Option PskReporter) : State where
  noreport := false
  exitFlag := false
  reporter := reporter
  decResultsQueue := []
  posting := []
  pc := .loopTest
  inPacket := 0
  anyInPacket := false
  pushed := []
  popped := []
  packets := []

variable (state : State)

/-- `reporter->addReceiveRecord`. -/
def addReceiveRecord (dr : Spot) (now : UInt32) : State :=
  { state with
    reporter := state.reporter.map fun reporter =>
      reporter.addReceiveRecord (asciiBytes dr.call.chars) dr.freq.toUInt32
        dr.snr.toUInt32.toUInt8 now }

/-- `reporter->send`; its result only goes into the record of the packet. -/
def send (now : UInt32) (network : PskReporter.NetworkResults) : State :=
  match state.reporter with
  | none => state
  | some reporter =>
      { state with
        reporter := some (reporter.send now).1
        packets := state.packets ++
          [⟨reporter.recordList, (reporter.send now).2, network.sendResult⟩] }

/-- One step of `pskUploader`. -/
def stepUploader (now : UInt32) (network : PskReporter.NetworkResults) : State :=
  match state.pc with
  | .loopTest =>
      { state with pc := if state.exitFlag then .returned else .sleeping 0 }
  | .sleeping i =>
      { state with pc := if i < 60 ∧ ¬ state.exitFlag then .sleeping (i + 1) else .exitTest }
  | .exitTest =>
      { state with pc := if state.exitFlag then .returned else .reportingTest }
  | .reportingTest =>
      if state.noreport ∨ state.reporter.isNone then { state with pc := .discarding }
      else { state with pc := .popping, inPacket := 0, anyInPacket := false }
  | .discarding =>
      match tsqPop state.decResultsQueue with
      | none => { state with pc := .loopTest }
      | some (dr, queue) =>
          { state with decResultsQueue := queue, popped := state.popped ++ [dr] }
  | .popping =>
      match tsqPop state.decResultsQueue with
      | none => { state with pc := .flushing }
      | some (dr, queue) =>
          { state with
            decResultsQueue := queue
            popped := state.popped ++ [dr]
            pc := .adding dr }
  | .adding dr =>
      let state := state.addReceiveRecord dr now
      { state with
        anyInPacket := true
        inPacket := state.inPacket + 1
        pc := if maxReportsPerPacket ≤ state.inPacket + 1 then .sendingFull else .popping }
  | .sendingFull =>
      { state.send now network with pc := .popping, inPacket := 0, anyInPacket := false }
  | .flushing =>
      if state.anyInPacket then { state.send now network with pc := .loopTest }
      else { state with pc := .loopTest }
  | .returned => state

/-- One iteration of the loop in `postSpots`. -/
def stepPush (dial : UInt32) : State :=
  match state.posting with
  | [] => state
  | result :: results =>
      let dr := spotOf result dial
      { state with
        decResultsQueue := tsqPush state.decResultsQueue dr
        pushed := state.pushed ++ [dr]
        posting := results }

def step : Event → State
  -- The decoder is one thread: it calls `postSpots` again after it has returned.
  | .postSpots results =>
      if state.noreport ∨ state.posting ≠ [] then state else { state with posting := results }
  | .push dial => state.stepPush dial
  | .uploader now network => state.stepUploader now network
  | .setReporting enabled => { state with noreport := !enabled }
  | .programQuit => { state with exitFlag := true }

/-! ## What a state holds -/

/-- The records added and not yet sent. -/
def waiting : List SenderRecord :=
  (state.reporter.map PskReporter.recordList).getD []

/-- The records of all packets made. -/
def packedRecords : List SenderRecord :=
  state.packets.flatMap Packet.records

/-- The packets that went out. -/
def sentPackets : List Packet :=
  state.packets.filter Packet.isSent

def sentRecords : List SenderRecord :=
  state.sentPackets.flatMap Packet.records

/-- The spot popped last, until its record is added. -/
def inHand : List Spot :=
  match state.pc with
  | .adding dr => [dr]
  | _ => []

/-- The uploader is between its first pop and the end of its last packet. -/
def Draining : Prop :=
  match state.pc with
  | .popping | .adding _ | .sendingFull | .flushing => True
  | _ => False

/-- The next step of the uploader calls `send`. -/
def CallsSend : Prop :=
  state.pc = .sendingFull ∨ (state.pc = .flushing ∧ state.anyInPacket = true)

instance : Decidable state.CallsSend :=
  inferInstanceAs (Decidable (_ ∨ _))

end State

/-- The record of a spot reported at a time. -/
def Spot.record (spot : Spot) (now : UInt32) : SenderRecord where
  callsign := asciiBytes spot.call.chars
  frequency := spot.freq.toUInt32
  snr := spot.snr.toUInt32.toUInt8
  mode := asciiBytes "FT8".toList
  infoSource := 1
  flowTimeSeconds := now

/-- A record apart from its time. -/
def untimed (record : SenderRecord) : SenderRecord :=
  { record with flowTimeSeconds := 0 }

@[simp]
theorem untimed_record (spot : Spot) (now : UInt32) :
    untimed (spot.record now) = spot.record 0 :=
  rfl

/-- No exit is requested and reporting stays enabled. -/
def Event.KeepsReporting : Event → Prop
  | .setReporting enabled => enabled = true
  | .programQuit => False
  | _ => True

/-- If the uploader sends in this step, the network takes the packet. -/
def Event.Delivers (state : State) : Event → Prop
  | .uploader _ network => state.CallsSend → network.sendResult = true
  | _ => True

instance (state : State) : (event : Event) → Decidable (event.Delivers state)
  | .uploader _ _ => inferInstanceAs (Decidable (_ → _))
  | .postSpots _ | .push _ | .setReporting _ | .programQuit => inferInstanceAs (Decidable True)

/-! ## The invariant -/

/-- How the two counters go with the records that wait in the reporter. -/
def Counted (inPacket : Nat) (anyInPacket : Bool) (records : Nat) : UploaderPc → Prop
  | .popping | .adding _ =>
      records = inPacket ∧ inPacket < maxReportsPerPacket ∧ (anyInPacket = true ↔ 0 < inPacket)
  | .sendingFull => records = maxReportsPerPacket
  | .flushing => records < maxReportsPerPacket ∧ (anyInPacket = true ↔ 0 < records)
  | .discarding | .returned => False
  | .loopTest | .sleeping _ | .exitTest | .reportingTest => records = 0

structure Batched (state : State) : Prop where
  reporting : state.noreport = false
  running : state.exitFlag = false
  constructed : state.reporter.isSome
  queued : state.pushed = state.popped ++ state.decResultsQueue
  recorded : (state.packedRecords ++ state.waiting).map untimed ++
    state.inHand.map (fun dr => dr.record 0) = state.popped.map fun dr => dr.record 0
  counted : Counted state.inPacket state.anyInPacket state.waiting.length state.pc
  sizes : ∀ packet ∈ state.packets,
    1 ≤ packet.records.length ∧ packet.records.length ≤ maxReportsPerPacket

variable {state : State}

theorem waiting_addReceiveRecord (constructed : state.reporter.isSome) (dr : Spot)
    (now : UInt32) :
    (state.addReceiveRecord dr now).waiting = state.waiting ++ [dr.record now] := by
  obtain ⟨reporter, isReporter⟩ := Option.isSome_iff_exists.mp constructed
  simp [State.waiting, State.addReceiveRecord, isReporter, PskReporter.addReceiveRecord,
    Spot.record]

/-- What waits in the reporter becomes one packet, whether or not it goes out. -/
theorem exists_send_eq (constructed : state.reporter.isSome) (now : UInt32)
    (network : PskReporter.NetworkResults) :
    ∃ reporter datagram, reporter.recordList = [] ∧
      state.send now network =
        { state with
          reporter := some reporter
          packets := state.packets ++ [⟨state.waiting, datagram, network.sendResult⟩] } := by
  obtain ⟨reporter, isReporter⟩ := Option.isSome_iff_exists.mp constructed
  refine ⟨(reporter.send now).1, (reporter.send now).2, rfl, ?_⟩
  simp [State.send, State.waiting, isReporter]

theorem batched_start {reporter : PskReporter} (empty : reporter.recordList = []) :
    Batched (.start (some reporter)) where
  reporting := rfl
  running := rfl
  constructed := rfl
  queued := rfl
  recorded := by simp [State.start, State.packedRecords, State.waiting, State.inHand, empty]
  counted := by simp [State.start, State.waiting, Counted, empty]
  sizes := by simp [State.start]

namespace Batched

/-- A packet of a right size may be sent when no spot is in hand. -/
theorem send (batched : Batched state) (now : UInt32)
    (network : PskReporter.NetworkResults) (noSpot : state.inHand = [])
    (some_waiting : 1 ≤ state.waiting.length)
    (few : state.waiting.length ≤ maxReportsPerPacket) {pc : UploaderPc} {inPacket : Nat}
    {anyInPacket : Bool} (noSpotLeft : ∀ dr, pc ≠ .adding dr)
    (counted : Counted inPacket anyInPacket 0 pc) :
    Batched { state.send now network with pc, inPacket, anyInPacket } := by
  obtain ⟨reporter, datagram, sentAll, sends⟩ := exists_send_eq batched.constructed now network
  have noneWaits :
      State.waiting { state.send now network with pc, inPacket, anyInPacket } = [] := by
    simp [sends, State.waiting, sentAll]
  have noneInHand :
      State.inHand { state.send now network with pc, inPacket, anyInPacket } = [] := by
    cases pc with
    | adding dr => exact absurd rfl (noSpotLeft dr)
    | _ => rfl
  have packedNow :
      State.packedRecords { state.send now network with pc, inPacket, anyInPacket } =
        state.packedRecords ++ state.waiting := by
    simp [sends, State.packedRecords]
  constructor
  · simpa [sends] using batched.reporting
  · simpa [sends] using batched.running
  · simp [sends]
  · simpa [sends] using batched.queued
  · have recorded := batched.recorded
    rw [noSpot] at recorded
    rw [noneWaits, noneInHand, packedNow, List.append_nil, recorded]
    simp [sends]
  · rw [noneWaits]
    exact counted
  · intro packet packetMem
    simp only [sends, List.mem_append, List.mem_singleton] at packetMem
    rcases packetMem with early | rfl
    · exact batched.sizes packet early
    · exact ⟨some_waiting, few⟩

/-- A step that touches neither the queue nor the reporter. -/
theorem move (batched : Batched state) (noSpot : state.inHand = []) {pc : UploaderPc}
    {inPacket : Nat} {anyInPacket : Bool} (noSpotLeft : ∀ dr, pc ≠ .adding dr)
    (counted : Counted inPacket anyInPacket state.waiting.length pc) :
    Batched { state with pc, inPacket, anyInPacket } where
  reporting := batched.reporting
  running := batched.running
  constructed := batched.constructed
  queued := batched.queued
  recorded := by
    have recorded := batched.recorded
    rw [noSpot] at recorded
    cases pc with
    | adding dr => exact absurd rfl (noSpotLeft dr)
    | _ => exact recorded
  counted := counted
  sizes := batched.sizes

theorem pop (batched : Batched state) (here : state.pc = .popping) {dr : Spot}
    {queue : List Spot} (front : state.decResultsQueue = dr :: queue) :
    Batched { state with
      decResultsQueue := queue
      popped := state.popped ++ [dr]
      pc := .adding dr } where
  reporting := batched.reporting
  running := batched.running
  constructed := batched.constructed
  queued := by rw [batched.queued, front]; simp
  recorded := by
    have recorded := batched.recorded
    rw [State.inHand, here, List.map_nil, List.append_nil] at recorded
    change (state.packedRecords ++ state.waiting).map untimed ++ [dr.record 0] = _
    rw [recorded, List.map_append, List.map_singleton]
  counted := by
    have counted := batched.counted
    rw [here] at counted
    exact counted
  sizes := batched.sizes

/-- The record of the spot in hand is added. -/
theorem add (batched : Batched state) (now : UInt32) {dr : Spot} (here : state.pc = .adding dr)
    {pc : UploaderPc} (noSpotLeft : ∀ dr, pc ≠ .adding dr)
    (counted : Counted (state.inPacket + 1) true (state.waiting.length + 1) pc) :
    Batched { state.addReceiveRecord dr now with
      anyInPacket := true
      inPacket := state.inPacket + 1
      pc } := by
  have added := waiting_addReceiveRecord batched.constructed dr now
  refine ⟨batched.reporting, batched.running, ?_, batched.queued, ?_, ?_, batched.sizes⟩
  · simpa [State.addReceiveRecord] using batched.constructed
  · have recorded := batched.recorded
    rw [State.inHand, here] at recorded
    have noneInHand : State.inHand { state.addReceiveRecord dr now with
        anyInPacket := true, inPacket := state.inPacket + 1, pc } = [] := by
      cases pc with
      | adding dr => exact absurd rfl (noSpotLeft dr)
      | _ => rfl
    rw [noneInHand]
    change (state.packedRecords ++ (state.addReceiveRecord dr now).waiting).map untimed ++ [] = _
    rw [added]
    change _ = state.popped.map fun dr => dr.record 0
    rw [← recorded]
    simp
  · change Counted _ _ (state.addReceiveRecord dr now).waiting.length _
    rw [added, List.length_append]
    exact counted

theorem stepUploader (batched : Batched state) (now : UInt32)
    (network : PskReporter.NetworkResults) : Batched (state.stepUploader now network) := by
  have counted := batched.counted
  have notExit : ¬ state.exitFlag = true := by simp [batched.running]
  have noSpot (notAdding : ∀ dr, state.pc ≠ .adding dr) : state.inHand = [] := by
    unfold State.inHand
    split
    · next dr here => exact absurd here (notAdding dr)
    · rfl
  cases here : state.pc with
  | loopTest =>
      rw [here] at counted noSpot
      simp only [State.stepUploader, here, if_neg notExit]
      refine batched.move (noSpot (by simp)) (by simp) ?_
      exact counted
  | sleeping i =>
      rw [here] at counted noSpot
      simp only [State.stepUploader, here]
      refine batched.move (noSpot (by simp)) ?_ ?_
      · split <;> simp
      · split <;> exact counted
  | exitTest =>
      rw [here] at counted noSpot
      simp only [State.stepUploader, here, if_neg notExit]
      refine batched.move (noSpot (by simp)) (by simp) ?_
      exact counted
  | reportingTest =>
      rw [here] at counted noSpot
      have reports : ¬ (state.noreport = true ∨ state.reporter.isNone = true) := by
        simp [batched.reporting, Option.isSome_iff_ne_none.mp batched.constructed]
      simp only [State.stepUploader, here, if_neg reports]
      refine batched.move (noSpot (by simp)) (by simp) ?_
      exact ⟨counted, by decide, by simp⟩
  | popping =>
      rw [here] at counted noSpot
      simp only [State.stepUploader, here]
      split
      · obtain ⟨records, notFull, anyRecords⟩ := counted
        refine batched.move (noSpot (by simp)) (by simp) ?_
        exact ⟨by omega, by rw [records]; exact anyRecords⟩
      · next dr queue popped => exact batched.pop here (eq_cons_of_tsqPop popped)
  | adding dr =>
      rw [here] at counted
      obtain ⟨records, notFull, -⟩ := counted
      simp only [State.stepUploader, here]
      refine batched.add now here ?_ ?_
      · split <;> simp
      · split
        · next full =>
            change maxReportsPerPacket ≤ state.inPacket + 1 at full
            change state.waiting.length + 1 = maxReportsPerPacket
            omega
        · next notYet =>
            change ¬ maxReportsPerPacket ≤ state.inPacket + 1 at notYet
            exact ⟨by omega, by omega, by simp⟩
  | sendingFull =>
      rw [here] at counted noSpot
      have full : state.waiting.length = maxReportsPerPacket := counted
      simp only [State.stepUploader, here]
      refine batched.send now network (noSpot (by simp)) (by rw [full]; decide) full.le
        (by simp) ?_
      exact ⟨rfl, by decide, by simp⟩
  | flushing =>
      rw [here] at counted noSpot
      obtain ⟨notFull, anyRecords⟩ := counted
      simp only [State.stepUploader, here]
      split
      · next any =>
          refine batched.send now network (noSpot (by simp)) (anyRecords.mp any) notFull.le
            (by simp) ?_
          rfl
      · next none =>
          refine batched.move (noSpot (by simp)) (by simp) ?_
          exact Nat.eq_zero_of_not_pos (mt anyRecords.mpr none)
  | discarding | returned =>
      rw [here] at counted
      exact absurd counted id

theorem push (batched : Batched state) (dial : UInt32) : Batched (state.stepPush dial) := by
  unfold State.stepPush
  split
  · exact batched
  · next result results _ =>
      refine { batched with queued := ?_ }
      simp only [tsqPush]
      rw [batched.queued, List.append_assoc]

theorem step (batched : Batched state) {event : Event} (keeps : event.KeepsReporting) :
    Batched (state.step event) := by
  cases event with
  | postSpots results =>
      simp only [State.step]
      split
      · exact batched
      · exact { batched with }
  | push dial => exact batched.push dial
  | uploader now network => exact batched.stepUploader now network
  | setReporting enabled =>
      have enabled : enabled = true := keeps
      exact { batched with reporting := by simp [State.step, enabled] }
  | programQuit => exact absurd keeps id

theorem run {events : List Event} (batched : Batched state)
    (keeps : ∀ event ∈ events, event.KeepsReporting) :
    Batched (EventRuns.run State.step state events) := by
  induction events generalizing state with
  | nil => exact batched
  | cons event events ih =>
      rw [List.forall_mem_cons] at keeps
      exact ih (batched.step keeps.1) keeps.2

end Batched

/-! ## What the packets hold -/

/-- The packets sent carry the popped spots in order, up to those still waiting, and
nothing waits outside of a drain. -/
structure SpotsKept (state : State) : Prop where
  poppedPrefix : state.popped <+: state.pushed
  inOrder : (state.sentRecords ++ state.waiting).map untimed ++
    state.inHand.map (fun dr => dr.record 0) = state.popped.map fun dr => dr.record 0
  sizes : ∀ packet ∈ state.sentPackets,
    1 ≤ packet.records.length ∧ packet.records.length ≤ maxReportsPerPacket
  drained : ¬ state.Draining →
    state.waiting = [] ∧ state.sentRecords.map untimed = state.popped.map fun dr => dr.record 0

theorem inHand_of_not_draining (notDraining : ¬ state.Draining) : state.inHand = [] := by
  unfold State.inHand
  split
  · next dr here => simp [State.Draining, here] at notDraining
  · rfl

/-- A drain leaves nothing in the reporter, whatever the network does. -/
theorem Batched.waiting_of_not_draining (batched : Batched state)
    (notDraining : ¬ state.Draining) : state.waiting = [] := by
  have counted := batched.counted
  cases here : state.pc with
  | loopTest | sleeping i | exitTest | reportingTest =>
      rw [here] at counted
      exact List.eq_nil_of_length_eq_zero counted
  | discarding | returned =>
      rw [here] at counted
      exact absurd counted id
  | popping | adding dr | sendingFull | flushing =>
      simp [State.Draining, here] at notDraining

/-- Spots are batched, and the network took every packet. -/
structure Delivered (state : State) : Prop where
  batched : Batched state
  allSent : ∀ packet ∈ state.packets, packet.isSent = true

/-- As long as the network took every packet, all is well. -/
theorem Delivered.spotsKept (delivered : Delivered state) : SpotsKept state := by
  obtain ⟨batched, allSent⟩ := delivered
  have whole : state.sentPackets = state.packets := List.filter_eq_self.mpr allSent
  have same : state.sentRecords = state.packedRecords := by
    rw [State.sentRecords, whole, State.packedRecords]
  have recorded := batched.recorded
  rw [← same] at recorded
  refine ⟨⟨state.decResultsQueue, batched.queued.symm⟩, recorded, ?_, fun notDraining => ?_⟩
  · rw [whole]
    exact batched.sizes
  · have noneWaits := batched.waiting_of_not_draining notDraining
    rw [noneWaits, inHand_of_not_draining notDraining] at recorded
    exact ⟨noneWaits, by simpa using recorded⟩

/-- What the uploader does to the reporter and the network. -/
theorem stepUploader_reports (state : State) (now : UInt32)
    (network : PskReporter.NetworkResults) :
    ((state.stepUploader now network).reporter = state.reporter ∧
        (state.stepUploader now network).packets = state.packets) ∨
      (∃ dr, (state.stepUploader now network).reporter =
          (state.addReceiveRecord dr now).reporter ∧
        (state.stepUploader now network).packets = state.packets) ∨
      (state.CallsSend ∧
        (state.stepUploader now network).reporter = (state.send now network).reporter ∧
        (state.stepUploader now network).packets = (state.send now network).packets) := by
  cases here : state.pc with
  | loopTest | sleeping i | exitTest | returned => simp [State.stepUploader, here]
  | reportingTest | discarding | popping =>
      simp only [State.stepUploader, here]
      split <;> simp
  | adding dr =>
      refine Or.inr (Or.inl ⟨dr, ?_⟩)
      simp [State.stepUploader, here, State.addReceiveRecord]
  | sendingFull => simp [State.stepUploader, State.CallsSend, here]
  | flushing =>
      simp only [State.stepUploader, State.CallsSend, here]
      split
      · next any => simp [any]
      · simp

/-- The steps in which the network takes what is sent add sent packets only. -/
theorem allSent_step (allSent : ∀ packet ∈ state.packets, packet.isSent = true) {event : Event}
    (delivers : event.Delivers state) :
    ∀ packet ∈ (state.step event).packets, packet.isSent = true := by
  cases event with
  | postSpots results =>
      simp only [State.step]
      split <;> exact allSent
  | push dial =>
      simp only [State.step, State.stepPush]
      split <;> exact allSent
  | setReporting enabled => exact allSent
  | programQuit => exact allSent
  | uploader now network =>
      simp only [State.step]
      rcases stepUploader_reports state now network with
        ⟨-, packets⟩ | ⟨dr, -, packets⟩ | ⟨calls, -, packets⟩
      · rwa [packets]
      · rwa [packets]
      · rw [packets]
        unfold State.send
        split
        · exact allSent
        · intro packet packetMem
          rcases List.mem_append.mp packetMem with early | isLast
          · exact allSent packet early
          · rw [List.mem_singleton.mp isLast]
            exact delivers calls

/-- A packet that the network does not take is lost with all its records. -/
theorem Delivered.not_spotsKept_step (delivered : Delivered state) {event : Event}
    (fails : ¬ event.Delivers state) : ¬ SpotsKept (state.step event) := by
  obtain ⟨batched, allSent⟩ := delivered
  cases event with
  | postSpots results => exact absurd trivial fails
  | push dial => exact absurd trivial fails
  | setReporting enabled => exact absurd trivial fails
  | programQuit => exact absurd trivial fails
  | uploader now network =>
      obtain ⟨calls, lost⟩ := Classical.not_imp.mp fails
      have counted := batched.counted
      have noSpot : state.inHand = [] := by
        rcases calls with here | ⟨here, -⟩ <;> rw [State.inHand, here]
      have someWait : 1 ≤ state.waiting.length := by
        rcases calls with here | ⟨here, any⟩
        · rw [here] at counted
          have full : state.waiting.length = maxReportsPerPacket := counted
          rw [full]
          decide
        · rw [here] at counted
          exact counted.2.mp any
      obtain ⟨reporter, datagram, sentAll, sends⟩ :=
        exists_send_eq batched.constructed now network
      -- The step changes the packets, the reporter and the counters only.
      obtain ⟨pc, inPacket, anyInPacket, noSpotLeft, stepped⟩ :
          ∃ pc inPacket anyInPacket, (∀ dr, pc ≠ UploaderPc.adding dr) ∧
            state.step (.uploader now network) =
              { state.send now network with pc, inPacket, anyInPacket } := by
        rcases calls with here | ⟨here, any⟩
        · refine ⟨.popping, 0, false, by simp, ?_⟩
          simp only [State.step, State.stepUploader, here]
        · refine ⟨.loopTest, state.inPacket, state.anyInPacket, by simp, ?_⟩
          simp only [State.step, State.stepUploader, here, if_pos any, sends]
      have same : state.sentPackets = state.packets := List.filter_eq_self.mpr allSent
      have recorded := congrArg List.length batched.recorded
      rintro ⟨-, inOrder, -, -⟩
      have order := congrArg List.length inOrder
      have noneInHand : (state.step (.uploader now network)).inHand = [] := by
        rw [stepped, State.inHand]
        split
        · next dr here => exact absurd here (noSpotLeft dr)
        · rfl
      have noneWaits : (state.step (.uploader now network)).waiting = [] := by
        simp [stepped, sends, State.waiting, sentAll]
      have sentBefore : (state.step (.uploader now network)).sentRecords =
          state.packedRecords := by
        simp [stepped, sends, State.sentRecords, State.sentPackets, State.packedRecords, lost,
          List.filter_eq_self.mpr allSent]
      have samePopped : (state.step (.uploader now network)).popped = state.popped := by
        rw [stepped, sends]
      rw [noneInHand, noneWaits, sentBefore, samePopped] at order
      rw [noSpot] at recorded
      simp only [List.length_append, List.length_map, List.length_nil, Nat.add_zero,
        List.append_nil] at order recorded
      omega

theorem delivered_start {reporter : PskReporter} (empty : reporter.recordList = []) :
    Delivered (.start (some reporter)) :=
  ⟨batched_start empty, by simp [State.start]⟩

/-- With reporting enabled and no exit requested, spots are batched without loss
or duplication, whatever the order of pushes and pops, exactly if the network takes
every packet that the uploader sends. -/
theorem spotsKept_iff (randomIdentifier : UInt32) (callsign gridSquare software : List UInt8)
    (events : List Event) (keeps : ∀ event ∈ events, event.KeepsReporting) :
    (∀ earlier, earlier <+: events → SpotsKept (EventRuns.run State.step
      (.start (some (.construct randomIdentifier callsign gridSquare software))) earlier)) ↔
      EventRuns.Admissible (fun state event => Event.Delivers state event) State.step
        (.start (some (.construct randomIdentifier callsign gridSquare software))) events := by
  refine EventRuns.forall_isPrefix_iff_admissible (delivered_start rfl) ?_ ?_ ?_
    (EventRuns.admissible_of_forall keeps)
  · intro state event delivered enabled delivers
    exact ⟨delivered.batched.step enabled, allSent_step delivered.allSent delivers⟩
  · intro state delivered
    exact delivered.spotsKept
  · intro state event delivered _ fails
    exact delivered.not_spotsKept_step fails

/-- One spot is pushed while the uploader sleeps, another one after the first
has been popped. -/
def sampleEvents (network : PskReporter.NetworkResults) : List Event :=
  let result : DecoderResult := ⟨.empty 13, .snprintf 13 "F1ABC".toList, .empty 7, 1500, -7, 0⟩
  [.postSpots [result, result], .push 14074000] ++
    List.replicate 65 (.uploader 1700000000 network) ++
    [.push 14074000] ++ List.replicate 5 (.uploader 1700000001 network)

theorem spotsKept_sampleEvents :
    SpotsKept (EventRuns.run State.step
      (.start (some (.construct 7 (asciiBytes "SA0PRF".toList) (asciiBytes "JO99".toList) [])))
      (sampleEvents ⟨0, 3, 106⟩)) :=
  (spotsKept_iff 7 _ _ _ (sampleEvents ⟨0, 3, 106⟩)
    (by simp [sampleEvents, Event.KeepsReporting])).mpr (by decide +kernel) _ List.prefix_rfl

/-- When the name of the server cannot be resolved, both spots are lost. -/
theorem not_spotsKept_unresolved :
    ¬ ∀ earlier, earlier <+: sampleEvents ⟨-2, 0, 0⟩ → SpotsKept (EventRuns.run State.step
      (.start (some (.construct 7 (asciiBytes "SA0PRF".toList) (asciiBytes "JO99".toList) [])))
      earlier) := by
  intro kept
  have lengths := congrArg List.length (kept _ List.prefix_rfl).inOrder
  exact absurd lengths (by decide +kernel)

/-! ## What a reader of the datagrams gets -/

/-- Every datagram was filled for the same receiver, from the records of its
packet. -/
structure Addressed (receiver : ReceiverFields) (state : State) : Prop where
  reporter : ∀ reporter ∈ state.reporter, reporter.receiver = receiver
  datagrams : ∀ packet ∈ state.packets, ∃ (sender : PskReporter) (now : UInt32),
    sender.receiver = receiver ∧ sender.recordList = packet.records ∧
      packet.datagram = sender.packet now

namespace Addressed

variable {receiver : ReceiverFields}

theorem stepUploader (addressed : Addressed receiver state) (now : UInt32)
    (network : PskReporter.NetworkResults) :
    Addressed receiver (state.stepUploader now network) := by
  rcases stepUploader_reports state now network with
    ⟨reporter, packets⟩ | ⟨dr, reporter, packets⟩ | ⟨-, reporter, packets⟩
  · exact ⟨reporter ▸ addressed.reporter, packets ▸ addressed.datagrams⟩
  · refine ⟨?_, packets ▸ addressed.datagrams⟩
    rw [reporter]
    intro added addedMem
    obtain ⟨before, isBefore, rfl⟩ := Option.map_eq_some_iff.mp addedMem
    exact addressed.reporter before isBefore
  · cases isReporter : state.reporter with
    | none =>
        simp only [State.send, isReporter] at reporter packets
        exact ⟨by simp [reporter], packets ▸ addressed.datagrams⟩
    | some sender =>
        have sameReceiver := addressed.reporter sender isReporter
        simp only [State.send, isReporter] at reporter packets
        constructor
        · rw [reporter]
          intro sent sentMem
          rw [← Option.mem_some_iff.mp sentMem]
          exact sameReceiver
        · rw [packets]
          intro packet packetMem
          rcases List.mem_append.mp packetMem with early | isLast
          · exact addressed.datagrams packet early
          · obtain rfl := List.mem_singleton.mp isLast
            exact ⟨sender, now, sameReceiver, rfl, rfl⟩

theorem step (addressed : Addressed receiver state) (event : Event) :
    Addressed receiver (state.step event) := by
  cases event with
  | postSpots results =>
      simp only [State.step]
      split <;> exact { addressed with }
  | push dial =>
      simp only [State.step, State.stepPush]
      split <;> exact { addressed with }
  | uploader now network => exact addressed.stepUploader now network
  | setReporting enabled => exact { addressed with }
  | programQuit => exact { addressed with }

end Addressed

theorem short_of_untimed_eq {record : SenderRecord} {dr : Spot}
    (isRecord : untimed record = dr.record 0) :
    record.callsign.length ≤ 12 ∧ record.mode.length = 3 := by
  have callsign : record.callsign = asciiBytes dr.call.chars :=
    congrArg SenderRecord.callsign isRecord
  have mode : record.mode = asciiBytes "FT8".toList := congrArg SenderRecord.mode isRecord
  rw [callsign, mode]
  exact ⟨by simpa [asciiBytes] using dr.call.length_le, rfl⟩

theorem length_encodedRecords_le {records : List SenderRecord}
    (short : ∀ record ∈ records, record.callsign.length ≤ 12 ∧ record.mode.length = 3) :
    (records.flatMap fun record => Ipfix.encodeRecord record.fields).length ≤
      27 * records.length := by
  induction records with
  | nil => simp
  | cons record records ih =>
      rw [List.forall_mem_cons] at short
      have rest := ih short.2
      rw [List.flatMap_cons, List.length_append, length_encodeRecord_fields,
        SenderRecord.recordSize, List.length_cons]
      omega

/-- A packet of short records fits in a datagram. -/
theorem fitsPacket_of_short {sender : PskReporter}
    (callsign : sender.receiverCallsign.length ≤ 254)
    (gridSquare : sender.receiverGridSquare.length ≤ 254)
    (software : sender.decodingSoftware.length ≤ 254)
    (few : sender.recordList.length ≤ maxReportsPerPacket)
    (short : ∀ record ∈ sender.recordList,
      record.callsign.length ≤ 12 ∧ record.mode.length = 3) :
    sender.FitsPacket where
  callsign := callsign
  gridSquare := gridSquare
  software := software
  records record recordMem := by
    obtain ⟨shortCall, mode⟩ := short record recordMem
    omega
  total := by
    have encoded := length_encodedRecords_le short
    have rxSize : sender.getRxDataSize ≤ 772 := by
      have aligned := PskReporter.alignSize_spec (4 + (1 + sender.receiverCallsign.length) +
        (1 + sender.receiverGridSquare.length) + (1 + sender.decodingSoftware.length))
      rw [PskReporter.getRxDataSize]
      omega
    have txSize : sender.getTxDataSize ≤ 7 + 27 * maxReportsPerPacket := by
      rw [PskReporter.getTxDataSize, PskReporter.foldl_recordSize]
      split
      · omega
      · have aligned := PskReporter.alignSize_spec (4 + (sender.recordList.flatMap fun record =>
          Ipfix.encodeRecord record.fields).length)
        omega
    have rxLength : rxFormatHeader.length = 36 := rfl
    have txLength : txFormatHeader.length = 52 := rfl
    have most : maxReportsPerPacket = 64 := rfl
    rw [PskReporter.dgSize]
    split <;> omega

theorem decodePacket_of_batched {receiver : ReceiverFields} (batched : Batched state)
    (addressed : Addressed receiver state) (shortCallsign : receiver.callsign.length ≤ 254)
    (shortGrid : receiver.locator.length ≤ 254) (shortSoftware : receiver.software.length ≤ 254)
    {packet : Packet} (packetMem : packet ∈ state.packets) :
    ∃ datagram, packet.datagram = some datagram ∧
      decodePacket datagram = some ([receiver], packet.records) := by
  obtain ⟨sender, now, rfl, sameRecords, isDatagram⟩ := addressed.datagrams packet packetMem
  have short : ∀ record ∈ sender.recordList,
      record.callsign.length ≤ 12 ∧ record.mode.length = 3 := by
    intro record recordMem
    -- The record belongs to one of the popped spots.
    have packed : record ∈ state.packedRecords :=
      List.mem_flatMap.mpr ⟨packet, packetMem, sameRecords ▸ recordMem⟩
    have untimedMem : untimed record ∈ state.popped.map fun dr => dr.record 0 := by
      rw [← batched.recorded]
      exact List.mem_append_left _ (List.mem_map_of_mem (List.mem_append_left _ packed))
    obtain ⟨dr, -, isRecord⟩ := List.mem_map.mp untimedMem
    exact short_of_untimed_eq isRecord.symm
  have few : sender.recordList.length ≤ maxReportsPerPacket :=
    sameRecords ▸ (batched.sizes packet packetMem).2
  have fits := fitsPacket_of_short shortCallsign shortGrid shortSoftware few short
  have sends := sender.packet_eq now
  exact ⟨_, isDatagram.trans sends, sameRecords ▸ PskReporter.decodePacket_packet fits sends⟩

/-- A reader of the datagrams of a run gets the records of every packet, and so,
once a drain has ended, the spots popped. -/
theorem decodePacket_datagram {randomIdentifier : UInt32}
    {callsign gridSquare software : List UInt8} (shortCallsign : callsign.length ≤ 254)
    (shortGrid : gridSquare.length ≤ 254) (shortSoftware : software.length ≤ 254)
    {events : List Event} (keeps : ∀ event ∈ events, event.KeepsReporting)
    {packet : Packet}
    (packetMem : packet ∈ (EventRuns.run State.step
      (.start (some (.construct randomIdentifier callsign gridSquare software)))
      events).packets) :
    ∃ datagram, packet.datagram = some datagram ∧
      decodePacket datagram = some ([⟨callsign, gridSquare, software⟩], packet.records) := by
  let reporter := PskReporter.construct randomIdentifier callsign gridSquare software
  have addressed : Addressed ⟨callsign, gridSquare, software⟩
      (EventRuns.run State.step (.start (some reporter)) events) := by
    apply EventRuns.run_induction (Addressed ⟨callsign, gridSquare, software⟩)
    · constructor
      · intro constructed constructedMem
        rw [← Option.mem_some_iff.mp constructedMem]
        rfl
      · simp [State.start]
    · exact fun state event addressed => addressed.step event
  exact decodePacket_of_batched ((batched_start rfl).run keeps) addressed shortCallsign
    shortGrid shortSoftware packetMem

end Uploading

end RtlsdrFt8d
