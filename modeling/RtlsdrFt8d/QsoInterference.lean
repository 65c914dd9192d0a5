import RtlsdrFt8d.QsoMachineSteps

/-!
# Interference during a QSO

Messages of other stations that arrive while a QSO is in progress.  The handler
drains them together with those of its peer; here they are marked in the stream
of events, and the run with them is compared with the run without them.
-/

namespace RtlsdrFt8d

/-- The marked events of a stream are messages of stations other than the current
peer, each received while a QSO is in progress. -/
def DisturbsOnly (options : Options) (start : QsoHandler) (stream : List (QsoEvent × Bool)) :
    Prop :=
  ∀ earlier event, earlier ++ [(event, true)] <+: stream →
    ∃ qsoMsg, event = .message qsoMsg ∧
      (EventRuns.run (qsoStep options) start (EventRuns.received earlier)).qsoState ≠ .idle ∧
      qsoMsg.src.chars ≠
        (EventRuns.run (qsoStep options) start
          (EventRuns.received earlier)).currentQSO.src.chars

theorem step_of_otherStation {options : Options} {handler : QsoHandler} {qsoMsg : PlainMessage}
    (inProgress : handler.qsoState ≠ .idle)
    (otherStation : qsoMsg.src.chars ≠ handler.currentQSO.src.chars) :
    qsoStep options handler (.message qsoMsg) = handler := by
  apply dispatch_of_inProgress inProgress
  intro continued
  exact otherStation continued.src_eq

/-- Other stations cannot disturb a QSO in progress: with and without their
messages the handler is in the same state after every step. -/
theorem qsoRun_undisturbed (options : Options) (start : QsoHandler)
    (stream : List (QsoEvent × Bool)) (disturbs : DisturbsOnly options start stream)
    (earlier : List (QsoEvent × Bool)) (isPrefix : earlier <+: stream) :
    EventRuns.run (qsoStep options) start (EventRuns.undisturbed earlier) =
      EventRuns.run (qsoStep options) start (EventRuns.received earlier) := by
  apply EventRuns.run_undisturbed
  intro before event isPart
  obtain ⟨qsoMsg, rfl, inProgress, otherStation⟩ := disturbs before event (isPart.trans isPrefix)
  exact step_of_otherStation inProgress otherStation

/-- `F1ABC` calls us. -/
def undisturbedCall : List (QsoEvent × Bool) :=
  [(.command (.autoQSO true), false), (.message (sampleCall "JO65".toList), false)]

/-- Then `K1ABC` calls us as well. -/
def disturbedCall : List (QsoEvent × Bool) :=
  undisturbedCall ++
    [(.message { sampleCall "FN42".toList with src := .snprintf 13 "K1ABC".toList }, true)]

theorem qsoRun_undisturbed_disturbedCall :
    EventRuns.run (qsoStep sampleStation) (initQsoState true)
        (EventRuns.undisturbed disturbedCall) =
      EventRuns.run (qsoStep sampleStation) (initQsoState true)
        (EventRuns.received disturbedCall) := by
  refine qsoRun_undisturbed sampleStation (initQsoState true) disturbedCall ?_ _
    List.prefix_rfl
  intro earlier event isPrefix
  rcases List.prefix_concat_iff.mp isPrefix with whole | early
  · obtain ⟨rfl, last⟩ := List.append_inj' whole rfl
    obtain ⟨rfl, -⟩ := Prod.mk.inj (List.cons.inj last).1
    exact ⟨_, rfl, by decide, by decide⟩
  · have marked : (event, true) ∈ undisturbedCall := early.subset (by simp)
    simp [undisturbedCall] at marked

end RtlsdrFt8d
