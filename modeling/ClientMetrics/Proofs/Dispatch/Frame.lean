import ClientMetrics.Dispatch.Run

/-!
# What a run never changes

The settings of a pipeline, the bounds of its queue and the vendor of its gate stay as they are,
whatever the surroundings and the loop do. `Pipeline.configuration` is all of that, and there is one
lemma for each operation, up to `configuration_loop`.
-/

namespace ClientMetrics

/-- The part of a pipeline that is set once. -/
structure Configuration where
  settings : DispatchSettings
  sdk : SdkSettings
  vendorId : UInt16
  capacity : Nat
  overflow : Overflow

namespace Pipeline

/-- The part of a pipeline that is set once. -/
def configuration (p : Pipeline) : Configuration where
  settings := p.settings
  sdk := p.sdk
  vendorId := p.gate.vendorId
  capacity := p.queue.capacity
  overflow := p.queue.overflow

theorem settings_eq {p q : Pipeline} (h : p.configuration = q.configuration) :
    p.settings = q.settings := congrArg Configuration.settings h

theorem sdk_eq {p q : Pipeline} (h : p.configuration = q.configuration) : p.sdk = q.sdk :=
  congrArg Configuration.sdk h

/-- An offer does not change what is set once. -/
@[simp] theorem configuration_offer (p : Pipeline) (i : Impression) :
    (p.offer i).2.1.configuration = p.configuration := by
  simp [configuration, offer]

@[simp] theorem configuration_offerAll (p : Pipeline) (is : List Impression) :
    (p.offerAll is).2.1.configuration = p.configuration := by
  induction is generalizing p with
  | nil => rfl
  | cons i is ih => exact (ih _).trans (p.configuration_offer i)

/-- Nor does any other step. A change of consent leaves the vendor as it is. -/
@[simp] theorem configuration_apply (p : Pipeline) (s : Step) :
    (p.apply s).2.1.configuration = p.configuration := by
  cases s with
  | offer i => exact p.configuration_offer i
  | fill name count => exact p.configuration_offerAll _
  | poll max => rfl
  | consent value => cases value <;> rfl
  | transport t => rfl

@[simp] theorem configuration_serve (p : Pipeline) (steps : List Step) :
    (p.serve steps).2.1.configuration = p.configuration := by
  induction steps generalizing p with
  | nil => rfl
  | cons s steps ih => exact (ih _).trans (p.configuration_apply s)

@[simp] theorem configuration_start (p : Pipeline) :
    p.start.2.1.configuration = p.configuration := by
  unfold start
  split <;> rfl

@[simp] theorem configuration_handOver (p : Pipeline) (is : List Impression) :
    (p.handOver is).1.configuration = p.configuration :=
  p.configuration_offerAll _

/-- Nor does a send, however it ends. -/
@[simp] theorem configuration_settle (p : Pipeline) (is : List Impression)
    (failure : Option TransportError) :
    (p.settle is failure).2.1.configuration = p.configuration := by
  cases failure with
  | none => rfl
  | some error => exact p.configuration_offerAll _

/-- Nor does a poll of the shutdown future. -/
@[simp] theorem configuration_pollShutdown (p : Pipeline) (now : Nat) (script : List TimedSteps) :
    (p.pollShutdown now script).pipeline.configuration = p.configuration := by
  induction script generalizing p with
  | nil => rfl
  | cons e script ih =>
    unfold pollShutdown
    split
    · exact (ih _).trans (p.configuration_serve _)
    · rfl

end Pipeline

open Pipeline

/-- Nor does waiting for a send, with the polls that its deadline makes. -/
@[simp] theorem configuration_await (p : Pipeline) (stop : Option Nat) (timeout now : Nat)
    (script : List TimedSteps) :
    (await p stop timeout now script).pipeline.configuration = p.configuration := by
  fun_induction await p stop timeout now script with
  | case1 p now script polled => simp [polled]
  | case2 p now script => exact p.configuration_pollShutdown now script
  | case3 p now script _ _ _ _ _ ih => exact ih.trans (p.configuration_pollShutdown now script)

/-- So it is whatever limits the send. -/
@[simp] theorem configuration_land (d : Deadline) (p : Pipeline) (stop : Option Nat)
    (timeout now : Nat) : (d.land p stop timeout now).pipeline.configuration = p.configuration := by
  unfold Deadline.land
  split
  · simp
  · split
    · rfl
    · simp

namespace Pipeline

/-- A tick does not change what is set once, from its start until its send has ended. -/
@[simp] theorem configuration_timedTick (p : Pipeline) (d : Deadline) (now : Nat) :
    (p.timedTick d now).pipeline.configuration = p.configuration := by
  have hs := p.configuration_start
  unfold timedTick
  split
  next h => exact (congrArg (·.2.1.configuration) h).symm.trans hs
  next h =>
    -- three parts, one after the other: handing over, waiting and settling
    have hp := (congrArg (·.2.1.configuration) h).symm.trans hs
    exact (configuration_settle ..).trans ((configuration_land ..).trans
      ((configuration_handOver ..).trans hp))

end Pipeline

@[simp] theorem configuration_final (p : Pipeline) (now : Nat) :
    (Run.final p now).pipeline.configuration = p.configuration :=
  p.configuration_timedTick .timeout now

/-- So nothing that the loop does changes it, from any turn on. -/
@[simp] theorem configuration_loop (p : Pipeline) (now due : Nat) (script : List TimedSteps) :
    (Run.loop p now due script).pipeline.configuration = p.configuration := by
  fun_induction Run.loop p now due script with
  | case1 p now due script polled => simp [polled]
  | case2 p now due script polled e rest hp hdue t => simp [t, polled]
  | case3 p now due script polled e rest hp hdue t hgo ih => simp [ih, t, polled]
  | case4 p now due script polled e rest hp hdue ih => simp [ih, polled]

end ClientMetrics
