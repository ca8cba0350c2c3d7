import ClientMetrics.Proofs.Dispatch.Balance
import ClientMetrics.Proofs.Dispatch.Shutdown
import Mathlib.Algebra.Order.BigOperators.Group.List
import Mathlib.Data.Multiset.OrderedMonoid

/-!
# Conservation of impressions

A send takes its impressions out of the queue before its outcome is known, and while it is under way
the surroundings offer and poll. Even so, every impression that was offered is in one place once a
run has ended: in an accepted batch, in the answer to a poll, in the queue, or among the losses that
the queue and the failed batches account for.

* `Waits` — the balance of a part of a run in which no send starts, such as a poll of the shutdown
  future (`waits_pollShutdown`) or a pending send (`waits_flight`);
* `balanced_timedSend`, `sends_timedSend` — a send spends its impressions or offers them again, and
  it is the only one in its tick;
* `Accounts` — the balance of a part of a run in which every send that starts also ends;
* `Conserved` — where everything is once a run has ended;
* `conserved_run` — so it is after every run.
-/

namespace ClientMetrics

/-! ## Batches that are handed over -/

/-- The batches that were handed to the transport. -/
def batchesOf (hs : List Happening) : List Batch := hs.filterMap Happening.batch?

/-- Batches are read off a log part by part. -/
@[simp] theorem batchesOf_append (hs hs' : List Happening) :
    batchesOf (hs ++ hs') = batchesOf hs ++ batchesOf hs' := List.filterMap_append

/-- Log events are not batches. -/
@[simp] theorem batchesOf_noted (events : List Log.Event) :
    batchesOf (events.map .noted) = [] := by
  induction events with
  | nil => rfl
  | cons e events ih => exact ih

namespace Pipeline

@[simp] theorem batchesOf_offer (p : Pipeline) (i : Impression) :
    batchesOf (p.offer i).2.2 = [] := by
  unfold offer
  dsimp only
  split <;> rfl

/-- Offers hand no batch over. -/
@[simp] theorem batchesOf_offerAll (p : Pipeline) (is : List Impression) :
    batchesOf (p.offerAll is).2.2 = [] := by
  induction is generalizing p with
  | nil => rfl
  | cons i is ih =>
    show batchesOf ((p.offer i).2.2 ++ ((p.offer i).2.1.offerAll is).2.2) = []
    rw [batchesOf_append, batchesOf_offer, ih, List.nil_append]

/-- Nor does any other step of the surroundings. -/
@[simp] theorem batchesOf_apply (p : Pipeline) (s : Step) : batchesOf (p.apply s).2.2 = [] := by
  cases s with
  | offer i => exact p.batchesOf_offer i
  | fill name count => exact p.batchesOf_offerAll _
  | poll max => rfl
  | consent value => rfl
  | transport t => rfl

/-- Nor do the steps of an event together. -/
@[simp] theorem batchesOf_serve (p : Pipeline) (steps : List Step) :
    batchesOf (p.serve steps).2.2 = [] := by
  induction steps generalizing p with
  | nil => rfl
  | cons s steps ih =>
    show batchesOf ((p.apply s).2.2 ++ ((p.apply s).2.1.serve steps).2.2) = []
    rw [batchesOf_append, batchesOf_apply, ih, List.nil_append]

@[simp] theorem batchesOf_start (p : Pipeline) : batchesOf p.start.2.2 = [] := by
  unfold start
  split <;> rfl

/-- One batch is handed over for a send. -/
@[simp] theorem batchesOf_handOver (p : Pipeline) (is : List Impression) :
    batchesOf (p.handOver is).2 = [.ofImpressions is p.sdk] := by
  have hevents := batchesOf_noted (is.flatMap Feedback.events)
  have hlate := p.batchesOf_offerAll p.transport.late
  show batchesOf
    (_ ++ [.handed (.ofImpressions is p.sdk)] ++ _ ++ (p.offerAll p.transport.late).2.2) = _
  rw [batchesOf_append, hlate, batchesOf_append, batchesOf_append, hevents]
  split <;> rfl

/-- What is said of impressions that were not taken back names no batch. -/
@[simp] theorem batchesOf_requeueDropped (lost : Nat) (retry : Bool) :
    batchesOf (requeueDropped lost retry) = [] := by
  unfold requeueDropped
  split <;> rfl

/-- Nothing is handed over once the answer to a send is there, not even what is offered again. -/
@[simp] theorem batchesOf_settle (p : Pipeline) (is : List Impression)
    (failure : Option TransportError) : batchesOf (p.settle is failure).2.2 = [] := by
  cases failure with
  | none => rfl
  | some error =>
    have hoffers := p.batchesOf_offerAll (if p.settings.retryFailed then is else [])
    simp only [settle, batchesOf_append, hoffers, batchesOf_requeueDropped]
    rfl

end Pipeline

/-! ## What a history says about impressions -/

/-- What an entry says was taken out of the queue. -/
def RunEntry.removed : RunEntry → Multiset Impression
  | event _ replies => removedBy replies
  | _ => 0

/-- What the events of a script offer. -/
def scriptOffers (script : List TimedSteps) : Multiset Impression :=
  (script.map fun e => offersOf e.steps).sum

namespace History

/-- What polls took out of the queue. -/
def removed (h : History) : Multiset Impression := (h.entries.map fun x => x.2.removed).sum

/-- What was offered while sends started. -/
def late (h : History) : Multiset Impression :=
  (h.sends.map fun s => (s.late : Multiset Impression)).sum

/-- What was sent and accepted. -/
def accepted (h : History) : Multiset Impression :=
  ((h.sends.filter Send.isAccepted).map fun s => (s.impressions : Multiset Impression)).sum

/-- What was sent and not accepted. -/
def failed (h : History) : Multiset Impression :=
  ((h.sends.filter fun s => !s.isAccepted).map fun s => (s.impressions : Multiset Impression)).sum

/-- What was given up for good: failed batches, unless they are offered again. -/
def discarded (retry : Bool) (h : History) : Multiset Impression := if retry then 0 else h.failed

/-- What left the queue and does not come back. -/
def gone (retry : Bool) (h : History) : Multiset Impression :=
  h.removed + (h.accepted + h.discarded retry)

@[simp] theorem late_append (h₁ h₂ : History) : (h₁ ++ h₂).late = h₁.late + h₂.late := by
  simp [late]

@[simp] theorem removed_append (h₁ h₂ : History) :
    (h₁ ++ h₂).removed = h₁.removed + h₂.removed := by
  simp [removed]

@[simp] theorem removed_event (time : Nat) (e : TimedSteps) (replies : List Reply) :
    (single time (.event e replies)).removed = removedBy replies := add_zero _

@[simp] theorem removed_tick (time : Nat) (last : Bool) :
    (single time (.tick last)).removed = 0 := add_zero 0

@[simp] theorem happenings_tick (time : Nat) (last : Bool) :
    (single time (.tick last)).happenings = [] := rfl

@[simp] theorem gone_append (retry : Bool) (h₁ h₂ : History) :
    (h₁ ++ h₂).gone retry = h₁.gone retry + h₂.gone retry := by
  cases retry <;> simp [gone, accepted, discarded, failed] <;> abel

/-- Without sends there are no late offers. -/
@[simp] theorem late_of_sends_nil {h : History} (hs : h.sends = []) : h.late = 0 := by
  simp [late, hs]

/-- Without sends only polls take something out for good. -/
theorem gone_of_sends_nil (retry : Bool) {h : History} (hs : h.sends = []) :
    h.gone retry = h.removed := by
  cases retry <;> simp [gone, accepted, discarded, failed, hs]

/-- A send spends its impressions unless they are offered again. -/
theorem gone_sends_singleton (retry : Bool) (s : Send) :
    ({ sends := [s] } : History).gone retry = spent retry s.impressions s.failure := by
  cases hf : s.failure <;> cases retry <;>
    simp [gone, removed, accepted, discarded, failed, spent, Send.isAccepted, hf]

@[simp] theorem removed_moment (time : Nat) (hs : List Happening) :
    (moment time hs).removed = 0 := by
  induction hs with
  | nil => rfl
  | cons x hs ih => exact (zero_add _).trans ih

@[simp] theorem gone_moment (retry : Bool) (time : Nat) (hs : List Happening) :
    (moment time hs).gone retry = 0 := by
  rw [gone_of_sends_nil retry (sends_moment time hs), removed_moment]

end History

/-! ## While nothing is handed over -/

/-- A part of a run during which no send starts. -/
structure Waits (p : Pipeline) (script : List TimedSteps) (h : History) (p' : Pipeline)
    (rest : List TimedSteps) : Prop where
  balanced : Balanced p (scriptOffers script) p' (scriptOffers rest + h.removed)
  batches : batchesOf h.happenings = []
  sends : h.sends = []

namespace Waits

theorem refl (p : Pipeline) (script : List TimedSteps) : Waits p script {} p script :=
  ⟨(Balanced.refl p _).of_eq rfl (add_zero _).symm, rfl, rfl⟩

/-- Two such parts, one after the other, are one. -/
theorem trans {p p' p'' : Pipeline} {script rest rest' : List TimedSteps} {h h' : History}
    (first : Waits p script h p' rest) (second : Waits p' rest h' p'' rest') :
    Waits p script (h ++ h') p'' rest' where
  balanced := by
    have hb := first.balanced.trans second.balanced
    -- the offers of `rest` are on both sides
    refine Balanced.cancel (hb.of_eq rfl ?_)
    rw [History.removed_append]
    abel
  batches := by simp [first.batches, second.batches]
  sends := by simp [first.sends, second.sends]

end Waits

/-- Nothing but measurements and log events. -/
theorem waits_moment (p : Pipeline) (script : List TimedSteps) (time : Nat) (hs : List Happening)
    (hb : batchesOf hs = []) : Waits p script (.moment time hs) p script where
  balanced := (Balanced.refl p _).of_eq rfl (by rw [History.removed_moment, add_zero])
  batches := by rw [History.happenings_moment, hb]
  sends := rfl

/-- No send starts while the shutdown future is polled: what its events offer and poll is all there
is. -/
theorem waits_pollShutdown (p : Pipeline) (now : Nat) (script : List TimedSteps) :
    Waits p script (p.pollShutdown now script).history (p.pollShutdown now script).pipeline
      (p.pollShutdown now script).script := by
  induction script generalizing p with
  | nil => exact ⟨(Balanced.refl p 0), rfl, rfl⟩
  | cons e script ih =>
    unfold Pipeline.pollShutdown
    split
    next =>
      -- the steps of the event are answered in its entry
      have hserve : Waits p (e :: script)
          (.single now (.event e (p.serve e.steps).1) ++ .moment now (p.serve e.steps).2.2)
          (p.serve e.steps).2.1 script := by
        refine ⟨?_, ?_, rfl⟩
        · have hs := (balanced_serve p e.steps).trans (.refl _ (scriptOffers script))
          refine hs.of_eq rfl ?_
          rw [History.removed_append, History.removed_moment, History.removed_event, add_zero,
            add_comm]
        · rw [History.happenings_append, History.happenings_moment, batchesOf_append,
            Pipeline.batchesOf_serve]
          rfl
      exact hserve.trans (ih _)
    -- the event is not due, so its offers are still to come
    next => exact ⟨(Balanced.refl p _).of_eq rfl (add_zero _).symm, rfl, rfl⟩

/-- Nor does another one start while a send is pending. -/
theorem waits_await (p : Pipeline) (stop : Option Nat) (timeout now : Nat)
    (script : List TimedSteps) :
    Waits p script (await p stop timeout now script).history
      (await p stop timeout now script).pipeline (await p stop timeout now script).script := by
  fun_induction await p stop timeout now script with
  | case1 p now script polled hp =>
    -- from here on only the clock of the timeout runs
    have h := waits_pollShutdown p now script
    rw [hp] at h
    simpa using h.trans (.refl polled.pipeline [])
  | case2 p now script polled e rest hp t ht =>
    have h := waits_pollShutdown p now script
    rw [hp] at h
    exact h
  | case3 p now script polled e rest hp hnone ih =>
    have h := waits_pollShutdown p now script
    rw [hp] at h
    exact h.trans ih

/-- So it is from the moment a batch is handed over until its send ends. -/
theorem waits_flight (p : Pipeline) (is : List Impression) (d : Deadline) (now : Nat) :
    Waits (p.handOver is).1 d.script (p.flight is d now).history (p.flight is d now).pipeline
      (p.flight is d now).script := by
  unfold Pipeline.flight Deadline.land
  -- the final tick has no script to wait for, and a regular one waits only for a late answer
  cases d with
  | timeout => simpa [Deadline.script] using Waits.refl (p.handOver is).1 []
  | shutdown script =>
    dsimp only [Deadline.script]
    split
    next => exact .refl _ _
    next => exact waits_await ..

/-! ## Sends and ticks -/

/-- The send of a tick takes the impressions it was given, and spends them or offers them again. -/
theorem balanced_timedSend (p : Pipeline) (is : List Impression) (d : Deadline) (now : Nat) :
    Balanced p (is + (scriptOffers d.script + (p.timedSend is d now).history.late))
      (p.timedSend is d now).pipeline
      (scriptOffers (p.timedSend is d now).script +
        (p.timedSend is d now).history.gone p.settings.retryFailed) := by
  have hwait := waits_flight p is d now
  have hsettings : (p.flight is d now).pipeline.settings = p.settings :=
    Pipeline.settings_eq ((configuration_land ..).trans (p.configuration_handOver is))
  -- whether a failed batch is offered again is set once
  have hsettle := balanced_settle (p.flight is d now).pipeline is
    ((p.flight is d now).failure p.transport)
  rw [hsettings] at hsettle
  have hlate : (p.timedSend is d now).history.late = p.transport.late := by
    simp [Pipeline.timedSend, History.late, hwait.sends]
  have hgone : (p.timedSend is d now).history.gone p.settings.retryFailed =
      (p.flight is d now).history.removed +
        spent p.settings.retryFailed is ((p.flight is d now).failure p.transport) := by
    simp only [Pipeline.timedSend, History.gone_append, History.gone_moment,
      History.gone_of_sends_nil _ hwait.sends, History.gone_sends_singleton]
    abel
  -- late offers, then what happens while the send is pending, then its outcome
  refine (((balanced_handOver p is).trans hwait.balanced).trans hsettle).of_eq ?_ ?_
  · rw [hlate]
    abel
  · rw [hgone]
    show _ = scriptOffers (p.flight is d now).script + _
    abel

/-- There is one send, of the batch that was handed over, and it has ended. -/
theorem sends_timedSend (p : Pipeline) (is : List Impression) (d : Deadline) (now : Nat) :
    ∃ s, (p.timedSend is d now).history.sends = [s] ∧
      batchesOf (p.timedSend is d now).history.happenings = [s.batch] ∧
      s.batch = .ofImpressions s.impressions p.sdk ∧ s.start ≤ s.finish ∧
      s.finish = (p.timedSend is d now).time := by
  have hwait := waits_flight p is d now
  have htime := p.le_time_flight is d now
  let landing := p.flight is d now
  -- the one send, as the tick records it
  let send : Send := {
    start := now
    impressions := is
    batch := .ofImpressions is p.sdk
    late := p.transport.late
    finish := landing.time
    answered := landing.answered
    failure := landing.failure p.transport }
  refine ⟨send, ?_, ?_, rfl, htime, rfl⟩
  · -- neither the wait nor what is done with the batch records a send of its own
    simp only [Pipeline.timedSend, History.sends_append, History.sends_moment, hwait.sends]
    rfl
  · simp only [Pipeline.timedSend, History.happenings_append, History.happenings_moment,
      batchesOf_append, hwait.batches, Pipeline.batchesOf_handOver, Pipeline.batchesOf_settle]
    rfl

/-- A part of a run in which every send that starts also ends. -/
structure Accounts (c : Configuration) (p : Pipeline) (script : List TimedSteps) (h : History)
    (p' : Pipeline) (rest : List TimedSteps) (time : Nat) : Prop where
  balanced : Balanced p (scriptOffers script + h.late) p'
    (scriptOffers rest + h.gone c.settings.retryFailed)
  handed : batchesOf h.happenings = h.sends.map Send.batch
  landed : ∀ s ∈ h.sends,
    s.batch = .ofImpressions s.impressions c.sdk ∧ s.start ≤ s.finish ∧ s.finish ≤ time

/-- A part of a run without sends accounts for all of them. -/
theorem Waits.accounts {p p' : Pipeline} {script rest : List TimedSteps} {h : History}
    (hw : Waits p script h p' rest) (c : Configuration) (time : Nat) :
    Accounts c p script h p' rest time where
  balanced := by
    rw [History.late_of_sends_nil hw.sends, History.gone_of_sends_nil _ hw.sends, add_zero]
    exact hw.balanced
  handed := by rw [hw.batches, hw.sends]; rfl
  landed := by simp [hw.sends]

/-- Parts of a run that account for their sends do so together. -/
theorem Accounts.trans {c : Configuration} {p p' p'' : Pipeline}
    {script rest rest' : List TimedSteps} {h h' : History} {time time' : Nat}
    (first : Accounts c p script h p' rest time)
    (second : Accounts c p' rest h' p'' rest' time') (ht : time ≤ time') :
    Accounts c p script (h ++ h') p'' rest' time' where
  balanced := by
    -- what is left of the script after the first part comes in with the second
    have hb : Balanced p (scriptOffers script + (h ++ h').late + scriptOffers rest) p''
        (scriptOffers rest' + (h ++ h').gone c.settings.retryFailed + scriptOffers rest) := by
      refine (first.balanced.trans second.balanced).of_eq ?_ ?_
      · rw [History.late_append]
        abel
      · rw [History.gone_append]
        abel
    exact hb.cancel
  handed := by simp [first.handed, second.handed]
  landed := by
    intro s hs
    rcases List.mem_append.1 hs with hs | hs
    · obtain ⟨hbatch, hstart, hfinish⟩ := first.landed s hs
      exact ⟨hbatch, hstart, Nat.le_trans hfinish ht⟩
    · exact second.landed s hs

/-- A tick accounts for its send, if it has one: what it took out of the queue was sent. -/
theorem accounts_timedTick (p : Pipeline) (d : Deadline) (now : Nat) :
    Accounts p.configuration p d.script (p.timedTick d now).history (p.timedTick d now).pipeline
      (p.timedTick d now).script (p.timedTick d now).time := by
  have hstart := balanced_start p
  have hbatches := p.batchesOf_start
  have hconf := p.configuration_start
  unfold Pipeline.timedTick
  split
  next outcome p' hs heq =>
    -- nothing is sent
    rw [heq] at hstart hbatches
    have hw : Waits p d.script (.single now (.tick d.isLast) ++ .moment now hs) p' d.script := by
      refine ⟨(hstart.trans (.refl p' (scriptOffers d.script))).of_eq (zero_add _) ?_, ?_, rfl⟩
      · rw [History.removed_append, History.removed_moment]
        exact add_comm _ _
      · rw [History.happenings_append, History.happenings_moment, batchesOf_append]
        exact hbatches
    exact hw.accounts _ _
  next is p' hs heq =>
    rw [heq] at hstart hbatches hconf
    have hsettings : p'.settings = p.settings := Pipeline.settings_eq hconf
    have hsdk : p'.sdk = p.sdk := Pipeline.sdk_eq hconf
    obtain ⟨s, hsends, hhanded, hbatch, hle, hfinish⟩ := sends_timedSend p' is d now
    have hsend := balanced_timedSend p' is d now
    rw [hsettings] at hsend
    generalize p'.timedSend is d now = t at hsends hhanded hfinish hsend ⊢
    refine ⟨?_, ?_, ?_⟩
    · -- what the tick takes out of the queue is what it sends
      have hlate : (t.after (.single now (.tick d.isLast) ++ .moment now hs)).history.late =
          t.history.late := by
        simp [TickResult.after, History.late]
      have hgone : (t.after (.single now (.tick d.isLast) ++ .moment now hs)).history.gone
          p.settings.retryFailed = t.history.gone p.settings.retryFailed := by
        simp [TickResult.after, History.gone_of_sends_nil]
      rw [hlate, show p.configuration.settings = p.settings from rfl, hgone]
      have hb : Balanced p (scriptOffers d.script + t.history.late + is) t.pipeline
          (scriptOffers t.script + t.history.gone p.settings.retryFailed + is) := by
        refine (hstart.trans hsend).of_eq ?_ ?_
        · abel
        · show (is : Multiset Impression) + _ = _
          abel
      exact hb.cancel
    · simp [TickResult.after, hhanded, hsends, show batchesOf hs = [] from hbatches]
    · intro s' hs'
      obtain rfl : s' = s := by simpa [TickResult.after, hsends] using hs'
      refine ⟨hbatch.trans ?_, hle, Nat.le_of_eq hfinish⟩
      rw [hsdk]
      rfl

/-! ## Runs -/

/-- The final tick accounts for its send as any other does. -/
theorem accounts_final (p : Pipeline) (now : Nat) :
    Accounts p.configuration p [] (Run.final p now).history (Run.final p now).pipeline []
      (Run.final p now).elapsed := by
  have htick := accounts_timedTick p .timeout now
  -- the final tick has no script to work through
  have hrest : (p.timedTick .timeout now).script = [] :=
    List.suffix_nil.1 (p.timedTick_suffix .timeout now)
  rw [hrest] at htick
  -- the notes before and after the tick concern no batch
  exact (((waits_moment p [] now _ (by rfl)).accounts p.configuration now).trans htick
      (p.le_time_timedTick .timeout now)).trans
    ((waits_moment _ [] _ _ (by rfl)).accounts _ _) (Nat.le_refl _)

/-- A poll that leaves `e` for later, and a tick right after it. -/
theorem accounts_polled {p : Pipeline} {now : Nat} {script rest : List TimedSteps} {e : TimedSteps}
    (hp : (p.pollShutdown now script).script = e :: rest) :
    let polled := p.pollShutdown now script
    let t := polled.pipeline.timedTick (.shutdown (e :: rest)) now
    Accounts p.configuration p script (polled.history ++ t.history) t.pipeline t.script t.time ∧
      t.pipeline.configuration = p.configuration := by
  intro polled t
  have hconf : polled.pipeline.configuration = p.configuration :=
    p.configuration_pollShutdown now script
  have hpoll := (waits_pollShutdown p now script).accounts p.configuration now
  have htick := accounts_timedTick polled.pipeline (.shutdown (e :: rest)) now
  -- the tick starts with what the poll has left of the script
  rw [hp] at hpoll
  rw [hconf] at htick
  exact ⟨hpoll.trans htick (polled.pipeline.le_time_timedTick _ now),
    (Pipeline.configuration_timedTick ..).trans hconf⟩

/-- So does the whole loop, from any state that it can be in. -/
theorem accounts_loop (p : Pipeline) (now due : Nat) (script : List TimedSteps) :
    Accounts p.configuration p script (Run.loop p now due script).history
      (Run.loop p now due script).pipeline [] (Run.loop p now due script).elapsed := by
  fun_induction Run.loop p now due script with
  | case1 p now due script polled hp =>
    -- the future resolves at this poll, and only the final tick is left
    have hpoll := (waits_pollShutdown p now script).accounts p.configuration now
    have hfinal := accounts_final polled.pipeline now
    rw [hp] at hpoll
    rw [show polled.pipeline.configuration = p.configuration from
      p.configuration_pollShutdown now script] at hfinal
    exact hpoll.trans hfinal (Run.elapsed_final polled.pipeline now).1
  | case2 p now due script polled e rest hp hdue t hstop =>
    -- the future has resolved during the send, so nothing of the script is left
    obtain ⟨hturn, hconf⟩ := accounts_polled hp
    obtain ⟨hway, -⟩ := Pipeline.headway_polled (t := t) hp rfl
    have hfinal := accounts_final t.pipeline t.time
    rw [show t.pipeline.configuration = p.configuration from hconf] at hfinal
    rw [show (polled.pipeline.timedTick (.shutdown (e :: rest)) now).script = [] from
      (hway.resolved hstop).1] at hturn
    rw [Run.history_after, Run.pipeline_after, Run.elapsed_after]
    exact hturn.trans hfinal (Run.elapsed_final t.pipeline t.time).1
  | case3 p now due script polled e rest hp hdue t hgo ih =>
    obtain ⟨hturn, hconf⟩ := accounts_polled hp
    -- a tick that leaves the future pending is followed by the rest of the loop
    rw [show t.pipeline.configuration = p.configuration from hconf] at ih
    exact hturn.trans ih (Run.le_elapsed_loop ..)
  | case4 p now due script polled e rest hp hdue ih =>
    -- nothing is due, so the loop only waits, and not backwards in time
    have hpoll := (waits_pollShutdown p now script).accounts p.configuration now
    have hlt := lt_of_pollShutdown hp
    rw [hp] at hpoll
    rw [show polled.pipeline.configuration = p.configuration from
      p.configuration_pollShutdown now script] at ih
    refine hpoll.trans ih (Nat.le_trans ?_ (Run.le_elapsed_loop ..))
    omega

/-- A whole run accounts for all of its sends. -/
theorem accounts_run (p : Pipeline) (script : List TimedSteps) :
    Accounts p.configuration p script (p.run script).history (p.run script).pipeline []
      (p.run script).elapsed := by
  exact ((waits_moment p script 0 _ (by rfl)).accounts p.configuration 0).trans
    (accounts_loop p 0 p.settings.period script) (Nat.zero_le _)

/-! ## What follows for single impressions -/

/-- The size of all batches that were not accepted. -/
def History.failedSize (h : History) : Nat :=
  ((h.sends.filter fun s => !s.isAccepted).map fun s => s.batch.size).sum

/-- As many impressions were not accepted as the failed batches hold. -/
theorem card_failed {h : History} {sdk : SdkSettings}
    (hmade : ∀ s ∈ h.sends, s.batch = .ofImpressions s.impressions sdk) :
    h.failed.card = h.failedSize := by
  -- a batch reports each of its impressions once
  have hsize : ∀ s ∈ h.sends.filter fun s => !s.isAccepted,
      s.batch.size = (s.impressions : Multiset Impression).card := by
    intro s hs
    rw [hmade s (List.mem_of_mem_filter hs)]
    simp [Batch.size, Batch.ofImpressions]
  unfold History.failedSize History.failed
  rw [List.map_congr_left hsize, ← Multiset.cardHom_apply, map_list_sum, List.map_map]
  rfl

/-- Sends that hold an impression at most once between them share it with no other. -/
theorem pairwise_of_count_le_one {sends : List Send} {i : Impression}
    (h : (sends.map fun s => (s.impressions : Multiset Impression)).sum.count i ≤ 1) :
    sends.Pairwise fun s s' => i ∉ s.impressions ∨ i ∉ s'.impressions := by
  induction sends with
  | nil => exact .nil
  | cons s sends ih =>
    rw [List.map_cons, List.sum_cons, Multiset.count_add] at h
    refine List.pairwise_cons.2 ⟨fun s' hs' => ?_, ih (by omega)⟩
    by_cases hmem : i ∈ s.impressions
    · -- one of the two sends would be too many
      have hs : 0 < (s.impressions : Multiset Impression).count i := Multiset.count_pos.2 hmem
      refine .inr fun hmem' => ?_
      have hs'' : 0 < (s'.impressions : Multiset Impression).count i := Multiset.count_pos.2 hmem'
      have hle := Multiset.count_le_of_le i (List.le_sum_of_mem
        (List.mem_map_of_mem (f := fun s : Send => (s.impressions : Multiset Impression)) hs'))
      omega
    · exact .inl hmem

/-- Where everything is that was offered, once a run has ended. -/
structure Conserved (retry : Bool) (sdk : SdkSettings) (offered polled : Multiset Impression)
    (r : Run) : Prop where
  /-- Every impression is in one place: in an accepted batch, in the answer to a poll, in the queue,
  or lost. Lost are those that overflowed the queue, and failed batches that are not offered
  again. -/
  accounted : ∃ lost overflowed : Multiset Impression,
    offered = r.history.accepted + polled + r.pipeline.queue.items + lost ∧
    lost = overflowed + r.history.discarded retry ∧
    r.pipeline.queue.dropped = overflowed.card % 2 ^ 64 ∧
    (overflowed.card < 2 ^ 64 →
      lost.card = r.pipeline.queue.dropped + if retry then 0 else r.history.failedSize)
  /-- What was offered once is not in two accepted batches. -/
  once : ∀ i, offered.count i = 1 → (r.history.sends.filter Send.isAccepted).Pairwise
    fun s s' => i ∉ s.impressions ∨ i ∉ s'.impressions
  /-- Every batch that was handed to the transport belongs to a send. -/
  handed : batchesOf r.history.happenings = r.history.sends.map Send.batch
  /-- Every send has ended. -/
  landed : ∀ s ∈ r.history.sends,
    s.batch = .ofImpressions s.impressions sdk ∧ s.start ≤ s.finish ∧ s.finish ≤ r.elapsed

/-- A run conserves what was offered before it, in its script and while its sends started. -/
theorem Pipeline.conserved_run (queue : QueueSettings) (dispatch : DispatchSettings)
    (privacy : PrivacySettings) (sdk : SdkSettings) (setup : List Step)
    (script : List TimedSteps) :
    let served := (ofSettings queue dispatch privacy sdk).serve setup
    let r := served.2.1.run script
    Conserved dispatch.retryFailed sdk (offersOf setup + scriptOffers script + r.history.late)
      (removedBy served.1 + r.history.removed) r := by
  intro served r
  have hconf : served.2.1.configuration = (ofSettings queue dispatch privacy sdk).configuration :=
    configuration_serve _ setup
  have hserve := balanced_serve (ofSettings queue dispatch privacy sdk) setup
  obtain ⟨hrun, hhanded, hlanded⟩ := accounts_run served.2.1 script
  rw [hconf] at hrun hlanded
  -- one balance from the empty queue to the end of the run
  obtain ⟨overflowed, hitems, hlosses⟩ := hserve.trans hrun
  have hdropped : r.pipeline.queue.dropped = overflowed.card % 2 ^ 64 := by
    unfold SendingQueue.dropped
    rw [hlosses]
    simp [ofSettings]
  have hfailed := card_failed fun s hs => (hlanded s hs).1
  have hequation : offersOf setup + scriptOffers script + r.history.late =
      r.history.accepted + (removedBy served.1 + r.history.removed) + r.pipeline.queue.items +
        (overflowed + r.history.discarded dispatch.retryFailed) := by
    have hempty : ((ofSettings queue dispatch privacy sdk).queue.items : Multiset Impression) = 0 :=
      rfl
    have hrest : scriptOffers [] = 0 := rfl
    rw [hempty, hrest, History.gone] at hitems
    calc offersOf setup + scriptOffers script + r.history.late
        = 0 + (offersOf setup + (scriptOffers script + r.history.late)) := by abel
      _ = _ := hitems
      _ = _ := by
        show (r.pipeline.queue.items : Multiset Impression) + (removedBy served.1 + (0 +
          (r.history.removed + (r.history.accepted + r.history.discarded dispatch.retryFailed)))) +
          overflowed = _
        abel
  refine ⟨⟨overflowed + r.history.discarded dispatch.retryFailed, overflowed, hequation, rfl,
    hdropped, fun hlt => ?_⟩, fun i hi => ?_, hhanded, hlanded⟩
  · rw [hdropped, Nat.mod_eq_of_lt hlt, Multiset.card_add]
    cases dispatch.retryFailed with
    | true => rfl
    | false => exact congrArg (overflowed.card + ·) hfailed
  · -- the accepted batches hold no more of `i` than was offered
    apply pairwise_of_count_le_one
    rw [hequation] at hi
    simp only [Multiset.count_add] at hi
    show r.history.accepted.count i ≤ 1
    omega

end ClientMetrics
