import ClientMetrics.Log.Event
import ClientMetrics.Queue.Basic
import ClientMetrics.Statsd.Line

/-!
# What is noted when the queue loses an item

Each lost item, whether refused or evicted, is counted once under the policy in force and noted
in the log with the losses so far.
-/

namespace ClientMetrics

namespace SendingQueue

variable {α : Type}

/-- The measurement made for each lost item. -/
def lossMeasurement (q : SendingQueue α) : Statsd.Measurement where
  name := "queue.dropped"
  reading := .counter 1
  tags := [("policy", q.overflow.name)]

/-- The event noted for the latest lost item. -/
def lossEvent (q : SendingQueue α) : Log.Event where
  severity := .trace
  target := "csm_queue::bounded"
  message := "sending queue full, dropping item"
  fields := [("capacity", .number q.capacity), ("policy", .plain q.overflow.name),
    ("dropped", .number q.dropped)]

end SendingQueue

end ClientMetrics
