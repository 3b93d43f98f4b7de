import Logbook.Error
import Logbook.Metrics
import Logbook.Text.Duration
import Logbook.Text.Fixed

/-!
# Notices

What loggers, queues and files report on the error stream when no caller can be told.
-/

namespace Logbook

inductive Notice where
  | sinkFailed (sink logger : String) (e : Error)
  | sinkPanicked (sink logger : String) (p : Panic)
  | flushFailed (sink : String) (e : Error)
  | queueFull (queue : String) (dropped : Nat)
  | rawFailed (queue : String) (e : Error)
  | deliveryFailed (queue inner : String) (e : Error)
  | deliveryPanicked (queue inner : String)
  | lastFlushFailed (queue : String) (e : Error)
  | workerPanicked (queue : String)
  | workerLate (queue : String) (timeout : Duration)
  | dropSummary (queue : String) (dropped enqueued : Nat)
  | closingFlushFailed (path : String) (e : Error)
  deriving DecidableEq, Repr

namespace Notice

/-- The text of a notice, one line without its end. -/
def text : Notice → String
  | sinkFailed sink logger e =>
    s!"[LOGGER ERROR] Sink '{sink}' on logger '{logger}' failed: {e.message}"
  | sinkPanicked sink logger p =>
    s!"[LOGGER CRITICAL] Sink '{sink}' on logger '{logger}' panicked: " ++
      p.message?.getD "Unknown panic" ++ ". Other sinks continue to function."
  | flushFailed sink e => s!"[LOGGER ERROR] Sink '{sink}' flush failed: {e.message}"
  | queueFull queue dropped =>
    s!"[LOGGER WARNING] Async sink '{queue}' queue full, {dropped} logs dropped. " ++
      "Consider increasing capacity or using a different overflow policy."
  | rawFailed queue e => s!"[LOGGER ERROR] Async sink '{queue}' write failed: {e.message}"
  | deliveryFailed queue inner e =>
    s!"[LOGGER ERROR] Async sink '{queue}' inner sink '{inner}' failed: {e.message}"
  | deliveryPanicked queue inner =>
    s!"[LOGGER CRITICAL] Async sink '{queue}' inner sink '{inner}' panicked. The worker continues."
  | lastFlushFailed queue e =>
    s!"[LOGGER ERROR] Async sink '{queue}' failed to flush on exit: {e.message}"
  | workerPanicked queue =>
    s!"[LOGGER ERROR] Async sink '{queue}' worker panicked during shutdown: " ++ "Any \x7b .. \x7d"
  | workerLate queue timeout =>
    s!"[LOGGER WARNING] Async sink '{queue}' worker did not finish within {timeout.text} timeout. " ++
      "Some logs may be lost."
  | dropSummary queue dropped enqueued =>
    s!"[LOGGER WARNING] Async sink '{queue}' shut down with {dropped} dropped logs (drop rate: " ++
      Text.fixed 2 (Metrics.percentage dropped (enqueued + dropped)) ++ "%)"
  | closingFlushFailed path e =>
    s!"[LOGGER ERROR] Failed to flush '{path}' on drop: {e.message}"

end Notice

end Logbook
