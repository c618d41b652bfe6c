import OpenJobSpec.Wire.Job

/-! # Queues and their statistics as the server returns them -/
namespace OpenJobSpec

structure Queue where
  name : String
  status : String := "active"
  createdAt : Option DateTime := none
deriving DecidableEq

def Queue.fromDict (reader : TextReader) (data : Json) : Except Exn Queue := do
  let decoder ← WireDecoder.object data "queue"
  let name ← decoder.requiredString "name"
  let status ← decoder.string "status" (some "active")
  let createdAt ← decoder.datetime reader "created_at"
  return ⟨name, orElseString status "active", createdAt⟩

structure QueueStats where
  queue : String
  status : String
  available : ℤ := 0
  active : ℤ := 0
  scheduled : ℤ := 0
  retryable : ℤ := 0
  discarded : ℤ := 0
  completedLastHour : ℤ := 0
  failedLastHour : ℤ := 0
  avgDurationMs : PyFloat := .finite 0
  avgWaitMs : PyFloat := .finite 0
  throughputPerSecond : PyFloat := .finite 0
  computedAt : Option DateTime := none
deriving DecidableEq

def QueueStats.fromDict (reader : TextReader) (data : Json) : Except Exn QueueStats := do
  let decoder ← WireDecoder.object data "queue_stats"
  let stats ← WireDecoder.object (decoder.value "stats" (.object [])) "queue_stats.stats"
  let queue ← decoder.requiredString "queue"
  let status ← decoder.string "status" (some "active")
  let available ← stats.integer "available" (some 0)
  let active ← stats.integer "active" (some 0)
  let scheduled ← stats.integer "scheduled" (some 0)
  let retryable ← stats.integer "retryable" (some 0)
  let discarded ← stats.integer "discarded" (some 0)
  let completedLastHour ← stats.integer "completed_last_hour" (some 0)
  let failedLastHour ← stats.integer "failed_last_hour" (some 0)
  let avgDurationMs ← stats.number "avg_duration_ms" (.finite 0)
  let avgWaitMs ← stats.number "avg_wait_ms" (.finite 0)
  let throughputPerSecond ← stats.number "throughput_per_second" (.finite 0)
  let computedAt ← decoder.datetime reader "computed_at"
  return {
    queue, avgDurationMs, avgWaitMs, throughputPerSecond, computedAt
    status := orElseString status "active"
    available := available.getD 0
    active := active.getD 0
    scheduled := scheduled.getD 0
    retryable := retryable.getD 0
    discarded := discarded.getD 0
    completedLastHour := completedLastHour.getD 0
    failedLastHour := failedLastHour.getD 0 }

end OpenJobSpec
