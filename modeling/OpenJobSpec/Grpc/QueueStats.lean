import OpenJobSpec.Foundation.ExceptRules
import OpenJobSpec.Grpc.IntegerFields
import OpenJobSpec.Wire.Queue

/-! # Queue statistics over gRPC

The counters of a `QueueStatistics` message are integers of 64 bits, so they come
back as integers only through the walk over the message.
-/
namespace OpenJobSpec.Grpc

/-- `QueueStatistics`; the averages of the message are read by nobody. -/
structure QueueStatistics where
  available : ℤ := 0
  active : ℤ := 0
  scheduled : ℤ := 0
  retryable : ℤ := 0
  dead : ℤ := 0
  completedLastHour : ℤ := 0
  failedLastHour : ℤ := 0
  paused : Bool := false

structure QueueStatsResponse where
  queue : String := ""
  stats : Option QueueStatistics := none

/-- A counter without presence is printed unless it is zero. -/
def counter (name : String) (n : ℤ) (rest : ProtoMessage) : ProtoMessage :=
  if n = 0 then .absent name rest else .present name (.integer true n) rest

def flag (name : String) (b : Bool) (rest : ProtoMessage) : ProtoMessage :=
  if b then .present name (.other (.bool true)) rest else .absent name rest

def text (name value : String) (rest : ProtoMessage) : ProtoMessage :=
  if value = "" then .absent name rest else .present name (.other (.str value)) rest

def QueueStatistics.toProto (s : QueueStatistics) : ProtoMessage :=
  counter "available" s.available <| counter "active" s.active <|
  counter "scheduled" s.scheduled <| counter "retryable" s.retryable <| counter "dead" s.dead <|
  counter "completed_last_hour" s.completedLastHour <|
  counter "failed_last_hour" s.failedLastHour <| flag "paused" s.paused .nil

def QueueStatsResponse.toProto (r : QueueStatsResponse) : ProtoMessage :=
  text "queue" r.queue <| match r.stats with
    | none => .absent "stats" .nil
    | some stats => .present "stats" (.message stats.toProto) .nil

/-- `GRPCTransport.queue_stats` once the response is decoded. -/
def queueStats (reader : TextReader) (queueName : String) (response : Fields) :
    Except Exn QueueStats := do
  let stats := Fields.get response "stats" (.object [])
  let paused ← stats.getMethod "paused" .null
  let available ← stats.getMethod "available" (.int 0)
  let active ← stats.getMethod "active" (.int 0)
  let scheduled ← stats.getMethod "scheduled" (.int 0)
  let retryable ← stats.getMethod "retryable" (.int 0)
  let dead ← stats.getMethod "dead" (.int 0)
  let completedLastHour ← stats.getMethod "completed_last_hour" (.int 0)
  let failedLastHour ← stats.getMethod "failed_last_hour" (.int 0)
  QueueStats.fromDict reader (.object [
    ("queue", Fields.get response "queue" (.str queueName)),
    ("status", .str (if paused.truthy then "paused" else "active")),
    ("stats", .object [("available", available), ("active", active), ("scheduled", scheduled),
      ("retryable", retryable), ("dead", dead), ("completed_last_hour", completedLastHour),
      ("failed_last_hour", failedLastHour)])])

/-! ## The print of a field without presence -/

theorem get_counter (name other : String) (n : ℤ) (rest : ProtoMessage) (default : Json) :
    Fields.get (counter name n rest).native other default =
      if other = name ∧ n ≠ 0 then .int n else Fields.get rest.native other default := by
  unfold counter
  by_cases hn : n = 0
  · rw [if_pos hn, if_neg (fun h => h.2 hn)]
    rfl
  · rw [if_neg hn]
    change ((((name, Json.int n) :: rest.native).lookup other).getD default) = _
    by_cases hname : other = name
    · rw [hname, List.lookup_cons_self, if_pos ⟨rfl, hn⟩]
      rfl
    · rw [List.lookup_cons, beq_false_of_ne hname, if_neg (fun h => hname h.1)]
      rfl

theorem get_flag (name other : String) (b : Bool) (rest : ProtoMessage) (default : Json) :
    Fields.get (flag name b rest).native other default =
      if other = name ∧ b then .bool true else Fields.get rest.native other default := by
  cases b with
  | false => exact (if_neg (fun h => Bool.false_ne_true h.2)).symm
  | true =>
    change ((((name, Json.bool true) :: rest.native).lookup other).getD default) = _
    by_cases hname : other = name
    · rw [hname, List.lookup_cons_self, if_pos ⟨rfl, rfl⟩]
      rfl
    · rw [List.lookup_cons, beq_false_of_ne hname, if_neg (fun h => hname h.1)]
      rfl

/-- What a reader of the statistics finds: each counter, and zero for one that was not printed. -/
theorem QueueStatistics.get_native (s : QueueStatistics) :
    Fields.get s.toProto.native "available" (.int 0) = .int s.available ∧
    Fields.get s.toProto.native "active" (.int 0) = .int s.active ∧
    Fields.get s.toProto.native "scheduled" (.int 0) = .int s.scheduled ∧
    Fields.get s.toProto.native "retryable" (.int 0) = .int s.retryable ∧
    Fields.get s.toProto.native "dead" (.int 0) = .int s.dead ∧
    Fields.get s.toProto.native "completed_last_hour" (.int 0) = .int s.completedLastHour ∧
    Fields.get s.toProto.native "failed_last_hour" (.int 0) = .int s.failedLastHour ∧
    (Fields.get s.toProto.native "paused" .null).truthy = s.paused := by
  have hnil (name : String) (default : Json) :
      Fields.get ProtoMessage.nil.native name default = default := rfl
  unfold QueueStatistics.toProto
  simp only [get_counter, get_flag, hnil, String.reduceEq, false_and, true_and, if_false]
  grind [Json.truthy]

/-! ## The descriptors -/

theorem names_counter (name : String) (n : ℤ) (rest : ProtoMessage) :
    (counter name n rest).names = name :: rest.names := by
  unfold counter
  split <;> rfl

theorem distinct_counter {name : String} (n : ℤ) {rest : ProtoMessage} (hname : name ∉ rest.names)
    (h : rest.Distinct) : (counter name n rest).Distinct := by
  unfold counter
  split
  · exact ⟨hname, h⟩
  · exact ⟨hname, trivial, h⟩

theorem QueueStatistics.toProto_distinct (s : QueueStatistics) : s.toProto.Distinct := by
  have hflag : (flag "paused" s.paused .nil).names = ["paused"] := by
    unfold flag
    split <;> rfl
  have hlast : (flag "paused" s.paused .nil).Distinct := by
    unfold flag
    split
    · exact ⟨List.not_mem_nil, trivial, trivial⟩
    · exact ⟨List.not_mem_nil, trivial⟩
  unfold QueueStatistics.toProto
  iterate 7 refine distinct_counter _ (by simp only [names_counter, hflag]; decide) ?_
  exact hlast

theorem QueueStatsResponse.toProto_distinct (r : QueueStatsResponse) : r.toProto.Distinct := by
  have htext {rest : ProtoMessage} (hname : "queue" ∉ rest.names) (h : rest.Distinct) :
      (text "queue" r.queue rest).Distinct := by
    unfold text
    split
    · exact ⟨hname, h⟩
    · exact ⟨hname, trivial, h⟩
  unfold QueueStatsResponse.toProto
  cases r.stats with
  | none => exact htext (by decide) ⟨List.not_mem_nil, trivial⟩
  | some stats =>
    refine htext ?_ ⟨List.not_mem_nil, stats.toProto_distinct, trivial⟩
    change "queue" ∉ ["stats"]
    decide

theorem QueueStatsResponse.get_queue (r : QueueStatsResponse) (queueName : String) :
    Fields.get r.toProto.native "queue" (.str queueName) =
      .str (if r.queue = "" then queueName else r.queue) := by
  unfold QueueStatsResponse.toProto text
  split
  · cases r.stats <;> rfl
  · rfl

/-- A response without statistics is read as one whose counters are all zero. -/
theorem QueueStatsResponse.get_stats (r : QueueStatsResponse) :
    Fields.get r.toProto.native "stats" (.object []) =
      .object (r.stats.getD {}).toProto.native := by
  -- the queue's name stands in front, present or absent
  have hget : Fields.get r.toProto.native "stats" (.object []) =
      Fields.get (match r.stats with
        | none => ProtoMessage.absent "stats" .nil
        | some stats => .present "stats" (.message stats.toProto) .nil).native "stats"
          (.object []) := by
    unfold QueueStatsResponse.toProto text
    split <;> rfl
  rw [hget]
  cases r.stats with
  | none => rfl
  | some stats => rfl

/-! ## What the transport reports -/

/-- Whatever the width of its integers in print, the response is reported with every counter of the
message as it is but the dead jobs: they are passed on under a name the decoder does not read. A
response that names no queue is taken for the queue that was asked for. -/
theorem queueStats_reports (reader : TextReader) (queueName : String) (r : QueueStatsResponse) :
    let stats := r.stats.getD {}
    queueStats reader queueName (normalizeIntegerFields r.toProto r.toProto.toDict) = .ok {
      queue := if r.queue = "" then queueName else r.queue
      status := if stats.paused then "paused" else "active"
      available := stats.available
      active := stats.active
      scheduled := stats.scheduled
      retryable := stats.retryable
      discarded := 0
      completedLastHour := stats.completedLastHour
      failedLastHour := stats.failedLastHour } := by
  intro stats
  have hnative : normalizeIntegerFields r.toProto r.toProto.toDict = r.toProto.native :=
    normalizeFields_printFields toInteger_print r.toProto r.toProto_distinct fun _ _ => rfl
  rw [hnative]
  obtain ⟨h1, h2, h3, h4, h5, h6, h7, h8⟩ := stats.get_native
  have hstatus : (if stats.paused = true then "paused" else "active") ≠ "" := by
    split <;> decide
  have hstats : Fields.get r.toProto.native "stats" (.object []) =
      .object stats.toProto.native := r.get_stats
  unfold queueStats
  rw [hstats, r.get_queue]
  simp only [Json.getMethod_object, ExceptRules.ok_bind, h1, h2, h3, h4, h5, h6, h7]
  change Except.ok _ = Except.ok _
  rw [h8, orElseString, if_neg hstatus]
  rfl

end OpenJobSpec.Grpc
