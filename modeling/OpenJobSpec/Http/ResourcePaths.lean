import OpenJobSpec.Foundation.UrlPath
import OpenJobSpec.Http.Transport
import OpenJobSpec.Python.PyText

/-! # The paths that identifiers are put into

Most operations quote the identifier of the resource that they are about; those
on one queue put its name into the path as it is.
-/
namespace OpenJobSpec

namespace Http

/-- `_ALWAYS_SAFE` -/
def alwaysSafe (c : Char) : Bool := c.isAlphanum || "_.-~".toList.contains c

/-- `quote(text, safe="")` -/
def quote (text : PyText) : Except Exn String := do
  let bytes ← text.encode
  return String.ofList (UrlPath.encode alwaysSafe bytes)

def quotedPath (before : String) (identifier : PyText) (after : String) : Except Exn PyText := do
  let segment ← quote identifier
  return (before ++ segment ++ after : String)

def plainPath (before : String) (identifier : PyText) (after : String) : Except Exn PyText :=
  .ok (before ++ identifier ++ after)

end Http

namespace Durable

def checkpointPath (jobId : PyText) : Except Exn PyText := Http.quotedPath "/checkpoints/" jobId ""

def resumePath (jobId : PyText) : Except Exn PyText := do
  let path ← checkpointPath jobId
  return path ++ ("/resume" : String)

end Durable

namespace Http

/-- What is asked of one resource, by its identifier. -/
inductive ResourceOperation
  | info
  | cancel
  | getProgress
  | queueStats
  | pauseQueue
  | resumeQueue
  | getWorkflow
  | cancelWorkflow
  | retryDeadLetterJob
  | deleteDeadLetterJob
  | unregisterCronJob
  | getSchema
  | deleteSchema
  /-- `DurableContext.checkpoint` -/
  | checkpoint
  /-- `DurableContext.complete` -/
  | complete
  | loadReplayLog
deriving DecidableEq

namespace ResourceOperation

def method : ResourceOperation → String
  | .info => "GET"
  | .cancel => "DELETE"
  | .getProgress => "GET"
  | .queueStats => "GET"
  | .pauseQueue => "POST"
  | .resumeQueue => "POST"
  | .getWorkflow => "GET"
  | .cancelWorkflow => "DELETE"
  | .retryDeadLetterJob => "POST"
  | .deleteDeadLetterJob => "DELETE"
  | .unregisterCronJob => "DELETE"
  | .getSchema => "GET"
  | .deleteSchema => "DELETE"
  | .checkpoint => "POST"
  | .complete => "DELETE"
  | .loadReplayLog => "GET"

def path (identifier : PyText) : ResourceOperation → Except Exn PyText
  | .info => quotedPath "/jobs/" identifier ""
  | .cancel => quotedPath "/jobs/" identifier ""
  | .getProgress => quotedPath "/jobs/" identifier "/progress"
  | .queueStats => plainPath "/queues/" identifier "/stats"
  | .pauseQueue => plainPath "/queues/" identifier "/pause"
  | .resumeQueue => plainPath "/queues/" identifier "/resume"
  | .getWorkflow => quotedPath "/workflows/" identifier ""
  | .cancelWorkflow => quotedPath "/workflows/" identifier ""
  | .retryDeadLetterJob => quotedPath "/dead-letter/" identifier "/retry"
  | .deleteDeadLetterJob => quotedPath "/dead-letter/" identifier ""
  | .unregisterCronJob => quotedPath "/cron/" identifier ""
  | .getSchema => quotedPath "/schemas/" identifier ""
  | .deleteSchema => quotedPath "/schemas/" identifier ""
  | .checkpoint => Durable.checkpointPath identifier
  | .complete => Durable.checkpointPath identifier
  | .loadReplayLog => Durable.resumePath identifier

def url (operation : ResourceOperation) (identifier : PyText) : Except Exn PyText := do
  let path ← operation.path identifier
  return ojsBasePath ++ path

end ResourceOperation

/-- The other requests: their methods and their paths. -/
def fixedRequests : List (String × String) :=
  [("POST", "/ojs/v1/jobs"), ("POST", "/ojs/v1/jobs/batch"), ("POST", "/ojs/v1/workers/fetch"),
    ("POST", "/ojs/v1/workers/ack"), ("POST", "/ojs/v1/workers/nack"),
    ("POST", "/ojs/v1/workers/heartbeat"), ("POST", "/ojs/v1/workers/progress"),
    ("GET", "/ojs/v1/queues"), ("POST", "/ojs/v1/workflows"), ("GET", "/ojs/manifest"),
    ("GET", "/ojs/v1/dead-letter"), ("GET", "/ojs/v1/cron"), ("POST", "/ojs/v1/cron"),
    ("GET", "/ojs/v1/schemas"), ("POST", "/ojs/v1/schemas"), ("GET", "/ojs/v1/health")]

end Http

end OpenJobSpec
