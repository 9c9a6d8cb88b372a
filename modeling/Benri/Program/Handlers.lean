import Benri.Service.CleanupStaleVideos
import Benri.Service.DeleteVideo
import Benri.Service.ProcessVideo

namespace Benri.Program

open Benri.Domain Benri.Service

/-! # The task handlers

A handler runs one use case and turns its answer into the result of the task.
-/

/-- `ProcessVideoHandler::handle`, from what the use case answers on. -/
def processVideoHandle : Except ProcessVideoError Unit → TaskResult
  | .ok () => .success none none
  | .error .videoNotFound => .permanentFailure "video not found"
  | .error (.internal error) => .retryableFailure error none

/-- `DeleteVideoHandler::handle`. -/
def deleteVideoHandle : Except DeleteVideoError Unit → TaskResult
  | .ok () => .success none none
  | .error .videoNotFound => .skip "video already deleted"
  | .error (.internal error) => .retryableFailure error none

def cleanupMessage (stats : CleanupStats) : String :=
  "Scheduled deletion: " ++ toString stats.pendingScheduled ++ " pending, " ++
    toString stats.stuckScheduled ++ " stuck, " ++ toString stats.failedScheduled ++ " failed"

/-- `CleanupStaleHandler::handle`; the only error is an internal one. -/
def cleanupStaleHandle : Except String CleanupStats → TaskResult
  | .ok stats => .success (some (cleanupMessage stats)) none
  | .error error => .retryableFailure ("internal error: " ++ error) none

end Benri.Program
