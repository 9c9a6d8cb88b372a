import Benri.Service.CompleteUpload
import Benri.Service.CleanupStaleVideos
import Benri.Service.DeleteVideo
import Benri.Service.ProcessVideo

namespace Benri.Service

open Benri.Data Benri.Domain Benri.Postgres Benri.Storage Benri.Transition

/-! # The whole service

Any number of calls of each use case, one port call a step.  A handler runs on
behalf of a task row that is there; what the workers do to the rows' scheduling
columns is any of their statements at any time, so nothing below depends on when
or how often they dispatch a task.
-/

/-- The statements of the workers, and the system tasks they make sure of. -/
inductive TaskStatement where
  | markInProgress (ids : List TaskId) (startedAt : Instant)
  | batchUpdate (updates : List TaskUpdate)
  | resetStale
  | createSystemTask (seed : TaskSeed)

def taskStatement (stores : Stores) : TaskStatement → Option Stores
  | .markInProgress ids startedAt =>
      some { stores with tasks := markInProgress stores.tasks ids startedAt }
  | .batchUpdate updates => some { stores with tasks := batchUpdate stores.tasks updates }
  | .resetStale => some { stores with tasks := resetStale stores.tasks stores.now }
  | .createSystemTask seed =>
      (stores.tasks.insert? (pendingTask stores CleanupStaleVideosTaskMetadata.mk seed)).map
        fun tasks => { stores with tasks }

/-- Whether a row's metadata is that of one video. -/
def metadataNames (metadata : Json) (id : VideoId) : Bool :=
  match metadata with
  | .object [(field, .string text)] => decide (field = "video_id") && decide (text = id.uuid.text)
  | _ => false

def processesVideo (task : Task) (id : VideoId) : Bool :=
  decide (task.metadataType = ProcessVideoTaskMetadata.METADATA_TYPE) &&
    metadataNames task.metadata id

def deletesVideo (task : Task) (id : VideoId) : Bool :=
  decide (task.metadataType = DeleteVideoTaskMetadata.METADATA_TYPE) &&
    metadataNames task.metadata id

structure State where
  stores : Stores
  completions : List Completion
  executions : List Execution
  sweeps : List SweepPhase
  deletions : List Deletion

def State.initial (now : Instant) : State where
  stores := .initial now
  completions := []
  executions := []
  sweeps := []
  deletions := []

inductive Event where
  | advance (now : Instant)
  | initiate (id : VideoId) (title : String) (format : VideoFormat) (applied : Bool)
  | putOriginal (id : VideoId) (format : VideoFormat) (contentType : String) (body : Body)
  | tasks (statement : TaskStatement)
  | startCompletion (id : VideoId)
  | completion (index : Nat) (event : CompletionEvent)
  | startExecution (task : TaskId) (id : VideoId)
  | execution (index : Nat) (event : ExecutionEvent)
  | startSweep
  | sweep (index : Nat) (event : SweepEvent)
  | startDeletion (task : TaskId) (id : VideoId)
  | deletion (index : Nat) (event : DeletionEvent)

/-- The row that `InitiateUploadUseCase::execute` inserts under a fresh id. -/
def newVideo (stores : Stores) (id : VideoId) (title : String) (format : VideoFormat) : Video where
  id := id
  shareToken := none
  title := title
  format := format
  status := .pendingUpload
  uploadKey := originalKey id format
  createdAt := stores.now

def initiateStep (stores : Stores) (id : VideoId) (title : String) (format : VideoFormat)
    (applied : Bool) : Option Stores :=
  if id ∈ stores.issued then none
  else if applied then
    (stores.videos.insert? (newVideo stores id title format)).map fun videos =>
      { stores with videos, issued := stores.issued ++ [id] }
  else some { stores with issued := stores.issued ++ [id] }

/-- The uploader's presigned PUT, which outlives the row. -/
def putOriginalStep (stores : Stores) (id : VideoId) (format : VideoFormat)
    (contentType : String) (body : Body) : Stores :=
  { stores with objects := uploadBytes stores.objects (originalKey id format) body contentType }

def State.withStores (state : State) (stores : Stores) : State := { state with stores }

/-- One component of a kind takes a step. -/
def slotStep {Slot : Type} (slots : List Slot) (index : Nat)
    (step : Slot → Option (Stores × Slot)) : Option (Stores × List Slot) :=
  slots[index]?.bind fun slot =>
    (step slot).map fun answer => (answer.1, slots.set index answer.2)

def step (state : State) : Event → Option State
  | .advance now =>
      if state.stores.now ≤ now then some (state.withStores { state.stores with now }) else none
  | .initiate id title format applied =>
      (initiateStep state.stores id title format applied).map state.withStores
  | .putOriginal id format contentType body =>
      some (state.withStores (putOriginalStep state.stores id format contentType body))
  | .tasks statement => (taskStatement state.stores statement).map state.withStores
  | .startCompletion id =>
      some { state with completions := state.completions ++ [⟨id, .findById⟩] }
  | .completion index event =>
      (slotStep state.completions index fun completion =>
        (completionStep state.stores completion event).map fun answer =>
          (answer.1, ⟨completion.id, answer.2⟩)).map fun answer =>
            { state with stores := answer.1, completions := answer.2 }
  | .startExecution task id =>
      if (state.stores.tasks.find? task).any fun row => processesVideo row id then
        some { state with executions := state.executions ++ [.start id] }
      else none
  | .execution index event =>
      (slotStep state.executions index fun execution =>
        executionStep state.stores execution event).map fun answer =>
          { state with stores := answer.1, executions := answer.2 }
  | .startSweep => some { state with
      sweeps := state.sweeps ++ [.findStale (state.stores.now - STALE_VIDEO_AGE)] }
  | .sweep index event =>
      (slotStep state.sweeps index fun phase => sweepStep state.stores phase event).map
        fun answer => { state with stores := answer.1, sweeps := answer.2 }
  | .startDeletion task id =>
      if (state.stores.tasks.find? task).any fun row => deletesVideo row id then
        some { state with deletions := state.deletions ++ [⟨id, .findById⟩] }
      else none
  | .deletion index event =>
      (slotStep state.deletions index fun deletion =>
        (deletionStep state.stores deletion event).map fun answer =>
          (answer.1, ⟨deletion.id, answer.2⟩)).map fun answer =>
            { state with stores := answer.1, deletions := answer.2 }

end Benri.Service
