import Benri.Service.Stores

namespace Benri.Service

open Benri.Data Benri.Domain Benri.Postgres Benri.Storage Benri.Transition

/-! # `CleanupStaleVideosUseCase::execute` -/

/-- 24 hours in milliseconds. -/
def STALE_VIDEO_AGE : Int := 24 * 60 * 60 * 1000

structure CleanupStats where
  pendingScheduled : Nat
  stuckScheduled : Nat
  failedScheduled : Nat
deriving DecidableEq, Repr

inductive SweepPhase where
  | findStale (threshold : Instant)
  | findFailed (threshold : Instant) (stale : List Video)
  | markFailed (stale failed : List Video)
  | schedule (stale failed : List Video)
  | returned (result : Except String CleanupStats)
  | cut

inductive SweepEvent where
  | call (fault : Fault)
  | schedule (fault : Fault) (seeds : List TaskSeed)
  | cut

/-- Each id of a stuck video, one that waits for a worker or is with one. -/
def collectStuckIds (videos : List Video) : List VideoId :=
  (videos.filter fun video =>
    decide (video.status = .uploaded) || decide (video.status = .processing)).map Video.id

def buildDeleteTasks (stores : Stores) (videos : List Video) (seeds : List TaskSeed) : List Task :=
  List.zipWith (fun video seed => pendingTask stores (DeleteVideoTaskMetadata.mk video.id) seed)
    videos seeds

/-- The casts to `u32` keep the counts: they are counts of what `bulk_create` was
given as arrays, and PostgreSQL has no arrays of `2 ^ 27` elements. -/
def cleanupStats (stale failed : List Video) : CleanupStats where
  pendingScheduled := (stale.filter fun video => decide (video.status = .pendingUpload)).length
  stuckScheduled := (collectStuckIds stale).length
  failedScheduled := failed.length

/-- After the two queries the sweep skips the statements that have nothing to do. -/
def sweepSchedule (stale failed : List Video) : SweepPhase :=
  if stale ++ failed = [] then .returned (.ok (cleanupStats stale failed))
  else .schedule stale failed

def sweepFindStale (stores : Stores) (fault : Fault) (threshold : Instant) : SweepPhase :=
  match (attempt fault databaseError stores stores (findStale stores.videos threshold)).2 with
  | .error error => .returned (.error error)
  | .ok stale => .findFailed threshold stale

def sweepFindFailed (stores : Stores) (fault : Fault) (threshold : Instant)
    (stale : List Video) : SweepPhase :=
  match (attempt fault databaseError stores stores
    (findFailedBefore stores.videos threshold)).2 with
  | .error error => .returned (.error error)
  | .ok failed =>
      if collectStuckIds stale = [] then sweepSchedule stale failed else .markFailed stale failed

def sweepMarkFailed (stores : Stores) (fault : Fault) (stale failed : List Video) :
    Stores × SweepPhase :=
  match attempt fault databaseError stores { stores with
    videos := bulkMarkFailed stores.videos (collectStuckIds stale) [.uploaded, .processing] } () with
  | (reached, .error error) => (reached, .returned (.error error))
  | (reached, .ok ()) => (reached, sweepSchedule stale failed)

/-- `bulk_create`: one statement for all the tasks. -/
def sweepBulkCreate (stores : Stores) (fault : Fault) (stale failed : List Video)
    (seeds : List TaskSeed) : Stores × SweepPhase :=
  match stores.tasks.insertAll? (buildDeleteTasks stores (stale ++ failed) seeds) with
  | none => (stores, .returned (.error duplicateKey))
  | some tasks =>
      match attempt fault databaseError stores { stores with tasks } () with
      | (reached, .error error) => (reached, .returned (.error error))
      | (reached, .ok ()) => (reached, .returned (.ok (cleanupStats stale failed)))

def sweepStep (stores : Stores) (phase : SweepPhase) : SweepEvent → Option (Stores × SweepPhase)
  | .call fault =>
      match phase with
      | .findStale threshold => some (stores, sweepFindStale stores fault threshold)
      | .findFailed threshold stale => some (stores, sweepFindFailed stores fault threshold stale)
      | .markFailed stale failed => some (sweepMarkFailed stores fault stale failed)
      | _ => none
  | .schedule fault seeds =>
      match phase with
      | .schedule stale failed =>
          if seeds.length = (stale ++ failed).length then
            some (sweepBulkCreate stores fault stale failed seeds)
          else none
      | _ => none
  | .cut =>
      match phase with
      | .returned _ => none
      | _ => some (stores, .cut)

/-! ## What one step does -/

/-- A step of a sweep, with its guards.  A statement that errs has taken effect or
has not, and ends the sweep either way. -/
inductive SweepTurn (stores : Stores) :
    SweepPhase → SweepEvent → Stores → SweepPhase → Prop where
  | foundStale (threshold : Instant) :
      SweepTurn stores (.findStale threshold) (.call .none) stores
        (.findFailed threshold (findStale stores.videos threshold))
  | foundFailed (threshold : Instant) (stale : List Video) (stuck : collectStuckIds stale ≠ []) :
      SweepTurn stores (.findFailed threshold stale) (.call .none) stores
        (.markFailed stale (findFailedBefore stores.videos threshold))
  | foundNoneStuck (threshold : Instant) (stale : List Video)
      (unstuck : collectStuckIds stale = []) :
      SweepTurn stores (.findFailed threshold stale) (.call .none) stores
        (sweepSchedule stale (findFailedBefore stores.videos threshold))
  | marked {fault : Fault} (stale failed : List Video) (next : SweepPhase)
      (answered : next = sweepSchedule stale failed ∨ ∃ error, next = .returned (.error error)) :
      SweepTurn stores (.markFailed stale failed) (.call fault) { stores with
        videos := bulkMarkFailed stores.videos (collectStuckIds stale) [.uploaded, .processing] }
        next
  | scheduled {fault : Fault} (stale failed : List Video) (seeds : List TaskSeed)
      (tasks : TaskTable) (next : SweepPhase)
      (enough : seeds.length = (stale ++ failed).length)
      (inserted : stores.tasks.insertAll? (buildDeleteTasks stores (stale ++ failed) seeds) =
        some tasks)
      (answered : next = .returned (.ok (cleanupStats stale failed)) ∨
        ∃ error, next = .returned (.error error)) :
      SweepTurn stores (.schedule stale failed) (.schedule fault seeds) { stores with tasks } next
  | gaveUp {phase : SweepPhase} {event : SweepEvent} (error : String) :
      SweepTurn stores phase event stores (.returned (.error error))
  | cut {phase : SweepPhase} : SweepTurn stores phase .cut stores .cut

variable {stores reached : Stores} {phase next : SweepPhase} {event : SweepEvent}

theorem sweepMarkFailed_turn {fault : Fault} {stale failed : List Video}
    (moved : sweepMarkFailed stores fault stale failed = (reached, next)) :
    SweepTurn stores (.markFailed stale failed) (.call fault) reached next := by
  unfold sweepMarkFailed at moved
  cases fault with
  | none => cases moved; exact .marked stale failed _ (.inl rfl)
  | error applied message =>
      cases applied <;> cases moved
      · exact .gaveUp _
      · exact .marked stale failed _ (.inr ⟨_, rfl⟩)

theorem sweepBulkCreate_turn {fault : Fault} {stale failed : List Video} {seeds : List TaskSeed}
    (enough : seeds.length = (stale ++ failed).length)
    (moved : sweepBulkCreate stores fault stale failed seeds = (reached, next)) :
    SweepTurn stores (.schedule stale failed) (.schedule fault seeds) reached next := by
  unfold sweepBulkCreate at moved
  split at moved
  · cases moved; exact .gaveUp _
  · rename_i tasks inserted
    cases fault with
    | none => cases moved; exact .scheduled stale failed seeds tasks _ enough inserted (.inl rfl)
    | error applied message =>
        cases applied <;> cases moved
        · exact .gaveUp _
        · exact .scheduled stale failed seeds tasks _ enough inserted (.inr ⟨_, rfl⟩)

theorem sweepStep_turn (stepped : sweepStep stores phase event = some (reached, next)) :
    SweepTurn stores phase event reached next := by
  cases event with
  | call fault =>
      cases phase <;> simp only [sweepStep, reduceCtorEq] at stepped
      · rename_i threshold
        cases stepped
        cases fault with
        | none => exact .foundStale threshold
        | error applied message => exact .gaveUp _
      · rename_i threshold stale
        cases stepped
        cases fault with
        | none =>
            simp only [sweepFindFailed, attempt_none]
            split
            · exact .foundNoneStuck threshold stale ‹_›
            · exact .foundFailed threshold stale ‹_›
        | error applied message => exact .gaveUp _
      · exact sweepMarkFailed_turn (Option.some.inj stepped)
  | schedule fault seeds =>
      cases phase <;> simp only [sweepStep, reduceCtorEq] at stepped
      split at stepped
      · exact sweepBulkCreate_turn ‹_› (Option.some.inj stepped)
      · contradiction
  | cut =>
      cases phase <;> simp only [sweepStep, reduceCtorEq] at stepped <;> cases stepped <;>
        exact .cut

end Benri.Service
