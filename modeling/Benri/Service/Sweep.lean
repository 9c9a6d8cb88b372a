import Benri.Service.Rows

namespace Benri.Service

open Benri.Data Benri.Domain Benri.Postgres Benri.Transition

/-! # A sweep that runs alone

What a sweep does to the tables when nobody else writes them, from its first
query to its end and in whatever phase it is left, and what a later sweep makes
of that.
-/

/-- What happens while a sweep runs alone: its own steps, and time. -/
inductive SweepMove where
  | tick (now : Instant)
  | step (event : SweepEvent)

def soloSweep (state : Stores × SweepPhase) : SweepMove → Option (Stores × SweepPhase)
  | .tick now => if state.1.now ≤ now then some ({ state.1 with now }, state.2) else none
  | .step event => sweepStep state.1 state.2 event

/-- A row that the sweep has to collect. -/
def collectable (threshold : Instant) (row : Video) : Bool :=
  decide (row.status ≠ .processed) && decide (row.createdAt < threshold)

/-- A row that the sweep has to mark `FAILED`. -/
def stuck (threshold : Instant) (row : Video) : Bool :=
  (decide (row.status = .uploaded) || decide (row.status = .processing)) &&
    decide (row.createdAt < threshold)

/-- The rows after `bulk_mark_failed`. -/
def marked (videos : VideoTable) (threshold : Instant) : VideoTable :=
  bulkMarkFailed videos (collectStuckIds (findStale videos threshold)) [.uploaded, .processing]

/-! ## The two queries -/

variable {videos : VideoTable} {threshold : Instant} {id : VideoId}

theorem mem_collectStuckIds :
    id ∈ collectStuckIds (findStale videos threshold) ↔
      ∃ row, videos.find? id = some row ∧ stuck threshold row = true := by
  simp only [collectStuckIds, findStale, Table.select, List.mem_map, List.mem_filter, stuck,
    Bool.and_eq_true, Bool.or_eq_true, decide_eq_true_eq, Table.mem_iff_find?]
  constructor
  · rintro ⟨row, ⟨⟨found, _, old⟩, waits⟩, rfl⟩
    exact ⟨row, found, waits, old⟩
  · rintro ⟨row, found, waits, old⟩
    obtain rfl := Table.key_of_find? found
    refine ⟨row, ⟨⟨found, ?_, old⟩, waits⟩, rfl⟩
    rcases waits with uploaded | processing
    · rw [uploaded]
      rfl
    · rw [processing]
      rfl

theorem find?_marked (videos : VideoTable) (threshold : Instant) (id : VideoId) :
    (marked videos threshold).find? id = (videos.find? id).map fun row =>
      if stuck threshold row then { row with status := .failed } else row := by
  rw [marked, find?_bulkMarkFailed]
  refine Option.map_congr fun row found => ?_
  have selected : id ∈ collectStuckIds (findStale videos threshold) ↔
      stuck threshold row = true := by
    rw [mem_collectStuckIds, found]
    simp
  by_cases waits : stuck threshold row = true
  · have status : row.status ∈ [VideoStatus.uploaded, .processing] := by
      simp only [stuck, Bool.and_eq_true, Bool.or_eq_true, decide_eq_true_eq] at waits
      simpa using waits.1
    rw [if_pos ⟨selected.mpr waits, status⟩, if_pos waits]
  · rw [if_neg fun both => waits (selected.mp both.1), if_neg waits]

/-- Without stuck rows there is nothing to mark. -/
theorem marked_of_none (none : collectStuckIds (findStale videos threshold) = []) :
    marked videos threshold = videos := by
  rw [marked, none]
  exact update_untouched (by simp [Table.select])

theorem countP_select (videos : VideoTable) (condition : Video → Bool) (id : VideoId) :
    (videos.select condition).countP (fun row => decide (row.id = id)) =
      (videos.find? id).toList.countP condition := by
  rw [← videos.select_key id, Table.select, Table.select, List.countP_filter, List.countP_filter]
  exact List.countP_congr fun row _ => by simp [and_comm]

/-- The two queries select each row that is to be collected once, and no other. -/
theorem countP_selected (videos : VideoTable) (threshold : Instant) (id : VideoId) :
    (findStale videos threshold ++ findFailedBefore videos threshold).countP
        (fun row => decide (row.id = id)) =
      if (videos.find? id).any (collectable threshold) then 1 else 0 := by
  rw [List.countP_append, findStale, findFailedBefore, countP_select, countP_select]
  cases videos.find? id with
  | none => rfl
  | some row =>
      by_cases old : row.createdAt < threshold
      · cases status : row.status <;> simp [collectable, status, old]
      · simp [collectable, old]

/-! ## The tasks -/

/-- One task for each video: a video's tasks are counted by the video. -/
theorem countP_buildDeleteTasks (stores : Stores) (id : VideoId) {videos : List Video}
    {seeds : List TaskSeed} (enough : seeds.length = videos.length) :
    (buildDeleteTasks stores videos seeds).countP (fun task => deletesVideo task id) =
      videos.countP fun row => decide (row.id = id) := by
  induction videos generalizing seeds with
  | nil => rfl
  | cons row rest ih =>
      cases seeds with
      | nil => cases enough
      | cons seed seeds =>
          have others := ih (Nat.succ.inj enough)
          simp only [buildDeleteTasks, List.zipWith_cons_cons, List.countP_cons] at others ⊢
          rw [others, deletesVideo_delete]

theorem cleanupStats_sum (videos : VideoTable) (threshold : Instant) (failed : List Video) :
    (cleanupStats (findStale videos threshold) failed).pendingScheduled +
        (cleanupStats (findStale videos threshold) failed).stuckScheduled +
        (cleanupStats (findStale videos threshold) failed).failedScheduled =
      (findStale videos threshold ++ failed).length := by
  simp only [cleanupStats, collectStuckIds, List.length_map, List.length_append,
    Nat.add_right_cancel_iff, ← List.countP_eq_length_filter]
  have complete : ∀ row ∈ findStale videos threshold,
      decide (row.status = .pendingUpload) = true ↔
        decide (¬(decide (row.status = .uploaded) || decide (row.status = .processing)) = true) =
          true := by
    intro row member
    have status := (List.mem_filter.mp member).2
    cases same : row.status <;> simp [same] at status ⊢
  rw [List.countP_congr complete, Nat.add_comm]
  exact (List.length_eq_countP_add_countP _).symm

/-! ## The phases of a sweep -/

/-- Where a sweep that started at `start` is. -/
inductive SweepAt (start : Stores) (threshold : Instant) (stores : Stores) : SweepPhase → Prop where
  | searching (videos : stores.videos = start.videos) (tasks : stores.tasks = start.tasks) :
      SweepAt start threshold stores (.findStale threshold)
  | searchingFailed (videos : stores.videos = start.videos) (tasks : stores.tasks = start.tasks) :
      SweepAt start threshold stores (.findFailed threshold (findStale start.videos threshold))
  | marking (videos : stores.videos = start.videos) (tasks : stores.tasks = start.tasks) :
      SweepAt start threshold stores (.markFailed (findStale start.videos threshold)
        (findFailedBefore start.videos threshold))
  | scheduling (videos : stores.videos = marked start.videos threshold)
      (tasks : stores.tasks = start.tasks) :
      SweepAt start threshold stores (.schedule (findStale start.videos threshold)
        (findFailedBefore start.videos threshold))
  | finished (videos : stores.videos = marked start.videos threshold) (clock : Stores)
      (seeds : List TaskSeed)
      (enough : seeds.length = (findStale start.videos threshold ++
        findFailedBefore start.videos threshold).length)
      (tasks : stores.tasks.rows = start.tasks.rows ++ buildDeleteTasks clock
        (findStale start.videos threshold ++ findFailedBefore start.videos threshold) seeds) :
      SweepAt start threshold stores (.returned (.ok (cleanupStats
        (findStale start.videos threshold) (findFailedBefore start.videos threshold))))
  | failed (error : String)
      (videos : stores.videos = start.videos ∨ stores.videos = marked start.videos threshold) :
      SweepAt start threshold stores (.returned (.error error))
  | cut (videos : stores.videos = start.videos ∨ stores.videos = marked start.videos threshold) :
      SweepAt start threshold stores .cut

section Phases

variable {start stores reached : Stores} {phase next : SweepPhase} {event : SweepEvent}

theorem SweepAt.rows (position : SweepAt start threshold stores phase) :
    stores.videos = start.videos ∨ stores.videos = marked start.videos threshold := by
  cases position with
  | searching videos tasks | searchingFailed videos tasks | marking videos tasks =>
      exact .inl videos
  | scheduling videos tasks => exact .inr videos
  | finished videos clock seeds enough tasks => exact .inr videos
  | failed error videos | cut videos => exact videos

theorem SweepAt.tick (position : SweepAt start threshold stores phase) (now : Instant) :
    SweepAt start threshold { stores with now } phase := by
  cases position with
  | searching videos tasks => exact .searching videos tasks
  | searchingFailed videos tasks => exact .searchingFailed videos tasks
  | marking videos tasks => exact .marking videos tasks
  | scheduling videos tasks => exact .scheduling videos tasks
  | finished videos clock seeds enough tasks => exact .finished videos clock seeds enough tasks
  | failed error videos => exact .failed error videos
  | cut videos => exact .cut videos

/-- Once the rows are marked, the tasks are scheduled unless there are none. -/
theorem SweepAt.schedule (videos : stores.videos = marked start.videos threshold)
    (tasks : stores.tasks = start.tasks) :
    SweepAt start threshold stores (sweepSchedule (findStale start.videos threshold)
      (findFailedBefore start.videos threshold)) := by
  unfold sweepSchedule
  split
  · rename_i nothing
    refine .finished videos stores [] (by rw [nothing]; rfl) ?_
    rw [nothing, tasks, buildDeleteTasks, List.zipWith_nil_left, List.append_nil]
  · exact .scheduling videos tasks

theorem SweepAt.step (position : SweepAt start threshold stores phase)
    (stepped : sweepStep stores phase event = some (reached, next)) :
    SweepAt start threshold reached next := by
  cases sweepStep_turn stepped with
  | foundStale =>
      cases position with
      | searching videos tasks =>
          rw [videos]
          exact .searchingFailed videos tasks
  | foundFailed =>
      cases position with
      | searchingFailed videos tasks =>
          rw [videos]
          exact .marking videos tasks
  | foundNoneStuck threshold stale unstuck =>
      cases position with
      | searchingFailed videos tasks =>
          rw [videos]
          exact .schedule (videos.trans (marked_of_none unstuck).symm) tasks
  | marked stale failed next answered =>
      cases position with
      | marking videos tasks =>
          have done : bulkMarkFailed stores.videos
              (collectStuckIds (findStale start.videos threshold)) [.uploaded, .processing] =
              marked start.videos threshold := by
            rw [videos, marked]
          rcases answered with rfl | ⟨error, rfl⟩
          · exact .schedule done tasks
          · exact .failed _ (.inr done)
  | scheduled stale failed seeds created next enough inserted answered =>
      cases position with
      | scheduling videos tasks =>
          have rows := Table.insertAll?_rows inserted
          rw [tasks] at rows
          rcases answered with rfl | ⟨error, rfl⟩
          · exact .finished videos stores seeds enough rows
          · exact .failed _ (.inr videos)
  | gaveUp error => exact .failed error position.rows
  | cut => exact .cut position.rows

/-- The stores beside the two tables, which a sweep leaves alone. -/
def SameElsewhere (before after : Stores) : Prop :=
  after.objects = before.objects ∧ after.issued = before.issued ∧ after.tokens = before.tokens

theorem sweepStep_elsewhere (stepped : sweepStep stores phase event = some (reached, next)) :
    SameElsewhere stores reached := by
  cases sweepStep_effect stepped with
  | quiet | marked | scheduled => exact ⟨rfl, rfl, rfl⟩

end Phases

/-- A sweep that runs alone stays in a phase that fits what it has done. -/
theorem sweepAt_of_reaches {start : Stores} {state : Stores × SweepPhase}
    (reached : Reaches soloSweep Anything (start, .findStale threshold) state) :
    SweepAt start threshold state.1 state.2 ∧ SameElsewhere start state.1 := by
  refine reached.preserves
    (fun state => SweepAt start threshold state.1 state.2 ∧ SameElsewhere start state.1)
    ⟨.searching rfl rfl, rfl, rfl, rfl⟩ fun {before after move} kept _ stepped => ?_
  obtain ⟨position, objects, issued, tokens⟩ := kept
  cases move with
  | tick now =>
      simp only [soloSweep] at stepped
      split at stepped
      · cases stepped
        exact ⟨position.tick now, objects, issued, tokens⟩
      · cases stepped
  | step event =>
      obtain ⟨sameObjects, sameIssued, sameTokens⟩ := sweepStep_elsewhere stepped
      exact ⟨position.step stepped, sameObjects.trans objects, sameIssued.trans issued,
        sameTokens.trans tokens⟩

/-! ## What a sweep achieves -/

/-- A sweep that succeeded: one task for each row it had to collect, the stuck rows
marked, counters that add up, and nothing else changed. -/
structure SweepOutcome (start : Stores) (threshold : Instant) (after : Stores)
    (stats : CleanupStats) : Prop where
  tasks : ∃ added, after.tasks.rows = start.tasks.rows ++ added ∧
    (∀ id, added.countP (fun task => deletesVideo task id) =
      if (start.videos.find? id).any (collectable threshold) then 1 else 0) ∧
    (∀ task ∈ added, ∃ id, deletesVideo task id = true) ∧
    stats.pendingScheduled + stats.stuckScheduled + stats.failedScheduled = added.length
  videos : ∀ id, after.videos.find? id = (start.videos.find? id).map fun row =>
    if stuck threshold row then { row with status := .failed } else row
  elsewhere : SameElsewhere start after

theorem sweepOutcome_of_reaches {start after : Stores} {stats : CleanupStats}
    (reached : Reaches soloSweep Anything (start, .findStale threshold)
      (after, .returned (.ok stats))) : SweepOutcome start threshold after stats := by
  obtain ⟨position, elsewhere⟩ := sweepAt_of_reaches reached
  cases position with
  | finished videos clock seeds enough tasks =>
      refine ⟨⟨_, tasks, fun id => ?_, fun task member => ?_, ?_⟩, fun id => ?_, elsewhere⟩
      · rw [countP_buildDeleteTasks clock id enough, countP_selected]
      · obtain ⟨id, _, stores, seed, rfl⟩ := DeletesOnly.build clock _ seeds task member
        exact ⟨id, by simp⟩
      · rw [cleanupStats_sum, buildDeleteTasks, List.length_zipWith, enough, Nat.min_self]
      · rw [show after.videos = _ from videos, find?_marked]

/-- What is left of the rows a sweep had to collect, after any number of attempts. -/
def StillCollectable (start now : VideoTable) : Prop :=
  ∀ id row, start.find? id = some row → row.status ≠ .processed →
    ∃ kept, now.find? id = some kept ∧ kept.status ≠ .processed ∧ kept.createdAt = row.createdAt

theorem stillCollectable_marked (videos : VideoTable) (threshold : Instant) :
    StillCollectable videos (marked videos threshold) := by
  intro id row found unprocessed
  rw [find?_marked, found, Option.map_some]
  split
  · exact ⟨_, rfl, fun processed => (by cases processed), rfl⟩
  · exact ⟨row, rfl, unprocessed, rfl⟩

/-- Sweeps that came to an end somewhere, by an error or a crash between any two of
their calls.  Between them only the task rows and the clock move. -/
inductive SweepAttempts (start : Stores) : Stores → Prop where
  | none : SweepAttempts start start
  | another {before after resumed : Stores} {threshold : Instant} {phase : SweepPhase}
      (earlier : SweepAttempts start before)
      (reached : Reaches soloSweep Anything (before, .findStale threshold) (after, phase))
      (rows : resumed.videos = after.videos) : SweepAttempts start resumed

theorem SweepAttempts.stillCollectable {start now : Stores} (attempts : SweepAttempts start now) :
    StillCollectable start.videos now.videos := by
  induction attempts with
  | none => exact fun id row found unprocessed => ⟨row, found, unprocessed, rfl⟩
  | another earlier reached rows ih =>
      intro id row found unprocessed
      obtain ⟨kept, foundKept, stillUnprocessed, age⟩ := ih id row found unprocessed
      rw [rows]
      rcases (sweepAt_of_reaches reached).1.rows with same | same
      · rw [same]
        exact ⟨kept, foundKept, stillUnprocessed, age⟩
      · rw [same]
        obtain ⟨last, foundLast, lastUnprocessed, sameAge⟩ :=
          stillCollectable_marked _ _ id kept foundKept stillUnprocessed
        exact ⟨last, foundLast, lastUnprocessed, sameAge.trans age⟩

/-- A sweep that succeeds collects what it has to; whatever attempts failed before
it, it schedules every video that one of them had selected. -/
theorem sweep_collects (start : Stores) (threshold : Instant) :
    (∀ after stats, Reaches soloSweep Anything (start, .findStale threshold)
        (after, .returned (.ok stats)) → SweepOutcome start threshold after stats) ∧
      ∀ resumed later after stats, SweepAttempts start resumed → threshold ≤ later →
        Reaches soloSweep Anything (resumed, .findStale later) (after, .returned (.ok stats)) →
        ∃ added, after.tasks.rows = resumed.tasks.rows ++ added ∧
          ∀ id row, start.videos.find? id = some row → collectable threshold row = true →
            ∃ task ∈ added, deletesVideo task id = true := by
  refine ⟨fun after stats reached => sweepOutcome_of_reaches reached, ?_⟩
  intro resumed later after stats attempts grew reached
  obtain ⟨added, rows, scheduled, _⟩ := (sweepOutcome_of_reaches reached).tasks
  refine ⟨added, rows, fun id row found selected => ?_⟩
  simp only [collectable, Bool.and_eq_true, decide_eq_true_eq] at selected
  obtain ⟨kept, foundKept, unprocessed, age⟩ :=
    attempts.stillCollectable id row found selected.1
  have still : collectable later kept = true := by
    simp only [collectable, Bool.and_eq_true, decide_eq_true_eq]
    exact ⟨unprocessed, by rw [age]; exact lt_of_lt_of_le selected.2 grew⟩
  have once := scheduled id
  rw [foundKept, Option.any_some, still, if_pos rfl] at once
  have some := List.countP_pos_iff.mp (once ▸ Nat.zero_lt_one)
  exact some

/-- A video that waits for a worker since long ago, and a finished one. -/
private def forgottenVideo : Video :=
  { newVideo (.initial 0) ⟨.ofNat 1⟩ "clip" .mp4 with status := .uploaded }

private def finishedVideo : Video :=
  { newVideo (.initial 0) ⟨.ofNat 2⟩ "clip" .mp4 with
    status := .processed
    shareToken := some "token" }

private def forgottenStores : Stores :=
  { Stores.initial 100 with videos := ⟨[forgottenVideo, finishedVideo], by decide⟩ }

/-- The queries and the update, and a last statement that is not applied. -/
private def failedSweep : List SweepMove :=
  [.step (.call .none), .step (.call .none), .step (.call .none),
    .step (.schedule (.error false "connection lost") [⟨⟨.ofNat 9⟩, none⟩])]

/-- The second sweep finds the row as a failed one, and has nothing to mark. -/
private def secondSweep : List SweepMove :=
  [.step (.call .none), .step (.call .none), .step (.schedule .none [⟨⟨.ofNat 9⟩, none⟩])]

private def firstSweep : List SweepMove :=
  [.step (.call .none), .step (.call .none), .step (.call .none),
    .step (.schedule .none [⟨⟨.ofNat 9⟩, none⟩])]

theorem sweep_collects_forgottenVideo :
    (∃ after stats, SweepOutcome forgottenStores 50 after stats) ∧
      ∃ added, (∃ resumed after : Stores, after.tasks.rows = resumed.tasks.rows ++ added) ∧
        ∃ task ∈ added, deletesVideo task ⟨.ofNat 1⟩ = true := by
  obtain ⟨first, later⟩ := sweep_collects forgottenStores 50
  refine ⟨⟨_, _, first _ _ (reaches_of_run firstSweep rfl)⟩, ?_⟩
  have failed : Reaches soloSweep Anything (forgottenStores, .findStale 50)
      ({ forgottenStores with videos := marked forgottenStores.videos 50 }, _) :=
    reaches_of_run failedSweep rfl
  obtain ⟨added, rows, scheduled⟩ := later _ 60 _ _ (.another .none failed rfl) (by decide)
    (reaches_of_run secondSweep rfl)
  exact ⟨added, ⟨_, _, rows⟩, scheduled ⟨.ofNat 1⟩ forgottenVideo rfl (by decide)⟩

end Benri.Service
