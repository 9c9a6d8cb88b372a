import Benri.Domain.Task

namespace Benri.Domain

open TaskMetadata

/-! # Rescheduling with checked arithmetic

`Task.computeUpdate` computes with unbounded instants.  Here the same functions
are written with the arithmetic the code uses, where `none` is a panic: `chrono`
panics outside its ranges, and a build with overflow checks where an integer
leaves its type.
-/

/-- What a panic depends on: the dates of `DateTime<Utc>`, by the first and the
last millisecond, and whether the build checks for overflow. -/
structure Runtime where
  first : Instant
  last : Instant
  overflowChecks : Bool
  /-- The whole range is less than a `chrono::Duration`. -/
  narrow : last - first < 2 ^ 63

/-- The dates from January of the year -262143 to December of the year 262142,
in a release build. -/
def Runtime.release : Runtime := ⟨-8334601228800000, 8210266876799999, false, by decide⟩

/-- `DateTime + chrono::Duration`. -/
def Runtime.add? (runtime : Runtime) (now : Instant) (delta : Int) : Option Instant :=
  if runtime.first ≤ now + delta ∧ now + delta ≤ runtime.last then some (now + delta) else none

def I32_MAX : Int := 2147483647
def I64_MAX : Int := 9223372036854775807

/-- `chrono::Duration::milliseconds`: a duration stays within `i64::MAX` milliseconds
either way. -/
def milliseconds? (count : Int) : Option Int :=
  if -I64_MAX ≤ count ∧ count ≤ I64_MAX then some count else none

/-- `chrono::Duration::seconds`. -/
def seconds? (count : Int) : Option Int :=
  if -(I64_MAX / 1000) ≤ count ∧ count ≤ I64_MAX / 1000 then some (count * 1000) else none

/-- `attempt_count + 1`. -/
def increment? (overflowChecks : Bool) (count : Int) : Option Int :=
  if overflowChecks = true ∧ count = I32_MAX then none else some (Int.bmod (count + 1) (2 ^ 32))

/-- `1i64 << exp`. -/
def shiftOne? (overflowChecks : Bool) (exp : Nat) : Option Int :=
  if overflowChecks = true ∧ 64 ≤ exp then none else some (shiftOneI64 exp)

section Checked

variable {M : Type} [TaskMetadata M]

def calculateRetryDelay? (runtime : Runtime) (metadata : M) (attemptCount : Int) : Option Int := do
  let baseMs := (retryBaseDelay metadata).millisI64
  let exp := castU32 (min attemptCount MAX_BACKOFF_EXPONENT)
  let delayMs := saturateI64 (baseMs * (← shiftOne? runtime.overflowChecks exp))
  let cappedSecs := min (delayMs.tdiv 1000) MAX_RETRY_BACKOFF_SECS
  seconds? (max cappedSecs 0)

/-- `now + chrono::Duration::milliseconds(delay.as_millis() as i64)`. -/
def Runtime.after? (runtime : Runtime) (now : Instant) (delay : Duration) : Option Instant :=
  (milliseconds? delay.millisI64).bind (runtime.add? now)

def Task.onSuccess? (runtime : Runtime) (task : Task) (metadata : M)
    (rescheduleAfter : Option Duration) (now : Instant) : Option TaskRunOutcome :=
  match rescheduleAfter.or (executionInterval metadata) with
  | some delay => (runtime.after? now delay).map fun next =>
      { update := {
          taskId := task.id, status := .pending, attemptCount := 0, nextRunAt := some next,
          error := none, completedAt := some now, updatedAt := now }
        kind := .success }
  | none =>
      some { update := {
               taskId := task.id, status := .completed, attemptCount := task.attemptCount,
               nextRunAt := none, error := none, completedAt := some now, updatedAt := now }
             kind := .success }

def Task.canRetry (task : Task) (metadata : M) : Bool :=
  (maxRetries metadata).elim false fun limit => decide (task.attemptCount < limit)

def Task.retryDelay? (runtime : Runtime) (task : Task) (metadata : M)
    (retryAfter : Option Duration) : Option Int :=
  match retryAfter with
  | some delay => milliseconds? delay.millisI64
  | none => calculateRetryDelay? runtime metadata task.attemptCount

def Task.onRetryableFailure? (runtime : Runtime) (task : Task) (metadata : M) (error : String)
    (retryAfter : Option Duration) (now : Instant) : Option TaskRunOutcome :=
  (increment? runtime.overflowChecks task.attemptCount).bind fun newAttempt =>
    if task.canRetry metadata then
      ((task.retryDelay? runtime metadata retryAfter).bind (runtime.add? now)).map fun next =>
        { update := {
            taskId := task.id, status := .pending, attemptCount := newAttempt,
            nextRunAt := some next, error := some error, completedAt := none, updatedAt := now }
          kind := .retried }
    else some (task.onPermanentFailure error now .failed)

def Task.onSkip? (runtime : Runtime) (task : Task) (metadata : M) (reason : String)
    (now : Instant) : Option TaskRunOutcome :=
  match executionInterval metadata with
  | some interval => (runtime.after? now interval).map fun next =>
      { update := {
          taskId := task.id, status := .pending, attemptCount := task.attemptCount,
          nextRunAt := some next, error := some ("Skipped: " ++ reason), completedAt := none,
          updatedAt := now }
        kind := .success }
  | none =>
      some { update := {
               taskId := task.id, status := .completed, attemptCount := task.attemptCount,
               nextRunAt := none, error := some ("Skipped: " ++ reason), completedAt := some now,
               updatedAt := now }
             kind := .success }

/-- `compute_update` at a time `now`; `none` is a panic. -/
def Task.computeUpdate? (runtime : Runtime) (task : Task) (metadata : M) (result : TaskResult)
    (now : Instant) : Option TaskRunOutcome :=
  match result with
  | .success _ rescheduleAfter => task.onSuccess? runtime metadata rescheduleAfter now
  | .retryableFailure error retryAfter =>
      task.onRetryableFailure? runtime metadata error retryAfter now
  | .permanentFailure error => some (task.onPermanentFailure error now .failed)
  | .skip reason => task.onSkip? runtime metadata reason now
  | .terminate reason => some (task.onTerminate reason now)

end Checked

/-! ## The cast to `i64` -/

/-- What the cast keeps of a duration's milliseconds. -/
def Duration.lowMillis (duration : Duration) : Int := (duration.asMillis : Int) % 2 ^ 64

theorem Duration.millisI64_eq (duration : Duration) :
    duration.millisI64 =
      if duration.lowMillis < 2 ^ 63 then duration.lowMillis else duration.lowMillis - 2 ^ 64 := by
  exact Int.bmod_def _ _

theorem Duration.millisI64_le (duration : Duration) : duration.millisI64 ≤ I64_MAX := by
  rw [millisI64_eq]
  simp only [lowMillis, I64_MAX]
  omega

/-- A duration that fits is kept as it is. -/
theorem Duration.lowMillis_of_lt {duration : Duration} (fits : duration.asMillis < 2 ^ 64) :
    duration.lowMillis = duration.asMillis := by
  simp only [lowMillis]
  omega

theorem Duration.lowMillis_bounds (duration : Duration) :
    0 ≤ duration.lowMillis ∧ duration.lowMillis < 2 ^ 64 := by
  simp only [lowMillis]
  omega

theorem Duration.millisI64_of_lt {duration : Duration} (fits : duration.asMillis < 2 ^ 63) :
    duration.millisI64 = duration.asMillis := by
  rw [millisI64_eq, lowMillis_of_lt (by omega)]
  omega

namespace Runtime

variable {runtime : Runtime} {now next : Instant}

theorem add?_eq_some {delta : Int} :
    runtime.add? now delta = some next ↔
      next = now + delta ∧ runtime.first ≤ next ∧ next ≤ runtime.last := by
  simp only [add?, Option.ite_none_right_eq_some, Option.some.injEq]
  constructor
  · rintro ⟨⟨early, late⟩, rfl⟩
    exact ⟨rfl, early, late⟩
  · rintro ⟨rfl, early, late⟩
    exact ⟨⟨early, late⟩, rfl⟩

theorem after?_eq_some {delay : Duration} :
    runtime.after? now delay = some next ↔
      -I64_MAX ≤ delay.millisI64 ∧ next = now + delay.millisI64 ∧
        runtime.first ≤ next ∧ next ≤ runtime.last := by
  have small := delay.millisI64_le
  simp only [after?, milliseconds?, Option.bind_eq_some_iff, Option.ite_none_right_eq_some,
    Option.some.injEq, add?_eq_some]
  constructor
  · rintro ⟨_, ⟨⟨bound, _⟩, rfl⟩, there⟩
    exact ⟨bound, there⟩
  · rintro ⟨bound, there⟩
    exact ⟨_, ⟨⟨bound, small⟩, rfl⟩, there⟩

/-- A time that is not before `now` is later by what the cast keeps. -/
theorem after?_ge {delay : Duration} (computed : runtime.after? now delay = some next)
    (forward : now ≤ next) : next = now + delay.lowMillis := by
  obtain ⟨_, rfl, _, _⟩ := after?_eq_some.mp computed
  have low := delay.millisI64_eq
  have bounds := delay.lowMillis_bounds
  split at low <;> grind

theorem after?_reaches {delay : Duration} (started : runtime.first ≤ now)
    (room : now + delay.lowMillis ≤ runtime.last) :
    runtime.after? now delay = some (now + delay.lowMillis) := by
  have low := delay.millisI64_eq
  have bounds := delay.lowMillis_bounds
  have narrow := runtime.narrow
  have fits : delay.lowMillis < 2 ^ 63 := by grind
  rw [if_pos fits] at low
  exact after?_eq_some.mpr (by grind [I64_MAX])

end Runtime

section Checked

variable {M : Type} [TaskMetadata M] {runtime : Runtime} {now : Instant}

/-! ## The backoff -/

/-- At the counts of a row's life the exponent is at most ten. -/
theorem castU32_exponent {attemptCount : Int} (counted : 0 ≤ attemptCount) :
    castU32 (min attemptCount MAX_BACKOFF_EXPONENT) = (min attemptCount 10).toNat := by
  simp only [castU32, MAX_BACKOFF_EXPONENT]
  omega

theorem shiftOneI64_exponent (attemptCount : Int) :
    shiftOneI64 (min attemptCount 10).toNat = 2 ^ (min attemptCount 10).toNat := by
  have table : ∀ exp : Fin 11, shiftOneI64 exp = 2 ^ exp.val := by decide
  have bound : (min attemptCount 10).toNat < 11 := by omega
  exact table ⟨_, bound⟩

/-- A product that saturates is above the cap either way. -/
theorem capped_saturateI64 {product : Int} (positive : 0 ≤ product) :
    min ((saturateI64 product).tdiv 1000) MAX_RETRY_BACKOFF_SECS =
      min (product / 1000) MAX_RETRY_BACKOFF_SECS := by
  have kept : 0 ≤ saturateI64 product := by
    simp only [saturateI64]
    omega
  rw [Int.tdiv_eq_ediv_of_nonneg kept]
  simp only [saturateI64, MAX_RETRY_BACKOFF_SECS]
  omega

theorem shiftOne?_of_lt {overflowChecks : Bool} {exp : Nat} (small : exp < 64) :
    shiftOne? overflowChecks exp = some (shiftOneI64 exp) := by
  simp only [shiftOne?]
  rw [if_neg (by omega)]

theorem seconds?_of_bounds {count : Int} (positive : 0 ≤ count) (small : count ≤ 30 * 60) :
    seconds? count = some (count * 1000) := by
  have bounds : -(I64_MAX / 1000) ≤ count ∧ count ≤ I64_MAX / 1000 := by
    simp only [I64_MAX]
    omega
  exact if_pos bounds

theorem calculateRetryDelay_bounds (metadata : M) (attemptCount : Int) :
    0 ≤ calculateRetryDelay metadata attemptCount ∧
      calculateRetryDelay metadata attemptCount ≤ 30 * 60 * 1000 := by
  simp only [calculateRetryDelay, MAX_RETRY_BACKOFF_SECS]
  omega

theorem calculateRetryDelay?_eq (metadata : M) {attemptCount : Int} (counted : 0 ≤ attemptCount) :
    calculateRetryDelay? runtime metadata attemptCount =
      some (calculateRetryDelay metadata attemptCount) := by
  have small : castU32 (min attemptCount MAX_BACKOFF_EXPONENT) < 64 := by
    rw [castU32_exponent counted]
    omega
  rw [calculateRetryDelay?, shiftOne?_of_lt small, Option.bind_eq_bind, Option.bind_some]
  exact seconds?_of_bounds (Int.le_max_right _ _)
    (Int.max_le.mpr ⟨Int.min_le_right _ _, by decide⟩)

/-- The backoff over the exact integers. -/
theorem calculateRetryDelay_eq (metadata : M) {attemptCount : Int}
    (fits : (retryBaseDelay metadata).asMillis < 2 ^ 63) (counted : 0 ≤ attemptCount) :
    calculateRetryDelay metadata attemptCount =
      min (((retryBaseDelay metadata).asMillis : Int) * 2 ^ (min attemptCount 10).toNat / 1000)
        (30 * 60) * 1000 := by
  have positive : (0 : Int) ≤
      (retryBaseDelay metadata).asMillis * 2 ^ (min attemptCount 10).toNat := by positivity
  simp only [calculateRetryDelay, Duration.millisI64_of_lt fits, castU32_exponent counted,
    shiftOneI64_exponent, capped_saturateI64 positive]
  simp only [MAX_RETRY_BACKOFF_SECS]
  omega

theorem Task.canRetry_iff {task : Task} {metadata : M} :
    task.canRetry metadata = true ↔
      ∃ limit, maxRetries metadata = some limit ∧ task.attemptCount < limit := by
  simp only [canRetry]
  cases maxRetries metadata <;> simp

/-- More attempts or a longer base never make the backoff shorter. -/
theorem calculateRetryDelay_mono {N : Type} [TaskMetadata N] {metadata : M} {larger : N}
    {attemptCount later : Int} (fits : (retryBaseDelay larger).asMillis < 2 ^ 63)
    (longer : (retryBaseDelay metadata).asMillis ≤ (retryBaseDelay larger).asMillis)
    (counted : 0 ≤ attemptCount) (more : attemptCount ≤ later) :
    calculateRetryDelay metadata attemptCount ≤ calculateRetryDelay larger later := by
  have doubled : (retryBaseDelay metadata).asMillis * 2 ^ (min attemptCount 10).toNat ≤
      (retryBaseDelay larger).asMillis * 2 ^ (min later 10).toNat := by
    apply Nat.mul_le_mul longer
    apply Nat.pow_le_pow_right (by decide)
    omega
  rw [calculateRetryDelay_eq metadata (by omega) counted,
    calculateRetryDelay_eq larger fits (by omega)]
  have exact : ((retryBaseDelay metadata).asMillis : Int) * 2 ^ (min attemptCount 10).toNat ≤
      (retryBaseDelay larger).asMillis * 2 ^ (min later 10).toNat := by exact_mod_cast doubled
  omega

/-- The backoff never overflows, is the law over the exact integers, stays within half an
hour and never gets shorter. -/
theorem backoff_law (runtime : Runtime) (metadata : M) {attemptCount : Int}
    (fits : (retryBaseDelay metadata).asMillis < 2 ^ 63) (counted : 0 ≤ attemptCount) :
    calculateRetryDelay? runtime metadata attemptCount =
        some (calculateRetryDelay metadata attemptCount) ∧
      calculateRetryDelay metadata attemptCount =
        min (((retryBaseDelay metadata).asMillis : Int) * 2 ^ (min attemptCount 10).toNat / 1000)
          1800 * 1000 ∧
      0 ≤ calculateRetryDelay metadata attemptCount ∧
      calculateRetryDelay metadata attemptCount ≤ 30 * 60 * 1000 ∧
      (∀ later, attemptCount ≤ later →
        calculateRetryDelay metadata attemptCount ≤ calculateRetryDelay metadata later) ∧
      ∀ larger : M, (retryBaseDelay larger).asMillis < 2 ^ 63 →
        (retryBaseDelay metadata).asMillis ≤ (retryBaseDelay larger).asMillis →
        calculateRetryDelay metadata attemptCount ≤ calculateRetryDelay larger attemptCount := by
  have bounds := calculateRetryDelay_bounds metadata attemptCount
  refine ⟨calculateRetryDelay?_eq metadata counted, calculateRetryDelay_eq metadata fits counted,
    bounds.1, bounds.2, fun later more => ?_, fun larger largerFits longer => ?_⟩
  · exact calculateRetryDelay_mono fits (Nat.le_refl _) counted more
  · exact calculateRetryDelay_mono largerFits longer counted (Int.le_refl _)

/-- The fourth attempt at a video waits for eight minutes. -/
theorem backoff_law_fourth :
    calculateRetryDelay? { Runtime.release with overflowChecks := true }
        (ProcessVideoTaskMetadata.mk ⟨.ofNat 7⟩) 3 =
          some (calculateRetryDelay (ProcessVideoTaskMetadata.mk ⟨.ofNat 7⟩) 3) ∧
      calculateRetryDelay (ProcessVideoTaskMetadata.mk ⟨.ofNat 7⟩) 3 = 480000 ∧
      calculateRetryDelay (ProcessVideoTaskMetadata.mk ⟨.ofNat 7⟩) 3 ≤
        calculateRetryDelay (ProcessVideoTaskMetadata.mk ⟨.ofNat 7⟩) 4 := by
  have law := backoff_law { Runtime.release with overflowChecks := true }
    (ProcessVideoTaskMetadata.mk ⟨.ofNat 7⟩) (by decide) (show (0 : Int) ≤ 3 by decide)
  exact ⟨law.1, law.2.1, law.2.2.2.2.1 4 (by decide)⟩

/-! ## The next run time -/

/-- A handler's result, with the row and the typed metadata it is applied to. -/
structure Handled (M : Type) where
  task : Task
  metadata : M
  result : TaskResult

/-- What the next run time is computed from. -/
inductive DelaySource where
  | none
  | requested (delay : Duration)
  | backoff
deriving DecidableEq, Repr

def DelaySource.ofRequest : Option Duration → DelaySource
  | .none => .none
  | .some delay => .requested delay

namespace Handled

def source (handled : Handled M) : DelaySource :=
  match handled.result with
  | .success _ rescheduleAfter =>
      .ofRequest (rescheduleAfter.or (executionInterval handled.metadata))
  | .retryableFailure _ retryAfter =>
      if handled.task.canRetry handled.metadata then retryAfter.elim .backoff .requested else .none
  | .skip _ => .ofRequest (executionInterval handled.metadata)
  | .permanentFailure _ | .terminate _ => .none

/-- The `next_run_at` that `compute_update` produces, unless it panics. -/
def nextRunAt? (runtime : Runtime) (now : Instant) (handled : Handled M) :
    Option (Option Instant) :=
  (handled.task.computeUpdate? runtime handled.metadata handled.result now).map fun outcome =>
    outcome.update.nextRunAt

/-- Adding one to the attempt count does not leave `i32`. -/
def Counts (runtime : Runtime) (handled : Handled M) : Prop :=
  match handled.result with
  | .retryableFailure _ _ => runtime.overflowChecks = true → handled.task.attemptCount ≠ I32_MAX
  | .success _ _ | .permanentFailure _ | .skip _ | .terminate _ => True

end Handled

def DelaySource.next? (runtime : Runtime) (now : Instant) (metadata : M) (attemptCount : Int) :
    DelaySource → Option (Option Instant)
  | .none => some .none
  | .requested delay => (runtime.after? now delay).map some
  | .backoff =>
      (runtime.add? now (calculateRetryDelay metadata attemptCount)).map some

theorem Task.onSuccess?_next (task : Task) (metadata : M) (rescheduleAfter : Option Duration) :
    (task.onSuccess? runtime metadata rescheduleAfter now).map (·.update.nextRunAt) =
      (DelaySource.ofRequest (rescheduleAfter.or (executionInterval metadata))).next? runtime now
        metadata task.attemptCount := by
  simp only [onSuccess?]
  cases rescheduleAfter.or (executionInterval metadata) with
  | none => rfl
  | some delay => exact Option.map_map _ _ _

theorem Task.onSkip?_next (task : Task) (metadata : M) (reason : String) :
    (task.onSkip? runtime metadata reason now).map (·.update.nextRunAt) =
      (DelaySource.ofRequest (executionInterval metadata)).next? runtime now metadata
        task.attemptCount := by
  simp only [onSkip?]
  cases executionInterval metadata with
  | none => rfl
  | some delay => exact Option.map_map _ _ _

theorem Task.onRetryableFailure?_next {task : Task} (metadata : M) (error : String)
    (retryAfter : Option Duration) (counted : 0 ≤ task.attemptCount)
    (counts : runtime.overflowChecks = true → task.attemptCount ≠ I32_MAX) :
    (task.onRetryableFailure? runtime metadata error retryAfter now).map (·.update.nextRunAt) =
      (if task.canRetry metadata then retryAfter.elim .backoff .requested
        else DelaySource.none).next? runtime now metadata task.attemptCount := by
  have added : increment? runtime.overflowChecks task.attemptCount =
      some (Int.bmod (task.attemptCount + 1) (2 ^ 32)) := if_neg fun both => counts both.1 both.2
  simp only [onRetryableFailure?, added, Option.bind_some]
  cases task.canRetry metadata with
  | false => rfl
  | true =>
      cases retryAfter with
      | none =>
          simp only [retryDelay?, calculateRetryDelay?_eq metadata counted, Option.bind_some]
          exact Option.map_map _ _ _
      | some delay =>
          simp only [if_true, retryDelay?, Option.elim_some, DelaySource.next?, Runtime.after?,
            Option.map_map]
          exact Option.map_congr fun _ _ => rfl

theorem Handled.nextRunAt?_eq {handled : Handled M} (counted : 0 ≤ handled.task.attemptCount)
    (counts : handled.Counts runtime) :
    handled.nextRunAt? runtime now =
      handled.source.next? runtime now handled.metadata handled.task.attemptCount := by
  obtain ⟨task, metadata, result⟩ := handled
  cases result with
  | success message rescheduleAfter => exact task.onSuccess?_next metadata rescheduleAfter
  | retryableFailure error retryAfter =>
      exact Task.onRetryableFailure?_next metadata error retryAfter counted counts
  | permanentFailure error => rfl
  | skip reason => exact task.onSkip?_next metadata reason
  | terminate reason => rfl

theorem Handled.counts_of_run {handled : Handled M} {nextRunAt : Option Instant}
    (run : handled.nextRunAt? runtime now = some nextRunAt) : handled.Counts runtime := by
  obtain ⟨task, metadata, result⟩ := handled
  cases result with
  | retryableFailure error retryAfter =>
      intro checked top
      obtain ⟨outcome, computed, _⟩ := Option.map_eq_some_iff.mp run
      obtain ⟨newAttempt, added, _⟩ := Option.bind_eq_some_iff.mp computed
      rw [increment?, if_pos ⟨checked, top⟩] at added
      cases added
  | success | permanentFailure | skip | terminate => trivial

/-! ## When rescheduling is safe -/

/-- The clock reads a date, and half an hour later is one too. -/
structure Runtime.Clock (runtime : Runtime) (now : Instant) : Prop where
  started : runtime.first ≤ now
  room : now + 30 * 60 * 1000 ≤ runtime.last

/-- `compute_update` does not panic, and no next run time is before the update. -/
def Handled.Safe (runtime : Runtime) (now : Instant) (handled : Handled M) : Prop :=
  ∃ nextRunAt, handled.nextRunAt? runtime now = some nextRunAt ∧
    ∀ next, nextRunAt = some next → now ≤ next

/-- No delay of more milliseconds leads to an earlier run. -/
def RunsInOrder {N : Type} [TaskMetadata N] (runtime : Runtime) (now : Instant)
    (shorter : Handled M) (longer : Handled N) : Prop :=
  ∀ short long, shorter.source = .requested short → longer.source = .requested long →
    short.asMillis < long.asMillis →
    ∀ next later, shorter.nextRunAt? runtime now = some (some next) →
      longer.nextRunAt? runtime now = some (some later) → next ≤ later

/-- What the cast keeps of a requested delay ends by the last date. -/
def Handled.Within (runtime : Runtime) (now : Instant) (handled : Handled M) : Prop :=
  handled.Counts runtime ∧
    ∀ delay, handled.source = .requested delay → now + delay.lowMillis ≤ runtime.last

/-- The cast keeps the order of two requested delays. -/
def KeepsOrder {N : Type} [TaskMetadata N] (shorter : Handled M) (longer : Handled N) : Prop :=
  ∀ short long, shorter.source = .requested short → longer.source = .requested long →
    short.asMillis < long.asMillis → short.lowMillis ≤ long.lowMillis

theorem Handled.Within.next {handled : Handled M} {delay : Duration}
    (within : handled.Within runtime now) (counted : 0 ≤ handled.task.attemptCount)
    (clock : runtime.Clock now) (requested : handled.source = .requested delay) :
    handled.nextRunAt? runtime now = some (some (now + delay.lowMillis)) := by
  rw [nextRunAt?_eq counted within.1, requested, DelaySource.next?,
    Runtime.after?_reaches clock.started (within.2 delay requested), Option.map_some]

theorem Handled.Within.safe {handled : Handled M} (within : handled.Within runtime now)
    (counted : 0 ≤ handled.task.attemptCount) (clock : runtime.Clock now) :
    handled.Safe runtime now := by
  cases source : handled.source with
  | none =>
      refine ⟨none, ?_, fun next absent => by cases absent⟩
      rw [nextRunAt?_eq counted within.1, source, DelaySource.next?]
  | requested delay =>
      refine ⟨_, within.next counted clock source, ?_⟩
      rintro next ⟨⟩
      have bounds := delay.lowMillis_bounds
      grind
  | backoff =>
      have bounds := calculateRetryDelay_bounds handled.metadata handled.task.attemptCount
      have reached : runtime.add? now
          (calculateRetryDelay handled.metadata handled.task.attemptCount) =
            some (now + calculateRetryDelay handled.metadata handled.task.attemptCount) := by
        have started := clock.started
        have room := clock.room
        exact Runtime.add?_eq_some.mpr (by grind)
      refine ⟨some (now + calculateRetryDelay handled.metadata handled.task.attemptCount), ?_, ?_⟩
      · rw [nextRunAt?_eq counted within.1, source, DelaySource.next?, reached, Option.map_some]
      · rintro next ⟨⟩
        grind

theorem Handled.Safe.within {handled : Handled M} (safe : handled.Safe runtime now)
    (counted : 0 ≤ handled.task.attemptCount) : handled.Within runtime now := by
  obtain ⟨nextRunAt, run, forward⟩ := safe
  have counts := counts_of_run run
  refine ⟨counts, fun delay requested => ?_⟩
  rw [nextRunAt?_eq counted counts, requested, DelaySource.next?] at run
  obtain ⟨next, after, rfl⟩ := Option.map_eq_some_iff.mp run
  have late := (Runtime.after?_eq_some.mp after).2.2.2
  rwa [Runtime.after?_ge after (forward next rfl)] at late

/-- Rescheduling is safe exactly for the delays that the cast to `i64` leaves within the
date range and in order. -/
theorem rescheduling_safe_iff {N : Type} [TaskMetadata N] {left : Handled M} {right : Handled N}
    (clock : runtime.Clock now) (leftCounted : 0 ≤ left.task.attemptCount)
    (rightCounted : 0 ≤ right.task.attemptCount) :
    (left.Safe runtime now ∧ right.Safe runtime now ∧ RunsInOrder runtime now left right) ↔
      (left.Within runtime now ∧ right.Within runtime now ∧ KeepsOrder left right) := by
  constructor
  · rintro ⟨leftSafe, rightSafe, ordered⟩
    have leftWithin := leftSafe.within leftCounted
    have rightWithin := rightSafe.within rightCounted
    refine ⟨leftWithin, rightWithin, fun short long shortSource longSource below => ?_⟩
    have leftNext := leftWithin.next leftCounted clock shortSource
    have rightNext := rightWithin.next rightCounted clock longSource
    have sooner := ordered short long shortSource longSource below _ _ leftNext rightNext
    exact Int.le_of_add_le_add_left sooner
  · rintro ⟨leftWithin, rightWithin, keeps⟩
    refine ⟨leftWithin.safe leftCounted clock, rightWithin.safe rightCounted clock, ?_⟩
    intro short long shortSource longSource below next later leftRun rightRun
    rw [leftWithin.next leftCounted clock shortSource] at leftRun
    rw [rightWithin.next rightCounted clock longSource] at rightRun
    cases leftRun
    cases rightRun
    exact Int.add_le_add_left (keeps short long shortSource longSource below) now

end Checked

/-! ## Delays on either side -/

def Duration.MAX : Duration := ⟨2 ^ 64 * 10 ^ 9 - 1, by decide⟩

/-- A sweep that is being handled. -/
def sweepInProgress : Task :=
  { buildPendingTask CleanupStaleVideosTaskMetadata.mk none ⟨.ofNat 7⟩ none 1767139200000 with
    status := .inProgress }

def runningSweep (result : TaskResult) : Handled CleanupStaleVideosTaskMetadata :=
  ⟨sweepInProgress, CleanupStaleVideosTaskMetadata.mk, result⟩

def daily : Handled CleanupStaleVideosTaskMetadata := runningSweep (.skip "locked")

def everyOtherDay : Handled CleanupStaleVideosTaskMetadata :=
  runningSweep (.success none (some (.fromSecs (48 * 60 * 60))))

theorem daily_before_everyOtherDay :
    daily.Safe .release 1767225600000 ∧ everyOtherDay.Safe .release 1767225600000 ∧
      RunsInOrder .release 1767225600000 daily everyOtherDay := by
  have clock : Runtime.release.Clock 1767225600000 := ⟨by decide, by decide⟩
  refine (rescheduling_safe_iff clock (by decide) (by decide)).mpr ⟨?_, ?_, ?_⟩
  · exact ⟨trivial, by rintro delay ⟨⟩; decide⟩
  · exact ⟨trivial, by rintro delay ⟨⟩; decide⟩
  · rintro short long ⟨⟩ ⟨⟩ _
    decide

/-- "Never again" is in the past, and half of the `i64` range a panic. -/
theorem reschedule_unsafe :
    ¬(runningSweep (.success none (some .MAX))).Safe .release 1767225600000 ∧
      (runningSweep (.success none (some .MAX))).nextRunAt? .release 1767225600000 =
        some (some 1767225599999) ∧
      (runningSweep (.retryableFailure "busy" (some (.fromSecs (2 ^ 62 / 1000))))).nextRunAt?
        .release 1767225600000 = none := by
  have past : (runningSweep (.success none (some .MAX))).nextRunAt? .release 1767225600000 =
      some (some 1767225599999) := by decide
  refine ⟨?_, past, by decide⟩
  rintro ⟨nextRunAt, run, forward⟩
  rw [past] at run
  cases run
  exact absurd (forward _ rfl) (by decide)

section Checked

variable {M : Type} [TaskMetadata M] {runtime : Runtime} {now : Instant}

/-- Delays that end by the last date, as they are, meet the condition. -/
theorem Handled.within_of_fits {handled : Handled M} (clock : runtime.Clock now)
    (counts : handled.Counts runtime)
    (fits : ∀ delay, handled.source = .requested delay →
      now + (delay.asMillis : Int) ≤ runtime.last) : handled.Within runtime now := by
  refine ⟨counts, fun delay requested => ?_⟩
  have inside := fits delay requested
  have narrow := runtime.narrow
  have started := clock.started
  have small : delay.asMillis < 2 ^ 64 := by grind
  rwa [Duration.lowMillis_of_lt small]

/-! ## Against the unbounded computation -/

theorem increment?_of_lt {overflowChecks : Bool} {count : Int} (positive : 0 ≤ count)
    (room : count < I32_MAX) : increment? overflowChecks count = some (count + 1) := by
  simp only [I32_MAX] at room
  have kept : Int.bmod (count + 1) (2 ^ 32) = count + 1 := by
    apply Int.bmod_eq_of_le <;> omega
  have inside : ¬(overflowChecks = true ∧ count = I32_MAX) := by
    simp only [I32_MAX]
    omega
  rw [increment?, if_neg inside, kept]

theorem Task.retryDelay?_eq_some {task : Task} {metadata : M} {retryAfter : Option Duration}
    {delay : Int} (counted : 0 ≤ task.attemptCount)
    (computed : task.retryDelay? runtime metadata retryAfter = some delay) :
    delay = (retryAfter.map Duration.millisI64).getD
      (calculateRetryDelay metadata task.attemptCount) := by
  cases retryAfter with
  | none =>
      rw [retryDelay?, calculateRetryDelay?_eq metadata counted] at computed
      rw [Option.map_none, Option.getD_none, Option.some.inj computed]
  | some requested =>
      simp only [retryDelay?, milliseconds?, Option.ite_none_right_eq_some,
        Option.some.injEq] at computed
      rw [Option.map_some, Option.getD_some, computed.2]

theorem Task.onRetryableFailure?_eq_some {task : Task} {metadata : M} {error : String}
    {retryAfter : Option Duration} {outcome : TaskRunOutcome} (counted : 0 ≤ task.attemptCount)
    (limited : ∀ limit, maxRetries metadata = some limit → limit ≤ I32_MAX)
    (computed : task.onRetryableFailure? runtime metadata error retryAfter now = some outcome) :
    outcome = task.onRetryableFailure metadata error retryAfter now := by
  obtain ⟨newAttempt, added, rest⟩ := Option.bind_eq_some_iff.mp computed
  simp only [onRetryableFailure]
  rw [← canRetry]
  cases retry : task.canRetry metadata with
  | false =>
      rw [retry] at rest
      exact (Option.some.inj rest).symm
  | true =>
      rw [retry, if_pos rfl] at rest
      obtain ⟨next, after, rfl⟩ := Option.map_eq_some_iff.mp rest
      obtain ⟨delay, requested, reached⟩ := Option.bind_eq_some_iff.mp after
      have room : task.attemptCount < I32_MAX := by
        obtain ⟨limit, allowed, below⟩ := Task.canRetry_iff.mp retry
        have bound := limited limit allowed
        omega
      rw [increment?_of_lt counted room] at added
      rw [(Runtime.add?_eq_some.mp reached).1, retryDelay?_eq_some counted requested,
        ← Option.some.inj added]
      rfl

/-- A run of the checked functions that does not panic computes what
`computeUpdate` does. -/
theorem Task.computeUpdate?_eq_some {task : Task} {metadata : M} {result : TaskResult}
    {outcome : TaskRunOutcome} (counted : 0 ≤ task.attemptCount)
    (limited : ∀ limit, maxRetries metadata = some limit → limit ≤ I32_MAX)
    (computed : task.computeUpdate? runtime metadata result now = some outcome) :
    outcome = task.computeUpdate metadata result now := by
  cases result with
  | success message rescheduleAfter =>
      simp only [computeUpdate?, onSuccess?] at computed
      simp only [computeUpdate, onSuccess]
      cases requested : rescheduleAfter.or (executionInterval metadata) with
      | none => simpa [requested] using computed.symm
      | some delay =>
          simp only [requested] at computed
          obtain ⟨next, after, rfl⟩ := Option.map_eq_some_iff.mp computed
          rw [(Runtime.after?_eq_some.mp after).2.1]
          rfl
  | retryableFailure error retryAfter =>
      exact Task.onRetryableFailure?_eq_some counted limited computed
  | permanentFailure error => exact (Option.some.inj computed).symm
  | skip reason =>
      simp only [computeUpdate?, onSkip?] at computed
      simp only [computeUpdate, onSkip]
      cases interval : executionInterval metadata with
      | none => simpa [interval] using computed.symm
      | some delay =>
          simp only [interval] at computed
          obtain ⟨next, after, rfl⟩ := Option.map_eq_some_iff.mp computed
          rw [(Runtime.after?_eq_some.mp after).2.1]
  | terminate reason => exact (Option.some.inj computed).symm

end Checked

end Benri.Domain
