import Benri.Service.Entry
import Benri.Service.Lifecycle

namespace Benri.Service

open Benri.Data Benri.Domain Benri.Postgres Benri.Storage Benri.Transcoder Benri.Transition

/-! # The outcome of an execution

Each step of one execution is noted; between them everybody else may act, on the
same row too.
-/

structure History where
  state : State
  log : List Entry

def History.initial (now : Instant) : History := ⟨.initial now, []⟩

/-- What a step adds to the log of the execution at `index`. -/
def noted (index : Nat) (before after : State) : Event → List Entry
  | .execution slot inner =>
      if slot = index then
        (before.executions[slot]?.map fun execution =>
          Entry.mk before.stores execution inner after.stores).toList
      else []
  | _ => []

def historyStep (index : Nat) (history : History) (event : Event) : Option History :=
  (step history.state event).map fun after =>
    ⟨after, history.log ++ noted index history.state after event⟩

/-- A database call of the execution at `index` that errs has not taken effect. -/
def Unapplied (index : Nat) (history : History) (event : Event) : Prop :=
  match event with
  | .execution slot inner => slot = index →
      history.state.executions[slot]?.all (fun execution => !appliedError execution inner) = true
  | _ => True

instance (index : Nat) (history : History) (event : Event) :
    Decidable (Unapplied index history event) :=
  match event with
  | .execution slot inner => inferInstanceAs (Decidable (slot = index →
      history.state.executions[slot]?.all (fun execution => !appliedError execution inner) = true))
  | .advance _ | .initiate .. | .putOriginal .. | .tasks _ | .startCompletion _ | .completion ..
  | .startExecution .. | .startSweep | .sweep .. | .startDeletion .. | .deletion .. =>
      inferInstanceAs (Decidable True)

/-- What an execution that claimed `id` and returned has done. -/
structure Outcome (id : VideoId) (log : List Entry) (stores : Stores) : Prop where
  /-- It moved the row to `PROCESSED` exactly if everything went well, -/
  processed : (∃ entry ∈ log, entry.MovesTo id .processed) ↔
    (∃ entry ∈ log, entry.deed = some (.probed true)) ∧
    (∃ entry ∈ log, entry.deed = some (.transcoded true)) ∧
    ∃ entry ∈ log, HasStatus entry.before id .processing ∧
      ∃ touched, entry.deed = some (.marked (.ok touched))
  /-- and then it scheduled nothing. -/
  unscheduled : (∃ entry ∈ log, entry.MovesTo id .processed) →
    ∀ entry ∈ log, entry.after.tasks = entry.before.tasks
  /-- After an error it ran the failure transaction, once, which if it took effect on
  a row still `PROCESSING` moved it to `FAILED` and scheduled one deletion. -/
  failed : (∃ entry ∈ log, entry.deed = some (.probed false) ∨
      entry.deed = some (.transcoded false) ∨ ∃ error, entry.deed = some (.marked (.error error))) →
    ∃ front entry rest discarded, log = front ++ entry :: rest ∧
      entry.deed = some (.failed discarded) ∧
      (∀ other ∈ front ++ rest, other.after.tasks = other.before.tasks) ∧
      (discarded = false → HasStatus entry.before id .processing → entry.MovesTo id .failed ∧
        ∃ task, deletesVideo task id = true ∧
          entry.after.tasks.rows = entry.before.tasks.rows ++ [task])
  /-- It left the row `PROCESSING` only if that transaction failed. -/
  left : HasStatus stores id .processing → ∃ entry ∈ log, entry.deed = some (.failed true)
  /-- It deleted the original after the row was `PROCESSED`. -/
  original : ∀ front entry rest format, log = front ++ entry :: rest →
    Service.original entry.before.objects id format ≠ none →
    Service.original entry.after.objects id format = none →
    ∃ earlier ∈ front, earlier.MovesTo id .processed
  /-- It wrote no token after the row's last status. -/
  silent : ∀ front entry rest, log = front ++ entry :: rest →
    entry.MovesTo id .processed ∨ entry.MovesTo id .failed →
    ∀ later ∈ rest, later.deed ≠ some .published ∧ ∀ answer, later.deed ≠ some (.marked answer)

/-! ## The log -/

theorem mem_deeds {log : List Entry} {deed : Deed} :
    deed ∈ deeds log ↔ ∃ entry ∈ log, entry.deed = some deed :=
  List.mem_filterMap

theorem deeds_append (front rest : List Entry) :
    deeds (front ++ rest) = deeds front ++ deeds rest :=
  List.filterMap_append

theorem deeds_snoc (log : List Entry) (entry : Entry) :
    deeds (log ++ [entry]) = deeds log ++ entry.deed.toList := by
  rw [deeds_append]
  cases named : entry.deed <;> simp [deeds, named]

theorem deeds_split {front rest : List Entry} {entry : Entry} {deed : Deed}
    (named : entry.deed = some deed) :
    deeds (front ++ entry :: rest) = deeds front ++ deed :: deeds rest := by
  simp [deeds, named]

/-- An entry after which the row is not `PROCESSING` any more. -/
def Entry.Settles (entry : Entry) : Prop :=
  (∃ touched, entry.deed = some (.marked (.ok touched))) ∨ entry.deed = some (.failed false)

theorem Entry.Settles.unprocessing {entry : Entry} {id : VideoId} (settles : entry.Settles)
    (sound : entry.Sound id) : ¬HasStatus entry.after id .processing := by
  rcases settles with ⟨touched, marked⟩ | failed
  · exact (sound.sets_marked marked).unexpected (by decide)
  · exact (sound.sets_failed failed).unexpected (by decide)

theorem Entry.Settles.claimed {entry : Entry} {id : VideoId} (settles : entry.Settles)
    (sound : entry.Sound id) : entry.execution.claimed = true := by
  rcases settles with ⟨touched, marked⟩ | failed
  · obtain ⟨fault, video, _, phase, _⟩ := deed_marked marked
    exact sound.coherent.claimed (by rw [phase]; rfl)
  · obtain ⟨fault, seed, video, _, phase, _⟩ := deed_failed failed
    exact sound.coherent.claimed (by rw [phase]; rfl)

/-- A video that is known, and whose row, while there is one, has ended. -/
structure Over (id : VideoId) (stores : Stores) : Prop where
  known : id ∈ stores.issued
  ended : ∀ row, stores.videos.find? id = some row → Ended row.status

theorem Over.step {id : VideoId} {before after : Stores} (row : Over id before)
    (effect : RowsEffect before after) : Over id after := by
  refine ⟨effect.issued_subset row.known, fun new found => ?_⟩
  cases there : before.videos.find? id with
  | none => exact absurd row.known (effect.appeared there found).1
  | some old =>
      rcases effect.moves there row.known found with same | moves
      · exact same ▸ row.ended old there
      · exact absurd (row.ended old there) moves.not_ended

theorem ended_of_settled {status : VideoStatus} (settled : Settled status)
    (other : status ≠ .processing) : Ended status := by
  cases status with
  | pendingUpload => exact absurd rfl settled.1
  | uploaded => exact absurd rfl settled.2
  | processing => exact absurd rfl other
  | processed => exact .inl rfl
  | failed => exact .inr rfl

/-! ## What the log says -/

/-- The log tells the story of the execution at `index`, once there is one. -/
structure Accounted (index : Nat) (history : History) : Prop where
  served : Served history.state
  unstarted : history.state.executions[index]? = none → history.log = []
  tells : ∀ execution, history.state.executions[index]? = some execution →
    execution.Tells (deeds history.log)
  sound : ∀ execution, history.state.executions[index]? = some execution →
    ∀ entry ∈ history.log, entry.Sound execution.id
  settled : ∀ execution, history.state.executions[index]? = some execution →
    ∀ entry ∈ history.log, entry.Settles → Over execution.id history.state.stores

theorem Accounted.initial (index : Nat) (now : Instant) : Accounted index (.initial now) where
  served := .initial now
  unstarted _ := rfl
  tells execution slot := by cases slot
  sound execution slot := by cases slot
  settled execution slot := by cases slot

variable {index : Nat}

/-- The others' steps leave an execution as it is, or start it. -/
theorem Effect.slot_others {before after : State} {event : Event}
    (effect : Effect before event after) (others : ∀ inner, event ≠ .execution index inner) :
    after.executions[index]? = before.executions[index]? ∨
      before.executions[index]? = none ∧ ∃ id, after.executions[index]? = some (.start id) := by
  cases effect with
  | startExecution task id row found named =>
      by_cases inside : index < before.executions.length
      · exact .inl (List.getElem?_append_left inside)
      · have absent : before.executions[index]? = none :=
          List.getElem?_eq_none (Nat.le_of_not_lt inside)
        by_cases next : index = before.executions.length
        · subst next
          exact .inr ⟨absent, id, List.getElem?_concat_length⟩
        · refine .inl (absent ▸ List.getElem?_eq_none ?_)
          simp only [List.length_append, List.length_singleton]
          omega
  | execution slot event execution next stores found effect =>
      exact .inl (List.getElem?_set_ne fun same => others event (by rw [same]))
  | advance | unborn | born | original | tasks | startCompletion | completion | startSweep | sweep |
    startDeletion | deletion => exact .inl rfl

theorem noted_others {before after : State} {event : Event}
    (others : ∀ inner, event ≠ .execution index inner) : noted index before after event = [] := by
  unfold noted
  split
  · rename_i slot inner
    exact if_neg fun same => others inner (by rw [same])
  · rfl

theorem Accounted.step_others {history : History} {event : Event} {after : State}
    (accounted : Accounted index history) (others : ∀ inner, event ≠ .execution index inner)
    (effect : Effect history.state event after) :
    Accounted index ⟨after, history.log ++ noted index history.state after event⟩ := by
  have served := accounted.served.step effect
  rw [noted_others others, List.append_nil]
  rcases effect.slot_others others with same | ⟨absent, id, started⟩
  · refine ⟨served, fun none => accounted.unstarted (same ▸ none),
      fun execution slot => accounted.tells execution (same ▸ slot),
      fun execution slot => accounted.sound execution (same ▸ slot),
      fun execution slot entry inside settles => ?_⟩
    exact (accounted.settled execution (same ▸ slot) entry inside settles).step effect.rows
  · rw [accounted.unstarted absent]
    refine ⟨served, fun _ => rfl, fun execution slot => ?_,
      fun _ _ _ inside => absurd inside List.not_mem_nil,
      fun _ _ _ inside => absurd inside List.not_mem_nil⟩
    cases started.symm.trans slot
    exact .loading

theorem Accounted.step_own {history : History} {inner : ExecutionEvent} {after : State}
    (accounted : Accounted index history)
    (unapplied : Unapplied index history (.execution index inner))
    (stepped : step history.state (.execution index inner) = some after) :
    Accounted index
      ⟨after, history.log ++ noted index history.state after (.execution index inner)⟩ := by
  have effect := step_effect stepped
  have served := accounted.served.step effect
  obtain ⟨execution, next, slot, advanced, executions⟩ := execution_of_step stepped
  have inside := List.mem_of_getElem? slot
  have coherent := accounted.served.snapshots.executions execution inside
  have lasting := (executionStep_effect advanced).extends coherent
  obtain ⟨bound, _⟩ := List.getElem?_eq_some_iff.mp slot
  have slotAfter : after.executions[index]? = some next := by
    rw [executions, List.getElem?_set_self bound]
  have noted : noted index history.state after (.execution index inner) =
      [⟨history.state.stores, execution, inner, after.stores⟩] := by
    simp only [Service.noted, if_true, slot, Option.map_some, Option.toList_some]
  have sound : Entry.Sound execution.id ⟨history.state.stores, execution, inner, after.stores⟩ := by
    refine ⟨rfl, coherent, ?_, next, advanced⟩
    have missed := unapplied rfl
    rw [slot, Option.all_some] at missed
    simpa using missed
  rw [noted]
  refine ⟨served, fun none => ?_, fun later there => ?_, fun later there => ?_,
    fun later there => ?_⟩
  · rw [slotAfter] at none
    cases none
  all_goals
    cases slotAfter.symm.trans there
  · rw [deeds_snoc]
    exact executionStep_tells (accounted.tells execution slot) advanced
  · rw [lasting.id]
    exact forall_mem_snoc (accounted.sound execution slot) sound
  · rw [lasting.id]
    refine forall_mem_snoc (fun entry there settles => ?_) fun settles => ?_
    · exact (accounted.settled execution slot entry there settles).step effect.rows
    · have claimed := lasting.claimed (settles.claimed sound)
      have present := List.mem_of_getElem? slotAfter
      have known := served.claims.known next present claimed
      have rows := served.claims.settled next present claimed
      rw [lasting.id] at known rows
      refine ⟨known, fun row found => ended_of_settled (rows row found) fun processing => ?_⟩
      exact settles.unprocessing sound ⟨row, found, processing⟩

theorem accounted_of_reaches {now : Instant} {history : History}
    (reached : Reaches (historyStep index) (Unapplied index) (.initial now) history) :
    Accounted index history := by
  refine reached.preserves (Accounted index) (.initial index now) ?_
  intro before _ event accounted unapplied stepped
  obtain ⟨after, moved, rfl⟩ := Option.map_eq_some_iff.mp stepped
  by_cases own : ∃ inner, event = .execution index inner
  · obtain ⟨inner, rfl⟩ := own
    exact accounted.step_own unapplied moved
  · exact accounted.step_others (fun inner same => own ⟨inner, same⟩) (step_effect moved)

/-! ## The outcome -/

theorem Execution.Tells.ending {execution : Execution} {deeds : List Deed}
    {result : Except ProcessVideoError Unit} (tells : execution.Tells deeds)
    (claimed : execution.claimed = true) (returned : execution.phase = .returned result) :
    Ending deeds := by
  obtain ⟨id, _, _, shareToken, publisher, upload, alive⟩ := execution
  cases returned
  cases claimed
  cases tells with
  | transcoding _ _ _ transcodes => cases transcodes
  | returned _ _ _ closed ending => exact ending

/-- A row that nothing in the log has settled was left to a failed transaction. -/
theorem Ending.failed_of_unsettled {log : List Entry} (ending : Ending (deeds log))
    (unsettled : ∀ entry ∈ log, ¬entry.Settles) :
    ∃ entry ∈ log, entry.deed = some (.failed true) := by
  rcases ending.deals with ⟨touched, member⟩ | ⟨discarded, member⟩
  · obtain ⟨entry, inside, marked⟩ := mem_deeds.mp member
    exact absurd (.inl ⟨touched, marked⟩) (unsettled entry inside)
  · obtain ⟨entry, inside, failed⟩ := mem_deeds.mp member
    cases discarded with
    | true => exact ⟨entry, inside, failed⟩
    | false => exact absurd (.inr failed) (unsettled entry inside)

section Log

variable {id : VideoId} {log : List Entry} (sound : ∀ entry ∈ log, entry.Sound id)
  (ending : Ending (deeds log))

include sound ending

theorem processed_iff_of_ending : (∃ entry ∈ log, entry.MovesTo id .processed) ↔
    (∃ entry ∈ log, entry.deed = some (.probed true)) ∧
    (∃ entry ∈ log, entry.deed = some (.transcoded true)) ∧
    ∃ entry ∈ log, HasStatus entry.before id .processing ∧
      ∃ touched, entry.deed = some (.marked (.ok touched)) := by
  constructor
  · rintro ⟨entry, inside, moves⟩
    have marked := (sound entry inside).deed_of_processed moves
    obtain ⟨probed, transcoded, _⟩ := ending.answered (mem_deeds.mpr ⟨entry, inside, marked⟩)
    exact ⟨mem_deeds.mp probed, mem_deeds.mp transcoded, entry, inside,
      (sound entry inside).processing_of_marked marked, true, marked⟩
  · rintro ⟨_, _, entry, inside, processing, touched, marked⟩
    exact ⟨entry, inside, ((sound entry inside).sets_marked marked).moves (by decide) processing⟩

theorem unscheduled_of_ending (processed : ∃ entry ∈ log, entry.MovesTo id .processed) :
    ∀ entry ∈ log, entry.after.tasks = entry.before.tasks := by
  obtain ⟨entry, inside, moves⟩ := processed
  have marked := (sound entry inside).deed_of_processed moves
  obtain ⟨_, _, unfailed⟩ := ending.answered (mem_deeds.mpr ⟨entry, inside, marked⟩)
  exact fun other there => (sound other there).tasks fun discarded failed =>
    unfailed discarded (mem_deeds.mpr ⟨other, there, failed⟩)

theorem failed_of_ending (erred : ∃ entry ∈ log, entry.deed = some (.probed false) ∨
      entry.deed = some (.transcoded false) ∨ ∃ error, entry.deed = some (.marked (.error error))) :
    ∃ front entry rest discarded, log = front ++ entry :: rest ∧
      entry.deed = some (.failed discarded) ∧
      (∀ other ∈ front ++ rest, other.after.tasks = other.before.tasks) ∧
      (discarded = false → HasStatus entry.before id .processing → entry.MovesTo id .failed ∧
        ∃ task, deletesVideo task id = true ∧
          entry.after.tasks.rows = entry.before.tasks.rows ++ [task]) := by
  obtain ⟨entry, inside, error⟩ := erred
  have told : .probed false ∈ deeds log ∨ .transcoded false ∈ deeds log ∨
      ∃ error, .marked (.error error) ∈ deeds log := by
    rcases error with probed | transcoded | ⟨error, marked⟩
    · exact .inl (mem_deeds.mpr ⟨entry, inside, probed⟩)
    · exact .inr (.inl (mem_deeds.mpr ⟨entry, inside, transcoded⟩))
    · exact .inr (.inr ⟨error, mem_deeds.mpr ⟨entry, inside, marked⟩⟩)
  obtain ⟨discarded, member⟩ := ending.errs told
  obtain ⟨failing, there, failed⟩ := mem_deeds.mp member
  obtain ⟨front, rest, split⟩ := List.append_of_mem there
  have once := ending.failed_once (by rw [split, deeds_split failed])
  refine ⟨front, failing, rest, discarded, split, failed, fun other elsewhere => ?_, ?_⟩
  · have member : other ∈ log := by
      rw [split]
      rcases List.mem_append.mp elsewhere with ahead | behind
      · exact List.mem_append_left _ ahead
      · exact List.mem_append_right _ (List.mem_cons_of_mem _ behind)
    refine (sound other member).tasks fun again named => once again ?_
    rw [← deeds_append]
    exact mem_deeds.mpr ⟨other, elsewhere, named⟩
  · rintro rfl processing
    obtain ⟨task, deletes, rows, _⟩ := (sound failing there).failed failed
    have moves := ((sound failing there).sets_failed failed).moves (by decide) processing
    exact ⟨moves, task, deletes, rows⟩

theorem original_of_ending {front rest : List Entry} {entry : Entry} {format : VideoFormat}
    (split : log = front ++ entry :: rest)
    (there : original entry.before.objects id format ≠ none)
    (gone : original entry.after.objects id format = none) :
    ∃ earlier ∈ front, earlier.MovesTo id .processed := by
  have inside : entry ∈ log := by simp [split]
  have cleaned := (sound entry inside).deed_of_deleted there gone
  have told := congrArg deeds split
  rw [deeds_split cleaned] at told
  obtain ⟨earlier, ahead, marked⟩ := mem_deeds.mp (ending.cleaned told)
  have member : earlier ∈ log := split ▸ List.mem_append_left _ ahead
  exact ⟨earlier, ahead, ((sound earlier member).sets_marked marked).moves (by decide)
    ((sound earlier member).processing_of_marked marked)⟩

theorem silent_of_ending {front rest : List Entry} {entry : Entry}
    (split : log = front ++ entry :: rest)
    (moves : entry.MovesTo id .processed ∨ entry.MovesTo id .failed) :
    ∀ later ∈ rest, ∀ deed, later.deed = some deed → deed = .cleaned := by
  have inside : entry ∈ log := by simp [split]
  intro later behind deed named
  rcases moves with moves | moves
  · have marked := (sound entry inside).deed_of_processed moves
    exact ending.terminal (.inl rfl) (by rw [split, deeds_split marked]) deed
      (mem_deeds.mpr ⟨later, behind, named⟩)
  · have failed := (sound entry inside).deed_of_failed moves
    exact ending.terminal (.inr rfl) (by rw [split, deeds_split failed]) deed
      (mem_deeds.mpr ⟨later, behind, named⟩)

end Log

/-- Every execution that claims its video and returns has one of the outcomes that
its results call for, whatever the others do to the row meanwhile. -/
theorem execution_outcome {now : Instant} {history : History} {execution : Execution}
    {result : Except ProcessVideoError Unit}
    (reached : Reaches (historyStep index) (Unapplied index) (.initial now) history)
    (slot : history.state.executions[index]? = some execution)
    (claimed : execution.claimed = true) (returned : execution.phase = .returned result) :
    Outcome execution.id history.log history.state.stores := by
  have accounted := accounted_of_reaches reached
  have sound := accounted.sound execution slot
  have ending := (accounted.tells execution slot).ending claimed returned
  refine ⟨processed_iff_of_ending sound ending, unscheduled_of_ending sound ending,
    failed_of_ending sound ending, ?_, ?_, ?_⟩
  · rintro ⟨row, found, processing⟩
    refine ending.failed_of_unsettled fun entry inside settles => ?_
    rcases (accounted.settled execution slot entry inside settles).ended row found with
      same | same <;> rw [processing] at same <;> cases same
  · intro front entry rest format split there gone
    exact original_of_ending sound ending split there gone
  · intro front entry rest split moves later behind
    have cleanup := silent_of_ending sound ending split moves later behind
    refine ⟨fun published => ?_, fun answer marked => ?_⟩
    · cases cleanup _ published
    · cases cleanup _ marked

/-- A video is processed to its end, which the log accounts for. -/
theorem execution_outcome_processedVideo : ∃ history execution,
    Reaches (historyStep 0) (Unapplied 0) (.initial 0) history ∧
    history.state.executions[0]? = some execution ∧
    Outcome execution.id history.log history.state.stores := by
  have passed : ((run (historyStep 0) (Unapplied 0) (.initial 0)
      (processedVideo ⟨.ofNat 7⟩ ⟨.ofNat 8⟩ "token" ++ [.execution 0 (.call .none)])).map
        fun history => history.state.executions[0]?.any fun execution =>
          execution.claimed && (executionCut execution).isNone) = some true := by decide
  obtain ⟨history, reached, passed⟩ := reaches_of_check _ passed
  obtain ⟨execution, slot, passed⟩ := (Option.any_eq_true _ _).mp passed
  obtain ⟨claimed, ended⟩ := Bool.and_eq_true_iff.mp passed
  cases returned : execution.phase with
  | returned result =>
      exact ⟨history, execution, reached, slot, execution_outcome reached slot claimed returned⟩
  | loadVideo | claim | probe | transcode | uploading | joinPublisher | finalize |
    cleanupOriginal | fail | cut => simp [executionCut, returned] at ended

end Benri.Service
