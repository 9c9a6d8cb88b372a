import Benri.Program.UnderWay
import Benri.Worker.Handling

namespace Benri.Program

open Benri.Data Benri.Domain Benri.Postgres Benri.Service Benri.Transition
open Benri.Worker (Cluster ClusterEvent Decoders RegisteredMetadata Serde clusterStep)

/-! # One handler for one piece of work

The ordering key of a task is written when the task is scheduled, kept by every statement
on its row, and respected by the poller.  So of all the use cases that the handlers have
started, at most one processes a given video, at most one deletes it, and at most one
sweeps.
-/

variable {decoders : Decoders} {serde : Serde}

/-! ## The runs -/

/-- How a step of the workers moves one run on. -/
inductive RunMove : ClusterEvent → Nat → Worker.RunPhase → Worker.RunPhase → Prop where
  | fetched (index : Nat) (fault : Fault) (next : Worker.RunPhase) (begun : next ≠ .fetch) :
      RunMove (.worker (.fetch index fault)) index .fetch next
  | ended (inner : Worker.Event) (index : Nat) (result : TaskResult) (task : Task)
      (metadata : RegisteredMetadata) (since : Instant) (outcome : TaskRunOutcome)
      (ending : inner = .finish index result ∨ inner = .timeout index) :
      RunMove (.worker inner) index (.handling task metadata since) (.write outcome)
  | written (index : Nat) (fault : Fault) (outcome : TaskRunOutcome) :
      RunMove (.worker (.write index fault)) index (.write outcome) .finished
  | crashed (index : Nat) (phase : Worker.RunPhase) :
      RunMove (.worker (.crashRun index)) index phase .crashed

inductive RunsMove (event : ClusterEvent) (runs : List Worker.Run) : List Worker.Run → Prop where
  | same : RunsMove event runs runs
  | popped (id : TaskId) : RunsMove event runs (runs ++ [⟨id, .fetch⟩])
  | moved (index : Nat) (run : Worker.Run) (next : Worker.RunPhase) (slot : runs[index]? = some run)
      (move : RunMove event index run.phase next) :
      RunsMove event runs (runs.set index ⟨run.taskId, next⟩)

theorem runs_of_worker {before after : Worker.State} {event : Worker.Event}
    (effect : Worker.Effect decoders before event after) :
    RunsMove (.worker event) before.runs after.runs := by
  cases effect with
  | popped fault id rest head => exact .popped id
  | dispatched index fault id task phase slot row running routed =>
      refine .moved index _ _ slot (.fetched index fault _ ?_)
      rintro rfl
      split at routed <;> cases routed
  | skipped index fault id slot =>
      exact .moved index _ _ slot (.fetched index fault _ fun same => by cases same)
  | handled index event id task metadata since result slot ending =>
      exact .moved index _ _ slot (.ended event index result task metadata since _ ending)
  | written index fault id outcome tasks slot perhaps =>
      exact .moved index _ _ slot (.written index fault outcome)
  | crashRun index run slot => exact .moved index run _ slot (.crashed index run.phase)
  | poll index fault phase next reached slot effect => cases effect <;> exact .same
  | advance | create | startPoll | crashPoll | popFailed | resetStale | wipeQueue => exact .same

theorem runs_of_cluster {before after : Cluster} {event : ClusterEvent}
    (stepped : clusterStep decoders before event = some after) :
    RunsMove event before.workers.runs after.workers.runs := by
  cases Worker.clusterStep_effect stepped with
  | worker event workers others moved => exact runs_of_worker (Worker.step_effect moved)
  | startCheck => exact .same
  | check _ index phase next reached own slot effect => cases effect <;> exact .same
  | crashCheck index => exact .same

/-- The run that a step takes the handler from. -/
def endsRun : ClusterEvent → Option Nat
  | .worker (.finish run _) | .worker (.timeout run) | .worker (.crashRun run) => some run
  | _ => none

theorem unattended_ends {event : ClusterEvent} (free : unattended event = true) :
    endsRun event = none := by
  cases event with
  | worker inner => cases inner <;> first | rfl | cases free
  | startCheck | check | create | crashCheck => rfl

section Runs

variable {event : ClusterEvent} {runs later : List Worker.Run} {index : Nat} {id : TaskId}
  {task : Task} {metadata : RegisteredMetadata} {since : Instant}

theorem RunsMove.begun (moves : RunsMove event runs later)
    (begun : ∃ run, runs[index]? = some run ∧ run.phase ≠ .fetch) :
    ∃ run, later[index]? = some run ∧ run.phase ≠ .fetch := by
  obtain ⟨run, slot, past⟩ := begun
  have bound := (List.getElem?_eq_some_iff.mp slot).1
  cases moves with
  | same => exact ⟨run, slot, past⟩
  | popped id => exact ⟨run, by rw [List.getElem?_append_left bound, slot], past⟩
  | moved place other next there move =>
      obtain ⟨owner, phase⟩ := other
      by_cases here : place = index
      · subst here
        refine ⟨_, List.getElem?_set_self bound, ?_⟩
        cases move with
        | fetched _ fault _ begun => exact begun
        | ended | written | crashed => simp
      · exact ⟨run, by rw [List.getElem?_set_ne here, slot], past⟩

theorem RunsMove.handling (moves : RunsMove event runs later)
    (slot : runs[index]? = some ⟨id, .handling task metadata since⟩)
    (kept : endsRun event ≠ some index) :
    later[index]? = some ⟨id, .handling task metadata since⟩ := by
  have bound := (List.getElem?_eq_some_iff.mp slot).1
  cases moves with
  | same => exact slot
  | popped id => rw [List.getElem?_append_left bound, slot]
  | moved place other next there move =>
      by_cases here : place = index
      · subst here
        rw [slot] at there
        cases there
        cases move with
        | ended inner _ result _ _ _ outcome ending =>
            rcases ending with rfl | rfl <;> exact absurd rfl kept
        | crashed => exact absurd rfl kept
      · rw [List.getElem?_set_ne here, slot]

theorem RunsMove.handled (moves : RunsMove event runs later)
    (slot : later[index]? = some ⟨id, .handling task metadata since⟩) :
    runs[index]? = some ⟨id, .handling task metadata since⟩ ∨
      runs[index]? = some ⟨id, .fetch⟩ ∧ ∃ fault, event = .worker (.fetch index fault) := by
  cases moves with
  | same => exact .inl slot
  | popped other =>
      rcases getElem?_snoc_cases slot with older | ⟨_, new⟩
      · exact .inl older
      · cases new
  | moved place other next there move =>
      obtain ⟨owner, phase⟩ := other
      rcases getElem?_set_cases slot with ⟨rfl, same⟩ | ⟨_, older⟩
      · cases same
        cases move with
        | fetched _ fault begun => exact .inr ⟨there, fault, rfl⟩
      · exact .inl older

end Runs

/-! ## The invariant -/

/-- A run has its handler running, for what the metadata asks. -/
def Handles (cluster : Cluster) (index : Nat) (metadata : RegisteredMetadata) : Prop :=
  ∃ id task since, cluster.workers.runs[index]? = some ⟨id, .handling task metadata since⟩

/-- Every use case under way is attended by a run of its own. -/
structure Attended (state : State) : Prop where
  asked : ∀ (index : Nat) (id : TaskId) (task : Task) (metadata : RegisteredMetadata)
    (since : Instant), state.cluster.workers.runs[index]? =
      some ⟨id, .handling task metadata since⟩ → Asks task metadata
  begun : ∀ call ∈ state.calls, ∃ run,
    state.cluster.workers.runs[call.run]? = some run ∧ run.phase ≠ .fetch
  once : (state.calls.map Call.run).Nodup
  attended : ∀ component metadata, underWay state.service component = some metadata →
    ∃ call ∈ state.calls, call.component = component ∧ Handles state.cluster call.run metadata

section Invariant

variable {before after state : State} {event : Event} {inner : ClusterEvent}

theorem Attended.initial (now : Instant) : Attended (State.initial now) where
  asked index id task metadata since slot := by cases slot
  begun call member := absurd member List.not_mem_nil
  once := List.nodup_nil
  attended component metadata works := by cases component <;> cases works

/-- A run has one handler. -/
theorem Attended.callOf (attended : Attended state) {call : Call} (member : call ∈ state.calls) :
    state.callOf call.run = some call := by
  cases found : state.callOf call.run with
  | none =>
      rw [State.callOf] at found
      have missing := List.find?_eq_none.mp found call member
      simp at missing
  | some other =>
      rw [State.callOf] at found
      have inside := List.mem_of_find?_eq_some found
      have same : other.run = call.run := by
        simpa using List.find?_some found
      exact congrArg some (List.inj_on_of_nodup_map attended.once inside member same)

theorem Attended.asked_of_move (attended : Attended before) {cluster : Cluster}
    (reads : ReadsIds serde) (legible : Legible before.cluster.workers.tasks)
    (moved : clusterStep serde.decoders before.cluster inner = some cluster) (index : Nat)
    (id : TaskId) (task : Task) (metadata : RegisteredMetadata) (since : Instant)
    (slot : cluster.workers.runs[index]? = some ⟨id, .handling task metadata since⟩) :
    Asks task metadata := by
  rcases (runs_of_cluster moved).handled slot with older | ⟨_, fault, rfl⟩
  · exact attended.asked index id task metadata since older
  · exact (fetched_asks reads legible moved slot).2

/-- A handler ends with its use case. -/
theorem Attended.kept (attended : Attended before)
    (moves : RunsMove inner before.cluster.workers.runs after.cluster.workers.runs)
    (asked : ∀ (index : Nat) (id : TaskId) (task : Task) (metadata : RegisteredMetadata)
      (since : Instant), after.cluster.workers.runs[index]? =
        some ⟨id, .handling task metadata since⟩ → Asks task metadata)
    (calls : after.calls = before.calls)
    (works : ∀ component metadata, underWay after.service component = some metadata →
      underWay before.service component = some metadata ∧
        ∀ call ∈ before.calls, call.component = component → endsRun inner ≠ some call.run) :
    Attended after where
  asked := asked
  begun call member := moves.begun (attended.begun call (calls ▸ member))
  once := calls ▸ attended.once
  attended component metadata underway := by
    obtain ⟨older, lasts⟩ := works component metadata underway
    obtain ⟨call, member, own, id, task, since, slot⟩ := attended.attended component metadata older
    exact ⟨call, calls ▸ member, own, id, task, since, moves.handling slot (lasts call member own)⟩

/-- A handler starts with its use case. -/
theorem Attended.fetched (attended : Attended before) {cluster : Cluster} {run : Nat}
    {fault : Fault} (reads : ReadsIds serde) (legible : Legible before.cluster.workers.tasks)
    (moved : clusterStep serde.decoders before.cluster (.worker (.fetch run fault)) =
      some cluster) : Attended ((before.withCluster cluster).launched run) := by
  have moves := runs_of_cluster moved
  have asked := attended.asked_of_move reads legible moved
  unfold State.launched
  split
  · rename_i id task metadata since slot
    have unfetched := (Program.fetched moved slot).1
    have fresh : run ∉ before.calls.map Call.run := by
      intro member
      obtain ⟨call, inside, rfl⟩ := List.mem_map.mp member
      obtain ⟨old, there, past⟩ := attended.begun call inside
      rw [unfetched] at there
      cases there
      exact past rfl
    refine ⟨asked, forall_mem_snoc (fun call member => moves.begun (attended.begun call member))
      ⟨_, slot, fun same => by cases same⟩, ?_, fun component wanted works => ?_⟩
    · rw [List.map_append, List.nodup_append]
      refine ⟨attended.once, List.nodup_singleton _, ?_⟩
      rintro index member _ single rfl
      rw [List.map_singleton, List.mem_singleton] at single
      rw [single] at member
      exact fresh member
    · rcases underWay_of_launch works with older | ⟨rfl, rfl⟩
      · obtain ⟨call, member, own, id, task, since, there⟩ :=
          attended.attended component wanted older
        exact ⟨call, List.mem_append_left _ member, own, id, task, since,
          moves.handling there (fun same => by cases same)⟩
      · exact ⟨_, List.mem_append_right _ (List.mem_singleton_self _), rfl, id, task, since, slot⟩
  · exact attended.kept moves asked rfl fun component metadata works =>
      ⟨works, fun _ _ _ same => by cases same⟩

theorem Attended.step (attended : Attended before) (reads : ReadsIds serde)
    (legible : Legible before.cluster.workers.tasks)
    (effect : Effect serde.decoders before event after) : Attended after := by
  have still : RunsMove .startCheck before.cluster.workers.runs before.cluster.workers.runs := .same
  cases effect with
  | worked event cluster free moved =>
      refine attended.kept (runs_of_cluster moved) (attended.asked_of_move reads legible moved) rfl ?_
      intro component metadata works
      refine ⟨(underWay_of_slots rfl rfl rfl).symm.trans works, fun _ _ _ ends => ?_⟩
      rw [unattended_ends free] at ends
      cases ends
  | used event service mine moved =>
      exact attended.kept still attended.asked rfl fun component metadata works =>
        ⟨underWay_of_own mine moved works, fun _ _ _ same => by cases same⟩
  | requested id headers fresh service moved =>
      cases moved
      exact attended.kept still attended.asked rfl fun component metadata works =>
        ⟨(underWay_of_slots rfl rfl rfl).symm.trans works, fun _ _ _ same => by cases same⟩
  | fetched run fault cluster moved => exact attended.fetched reads legible moved
  | finished run call result cluster called answered moved =>
      refine attended.kept (runs_of_cluster moved) (attended.asked_of_move reads legible moved) rfl ?_
      intro component metadata works
      have older : underWay before.service component = some metadata :=
        (underWay_of_slots rfl rfl rfl).symm.trans works
      refine ⟨older, fun other member own ends => ?_⟩
      have same : call = other := by
        rw [Option.some.inj ends, attended.callOf member] at called
        exact (Option.some.inj called).symm
      rw [← own, ← same, underWay_of_result answered] at older
      cases older
  | dropped _ inner run exits cluster ending moved =>
      have moves := runs_of_cluster moved
      have asked := attended.asked_of_move reads legible moved
      have ends : endsRun (.worker inner) = some run := by
        rcases ending with ⟨_, rfl⟩ | ⟨_, rfl⟩ <;> rfl
      unfold State.dropped
      split
      · rename_i call called
        refine attended.kept moves asked rfl ?_
        intro component metadata works
        obtain ⟨older, other⟩ := underWay_of_drop works
        refine ⟨(underWay_of_slots rfl rfl rfl).symm.trans older, fun another member own ended => ?_⟩
        rw [ends] at ended
        rw [Option.some.inj ended] at called
        have same : call = another := Option.some.inj (called.symm.trans (attended.callOf member))
        exact other (by rw [same, own])
      · rename_i uncalled
        refine attended.kept moves asked rfl ?_
        intro component metadata works
        refine ⟨(underWay_of_slots rfl rfl rfl).symm.trans works, fun another member own ended => ?_⟩
        rw [ends] at ended
        rw [Option.some.inj ended] at uncalled
        cases uncalled.symm.trans (attended.callOf member)

end Invariant

/-! ## Exclusion -/

/-- No batch is marked without the poller's lease, and nothing in flight is reset. -/
def OrderlyCluster (cluster : Cluster) : ClusterEvent → Prop
  | .worker inner => Worker.Orderly cluster.workers inner
  | .startCheck | .check _ _ | .create _ _ _ _ | .crashCheck _ => True

instance (cluster : Cluster) (event : ClusterEvent) : Decidable (OrderlyCluster cluster event) :=
  match event with
  | .worker inner => inferInstanceAs (Decidable (Worker.Orderly cluster.workers inner))
  | .startCheck | .check _ _ | .create _ _ _ _ | .crashCheck _ => .isTrue trivial

/-- What the workers do in the step is orderly. -/
def Orderly (state : State) (event : Event) : Prop :=
  ∀ inner ∈ performed state event, OrderlyCluster state.cluster inner

instance (state : State) (event : Event) : Decidable (Orderly state event) :=
  inferInstanceAs
    (Decidable (∀ inner ∈ performed state event, OrderlyCluster state.cluster inner))

theorem exclusive_of_cluster {now : Instant} {cluster : Cluster}
    (reached : Reaches (clusterStep decoders) OrderlyCluster (Cluster.initial now) cluster) :
    Worker.Exclusive cluster.workers := by
  refine reached.preserves (fun cluster => Worker.Exclusive cluster.workers) (.initial now) ?_
  intro before after event exclusive permitted stepped
  cases Worker.clusterStep_effect stepped with
  | worker inner workers others moved => exact exclusive.step permitted (Worker.step_effect moved)
  | startCheck => exact exclusive
  | crashCheck index => exact exclusive
  | check _ index phase next reached own slot effect =>
      cases effect with
      | created token task tasks result inserted fresh sweep =>
          have orderly : Worker.Orderly before.workers (.create task) := ⟨trivial, trivial⟩
          have created : Worker.Effect decoders before.workers (.create task)
            { before.workers with tasks } := .create task tasks fresh inserted
          exact exclusive.step orderly created
      | acquired | denied | present | missing | failed | released => exact exclusive

theorem attended_of_reaches {allowed : State → Event → Prop} {now : Instant} {state : State}
    (reads : ReadsIds serde)
    (reached : Reaches (step serde.decoders) allowed (State.initial now) state) :
    Attended state := by
  induction reached with
  | refl => exact .initial now
  | tail path permitted stepped ih =>
      exact ih.step reads (legible_of_reaches path) (step_effect stepped)

/-- As long as pollers mark under their leases and stale recovery resets nothing that is in
flight, no two use cases are under way with the same piece of work: at most one processes
a given video, at most one deletes it, and at most one sweeps. -/
theorem underWay_exclude {now : Instant} {state : State} {first second : Component}
    {metadata : RegisteredMetadata} (reads : ReadsIds serde)
    (reached : Reaches (step serde.decoders) Orderly (State.initial now) state)
    (left : underWay state.service first = some metadata)
    (right : underWay state.service second = some metadata) : first = second := by
  have attended := attended_of_reaches reads reached
  have cluster := cluster_of_reaches reads
    (fun _ _ inner orderly performs => orderly inner performs) (fun _ _ => ⟨trivial, trivial⟩)
    reached
  have exclude := (exclusive_of_cluster cluster).handlersExclude
  obtain ⟨one, oneIn, rfl, oneId, oneTask, oneSince, oneSlot⟩ :=
    attended.attended first metadata left
  obtain ⟨two, twoIn, rfl, twoId, twoTask, twoSince, twoSlot⟩ :=
    attended.attended second metadata right
  have oneAsks := attended.asked _ _ _ _ _ oneSlot
  have twoAsks := attended.asked _ _ _ _ _ twoSlot
  have keyed : oneTask.orderingKey ≠ none := by
    rw [oneAsks.key]
    cases metadata <;> simp [orderingKey, TaskMetadata.orderingKey]
  have same : one.run = two.run :=
    exclude one.run two.run oneTask twoTask ⟨_, _, _, oneSlot⟩ ⟨_, _, _, twoSlot⟩
      (.inr ⟨keyed, oneAsks.key.trans twoAsks.key.symm⟩)
  rw [List.inj_on_of_nodup_map attended.once oneIn twoIn same]

/-- The second deletion of a video runs after the first went down, and beside it another
video is processed and a sweep runs. -/
theorem underWay_exclude_threeHandlers : ∃ state,
    Reaches (step standardSerde.decoders) Orderly (State.initial 0) state ∧
      underWay state.service (.execution 0) = some (.processVideo ⟨⟨.ofNat 17⟩⟩) ∧
      underWay state.service (.deletion 1) = some (.deleteVideo ⟨⟨.ofNat 7⟩⟩) ∧
      ∀ component, underWay state.service component = some (.deleteVideo ⟨⟨.ofNat 7⟩⟩) →
        component = .deletion 1 := by
  have passed : ((run (step standardSerde.decoders) Orderly (State.initial 0)
      threeHandlers).map fun state =>
        decide (underWay state.service (.execution 0) = some (.processVideo ⟨⟨.ofNat 17⟩⟩)) &&
          decide (underWay state.service (.deletion 1) = some (.deleteVideo ⟨⟨.ofNat 7⟩⟩))) =
            some true := by decide +kernel
  obtain ⟨state, reached, checked⟩ := reaches_of_check _ passed
  obtain ⟨processing, deleting⟩ := Bool.and_eq_true_iff.mp checked
  refine ⟨state, reached, of_decide_eq_true processing, of_decide_eq_true deleting, ?_⟩
  intro component works
  exact underWay_exclude standardSerde_reads reached works (of_decide_eq_true deleting)

end Benri.Program
