import Benri.Service.Snapshots

namespace Benri.Service

open Benri.Data Benri.Domain Benri.Postgres Benri.Storage Benri.Transcoder Benri.Transition

/-! # What uploads keep

Uploads run inside executions: they start there, take their own steps, and may be
abandoned or lose their pipeline.  A property of uploads that survives these survives
every step of the service.
-/

variable {stores reached : Stores} {execution next : Execution} {before after : State}
  {event : Event}

/-- What an upload keeps once it has it. -/
structure UploadFact (property : VideoId → Upload → Prop) : Prop where
  flags : ∀ {id : VideoId} {upload : Upload} (pipeline : Bool), property id upload →
    property id { upload.abandon with pipeline }
  step : ∀ {id : VideoId} {objects written : Objects} {upload stepped : Upload},
    property id upload → UploadEffect objects upload written stepped → property id stepped

/-! ## Every upload -/

def OfUpload (property : VideoId → Upload → Prop) (execution : Execution) : Prop :=
  ∀ upload, execution.upload = some upload → property execution.id upload

def EveryUpload (property : VideoId → Upload → Prop) (state : State) : Prop :=
  ∀ execution ∈ state.executions, OfUpload property execution

/-- What an upload has from its start, and keeps. -/
structure UploadInvariant (property : VideoId → Upload → Prop) : Prop
    extends UploadFact property where
  start : ∀ (id : VideoId) (outputPrefix raw : String) (hasAudio : Bool),
    property id (.start outputPrefix (parseQualityTiers raw) hasAudio)

variable {property : VideoId → Upload → Prop}

theorem UploadInvariant.advance (invariant : UploadInvariant property)
    (advance : Advance stores execution next) (holds : OfUpload property execution) :
    OfUpload property next := by
  intro upload there
  cases advance with
  | spawned video hasAudio raw phase =>
      cases there
      exact invariant.start _ _ raw hasAudio
  | joined video result older pipeline phase before =>
      cases there
      exact invariant.flags pipeline (holds older before)
  | cut =>
      obtain ⟨older, before, rfl⟩ := Option.map_eq_some_iff.mp there
      exact invariant.flags older.pipeline (holds older before)
  | loaded | ended | probed | failing | unspawned | signalled | silenced | ready | killed =>
      exact holds upload there

theorem UploadInvariant.stepped (invariant : UploadInvariant property) {event : ExecutionEvent}
    (effect : ExecutionEffect stores execution event reached next)
    (holds : OfUpload property execution) : OfUpload property next := by
  cases effect with
  | quiet _ advance => exact invariant.advance advance holds
  | claimed video row _ phase found uploaded answered =>
      rcases answered with rfl | ⟨error, rfl⟩
      · exact holds
      · exact holds
  | uploaded upload after objects event before stepped =>
      intro _ there
      cases there
      exact invariant.step (holds upload before) (uploadStep_effect stepped)
  | published | finalized | cleaned | failed => exact holds

theorem EveryUpload.initial (property : VideoId → Upload → Prop) (now : Instant) :
    EveryUpload property (State.initial now) :=
  fun _ member => absurd member List.not_mem_nil

theorem EveryUpload.step (every : EveryUpload property before)
    (invariant : UploadInvariant property) (effect : Effect before event after) :
    EveryUpload property after := by
  unfold EveryUpload
  cases effect.executions with
  | same executions tokens => rwa [executions]
  | started id executions stores =>
      rw [executions]
      exact forall_mem_snoc every fun upload there => by cases there
  | stepped index moving next slot effect executions =>
      rw [executions]
      exact forall_mem_set every
        (invariant.stepped effect (every moving (List.mem_of_getElem? slot)))

/-! ## Some upload -/

def HasUpload (property : VideoId → Upload → Prop) (execution : Execution) : Prop :=
  ∃ upload, execution.upload = some upload ∧ property execution.id upload

def SomeUpload (property : VideoId → Upload → Prop) (state : State) : Prop :=
  ∃ execution ∈ state.executions, HasUpload property execution

theorem UploadFact.advance (fact : UploadFact property) (advance : Advance stores execution next)
    (coherent : Coherent execution) (holds : HasUpload property execution) :
    HasUpload property next := by
  obtain ⟨upload, there, holds⟩ := holds
  cases advance with
  | spawned video hasAudio raw phase =>
      have none := coherent.unspawned (by rw [phase]; rfl)
      rw [there] at none
      cases none
  | joined video result older pipeline phase before =>
      obtain rfl := Option.some.inj (before.symm.trans there)
      exact ⟨_, rfl, fact.flags pipeline holds⟩
  | cut => exact ⟨_, congrArg (Option.map Upload.abandon) there, fact.flags upload.pipeline holds⟩
  | loaded | ended | probed | failing | unspawned | signalled | silenced | ready | killed =>
      exact ⟨upload, there, holds⟩

theorem UploadFact.stepped (fact : UploadFact property) {event : ExecutionEvent}
    (effect : ExecutionEffect stores execution event reached next) (coherent : Coherent execution)
    (holds : HasUpload property execution) : HasUpload property next := by
  cases effect with
  | quiet _ advance => exact fact.advance advance coherent holds
  | claimed video row _ phase found uploaded answered =>
      rcases answered with rfl | ⟨error, rfl⟩
      · exact holds
      · exact holds
  | uploaded upload after objects event before stepped =>
      obtain ⟨other, there, holds⟩ := holds
      obtain rfl := Option.some.inj (before.symm.trans there)
      exact ⟨after, rfl, fact.step holds (uploadStep_effect stepped)⟩
  | published | finalized | cleaned | failed => exact holds

theorem SomeUpload.step (some : SomeUpload property before) (fact : UploadFact property)
    (snapshots : Snapshots before) (effect : Effect before event after) :
    SomeUpload property after := by
  obtain ⟨execution, member, holds⟩ := some
  cases effect.executions with
  | same executions tokens => exact ⟨execution, executions ▸ member, holds⟩
  | started id executions stores =>
      exact ⟨execution, executions ▸ List.mem_append_left _ member, holds⟩
  | stepped index moving next slot effect executions =>
      have moves : HasUpload property moving → HasUpload property next :=
        fact.stepped effect (snapshots.executions moving (List.mem_of_getElem? slot))
      have lasting : ∀ old ∈ before.executions, ∃ later ∈ before.executions.set index next,
          HasUpload property old → HasUpload property later :=
        exists_mem_set slot (fun _ => id) moves
      obtain ⟨later, inside, passes⟩ := lasting execution member
      exact ⟨later, executions ▸ inside, passes holds⟩

end Benri.Service
