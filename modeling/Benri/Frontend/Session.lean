import Benri.Frontend.Pages
import Benri.Service.Outbox

namespace Benri.Frontend

open Benri.Api Benri.Data Benri.Domain Benri.Postgres Benri.Service Benri.Storage
  Benri.Transition

/-! # A session with the service

One upload page, and the service with everything else that goes on in it: other pages,
workers, sweeps and deletions.  A request takes effect when the service handles it; its
answer comes with it, or later for a call that takes several steps, or never.
-/

/-- `declared`, `signed` and `call` tell what the page has asked for: the title and the
type it declared, the video whose upload URL it was given, and its call of
`complete_upload`. -/
structure Session where
  service : State
  page : UploadPage
  declared : InitiateUploadInput
  signed : Option (VideoId × VideoFormat)
  call : Option Nat

def Session.initial (now : Instant) : Session := ⟨State.initial now, .initial, ⟨"", ""⟩, none, none⟩

inductive SessionEvent where
  | service (event : Event)
  | typeTitle (title : String)
  | choose (file : Option LocalFile)
  | submit
  | reset
  | initiate (fault : Fault) (presigned : Except String String) (id : VideoId)
  | put
  | putRefused
  | complete
  | completed
  | poll (fault : Fault)
  | pause
  | disconnect (message : String)

def Session.withPage (session : Session) (page : UploadPage) : Session := { session with page }

def sessionStep (baseUrl : String) (session : Session) : SessionEvent → Option Session
  | .service event => (step session.service event).map fun service => { session with service }
  | .typeTitle title => (session.page.typeTitle title).map session.withPage
  | .choose file => some (session.withPage (session.page.choose file))
  | .submit => session.page.submit.map fun submitted => { session with
      page := submitted.1, declared := submitted.2, signed := none, call := none }
  | .reset => session.page.reset.map session.withPage
  | .initiate fault presigned id =>
      match session.page.status with
      | .initiating =>
          if id ∈ session.service.stores.issued then none
          else
            let answer :=
              Api.initiateUpload session.service.stores fault presigned session.declared id
            some { session with
              service := session.service.withStores answer.1
              page := session.page.initiated (.ok answer.2)
              signed := if Response.isOk answer.2 then
                (VideoFormat.fromMimeType session.declared.mimeType).map (Prod.mk id) else none
              call := none }
      | _ => none
  | .put =>
      match session.page.status, session.signed with
      | .uploading videoId _ file, some (id, format) => some { session with
          service := session.service.withStores
            (putOriginalStep session.service.stores id format file.mimeType file.body)
          page := session.page.uploaded videoId true }
      | _, _ => none
  | .putRefused =>
      match session.page.status with
      | .uploading videoId _ _ => some (session.withPage (session.page.uploaded videoId false))
      | _ => none
  | .complete =>
      match session.page.status, session.call with
      | .completing videoId, none =>
          match parseUuid videoId with
          | .error error =>
              some (session.withPage (session.page.completed videoId (.ok error.intoResponse)))
          | .ok uuid =>
              (step session.service (.startCompletion ⟨uuid⟩)).map fun service => { session with
                service, call := some session.service.completions.length }
      | _, _ => none
  | .completed =>
      match session.page.status, session.call.bind fun call => session.service.completions[call]? with
      | .completing videoId, some ⟨_, .returned result⟩ =>
          some (session.withPage (session.page.completed videoId (.ok (Api.completeUpload result))))
      | _, _ => none
  | .poll fault =>
      match session.page.status with
      | .requesting videoId attempt => some (session.withPage (session.page.polled videoId attempt
          (.ok (Api.getVideoStatus session.service.stores fault baseUrl videoId))))
      | _ => none
  | .pause =>
      match session.page.status with
      | .pausing videoId attempt => some (session.withPage (session.page.paused videoId attempt))
      | _ => none
  | .disconnect message => (session.page.disconnected message).map session.withPage

/-! ## What the page goes by -/

/-- The row that was made for a declaration, while it is there. -/
structure Entitled (declared : InitiateUploadInput) (id : VideoId) (format : VideoFormat)
    (stores : Stores) : Prop where
  known : id ∈ stores.issued
  typed : VideoFormat.fromMimeType declared.mimeType = some format
  held : ∀ row, stores.videos.find? id = some row →
    row.title = trim declared.title ∧ row.format = format

theorem Proceeds.entitled {written : List (VideoId × String)} {old row : Video}
    (proceeds : Proceeds written old row) : row.title = old.title ∧ row.format = old.format := by
  cases proceeds <;> exact ⟨rfl, rfl⟩

variable {declared : InitiateUploadInput} {id : VideoId} {format : VideoFormat}
  {before after : Stores}

theorem Entitled.step (entitled : Entitled declared id format before)
    (effect : RowsEffect before after) : Entitled declared id format after := by
  refine ⟨effect.issued_subset entitled.known, entitled.typed, ?_⟩
  intro row found
  cases effect.descends found with
  | born title other fresh => exact absurd entitled.known fresh
  | proceeds old written there tokens proceeds =>
      obtain ⟨title, same⟩ := Proceeds.entitled proceeds
      rw [title, same]
      exact entitled.held old there
  | uploaded old there pending same =>
      subst same
      exact entitled.held old there

/-- The video that a page waits for. -/
def UploadStatus.videoId? : UploadStatus → Option String
  | .uploading videoId _ _ | .completing videoId | .requesting videoId _
  | .pausing videoId _ => some videoId
  | .idle | .initiating | .done _ | .error _ => none

/-- The round of a page that polls. -/
def UploadStatus.attempt? : UploadStatus → Option Nat
  | .requesting _ attempt | .pausing _ attempt => some attempt
  | .idle | .initiating | .uploading _ _ _ | .completing _ | .done _ | .error _ => none

/-- The page waits for nothing that a request of its would answer but `initiate`. -/
def UploadStatus.atRest : UploadStatus → Bool
  | .idle | .initiating | .error _ => true
  | .uploading _ _ _ | .completing _ | .requesting _ _ | .pausing _ _ | .done _ => false

structure Follows (baseUrl : String) (session : Session) : Prop where
  entitled : ∀ id format, session.signed = some (id, format) →
    Entitled session.declared id format session.service.stores
  named : ∀ videoId, session.page.status.videoId? = some videoId →
    ∃ id format, session.signed = some (id, format) ∧ videoId = id.uuid.text
  called : ∀ call, session.call = some call → ∃ completion format,
    session.service.completions[call]? = some completion ∧
      session.signed = some (completion.id, format)
  polls : ∀ attempt, session.page.status.attempt? = some attempt → attempt < MAX_ATTEMPTS ∧
    ∀ id format, session.signed = some (id, format) → processRows session.service.stores id ≠ 0
  shown : ∀ shareUrl, session.page.status = .done shareUrl → ∃ id format shareToken,
    session.signed = some (id, format) ∧ shareUrl = baseUrl ++ "/v/" ++ shareToken ∧
      Linked id shareToken session.service.stores

variable {baseUrl : String} {session : Session} {service : State} {page : UploadPage}

theorem Effect.completion_kept {before after : State} {event : Event}
    (effect : Effect before event after) {index : Nat} {completion : Completion}
    (found : before.completions[index]? = some completion) :
    ∃ later, after.completions[index]? = some later ∧ later.id = completion.id := by
  cases effect with
  | startCompletion id =>
      obtain ⟨bound, _⟩ := List.getElem?_eq_some_iff.mp found
      refine ⟨completion, ?_, rfl⟩
      rw [List.getElem?_append_left bound]
      exact found
  | completion place event old stores next slot effect =>
      rw [List.getElem?_set]
      split
      · rename_i same
        subst same
        obtain rfl := Option.some.inj (slot.symm.trans found)
        obtain ⟨bound, _⟩ := List.getElem?_eq_some_iff.mp found
        exact ⟨_, if_pos bound, rfl⟩
      · exact ⟨completion, found, rfl⟩
  | advance | unborn | born | original | tasks | startExecution | execution | startSweep | sweep |
    startDeletion | deletion => exact ⟨completion, found, rfl⟩

/-- What a page goes by stays right, whatever the service does. -/
theorem Follows.served {event : Event} (follows : Follows baseUrl session)
    (served : Served session.service) (stepped : step session.service event = some service) :
    Follows baseUrl { session with service } where
  entitled id format signed := (follows.entitled id format signed).step (step_effect stepped).rows
  named := follows.named
  called := by
    intro call same
    obtain ⟨completion, format, found, signed⟩ := follows.called call same
    obtain ⟨later, laterFound, laterId⟩ := Effect.completion_kept (step_effect stepped) found
    exact ⟨later, format, laterFound, laterId ▸ signed⟩
  polls := by
    intro attempt polls
    obtain ⟨few, accepted⟩ := follows.polls attempt polls
    refine ⟨few, fun id format signed => ?_⟩
    have positive := accepted id format signed
    have grown := (step_effect stepped).rows.processRows_le id
    dsimp only
    omega
  shown := by
    intro shareUrl shown
    obtain ⟨id, format, shareToken, signed, same, linked⟩ := follows.shown shareUrl shown
    exact ⟨id, format, shareToken, signed, same,
      linked_of_reaches served linked (.single event trivial stepped)⟩

/-- The page moves on, and what it has asked for stays. -/
theorem Follows.turned (follows : Follows baseUrl session)
    (named : ∀ videoId, page.status.videoId? = some videoId →
      session.page.status.videoId? = some videoId)
    (polls : ∀ attempt, page.status.attempt? = some attempt → attempt < MAX_ATTEMPTS ∧
      ∀ id format, session.signed = some (id, format) →
        processRows session.service.stores id ≠ 0)
    (shown : ∀ shareUrl, page.status = .done shareUrl → ∃ id format shareToken,
      session.signed = some (id, format) ∧ shareUrl = baseUrl ++ "/v/" ++ shareToken ∧
        Linked id shareToken session.service.stores) :
    Follows baseUrl (session.withPage page) where
  entitled := follows.entitled
  named videoId same := follows.named videoId (named videoId same)
  called := follows.called
  polls := polls
  shown := shown

/-- A page that waits for nothing, or goes on waiting before it polls. -/
theorem Follows.waits (follows : Follows baseUrl session)
    (named : ∀ videoId, page.status.videoId? = some videoId →
      session.page.status.videoId? = some videoId)
    (attempt : page.status.attempt? = none) (shown : ∀ shareUrl, page.status ≠ .done shareUrl) :
    Follows baseUrl (session.withPage page) := by
  refine follows.turned named ?_ fun shareUrl same => absurd same (shown shareUrl)
  intro other same
  rw [attempt] at same
  cases same

theorem Follows.rests (follows : Follows baseUrl session) (rest : page.status.atRest = true) :
    Follows baseUrl (session.withPage page) := by
  cases status : page.status <;> rw [status] at rest <;> cases rest <;>
    exact follows.waits (by simp [status, UploadStatus.videoId?])
      (by rw [status]; rfl) (by simp [status])

/-! ## Answers -/

theorem initiateUploadError_notOk (error : InitiateUploadError) :
    Response.isOk (initiateUploadError error).intoResponse = false := by
  cases error <;> rfl

theorem completeUploadError_notOk (error : CompleteUploadError) :
    Response.isOk (completeUploadError error).intoResponse = false := by
  cases error <;> rfl

theorem getVideoStatusError_notOk (error : GetVideoStatusError) :
    Response.isOk (getVideoStatusError error).intoResponse = false := by
  cases error <;> rfl

theorem parseUuid_notOk {raw : String} {error : ApiError}
    (unparsed : parseUuid raw = .error error) :
    Response.isOk error.intoResponse = false := by
  unfold parseUuid at unparsed
  split at unparsed <;> cases unparsed
  rfl

theorem entitled_of_initiateStep {stores reached : Stores}
    (typed : VideoFormat.fromMimeType declared.mimeType = some format)
    (stepped : initiateStep stores id (trim declared.title) format true = some reached) :
    Entitled declared id format reached := by
  unfold initiateStep at stepped
  split at stepped
  · cases stepped
  · rw [if_pos rfl] at stepped
    obtain ⟨videos, inserted, rfl⟩ := Option.map_eq_some_iff.mp stepped
    refine ⟨by simp, typed, fun row found => ?_⟩
    rw [Table.find?_insert? inserted] at found
    simp only [newVideo, if_pos] at found
    cases found
    exact ⟨rfl, rfl⟩

/-- A good answer to `initiate` names the new video. -/
theorem initiateUpload_isOk {stores : Stores} {fault : Fault} {presigned : Except String String}
    (fresh : id ∉ stores.issued)
    (answered : Response.isOk (Api.initiateUpload stores fault presigned declared id).2 = true) :
    ∃ uploadUrl format, (Api.initiateUpload stores fault presigned declared id).2 =
        jsonOk [("id", .string id.uuid.text), ("upload_url", .string uploadUrl)] ∧
      VideoFormat.fromMimeType declared.mimeType = some format ∧
      Entitled declared id format (Api.initiateUpload stores fault presigned declared id).1 := by
  unfold Api.initiateUpload at answered ⊢
  cases called : Service.initiateUpload stores fault presigned declared id with
  | mk reached result =>
      cases result with
      | error error =>
          rw [called] at answered
          simp [initiateUploadError_notOk] at answered
      | ok output =>
          obtain ⟨rfl, format, typed, stepped⟩ := initiateUpload_ok fresh called
          exact ⟨output.uploadUrl, format, rfl, typed, entitled_of_initiateStep typed stepped⟩

/-- What the loop takes from an answer about its own video. -/
theorem polled_cases {stores : Stores} {fault : Fault} (page : UploadPage) (id : VideoId)
    (attempt : Nat) :
    (∃ message, page.polled id.uuid.text attempt
        (.ok (Api.getVideoStatus stores fault baseUrl id.uuid.text)) =
      page.to (.error message)) ∨
    page.polled id.uuid.text attempt
        (.ok (Api.getVideoStatus stores fault baseUrl id.uuid.text)) =
      page.to (.pausing id.uuid.text attempt) ∨
    ∃ row shareToken, stores.videos.find? id = some row ∧ row.shareToken = some shareToken ∧
      page.polled id.uuid.text attempt
          (.ok (Api.getVideoStatus stores fault baseUrl id.uuid.text)) =
        page.to (.done (baseUrl ++ "/v/" ++ shareToken)) := by
  rw [Api.getVideoStatus, parseUuid_text]
  dsimp only
  cases answered : Service.getVideoStatus stores fault baseUrl id with
  | error error =>
      left
      simp only [UploadPage.polled, bodyOf, getVideoStatusError_notOk]
      exact ⟨_, rfl⟩
  | ok output =>
      obtain ⟨row, found, rfl⟩ := getVideoStatus_ok answered
      have good : bodyOf "Failed to get status" (.ok (jsonOk [("status", .string row.status.asStr),
          ("share_url", optionalText (row.shareUrl baseUrl))])) =
          .ok (.object [("status", .string row.status.asStr),
            ("share_url", optionalText (row.shareUrl baseUrl))]) := rfl
      cases holds : row.shareToken with
      | some shareToken =>
          right; right
          refine ⟨row, shareToken, found, holds, ?_⟩
          have present : textField (.object [("status", .string row.status.asStr),
              ("share_url", optionalText (row.shareUrl baseUrl))]) "share_url" =
              some (baseUrl ++ "/v/" ++ shareToken) := by
            simp [textField, Video.shareUrl, holds, optionalText]
          simp only [UploadPage.polled, good, present]
      | none =>
          have absent : textField (.object [("status", .string row.status.asStr),
              ("share_url", optionalText (row.shareUrl baseUrl))]) "share_url" = none := by
            simp [textField, Video.shareUrl, holds, optionalText]
          simp only [UploadPage.polled, good, absent]
          split
          · exact .inl ⟨_, rfl⟩
          · exact .inr (.inl rfl)

/-! ## Steps -/

/-- A page that is at most about to put its file. -/
theorem follows_new (call : session.call = none)
    (entitled : ∀ id format, session.signed = some (id, format) →
      Entitled session.declared id format session.service.stores)
    (status : session.page.status.atRest = true ∨
      ∃ id format uploadUrl file, session.signed = some (id, format) ∧
        session.page.status = .uploading id.uuid.text uploadUrl file) :
    Follows baseUrl session := by
  have uncalled : ∀ other, session.call ≠ some other := by simp [call]
  rcases status with rest | ⟨id, format, uploadUrl, file, signed, uploading⟩
  · cases status : session.page.status <;> rw [status] at rest <;> cases rest <;>
      exact ⟨entitled, by simp [status, UploadStatus.videoId?],
        fun other same => absurd same (uncalled other),
        by simp [status, UploadStatus.attempt?], by simp [status]⟩
  · refine ⟨entitled, ?_, fun other same => absurd same (uncalled other),
      by simp [uploading, UploadStatus.attempt?], by simp [uploading]⟩
    intro videoId same
    rw [uploading] at same
    cases same
    exact ⟨id, format, signed, rfl⟩

/-- The service has taken the step that gives the id to a new video, or none. -/
theorem initiateUpload_reaches {fault : Fault} {presigned : Except String String}
    (fresh : id ∉ service.stores.issued) :
    Reaches step Anything service (service.withStores
      (Api.initiateUpload service.stores fault presigned declared id).1) := by
  have stores : (Api.initiateUpload service.stores fault presigned declared id).1 =
      (Service.initiateUpload service.stores fault presigned declared id).1 := by
    unfold Api.initiateUpload
    split <;> simp_all only
  rw [stores]
  rcases initiateUpload_step fresh with same | ⟨format, stepped⟩
  · rw [same]
    exact .refl
  · refine .single (.initiate id (trim declared.title) format true) trivial ?_
    simp only [step]
    rw [stepped, Option.map_some]

theorem initiated_error (page : UploadPage) {response : Response}
    (refused : Response.isOk response = false) :
    (page.initiated (.ok response)).status.atRest = true := by
  simp only [UploadPage.initiated, bodyOf, refused]
  rfl

theorem initiated_uploading (page : UploadPage) (id : VideoId) (uploadUrl : String) :
    (page.initiated (.ok (jsonOk [("id", .string id.uuid.text),
        ("upload_url", .string uploadUrl)]))).status.atRest = true ∨
      ∃ url file, (page.initiated (.ok (jsonOk [("id", .string id.uuid.text),
        ("upload_url", .string uploadUrl)]))).status = .uploading id.uuid.text url file := by
  have named : textField (.object [("id", .string id.uuid.text),
      ("upload_url", .string uploadUrl)]) "id" = some id.uuid.text := by
    have present : id.uuid.text ≠ "" := by
      intro empty
      have length := id.uuid.text_length
      rw [empty] at length
      cases length
    simp [textField, present]
  have good : bodyOf "Failed to initiate upload" (.ok (jsonOk [("id", .string id.uuid.text),
      ("upload_url", .string uploadUrl)])) = .ok (.object [("id", .string id.uuid.text),
        ("upload_url", .string uploadUrl)]) := rfl
  simp only [UploadPage.initiated, good, named]
  cases page.file with
  | none => exact .inl rfl
  | some file => exact .inr ⟨_, file, rfl⟩

theorem follows_initiated {fault : Fault} {presigned : Except String String}
    (fresh : id ∉ session.service.stores.issued) :
    Follows baseUrl { session with
      service := session.service.withStores
        (Api.initiateUpload session.service.stores fault presigned session.declared id).1
      page := session.page.initiated
        (.ok (Api.initiateUpload session.service.stores fault presigned session.declared id).2)
      signed := if Response.isOk
          (Api.initiateUpload session.service.stores fault presigned session.declared id).2 then
        (VideoFormat.fromMimeType session.declared.mimeType).map (Prod.mk id) else none
      call := none } := by
  have answers (good : Response.isOk (Api.initiateUpload session.service.stores fault presigned
      session.declared id).2 = true) := initiateUpload_isOk fresh good
  generalize Api.initiateUpload session.service.stores fault presigned session.declared id =
    answer at answers ⊢
  obtain ⟨reached, response⟩ := answer
  dsimp only at answers ⊢
  cases good : Response.isOk response with
  | false =>
      refine follows_new rfl (fun _ _ same => ?_) (.inl (initiated_error _ good))
      simp at same
  | true =>
      obtain ⟨uploadUrl, format, rfl, typed, entitled⟩ := answers good
      rw [if_pos rfl, typed, Option.map_some]
      refine follows_new rfl ?_ ?_
      · intro other otherFormat same
        obtain ⟨rfl, rfl⟩ := Prod.mk.inj (Option.some.inj same)
        exact entitled
      · rcases initiated_uploading session.page id uploadUrl with rest | ⟨url, file, uploading⟩
        · exact .inl rest
        · exact .inr ⟨id, format, url, file, rfl, uploading⟩

theorem follows_called {videoId : String} {uuid : Uuid} (follows : Follows baseUrl session)
    (served : Served session.service) (status : session.page.status = .completing videoId)
    (parsed : parseUuid videoId = .ok uuid)
    (moved : step session.service (.startCompletion ⟨uuid⟩) = some service) :
    Follows baseUrl { session with
      service, call := some session.service.completions.length } := by
  have kept := follows.served served moved
  refine ⟨kept.entitled, kept.named, ?_, kept.polls, kept.shown⟩
  intro call same
  obtain rfl := Option.some.inj same
  obtain ⟨id, format, signed, rfl⟩ := follows.named videoId (by rw [status]; rfl)
  rw [parseUuid_text] at parsed
  obtain rfl := Except.ok.inj parsed
  cases moved
  exact ⟨⟨id, .findById⟩, format, by simp, signed⟩

theorem completed_error (page : UploadPage) (videoId : String) {response : Response}
    (refused : Response.isOk response = false) :
    (page.completed videoId (.ok response)).status.atRest = true := by
  simp only [UploadPage.completed, bodyOf, refused]
  rfl

theorem follows_completed {call : Nat} {videoId : String} {completion : Completion}
    {result : Except CompleteUploadError CompleteUploadOutput}
    (follows : Follows baseUrl session) (calls : OutboxCalls session.service)
    (status : session.page.status = .completing videoId) (called : session.call = some call)
    (found : session.service.completions[call]? = some completion)
    (returned : completion.phase = .returned result) :
    Follows baseUrl (session.withPage
      (session.page.completed videoId (.ok (Api.completeUpload result)))) := by
  cases result with
  | error error =>
      exact follows.rests (completed_error _ _ (completeUploadError_notOk error))
  | ok output =>
      have accepted : session.page.completed videoId (.ok (Api.completeUpload (.ok output))) =
          session.page.to (.requesting videoId 0) := rfl
      rw [accepted]
      refine follows.turned ?_ ?_ fun shareUrl same => by cases same
      · intro other same
        rw [status]
        exact same
      · intro attempt same
        cases same
        refine ⟨by decide, fun id format signed => ?_⟩
        obtain ⟨mine, ownFormat, there, own⟩ := follows.called call called
        obtain rfl := Option.some.inj (found.symm.trans there)
        obtain ⟨same, _⟩ := Prod.mk.inj (Option.some.inj (own.symm.trans signed))
        exact calls.succeeded id completion (List.mem_of_getElem? found) ⟨same, output, returned⟩

theorem follows_polled {fault : Fault} {videoId : String} {attempt : Nat}
    (follows : Follows baseUrl session) (served : Served session.service)
    (status : session.page.status = .requesting videoId attempt) :
    Follows baseUrl (session.withPage (session.page.polled videoId attempt
      (.ok (Api.getVideoStatus session.service.stores fault baseUrl videoId)))) := by
  obtain ⟨id, format, signed, rfl⟩ := follows.named videoId (by rw [status]; rfl)
  rcases polled_cases session.page id attempt with
    ⟨message, error⟩ | pausing | ⟨row, shareToken, found, holds, done⟩
  · rw [error]
    exact follows.rests rfl
  · rw [pausing]
    refine follows.turned ?_ ?_ fun shareUrl same => by cases same
    · intro other same
      rw [status]
      exact same
    · intro round same
      exact follows.polls round (by rw [status]; exact same)
  · rw [done]
    refine follows.turned (fun _ same => by cases same) (fun _ same => by cases same) ?_
    intro shareUrl same
    cases same
    refine ⟨id, format, shareToken, signed, rfl, (follows.entitled id format signed).known,
      served.claims.written id row shareToken found holds, fun other there => ?_⟩
    obtain rfl := Option.some.inj (found.symm.trans there)
    exact holds

theorem follows_paused {videoId : String} {attempt : Nat} (follows : Follows baseUrl session)
    (status : session.page.status = .pausing videoId attempt) :
    Follows baseUrl (session.withPage (session.page.paused videoId attempt)) := by
  unfold UploadPage.paused
  split
  · rename_i few
    refine follows.turned ?_ ?_ fun shareUrl same => by cases same
    · intro other same
      rw [status]
      exact same
    · intro round same
      cases same
      exact ⟨few, (follows.polls attempt (by rw [status]; rfl)).2⟩
  · exact follows.rests rfl

theorem submit_atRest {submitted : UploadPage × InitiateUploadInput} {page : UploadPage}
    (submits : page.submit = some submitted) : submitted.1.status.atRest = true := by
  unfold UploadPage.submit at submits
  obtain ⟨file, _, submits⟩ := Option.bind_eq_some_iff.mp submits
  split at submits
  · split at submits <;> cases submits <;> rfl
  · cases submits

theorem reset_atRest {page started : UploadPage} (reset : page.reset = some started) :
    started.status.atRest = true := by
  unfold UploadPage.reset at reset
  split at reset <;> cases reset
  rfl

theorem disconnected_atRest {page gone : UploadPage} {message : String}
    (disconnected : page.disconnected message = some gone) : gone.status.atRest = true := by
  unfold UploadPage.disconnected at disconnected
  split at disconnected <;> cases disconnected <;> rfl

/-- The step lemma of a session. -/
theorem Follows.stepped {now : Instant} {session after : Session} {event : SessionEvent}
    (follows : Follows baseUrl session)
    (reached : Reaches step Anything (State.initial now) session.service)
    (stepped : sessionStep baseUrl session event = some after) :
    Reaches step Anything (State.initial now) after.service ∧ Follows baseUrl after := by
  have served := served_of_reaches (.initial now) reached
  cases event with
  | service event =>
      obtain ⟨service, moved, rfl⟩ := Option.map_eq_some_iff.mp stepped
      exact ⟨reached.andThen event trivial moved, follows.served served moved⟩
  | typeTitle title =>
      obtain ⟨page, typed, rfl⟩ := Option.map_eq_some_iff.mp stepped
      unfold UploadPage.typeTitle at typed
      split at typed
      · cases typed
        exact ⟨reached, { follows with }⟩
      · cases typed
  | choose file =>
      cases stepped
      exact ⟨reached, { follows with }⟩
  | submit =>
      obtain ⟨⟨page, declared⟩, submitted, rfl⟩ := Option.map_eq_some_iff.mp stepped
      exact ⟨reached,
        follows_new rfl (fun _ _ same => by cases same) (.inl (submit_atRest submitted))⟩
  | reset =>
      obtain ⟨page, started, rfl⟩ := Option.map_eq_some_iff.mp stepped
      exact ⟨reached, follows.rests (reset_atRest started)⟩
  | initiate fault presigned id =>
      simp only [sessionStep] at stepped
      split at stepped
      · split at stepped
        · cases stepped
        · rename_i fresh
          cases stepped
          exact ⟨reached.trans (initiateUpload_reaches fresh), follows_initiated fresh⟩
      · cases stepped
  | put =>
      simp only [sessionStep] at stepped
      split at stepped
      · rename_i videoId uploadUrl file id format uploading signed
        cases stepped
        have moved : step session.service (.putOriginal id format file.mimeType file.body) =
          some _ := rfl
        refine ⟨reached.andThen _ trivial moved, (follows.served served moved).waits ?_ rfl
          fun _ same => by cases same⟩
        intro other same
        dsimp only
        rw [uploading]
        exact same
      · cases stepped
  | putRefused =>
      simp only [sessionStep] at stepped
      split at stepped
      · cases stepped
        exact ⟨reached, follows.rests rfl⟩
      · cases stepped
  | complete =>
      simp only [sessionStep] at stepped
      split at stepped
      · rename_i videoId status uncalled
        split at stepped
        · rename_i error unparsed
          cases stepped
          exact ⟨reached, follows.rests (completed_error _ _ (parseUuid_notOk unparsed))⟩
        · rename_i uuid parsed
          obtain ⟨service, moved, rfl⟩ := Option.map_eq_some_iff.mp stepped
          exact ⟨reached.andThen _ trivial moved, follows_called follows served status parsed moved⟩
      · cases stepped
  | completed =>
      simp only [sessionStep] at stepped
      split at stepped
      · rename_i videoId id result status found
        cases stepped
        obtain ⟨call, called, there⟩ := Option.bind_eq_some_iff.mp found
        exact ⟨reached,
          follows_completed follows (outbox_of_reaches reached).2 status called there rfl⟩
      · cases stepped
  | poll fault =>
      simp only [sessionStep] at stepped
      split at stepped
      · rename_i videoId attempt status
        cases stepped
        exact ⟨reached, follows_polled follows served status⟩
      · cases stepped
  | pause =>
      simp only [sessionStep] at stepped
      split at stepped
      · rename_i videoId attempt status
        cases stepped
        exact ⟨reached, follows_paused follows status⟩
      · cases stepped
  | disconnect message =>
      obtain ⟨page, gone, rfl⟩ := Option.map_eq_some_iff.mp stepped
      exact ⟨reached, follows.rests (disconnected_atRest gone)⟩

/-! ## Every reachable state -/

theorem follows_of_reaches {now : Instant}
    (reached : Reaches (sessionStep baseUrl) Anything (Session.initial now) session) :
    Reaches step Anything (State.initial now) session.service ∧ Follows baseUrl session := by
  refine reached.preserves (fun session =>
    Reaches step Anything (State.initial now) session.service ∧ Follows baseUrl session)
    ⟨.refl, follows_new rfl (fun _ _ same => by cases same) (.inl rfl)⟩ ?_
  intro before after event holds _ stepped
  exact holds.2.stepped holds.1 stepped

/-- The answer for a token, and what the share page makes of it. -/
theorem loadAndPlay_of_found {stores : Stores} {shareToken : String} {row : Video}
    (cdnBaseUrl : String) (found : findByShareToken stores.videos shareToken = some row) :
    loadAndPlay (.ok (Api.getVideoByToken stores .none cdnBaseUrl shareToken)) =
      ⟨some (.object [("title", .string row.title),
          ("stream_url", optionalText (row.streamUrl (trimEndMatches cdnBaseUrl '/')))]),
        none, row.streamUrl (trimEndMatches cdnBaseUrl '/'), false⟩ := by
  rw [Api.getVideoByToken, getVideoByToken_of_found cdnBaseUrl found]
  dsimp only
  have good : bodyOf "Video not found" (.ok (jsonOk [("title", .string row.title),
      ("stream_url", optionalText (row.streamUrl (trimEndMatches cdnBaseUrl '/')))])) =
      .ok (.object [("title", .string row.title),
        ("stream_url", optionalText (row.streamUrl (trimEndMatches cdnBaseUrl '/')))]) := rfl
  simp only [loadAndPlay, good]
  cases stream : row.streamUrl (trimEndMatches cdnBaseUrl '/') with
  | none => simp [textField, optionalText]
  | some streamUrl =>
      have present : streamUrl ≠ "" := by
        rintro rfl
        unfold Video.streamUrl at stream
        split at stream <;> simp at stream
      simp [textField, optionalText, present]

/-- A page that polls asks for the video whose upload URL it was given, which has its task,
in fewer than 120 rounds.  The link it ends with is that video's: as long as the row is
there, the share page finds it under the link's token, with the title that was typed, and
plays it unless the video has failed. -/
theorem shown_link_plays {now : Instant} {session : Session}
    (reached : Reaches (sessionStep baseUrl) Anything (Session.initial now) session) :
    (∀ videoId attempt, session.page.status = .requesting videoId attempt ∨
      session.page.status = .pausing videoId attempt → attempt < MAX_ATTEMPTS ∧
      ∃ id format, session.signed = some (id, format) ∧ videoId = id.uuid.text ∧
        processRows session.service.stores id ≠ 0 ∧
        ∀ row, session.service.stores.videos.find? id = some row →
          row.status ≠ .pendingUpload ∧ row.title = trim session.declared.title) ∧
    (∀ shareUrl, session.page.status = .done shareUrl → ∃ id format shareToken,
      session.signed = some (id, format) ∧ shareUrl = baseUrl ++ "/v/" ++ shareToken ∧
      ∀ row, session.service.stores.videos.find? id = some row →
        row.title = trim session.declared.title ∧ row.format = format ∧
        ∀ cdnBaseUrl, ∃ stream, loadAndPlay (.ok
            (Api.getVideoByToken session.service.stores .none cdnBaseUrl shareToken)) =
          ⟨some (.object [("title", .string row.title), ("stream_url", optionalText stream)]),
            none, stream, false⟩ ∧ (stream.isSome = true ↔ row.status ≠ .failed)) := by
  obtain ⟨service, follows⟩ := follows_of_reaches reached
  have served := served_of_reaches (.initial now) service
  refine ⟨?_, ?_⟩
  · intro videoId attempt status
    have polls : session.page.status.attempt? = some attempt := by
      rcases status with requesting | pausing
      · rw [requesting]; rfl
      · rw [pausing]; rfl
    have waits : session.page.status.videoId? = some videoId := by
      rcases status with requesting | pausing
      · rw [requesting]; rfl
      · rw [pausing]; rfl
    obtain ⟨few, accepted⟩ := follows.polls attempt polls
    obtain ⟨id, format, signed, same⟩ := follows.named videoId waits
    have positive := accepted id format signed
    refine ⟨few, id, format, signed, same, positive, fun row found => ⟨fun pending => ?_, ?_⟩⟩
    · rw [served.outbox.pending id row found, if_pos pending] at positive
      exact positive rfl
    · exact ((follows.entitled id format signed).held row found).1
  · intro shareUrl done
    obtain ⟨id, format, shareToken, signed, same, linked⟩ := follows.shown shareUrl done
    refine ⟨id, format, shareToken, signed, same, fun row found => ?_⟩
    obtain ⟨title, own⟩ := (follows.entitled id format signed).held row found
    have holds := linked.held row found
    have byToken := (tokens_of_reaches service).unique.findByShareToken found holds
    refine ⟨title, own, fun cdnBaseUrl => ⟨_, loadAndPlay_of_found cdnBaseUrl byToken, ?_⟩⟩
    rw [streamUrl_isSome, isStreamable_iff (served.settled_of_token found holds) holds]

/-- A title is typed and a file is chosen; the video is uploaded, and processed after the
first round of the loop. -/
def watchedUpload (id : VideoId) (task : TaskId) : List SessionEvent :=
  [.typeTitle "a title", .choose (some ⟨"video/x-matroska", matroska⟩), .submit,
    .initiate .none (.ok "signed") id, .put, .complete, .service (.completion 0 (.call .none)),
    .service (.completion 0 (.call .none)), .service (.completion 0 (.call .none)),
    .service (.completion 0 (.transition .none ⟨task, none⟩)), .completed, .poll .none, .pause,
    .service (.startExecution task id), .service (.execution 0 (.call .none)),
    .service (.execution 0 (.call .none))] ++
  (emptyTranscode "token").map .service ++ [.service (.execution 0 (.call .none)), .poll .none]

def UploadStatus.shareUrl? : UploadStatus → Option String
  | .done shareUrl => some shareUrl
  | .idle | .initiating | .uploading _ _ _ | .completing _ | .requesting _ _ | .pausing _ _
  | .error _ => none

theorem UploadStatus.shareUrl?_eq_some {status : UploadStatus} {shareUrl : String}
    (shown : status.shareUrl? = some shareUrl) : status = .done shareUrl := by
  cases status <;> cases shown
  rfl

theorem shown_link_plays_watchedUpload : ∃ session shareUrl row,
    Reaches (sessionStep "host") Anything (Session.initial 0) session ∧
    session.page.status = .done shareUrl ∧
    session.service.stores.videos.find? ⟨.ofNat 7⟩ = some row ∧
    row.title = trim session.declared.title := by
  have passed : ((run (sessionStep "host") Anything (Session.initial 0)
      (watchedUpload ⟨.ofNat 7⟩ ⟨.ofNat 8⟩)).map fun session =>
        session.page.status.shareUrl?.isSome && decide (session.signed = some (⟨.ofNat 7⟩, .mkv)) &&
        (session.service.stores.videos.find? ⟨.ofNat 7⟩).isSome) = some true := by
    decide +kernel
  obtain ⟨session, reached, passed⟩ := reaches_of_check _ passed
  simp only [Bool.and_eq_true, Option.isSome_iff_exists, decide_eq_true_eq] at passed
  obtain ⟨⟨⟨shareUrl, shown⟩, signed⟩, row, found⟩ := passed
  have done := UploadStatus.shareUrl?_eq_some shown
  obtain ⟨id, format, shareToken, own, _, plays⟩ := (shown_link_plays reached).2 shareUrl done
  obtain ⟨rfl, rfl⟩ := Prod.mk.inj (Option.some.inj (own.symm.trans signed))
  exact ⟨session, shareUrl, row, reached, done, found, (plays row found).1⟩

end Benri.Frontend
