import Benri.Service.EarlyPublish
import Benri.Service.Lifecycle

namespace Benri.Service

open Benri.Data Benri.Domain Benri.Postgres Benri.Storage Benri.Transition

/-! # `GetVideoStatusUseCase` and `GetVideoByTokenUseCase`

Two reads of one row.  The status call gives out the link as soon as the row
holds a token; the token call gives out the stream of a row that is streamable.
A video that failed after its link went out is where they differ.
-/

inductive GetVideoStatusError where
  | videoNotFound
  | internal (message : String)
deriving DecidableEq, Repr

structure GetVideoStatusOutput where
  status : VideoStatus
  shareUrl : Option String
deriving DecidableEq, Repr

def getVideoStatus (stores : Stores) (fault : Fault) (baseUrl : String) (id : VideoId) :
    Except GetVideoStatusError GetVideoStatusOutput :=
  match (attempt fault databaseError stores stores (stores.videos.find? id)).2 with
  | .error error => .error (.internal error)
  | .ok none => .error .videoNotFound
  | .ok (some video) => .ok ⟨video.status, video.shareUrl baseUrl⟩

inductive GetVideoByTokenError where
  | videoNotFound
  | internal (message : String)
deriving DecidableEq, Repr

structure GetVideoByTokenOutput where
  title : String
  streamUrl : Option String
deriving DecidableEq, Repr

/-- `str::trim_end_matches` with one character. -/
def trimEndMatches (text : String) (char : Char) : String :=
  String.ofList (text.toList.reverse.dropWhile fun last => decide (last = char)).reverse

def getVideoByToken (stores : Stores) (fault : Fault) (cdnBaseUrl shareToken : String) :
    Except GetVideoByTokenError GetVideoByTokenOutput :=
  match (attempt fault databaseError stores stores
    (findByShareToken stores.videos shareToken)).2 with
  | .error error => .error (.internal error)
  | .ok none => .error .videoNotFound
  | .ok (some video) =>
      .ok ⟨video.title, video.streamUrl (trimEndMatches cdnBaseUrl '/')⟩

variable {stores : Stores} {fault : Fault}

theorem getVideoStatus_ok {baseUrl : String} {id : VideoId} {output : GetVideoStatusOutput}
    (answered : getVideoStatus stores fault baseUrl id = .ok output) :
    ∃ row, stores.videos.find? id = some row ∧ output = ⟨row.status, row.shareUrl baseUrl⟩ := by
  unfold getVideoStatus at answered
  cases fault with
  | error applied message => cases answered
  | none =>
      rw [attempt_none] at answered
      cases found : stores.videos.find? id with
      | none => rw [found] at answered; cases answered
      | some row => rw [found] at answered; cases answered; exact ⟨row, rfl, rfl⟩

theorem getVideoStatus_of_found {id : VideoId} {row : Video} (baseUrl : String)
    (found : stores.videos.find? id = some row) :
    getVideoStatus stores .none baseUrl id = .ok ⟨row.status, row.shareUrl baseUrl⟩ := by
  rw [getVideoStatus, attempt_none, found]

theorem findByShareToken_some {videos : VideoTable} {token : String} {row : Video}
    (found : findByShareToken videos token = some row) :
    videos.find? row.id = some row ∧ row.shareToken = some token :=
  ⟨Table.find?_of_mem (List.mem_of_find?_eq_some found), by simpa using List.find?_some found⟩

/-- A token that is unique finds the one row that holds it. -/
theorem TokensUnique.findByShareToken {videos : VideoTable} (unique : TokensUnique videos)
    {id : VideoId} {row : Video} {token : String} (found : videos.find? id = some row)
    (holds : row.shareToken = some token) :
    Postgres.findByShareToken videos token = some row := by
  cases answer : Postgres.findByShareToken videos token with
  | none =>
      have absent := List.find?_eq_none.mp answer row (Table.mem_of_find? found)
      simp [holds] at absent
  | some other =>
      obtain ⟨there, held⟩ := findByShareToken_some answer
      have same : id = other.id := unique id other.id row other token found holds there held
      rw [← same, found] at there
      exact there.symm

theorem getVideoByToken_ok {cdnBaseUrl shareToken : String} {output : GetVideoByTokenOutput}
    (answered : getVideoByToken stores fault cdnBaseUrl shareToken = .ok output) :
    ∃ row, findByShareToken stores.videos shareToken = some row ∧
      output = ⟨row.title, row.streamUrl (trimEndMatches cdnBaseUrl '/')⟩ := by
  unfold getVideoByToken at answered
  cases fault with
  | error applied message => cases answered
  | none =>
      rw [attempt_none] at answered
      cases found : findByShareToken stores.videos shareToken with
      | none => rw [found] at answered; cases answered
      | some row => rw [found] at answered; cases answered; exact ⟨row, rfl, rfl⟩

theorem getVideoByToken_of_found {shareToken : String} {row : Video} (cdnBaseUrl : String)
    (found : findByShareToken stores.videos shareToken = some row) :
    getVideoByToken stores .none cdnBaseUrl shareToken =
      .ok ⟨row.title, row.streamUrl (trimEndMatches cdnBaseUrl '/')⟩ := by
  rw [getVideoByToken, attempt_none, found]

theorem streamUrl_isSome (video : Video) (cdnBaseUrl : String) :
    (video.streamUrl cdnBaseUrl).isSome = video.isStreamable := by
  unfold Video.streamUrl
  split
  · rename_i streamable
    exact streamable.symm
  · rename_i hidden
    exact (Bool.eq_false_iff.mpr hidden).symm

/-- With a token, only a failure keeps a row from being streamed. -/
theorem isStreamable_iff {row : Video} {token : String} (settled : Settled row.status)
    (holds : row.shareToken = some token) : row.isStreamable = true ↔ row.status ≠ .failed := by
  cases status : row.status with
  | pendingUpload => exact absurd status settled.1
  | uploaded => exact absurd status settled.2
  | processing => simp [Video.isStreamable, status, holds]
  | processed => simp [Video.isStreamable, status]
  | failed => simp [Video.isStreamable, status]

/-- Wherever the status call gives a link, the token call finds that video by the
link's token, and gives its stream unless the video has failed; and it gives a
stream only for a video whose status call gives the link. -/
theorem reads_agree {now : Instant} {state : State}
    (reached : Reaches step Anything (State.initial now) state) (baseUrl cdnBaseUrl : String) :
    (∀ fault id output url, getVideoStatus state.stores fault baseUrl id = .ok output →
      output.shareUrl = some url →
      ∃ row shareToken, state.stores.videos.find? id = some row ∧
        row.shareToken = some shareToken ∧ url = baseUrl ++ "/v/" ++ shareToken ∧
        ∃ streamUrl, getVideoByToken state.stores .none cdnBaseUrl shareToken =
          .ok ⟨row.title, streamUrl⟩ ∧ (streamUrl.isSome = true ↔ output.status ≠ .failed)) ∧
    (∀ fault shareToken output url,
      getVideoByToken state.stores fault cdnBaseUrl shareToken = .ok output →
      output.streamUrl = some url →
      ∃ row, state.stores.videos.find? row.id = some row ∧ row.shareToken = some shareToken ∧
        getVideoStatus state.stores .none baseUrl row.id =
          .ok ⟨row.status, some (baseUrl ++ "/v/" ++ shareToken)⟩) := by
  have served := served_of_reaches (.initial now) reached
  have tokens := tokens_of_reaches reached
  refine ⟨?_, ?_⟩
  · intro fault id output url answered linked
    obtain ⟨row, found, rfl⟩ := getVideoStatus_ok answered
    obtain ⟨shareToken, holds, rfl⟩ := Option.map_eq_some_iff.mp linked
    have byToken := getVideoByToken_of_found cdnBaseUrl
      (tokens.unique.findByShareToken found holds)
    refine ⟨row, shareToken, found, holds, rfl, _, byToken, ?_⟩
    rw [streamUrl_isSome]
    exact isStreamable_iff (served.settled_of_token found holds) holds
  · intro fault shareToken output url answered streamed
    obtain ⟨row, byToken, rfl⟩ := getVideoByToken_ok answered
    obtain ⟨found, holds⟩ := findByShareToken_some byToken
    refine ⟨row, found, holds, ?_⟩
    rw [getVideoStatus_of_found baseUrl found, Video.shareUrl, holds, Option.map_some]

theorem reads_agree_publishedVideo : ∃ state row streamUrl,
    Reaches step Anything (State.initial 0) state ∧
    state.stores.videos.find? ⟨.ofNat 7⟩ = some row ∧
    getVideoByToken state.stores .none "cdn/" "token" = .ok ⟨row.title, some streamUrl⟩ := by
  have passed : ((run step Anything (State.initial 0)
      (publishedVideo ⟨.ofNat 7⟩ ⟨.ofNat 8⟩ "token")).map fun state =>
        (state.stores.videos.find? ⟨.ofNat 7⟩).any fun row =>
          decide (row.status = .processing) && decide (row.shareToken = some "token")) =
            some true := by decide
  obtain ⟨state, reached, passed⟩ := reaches_of_check _ passed
  obtain ⟨row, found, passed⟩ := (Option.any_eq_true _ _).mp passed
  obtain ⟨processing, holds⟩ := Bool.and_eq_true_iff.mp passed
  have holds := of_decide_eq_true holds
  have answered := getVideoStatus_of_found "base" found
  obtain ⟨other, token, there, held, _, streamUrl, byToken, streamed⟩ :=
    (reads_agree reached "base" "cdn/").1 _ _ _ ("base" ++ "/v/" ++ "token") answered
      (by rw [Video.shareUrl, holds]; rfl)
  rw [found] at there
  cases there
  rw [holds] at held
  cases held
  obtain ⟨url, rfl⟩ := Option.isSome_iff_exists.mp (streamed.mpr (by
    rw [of_decide_eq_true processing]
    exact fun same => by cases same))
  exact ⟨state, row, url, reached, found, byToken⟩

/-- The pipeline dies after the link went out. -/
def failedLink (id : VideoId) (task deletion : TaskId) (shareToken : String) : List Event :=
  publishedVideo id task shareToken ++
    [.execution 0 (.pipelinePanic "decoder"), .execution 0 .joinPublisher,
      .execution 0 (.fail .none ⟨deletion, none⟩)]

theorem failedLink_disagrees : ∃ state url, Reaches step Anything (State.initial 0) state ∧
    getVideoStatus state.stores .none "base" ⟨.ofNat 7⟩ = .ok ⟨.failed, some url⟩ ∧
    ((state.stores.videos.find? ⟨.ofNat 7⟩).bind Video.shareToken) = some "token" ∧
    ∃ title, getVideoByToken state.stores .none "cdn" "token" = .ok ⟨title, none⟩ := by
  have passed : ((run step Anything (State.initial 0)
      (failedLink ⟨.ofNat 7⟩ ⟨.ofNat 8⟩ ⟨.ofNat 9⟩ "token")).map fun state =>
        (state.stores.videos.find? ⟨.ofNat 7⟩).any fun row =>
          decide (row.status = .failed) && decide (row.shareToken = some "token")) =
            some true := by decide
  obtain ⟨state, reached, passed⟩ := reaches_of_check _ passed
  obtain ⟨row, found, passed⟩ := (Option.any_eq_true _ _).mp passed
  obtain ⟨failed, holds⟩ := Bool.and_eq_true_iff.mp passed
  have failed := of_decide_eq_true failed
  have holds := of_decide_eq_true holds
  have byToken := (tokens_of_reaches reached).unique.findByShareToken found holds
  refine ⟨state, "base" ++ "/v/" ++ "token", reached, ?_, ?_, row.title, ?_⟩
  · rw [getVideoStatus_of_found "base" found, Video.shareUrl, holds, failed]
    rfl
  · rw [found]
    exact holds
  · rw [getVideoByToken_of_found "cdn" byToken, Video.streamUrl, Video.isStreamable, failed]
    rfl

end Benri.Service
