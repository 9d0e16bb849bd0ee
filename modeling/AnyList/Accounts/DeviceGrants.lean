import Mathlib.Data.List.Basic
import Mathlib.Logic.Function.Basic

namespace AnyList.Accounts.DeviceGrants

inductive GrantStatus
  | pending
  | approved
  | denied
  | expired
  deriving DecidableEq

/-- A row of the device grants. A refresh token stands for its digest, and times are in
microseconds. -/
structure OAuthDeviceGrant where
  id : ℕ
  scope : String
  status : GrantStatus
  interval : ℕ
  userId : Option ℕ
  expiresAt : ℕ
  lastPolledAt : Option ℕ
  tokenIssuedAt : Option ℕ
  revokedAt : Option ℕ
  refreshTokenHash : Option ℕ
  prevRefreshTokenHash : Option ℕ
  deriving DecidableEq

structure AccessToken where
  sub : Option ℕ
  scope : String
  jti : ℕ
  deriving DecidableEq

/-- What a client presents for new tokens. -/
inductive Credential
  | deviceCode
  | refreshToken (token : ℕ)
  deriving DecidableEq

inductive Answer
  | oauthError (code : String)
  | httpError (status : ℕ) (detail : String)
  | status (status : GrantStatus)
  | revoked
  | tokens (presented : Credential) (access : AccessToken) (refreshToken : ℕ)
  deriving DecidableEq

/-- What a request makes of the grant it has read: an answer, with or without a commit before. -/
inductive Reply
  | answer (answer : Answer)
  | commit (written : OAuthDeviceGrant) (answer : Answer)

section endpoints

variable (grant : OAuthDeviceGrant) (now new : ℕ)

def userFromDeviceGrant (payload : AccessToken) : Option ℕ :=
  match payload.sub with
  | none => none
  | some user =>
    if payload.jti ≠ grant.id ∨ grant.status ≠ .approved ∨ grant.revokedAt ≠ none ∨
        grant.userId ≠ some user ∨ grant.scope ≠ payload.scope then none
    else some user

def issueDeviceAccessToken : AccessToken where
  sub := grant.userId
  scope := grant.scope
  jti := grant.id

def polledTooSoon : Bool :=
  grant.lastPolledAt.any fun polled ↦ decide (now - polled < grant.interval * 1000000)

def deviceTokenExchange : Reply :=
  if grant.tokenIssuedAt ≠ none then .answer (.oauthError "invalid_grant")
  else if polledTooSoon grant now then
    .commit { grant with interval := grant.interval + 5, lastPolledAt := some now }
      (.oauthError "slow_down")
  else
    let polled := { grant with lastPolledAt := some now }
    if grant.status ∈ [.pending, .expired] ∧ grant.expiresAt ≤ now then
      .commit { polled with status := .expired } (.oauthError "expired_token")
    else
      match grant.status with
      | .expired => .commit polled (.oauthError "expired_token")
      | .denied => .commit polled (.oauthError "access_denied")
      | .pending => .commit polled (.oauthError "authorization_pending")
      | .approved =>
        .commit { polled with
            refreshTokenHash := some new
            prevRefreshTokenHash := none
            tokenIssuedAt := some now }
          (.tokens .deviceCode (issueDeviceAccessToken grant) new)

/-- A grant that was found by the refresh token. -/
def deviceTokenRefresh (token : ℕ) : Reply :=
  if grant.revokedAt ≠ none ∨ grant.status ≠ .approved then .answer (.oauthError "invalid_grant")
  else .commit { grant with
      prevRefreshTokenHash := grant.refreshTokenHash
      refreshTokenHash := some new }
    (.tokens (.refreshToken token) (issueDeviceAccessToken grant) new)

/-- A grant that was found by the refresh token before its last rotation. -/
def revokeStolen : Reply :=
  if grant.revokedAt = none then
    .commit { grant with revokedAt := some now } (.oauthError "invalid_grant")
  else .answer (.oauthError "invalid_grant")

def deviceApprove (user : ℕ) (approve : Bool) : Reply :=
  if grant.status ≠ .pending ∨ grant.expiresAt ≤ now then
    .answer (.httpError 404 "Unknown or expired code")
  else
    let status := if approve then .approved else .denied
    .commit { grant with userId := some user, status := status } (.status status)

def revokeDeviceGrant (user : ℕ) : Reply :=
  if grant.userId ≠ some user then .answer (.httpError 404 "Not found")
  else if grant.revokedAt = none then .commit { grant with revokedAt := some now } .revoked
  else .answer .revoked

end endpoints

/-- A column is sent with a commit when the request has changed it. -/
def column {α : Type} [DecidableEq α] (read written stored : α) : α :=
  if written = read then stored else written

/-- What a commit makes of the row, whatever others have committed since it was read. -/
def flush (read written stored : OAuthDeviceGrant) : OAuthDeviceGrant where
  id := stored.id
  scope := stored.scope
  status := column read.status written.status stored.status
  interval := column read.interval written.interval stored.interval
  userId := column read.userId written.userId stored.userId
  expiresAt := stored.expiresAt
  lastPolledAt := column read.lastPolledAt written.lastPolledAt stored.lastPolledAt
  tokenIssuedAt := column read.tokenIssuedAt written.tokenIssuedAt stored.tokenIssuedAt
  revokedAt := column read.revokedAt written.revokedAt stored.revokedAt
  refreshTokenHash := column read.refreshTokenHash written.refreshTokenHash stored.refreshTokenHash
  prevRefreshTokenHash :=
    column read.prevRefreshTokenHash written.prevRefreshTokenHash stored.prevRefreshTokenHash

/-- The requests of clients, and of users with a session. -/
inductive Request
  | exchange
  | refresh (token : ℕ)
  | approve (user : ℕ) (approve : Bool)
  | revoke (user : ℕ)

/-- Where a request stands, with what it has read. A refresh that has not found its token notes
whether it is the one before the last rotation. -/
inductive Stage
  | arrived (request : Request)
  | exchangeRead (grant : OAuthDeviceGrant)
  | refreshRead (grant : OAuthDeviceGrant) (token : ℕ)
  | refreshMissed (token : ℕ) (replayed : Bool)
  | stolenRead (grant : OAuthDeviceGrant) (replayed : Bool)
  | approveRead (grant : OAuthDeviceGrant) (user : ℕ) (approve : Bool)
  | revokeRead (grant : OAuthDeviceGrant) (user : ℕ)
  | committing (read written : OAuthDeviceGrant) (answer : Answer) (replayed : Bool)

/-- An answer, with the row that it left behind and what was known of the grant when its commit
came. -/
structure Answered where
  answer : Answer
  replayed : Bool
  found : OAuthDeviceGrant
  left : OAuthDeviceGrant
  denied : Bool
  approvedInTime : Bool

/-- One grant and the requests for it. The server notes whether the grant was ever denied, and
whether it was approved before it expired. -/
structure Server where
  grant : OAuthDeviceGrant
  clock : ℕ
  nextToken : ℕ
  requests : ℕ → Option Stage
  answered : List Answered
  denied : Bool
  approvedInTime : Bool

inductive Event
  | arrive (id : ℕ) (request : Request)
  | advance (id : ℕ)
  | pass (time : ℕ)

namespace Server

variable (s : Server) (id : ℕ)

def initial (grantId expiresAt : ℕ) (scope : String) : Server where
  grant := ⟨grantId, scope, .pending, 5, none, expiresAt, none, none, none, none, none⟩
  clock := 0
  nextToken := 0
  requests := fun _ ↦ none
  answered := []
  denied := false
  approvedInTime := false

def enter (stage : Stage) : Server :=
  { s with requests := Function.update s.requests id (some stage) }

/-- A request is answered, and the grant is what it left. -/
def finish (answer : Answer) (replayed : Bool) (grant : OAuthDeviceGrant) : Server where
  grant := grant
  clock := s.clock
  nextToken := s.nextToken
  requests := Function.update s.requests id none
  answered := ⟨answer, replayed, s.grant, grant, s.denied, s.approvedInTime⟩ :: s.answered
  denied := s.denied || decide (answer = .status .denied)
  approvedInTime := s.approvedInTime ||
    decide (answer = .status .approved ∧ s.clock < s.grant.expiresAt)

/-- A request that has decided; the random token it may have drawn is not drawn again. -/
def settle (read : OAuthDeviceGrant) (replayed : Bool) : Reply → Server
  | .answer answer => s.finish id answer replayed s.grant
  | .commit written answer =>
    { s.enter id (.committing read written answer replayed) with nextToken := s.nextToken + 1 }

/-- The next statement of a request, or what it decides between two statements. -/
def advance : Stage → Server
  | .arrived .exchange => s.enter id (.exchangeRead s.grant)
  | .arrived (.refresh token) =>
    if s.grant.refreshTokenHash = some token then s.enter id (.refreshRead s.grant token)
    else s.enter id (.refreshMissed token (decide (s.grant.prevRefreshTokenHash = some token)))
  | .arrived (.approve user approve) => s.enter id (.approveRead s.grant user approve)
  | .arrived (.revoke user) => s.enter id (.revokeRead s.grant user)
  | .refreshMissed token replayed =>
    if s.grant.prevRefreshTokenHash = some token then s.enter id (.stolenRead s.grant replayed)
    else s.finish id (.oauthError "invalid_grant") replayed s.grant
  | .exchangeRead grant =>
    s.settle id grant false (deviceTokenExchange grant s.clock s.nextToken)
  | .refreshRead grant token =>
    s.settle id grant false (deviceTokenRefresh grant s.nextToken token)
  | .stolenRead grant replayed => s.settle id grant replayed (revokeStolen grant s.clock)
  | .approveRead grant user approve =>
    s.settle id grant false (deviceApprove grant s.clock user approve)
  | .revokeRead grant user => s.settle id grant false (revokeDeviceGrant grant s.clock user)
  | .committing read written answer replayed =>
    s.finish id answer replayed (flush read written s.grant)

end Server

def step (s : Server) : Event → Server
  | .arrive id request =>
    if s.requests id = none then s.enter id (.arrived request) else s
  | .advance id => (s.requests id).elim s (s.advance id)
  | .pass time => { s with clock := s.clock + time }

end AnyList.Accounts.DeviceGrants
