import Mathlib.Data.List.Basic
import Mathlib.Logic.Function.Basic

namespace AnyList.Accounts.AccountSecurity

/-- A password stands for its hash, and an email is stored stripped and in lower case. -/
structure User where
  email : String
  passwordHash : Option String
  emailConfirmed : Bool
  totpEnabled : Bool
  sessionVersion : ℕ
  deriving DecidableEq

structure PasswordResetToken where
  token : ℕ
  createdAt : ℕ
  deriving DecidableEq

structure EmailActivation where
  token : ℕ
  email : String
  createdAt : ℕ
  deriving DecidableEq

structure EmailChangeToken where
  token : ℕ
  email : String
  previousEmail : String
  sessionVersion : ℕ
  createdAt : ℕ
  deriving DecidableEq

structure TotpBackupCode where
  id : ℕ
  code : String
  used : Bool
  deriving DecidableEq

/-- The user and the rows that belong to it. -/
structure Account where
  user : User
  resetTokens : List PasswordResetToken
  activations : List EmailActivation
  emailChanges : List EmailChangeToken
  backupCodes : List TotpBackupCode
  deriving DecidableEq

inductive Link
  | reset
  | activation
  | emailChange
  deriving DecidableEq

inductive Secret
  | link (kind : Link) (token : ℕ)
  | backupCode (id : ℕ)
  deriving DecidableEq

structure Settings where
  smtpConfigured : Bool
  passwordLoginDisabled : Bool
  requireEmailValidation : Bool

/-- A session or a pending second-factor token comes with the version it was signed for. -/
inductive Request
  | forgotPassword (email : String)
  | resetPassword (token : ℕ) (password : String)
  | activateEmail (token : ℕ)
  | resetUserPassword (password : String)
  | changeUserEmail (email : String)
  | requestEmailChange (version : ℕ) (password : Option String) (recentSso : Bool) (email : String)
  | confirmEmailChange (token : ℕ)
  | login (email password : String)
  | verify2fa (version : ℕ) (code : String)

/-- Where a request stands, with what it has read. -/
inductive Stage
  | arrived (request : Request)
  | found (request : Request)
  | outdated (request : Request)
  | locked (request : Request)
  | rechecked (request : Request)
  | confirmed (token : ℕ) (email : String)
  | issuing (pending : Bool) (version : ℕ)
  | secondFactor (version : ℕ) (code : String)
  | codeFound (version id : ℕ)

/-- What one statement of a request leads to; a commit may be a password reset or an email change,
and may use a secret up. -/
inductive Reply
  | proceed (stage : Stage)
  | done
  | refuse (status : ℕ) (detail : String)
  | session (pending : Bool) (version : ℕ)
  | commit (account : Account) (secret : Option Secret) (resets : Bool)
  | commitSession (account : Account) (secret : Secret) (version : ℕ)

namespace Account

variable (account : Account)

def invalidateAccountLinks : Account :=
  { account with resetTokens := [], activations := [], emailChanges := [] }

def revokeSessions : Account :=
  { account with user := { account.user with sessionVersion := account.user.sessionVersion + 1 } }

def sessionIsCurrent (version : ℕ) : Bool := decide (version = account.user.sessionVersion)

/-- A new password ends all sessions and all links. -/
def setPassword (password : String) : Account :=
  let user := { account.user with passwordHash := some password }
  { account with user := user }.revokeSessions.invalidateAccountLinks

/-- A new email ends all links and all sessions. -/
def setEmail (email : String) : Account :=
  let user := { account.user with email := email, emailConfirmed := true }
  { account.invalidateAccountLinks with user := user }.revokeSessions

def verifyPassword (password : String) : Bool := decide (account.user.passwordHash = some password)

def removeResetToken (token : ℕ) : Account :=
  { account with resetTokens := account.resetTokens.filter fun row ↦ decide (row.token ≠ token) }

def removeActivation (token : ℕ) : Account :=
  { account with activations := account.activations.filter fun row ↦ decide (row.token ≠ token) }

def resetToken (token : ℕ) : Option PasswordResetToken :=
  account.resetTokens.find? fun row ↦ decide (row.token = token)

def activation (token : ℕ) : Option EmailActivation :=
  account.activations.find? fun row ↦ decide (row.token = token)

def emailChange (token : ℕ) : Option EmailChangeToken :=
  account.emailChanges.find? fun row ↦ decide (row.token = token)

/-- The unused backup code, where there is exactly one. -/
def backupCode (code : String) : Option TotpBackupCode :=
  match account.backupCodes.filter fun row ↦ decide (row.code = code ∧ row.used = false) with
  | [row] => some row
  | _ => none

def markUsed (id : ℕ) : Account :=
  { account with
    backupCodes := account.backupCodes.map fun row ↦
      if row.id = id then { row with used := true } else row }

end Account

def hours (n : ℕ) : ℕ := n * 3600 * 1000000

section endpoints

variable (settings : Settings) (taken : String → Bool) (totp : ℕ → String → Bool)
  (account : Account) (now token : ℕ)

/-- What a request does before it locks the user's row. -/
def arrived : Request → Reply
  | .forgotPassword email =>
    if !settings.smtpConfigured then .refuse 503 "Password reset is not configured."
    else .proceed (.found (.forgotPassword email))
  | .resetPassword link password =>
    match account.resetToken link with
    | none => .refuse 400 "invalid"
    | some record =>
      if now - record.createdAt > hours 1 then .proceed (.outdated (.resetPassword link password))
      else .proceed (.found (.resetPassword link password))
  | .activateEmail link =>
    match account.activation link with
    | none => .refuse 400 "invalid"
    | some activation =>
      if now - activation.createdAt > hours 24 then .proceed (.outdated (.activateEmail link))
      else .proceed (.found (.activateEmail link))
  | .resetUserPassword password => .proceed (.found (.resetUserPassword password))
  | .changeUserEmail email => .proceed (.found (.changeUserEmail email))
  | .requestEmailChange version password recentSso email =>
    if !account.sessionIsCurrent version then .refuse 401 "Could not validate credentials"
    else if !settings.smtpConfigured then
      .refuse 503 "Email delivery is unavailable. Contact an administrator"
    else .proceed (.found (.requestEmailChange version password recentSso email))
  | .confirmEmailChange link =>
    if (account.emailChange link).isNone then
      .refuse 400 "This confirmation link is invalid or has expired"
    else .proceed (.found (.confirmEmailChange link))
  | .login email password =>
    if settings.passwordLoginDisabled then
      .refuse 403 "Password login is disabled. Please use SSO."
    else if account.user.email ≠ email ∨ account.verifyPassword password = false then
      .refuse 401 "Incorrect email or password"
    else if settings.requireEmailValidation ∧ account.user.emailConfirmed = false then
      .refuse 403
        "Email not confirmed. Please check your inbox and click the activation link."
    else .proceed (.issuing account.user.totpEnabled account.user.sessionVersion)
  | .verify2fa version code =>
    if account.user.totpEnabled = false ∨ account.sessionIsCurrent version = false then
      .refuse 401 "Invalid or expired token"
    else if totp now code then .proceed (.issuing false account.user.sessionVersion)
    else .proceed (.secondFactor account.user.sessionVersion code)

/-- Whether the user's row is the one that a request wants to lock. -/
def wants : Request → Bool
  | .forgotPassword email => decide (account.user.email = email)
  | _ => true

/-- A link that is too old is deleted. -/
def outdated : Request → Reply
  | .resetPassword link _ => .commit (account.removeResetToken link) none false
  | .activateEmail link => .commit (account.removeActivation link) none false
  | _ => .done

def proven (version : ℕ) (password : Option String) (recentSso : Bool) : Bool :=
  account.sessionIsCurrent version && (password.any account.verifyPassword || recentSso)

/-- What a request checks under the lock of the user's row. -/
def locked : Request → Reply
  | .resetPassword link password =>
    if (account.resetToken link).isNone then .refuse 400 "invalid"
    else .proceed (.rechecked (.resetPassword link password))
  | .activateEmail link =>
    if (account.activation link).all fun activation ↦ decide (activation.email ≠ account.user.email)
    then .refuse 400 "invalid"
    else .proceed (.rechecked (.activateEmail link))
  | .changeUserEmail email =>
    if account.user.email = email then .done
    else if taken email then .refuse 409 "This email address is already in use"
    else .proceed (.rechecked (.changeUserEmail email))
  | .requestEmailChange version password recentSso email =>
    if proven account version password recentSso = false then
      .refuse 403 "Enter your current password or verify your SSO sign-in again"
    else if account.user.email = email then .refuse 400 "This is already your email address"
    else if taken email then .refuse 409 "This email address is already in use"
    else .proceed (.rechecked (.requestEmailChange version password recentSso email))
  | .confirmEmailChange link =>
    match account.emailChange link with
    | none => .refuse 400 "This confirmation link is invalid or has expired"
    | some record =>
      if record.previousEmail ≠ account.user.email ∨
          record.sessionVersion ≠ account.user.sessionVersion ∨
          now - record.createdAt > hours 1 then
        .refuse 400 "This confirmation link is invalid or has expired"
      else .proceed (.confirmed link record.email)
  | request => .proceed (.rechecked request)

/-- What a request commits under the lock of the user's row; a new link gets the token. -/
def rechecked : Request → Reply
  | .forgotPassword _ => .commit { account with resetTokens := [⟨token, now⟩] } none false
  | .resetPassword link password =>
    .commit (account.setPassword password) (some (.link .reset link)) true
  | .activateEmail link =>
    .commit { account.removeActivation link with
      user := { account.user with emailConfirmed := true } } (some (.link .activation link)) false
  | .resetUserPassword password => .commit (account.setPassword password) none true
  | .changeUserEmail email => .commit (account.setEmail email) none true
  | .requestEmailChange _ _ _ email =>
    .commit { account with emailChanges :=
      [⟨token, email, account.user.email, account.user.sessionVersion, now⟩] } none false
  | .confirmEmailChange _ | .login _ _ | .verify2fa _ _ => .done

/-- The commit of a confirmed email fails where another user has it. -/
def confirmed (link : ℕ) (email : String) : Reply :=
  if taken email then .refuse 409 "This email address is already in use"
  else .commit (account.setEmail email) (some (.link .emailChange link)) true

def secondFactor (version : ℕ) (code : String) : Reply :=
  match account.backupCode code with
  | none => .refuse 401 "Invalid verification code"
  | some row => .proceed (.codeFound version row.id)

def reply : Stage → Reply
  | .arrived request => arrived settings totp account now request
  | .outdated request => outdated account request
  | .found request => .proceed (.locked request)
  | .locked request => locked taken account now request
  | .rechecked request => rechecked account now token request
  | .confirmed link email => confirmed taken account link email
  | .issuing pending version => .session pending version
  | .secondFactor version code => secondFactor account version code
  | .codeFound version id =>
    .commitSession (account.markUsed id) (.backupCode id) version

end endpoints

/-- A secret that had its effect, after so many password resets and email changes. -/
structure Effect where
  secret : Secret
  resets : ℕ

/-- A token that was returned, after so many password resets and email changes. -/
structure Issued where
  pending : Bool
  version : ℕ
  resets : ℕ

/-- One account, the request that holds its row, and those under way. The server counts the
password resets and email changes, and notes when links were issued. -/
structure Server where
  account : Account
  clock : ℕ
  nextToken : ℕ
  lock : Option ℕ
  requests : ℕ → Option Stage
  resets : ℕ
  issuedAt : ℕ → ℕ
  effects : List Effect
  issued : List Issued

inductive Event
  | arrive (id : ℕ) (request : Request)
  | advance (id : ℕ)
  | abort (id : ℕ)
  | pass (time : ℕ)

namespace Server

variable (s : Server) (id : ℕ)

/-- A registered user, perhaps with an activation link. -/
def registered (user : User) (activates : Bool) (backupCodes : List TotpBackupCode) : Server where
  account := ⟨user, [], if activates then [⟨0, user.email, 0⟩] else [], [], backupCodes⟩
  clock := 0
  nextToken := 1
  lock := none
  requests := fun _ ↦ none
  resets := 0
  issuedAt := fun _ ↦ 0
  effects := []
  issued := []

def enter (stage : Stage) : Server :=
  { s with requests := Function.update s.requests id (some stage) }

/-- A request ends, and with it its lock. -/
def finish : Server :=
  { s with
    requests := Function.update s.requests id none
    lock := if s.lock = some id then none else s.lock }

def issue (pending : Bool) (version : ℕ) : Server :=
  { s with issued := ⟨pending, version, s.resets⟩ :: s.issued }

def commit (account : Account) (secret : Option Secret) (resets : Bool) : Server :=
  { s with
    account := account
    nextToken := s.nextToken + 1
    resets := if resets then s.resets + 1 else s.resets
    issuedAt := Function.update s.issuedAt s.nextToken s.resets
    effects := (secret.map fun secret ↦ ⟨secret, s.resets⟩).toList ++ s.effects }

def settle : Reply → Server
  | .proceed stage => s.enter id stage
  | .done | .refuse _ _ => s.finish id
  | .session pending version => (s.issue pending version).finish id
  | .commit account secret resets => (s.commit account secret resets).finish id
  | .commitSession account secret version =>
    ((s.commit account (some secret) false).issue false version).finish id

end Server

section steps

variable (settings : Settings) (taken : String → Bool) (totp : ℕ → String → Bool)

/-- The next statement of a request, which waits for the user's row where it locks it. -/
def advance (s : Server) (id : ℕ) : Stage → Server
  | .found request =>
    if !wants s.account request then s.finish id
    else if s.lock = none then { s.enter id (.locked request) with lock := some id }
    else s
  | stage => s.settle id (reply settings taken totp s.account s.clock s.nextToken stage)

def step (s : Server) : Event → Server
  | .arrive id request => if s.requests id = none then s.enter id (.arrived request) else s
  | .advance id => (s.requests id).elim s (advance settings taken totp s id)
  | .abort id => s.finish id
  | .pass time => { s with clock := s.clock + time }

end steps

end AnyList.Accounts.AccountSecurity
