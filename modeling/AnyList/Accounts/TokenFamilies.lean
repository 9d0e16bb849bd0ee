import AnyList.Accounts.DeviceGrants
import AnyList.Library.Runs

namespace AnyList.Accounts.DeviceGrants

open AnyList.Library.Runs

namespace Answer

/-- What was presented for the tokens of an answer. -/
def presented : Answer → Option Credential
  | .tokens presented _ _ => some presented
  | _ => none

def access : Answer → Option AccessToken
  | .tokens _ access _ => some access
  | _ => none

def refreshToken : Answer → Option ℕ
  | .tokens _ _ refreshToken => some refreshToken
  | _ => none

end Answer

namespace Server

variable (s : Server)

/-- All that has brought tokens. -/
def credentials : List Credential := s.answered.filterMap fun a ↦ a.answer.presented

def accessTokens : List AccessToken := s.answered.filterMap fun a ↦ a.answer.access

/-- The device code and each refresh token bring tokens once, the code after an approval in time;
the token before the last rotation brings none and revokes the grant; and a grant that is revoked
or denied brings none, nor does it accept those it has brought. -/
structure OneFamily : Prop where
  once : s.credentials.Nodup
  approved : ∀ a ∈ s.answered, a.answer.presented = some .deviceCode → a.approvedInTime = true
  usable : ∀ a ∈ s.answered, a.answer.presented ≠ none → a.found.revokedAt = none ∧ a.denied = false
  replayed : ∀ a ∈ s.answered, a.replayed = true →
    a.answer.presented = none ∧ a.left.revokedAt ≠ none
  rejected : s.grant.revokedAt ≠ none ∨ s.denied = true →
    ∀ access ∈ s.accessTokens, userFromDeviceGrant s.grant access = none

end Server

/-- What a statement must find: an exchange a grant that has issued nothing, was approved in time
and is neither revoked nor denied; a rotation the token that was presented; an approval that comes
after a denial no earlier access token of the user; and the second lookup of a token before the
last rotation that it still is the one. -/
def Stage.Safe (s : Server) : Stage → Prop
  | .refreshMissed token true =>
    s.grant.prevRefreshTokenHash = some token ∨ s.grant.revokedAt ≠ none
  | .committing _ _ (.tokens .deviceCode _ _) _ =>
    s.grant.tokenIssuedAt = none ∧ s.approvedInTime = true ∧
      s.grant.revokedAt = none ∧ s.denied = false
  | .committing _ _ (.tokens (.refreshToken token) _ _) _ =>
    s.grant.refreshTokenHash = some token ∧ s.grant.revokedAt = none ∧ s.denied = false
  | .committing _ written (.status .approved) _ =>
    s.denied = true → s.grant.revokedAt = none → ∀ access ∈ s.accessTokens,
      access.sub ≠ written.userId
  | _ => True

def Safe (s : Server) : Event → Prop
  | .advance id => ∀ stage, s.requests id = some stage → stage.Safe s
  | _ => True

section endpoints

variable {grant stored read : OAuthDeviceGrant} {access : AccessToken} {α : Type} [DecidableEq α]

theorem column_self (a stored : α) : column a a stored = stored := if_pos rfl

theorem column_of_ne {read written stored : α} (h : written ≠ read) :
    column read written stored = written := if_neg h

theorem userFromDeviceGrant_eq_none
    (h : grant.status ≠ .approved ∨ grant.revokedAt ≠ none ∨ grant.userId ≠ access.sub) :
    userFromDeviceGrant grant access = none := by
  rw [userFromDeviceGrant]
  cases hsub : access.sub with
  | none => rfl
  | some user =>
    rw [hsub] at h
    refine if_pos ?_
    rcases h with h | h | h
    · exact .inr (.inl h)
    · exact .inr (.inr (.inl h))
    · exact .inr (.inr (.inr (.inl h)))

theorem sub_ne_of_userFromDeviceGrant (h : userFromDeviceGrant grant access = none)
    (hstatus : grant.status = .approved) (hrevoked : grant.revokedAt = none)
    (hid : access.jti = grant.id) (hscope : access.scope = grant.scope) {user : ℕ}
    (huser : grant.userId = some user) : access.sub ≠ some user := by
  intro hsub
  simp [userFromDeviceGrant, hsub, hstatus, hrevoked, hid, hscope, huser] at h

end endpoints

section invariant

/-- A token that no grant and no request has had yet, once it is written. -/
structure Fresh (s : Server) (token : ℕ) : Prop where
  drawn : token < s.nextToken
  unused : .refreshToken token ∉ s.credentials
  absent : s.grant.refreshTokenHash ≠ some token

/-- A token that was the current one of the grant. -/
def Served (s : Server) (token : ℕ) : Prop :=
  s.grant.refreshTokenHash = some token ∨ .refreshToken token ∈ s.credentials

/-- A row as some earlier commit left it. -/
structure Earlier (s : Server) (read : OAuthDeviceGrant) : Prop where
  id : read.id = s.grant.id
  scope : read.scope = s.grant.scope
  user : read.status = .pending → read.userId = none
  refresh : ∀ token, read.refreshTokenHash = some token → token < s.nextToken
  revoked : read.revokedAt ≠ none → s.grant.revokedAt ≠ none

/-- What a request may be about to commit. -/
inductive Prepared (s : Server) (read : OAuthDeviceGrant) :
    OAuthDeviceGrant → Answer → Bool → Prop
  | poll {status : GrantStatus} (interval : ℕ) (polled : Option ℕ) (code : String)
      (hstatus : status = read.status ∨ status = .expired) :
      Prepared s read { read with status := status, interval := interval, lastPolledAt := polled }
        (.oauthError code) false
  | exchange {new : ℕ} (now : ℕ) (hissued : read.tokenIssuedAt = none) (hnew : Fresh s new)
      (hread : read.refreshTokenHash ≠ some new) :
      Prepared s read { read with
          lastPolledAt := some now
          refreshTokenHash := some new
          prevRefreshTokenHash := none
          tokenIssuedAt := some now }
        (.tokens .deviceCode (issueDeviceAccessToken read) new) false
  | rotation {token new : ℕ} (hserved : Served s token) (hnew : Fresh s new)
      (hread : read.refreshTokenHash ≠ some new) :
      Prepared s read { read with
          prevRefreshTokenHash := read.refreshTokenHash
          refreshTokenHash := some new }
        (.tokens (.refreshToken token) (issueDeviceAccessToken read) new) false
  | decision (user : ℕ) {status : GrantStatus} (hpending : read.status = .pending)
      (hstatus : status = .approved ∨ status = .denied) :
      Prepared s read { read with userId := some user, status := status } (.status status) false
  | revocation (now : ℕ) (answer : Answer) (replayed : Bool) (hnone : read.revokedAt = none)
      (hanswer : answer = .oauthError "invalid_grant" ∨ answer = .revoked) :
      Prepared s read { read with revokedAt := some now } answer replayed

def Stage.Sound (s : Server) : Stage → Prop
  | .arrived _ | .refreshMissed _ _ => True
  | .exchangeRead grant | .stolenRead grant _ | .approveRead grant _ _ | .revokeRead grant _ =>
    Earlier s grant
  | .refreshRead grant token =>
    Earlier s grant ∧ grant.refreshTokenHash = some token ∧ Served s token
  | .committing read written answer replayed =>
    Earlier s read ∧ Prepared s read written answer replayed

/-- The token that a stage is about to bring. -/
def Stage.token : Stage → Option ℕ
  | .committing _ _ answer _ => answer.refreshToken
  | _ => none

structure Sound (s : Server) : Prop where
  family : s.OneFamily
  grant : Earlier s s.grant
  issued : s.grant.tokenIssuedAt = none ↔ .deviceCode ∉ s.credentials
  unissued : s.grant.tokenIssuedAt = none → s.grant.refreshTokenHash = none
  current : ∀ token, s.grant.refreshTokenHash = some token → .refreshToken token ∉ s.credentials
  used : ∀ token, .refreshToken token ∈ s.credentials → token < s.nextToken
  tokens : ∀ access ∈ s.accessTokens, access.jti = s.grant.id ∧ access.scope = s.grant.scope
  stages : ∀ id stage, s.requests id = some stage → stage.Sound s
  distinct : ∀ i j token, (s.requests i).bind Stage.token = some token →
    (s.requests j).bind Stage.token = some token → i = j

/-- What later states keep of an earlier one. -/
structure Later (s s' : Server) : Prop where
  id : s'.grant.id = s.grant.id
  scope : s'.grant.scope = s.grant.scope
  drawn : s.nextToken ≤ s'.nextToken
  revoked : s.grant.revokedAt ≠ none → s'.grant.revokedAt ≠ none
  served : ∀ token, Served s token → Served s' token

variable {s s' : Server} {read written : OAuthDeviceGrant} {answer : Answer} {replayed : Bool}

theorem Earlier.later (h : Earlier s read) (hl : Later s s') : Earlier s' read where
  id := h.id.trans hl.id.symm
  scope := h.scope.trans hl.scope.symm
  user := h.user
  refresh := fun token ht ↦ Nat.lt_of_lt_of_le (h.refresh token ht) hl.drawn
  revoked := fun hr ↦ hl.revoked (h.revoked hr)

theorem Prepared.later (h : Prepared s read written answer replayed) (hl : Later s s')
    (hfresh : ∀ token, answer.refreshToken = some token → Fresh s token → Fresh s' token) :
    Prepared s' read written answer replayed := by
  cases h with
  | poll interval polled code hstatus => exact .poll interval polled code hstatus
  | exchange now hissued hnew hread => exact .exchange now hissued (hfresh _ rfl hnew) hread
  | rotation hserved hnew hread =>
    exact .rotation (hl.served _ hserved) (hfresh _ rfl hnew) hread
  | decision user hpending hstatus => exact .decision user hpending hstatus
  | revocation now answer replayed hnone hanswer => exact .revocation now answer replayed hnone hanswer

theorem Stage.Sound.later {stage : Stage} (h : stage.Sound s) (hl : Later s s')
    (hfresh : ∀ token, stage.token = some token → Fresh s token → Fresh s' token) :
    stage.Sound s' := by
  cases stage with
  | arrived _ | refreshMissed _ _ => trivial
  | exchangeRead _ | stolenRead _ _ | approveRead _ _ _ | revokeRead _ _ => exact Earlier.later h hl
  | refreshRead grant token => exact ⟨h.1.later hl, h.2.1, hl.served _ h.2.2⟩
  | committing read written answer replayed => exact ⟨h.1.later hl, h.2.later hl hfresh⟩

theorem Stage.Sound.fresh {stage : Stage} (h : stage.Sound s) {token : ℕ}
    (ht : stage.token = some token) : Fresh s token := by
  cases stage with
  | committing read written answer replayed =>
    obtain ⟨-, hprepared⟩ := h
    cases hprepared with
    | exchange _ _ hnew _ => exact Option.some.inj ht ▸ hnew
    | rotation _ hnew _ => exact Option.some.inj ht ▸ hnew
    | poll _ _ _ _ | decision _ _ _ => cases ht
    | revocation now answer replayed hnone hanswer =>
      rcases hanswer with rfl | rfl <;> cases ht
  | _ => cases ht

theorem requests_enter_self (s : Server) (id : ℕ) (stage : Stage) :
    (s.enter id stage).requests id = some stage := Function.update_self ..

theorem requests_enter_of_ne (s : Server) {i id : ℕ} (h : i ≠ id) (stage : Stage) :
    (s.enter id stage).requests i = s.requests i := Function.update_of_ne h ..

/-- A request that goes on, perhaps with a token that nobody has drawn. -/
theorem Sound.enter (h : Sound s) (id : ℕ) {stage : Stage} {next : ℕ} (hnext : s.nextToken ≤ next)
    (hstage : stage.Sound { s.enter id stage with nextToken := next })
    (htoken : ∀ token, stage.token = some token → s.nextToken ≤ token) :
    Sound { s.enter id stage with nextToken := next } := by
  have hlater : Later s { s.enter id stage with nextToken := next } :=
    ⟨rfl, rfl, hnext, fun hr ↦ hr, fun _ ht ↦ ht⟩
  have hother {i : ℕ} (hi : i ≠ id) {token : ℕ}
      (ht : ((s.enter id stage).requests i).bind Stage.token = some token) :
      (s.requests i).bind Stage.token = some token ∧ token < s.nextToken := by
    rw [requests_enter_of_ne s hi] at ht
    obtain ⟨other, hrequest, hother⟩ := Option.bind_eq_some_iff.mp ht
    exact ⟨ht, ((h.stages i other hrequest).fresh hother).drawn⟩
  have hself {token : ℕ} (ht : ((s.enter id stage).requests id).bind Stage.token = some token) :
      s.nextToken ≤ token := by
    rw [requests_enter_self] at ht
    exact htoken token ht
  refine ⟨⟨h.family.once, h.family.approved, h.family.usable, h.family.replayed,
    h.family.rejected⟩, h.grant.later hlater, h.issued, h.unissued, h.current,
    fun token ht ↦ Nat.lt_of_lt_of_le (h.used token ht) hnext, h.tokens, ?_, ?_⟩
  · intro i other hi
    by_cases hid : i = id
    · subst hid
      exact Option.some.inj ((requests_enter_self s i stage).symm.trans hi) ▸ hstage
    · have hi := (requests_enter_of_ne s hid stage).symm.trans hi
      exact (h.stages i other hi).later hlater fun token _ hfresh ↦
        ⟨Nat.lt_of_lt_of_le hfresh.drawn hnext, hfresh.unused, hfresh.absent⟩
  · intro i j token hi hj
    by_cases hid : i = id
    · by_cases hjd : j = id
      · exact hid.trans hjd.symm
      · subst hid
        exact absurd (hself hi) (Nat.not_le.mpr (hother hjd hj).2)
    · by_cases hjd : j = id
      · subst hjd
        exact absurd (hself hj) (Nat.not_le.mpr (hother hid hi).2)
      · exact h.distinct i j token (hother hid hi).1 (hother hjd hj).1

section finish

variable {grant : OAuthDeviceGrant} {id : ℕ}

theorem credentials_finish : (s.finish id answer replayed grant).credentials =
    answer.presented.toList ++ s.credentials := by
  rw [Server.credentials, Server.finish, List.filterMap_cons]
  cases answer.presented <;> rfl

theorem accessTokens_finish : (s.finish id answer replayed grant).accessTokens =
    answer.access.toList ++ s.accessTokens := by
  rw [Server.accessTokens, Server.finish, List.filterMap_cons]
  cases answer.access <;> rfl

theorem Answer.access_eq_none (h : answer.presented = none) : answer.access = none := by
  cases answer <;> first | rfl | cases h

/-- What a commit that brings no tokens leaves of a row. -/
structure Kept (s : Server) (grant : OAuthDeviceGrant) : Prop where
  id : grant.id = s.grant.id
  scope : grant.scope = s.grant.scope
  user : grant.status = .pending → grant.userId = none
  issued : grant.tokenIssuedAt = s.grant.tokenIssuedAt
  refresh : grant.refreshTokenHash = s.grant.refreshTokenHash
  revoked : s.grant.revokedAt ≠ none → grant.revokedAt ≠ none

theorem requests_finish {i : ℕ} {stage : Stage}
    (hi : (s.finish id answer replayed grant).requests i = some stage) :
    i ≠ id ∧ s.requests i = some stage := by
  rw [Server.finish] at hi
  dsimp only at hi
  by_cases hid : i = id
  · rw [hid, Function.update_self] at hi
    cases hi
  · rw [Function.update_of_ne hid] at hi
    exact ⟨hid, hi⟩

theorem Sound.distinct_finish (h : Sound s) (i j token : ℕ)
    (hi : ((s.finish id answer replayed grant).requests i).bind Stage.token = some token)
    (hj : ((s.finish id answer replayed grant).requests j).bind Stage.token = some token) :
    i = j := by
  obtain ⟨stage, hi, hstage⟩ := Option.bind_eq_some_iff.mp hi
  obtain ⟨stage', hj, hstage'⟩ := Option.bind_eq_some_iff.mp hj
  exact h.distinct i j token
    (Option.bind_eq_some_iff.mpr ⟨stage, (requests_finish hi).2, hstage⟩)
    (Option.bind_eq_some_iff.mpr ⟨stage', (requests_finish hj).2, hstage'⟩)

theorem Sound.finish_quiet (h : Sound s) (hanswer : answer.presented = none) (hkept : Kept s grant)
    (hreplayed : replayed = true → grant.revokedAt ≠ none)
    (hrejected : grant.revokedAt ≠ none ∨ (s.finish id answer replayed grant).denied = true →
      ∀ access ∈ s.accessTokens, userFromDeviceGrant grant access = none) :
    Sound (s.finish id answer replayed grant) := by
  have hcredentials : (s.finish id answer replayed grant).credentials = s.credentials := by
    rw [credentials_finish, hanswer]
    rfl
  have htokens : (s.finish id answer replayed grant).accessTokens = s.accessTokens := by
    rw [accessTokens_finish, Answer.access_eq_none hanswer]
    rfl
  have hlater : Later s (s.finish id answer replayed grant) :=
    ⟨hkept.id, hkept.scope, Nat.le_refl _, hkept.revoked, fun token ht ↦ by
      rw [Served, hcredentials]
      exact ht.imp_left hkept.refresh.trans⟩
  refine ⟨⟨?_, ?_, ?_, ?_, ?_⟩, ⟨rfl, rfl, hkept.user, ?_, fun hr ↦ hr⟩, ?_, ?_, ?_, ?_, ?_, ?_,
    h.distinct_finish⟩
  · rw [hcredentials]
    exact h.family.once
  · intro a ha hpresented
    rcases List.mem_cons.mp ha with rfl | ha
    · cases hanswer.symm.trans hpresented
    · exact h.family.approved a ha hpresented
  · intro a ha hpresented
    rcases List.mem_cons.mp ha with rfl | ha
    · exact absurd hanswer hpresented
    · exact h.family.usable a ha hpresented
  · intro a ha hr
    rcases List.mem_cons.mp ha with rfl | ha
    · exact ⟨hanswer, hreplayed hr⟩
    · exact h.family.replayed a ha hr
  · rw [htokens]
    exact hrejected
  · intro token ht
    exact h.grant.refresh token (hkept.refresh.symm.trans ht)
  · rw [hcredentials, ← h.issued, ← hkept.issued]
    rfl
  · intro ht
    exact hkept.refresh.trans (h.unissued (hkept.issued.symm.trans ht))
  · intro token ht
    rw [hcredentials]
    exact h.current token (hkept.refresh.symm.trans ht)
  · rw [hcredentials]
    exact h.used
  · rw [htokens]
    intro access ha
    obtain ⟨hid, hscope⟩ := h.tokens access ha
    exact ⟨hid.trans hkept.id.symm, hscope.trans hkept.scope.symm⟩
  · intro i stage hi
    refine (h.stages i stage (requests_finish hi).2).later hlater fun token _ hfresh ↦
      ⟨hfresh.drawn, ?_, fun ht ↦ hfresh.absent (hkept.refresh.symm.trans ht)⟩
    rw [hcredentials]
    exact hfresh.unused

/-- What a commit that brings tokens finds and leaves. -/
structure Issued (s : Server) (id : ℕ) (credential : Credential) (token : ℕ)
    (grant : OAuthDeviceGrant) : Prop where
  kept : grant.id = s.grant.id ∧ grant.scope = s.grant.scope
  user : grant.status = .pending → grant.userId = none
  issued : grant.tokenIssuedAt ≠ none
  refresh : grant.refreshTokenHash = some token
  unrevoked : s.grant.revokedAt = none ∧ grant.revokedAt = none
  undenied : s.denied = false
  unused : credential ∉ s.credentials
  device : .deviceCode ∈ credential :: s.credentials
  inTime : credential = .deviceCode → s.approvedInTime = true
  current : ∀ token, s.grant.refreshTokenHash = some token → .refreshToken token = credential
  range : ∀ token, credential = .refreshToken token → s.grant.refreshTokenHash = some token
  fresh : Fresh s token
  drawn : (s.requests id).bind Stage.token = some token

theorem Sound.finish_tokens (h : Sound s) {credential : Credential} {access : AccessToken}
    {token : ℕ} (hi : Issued s id credential token grant)
    (haccess : access.jti = s.grant.id ∧ access.scope = s.grant.scope) :
    Sound (s.finish id (.tokens credential access token) false grant) := by
  have hcredentials : (s.finish id (.tokens credential access token) false grant).credentials =
      credential :: s.credentials := credentials_finish
  have hlater : Later s (s.finish id (.tokens credential access token) false grant) := by
    refine ⟨hi.kept.1, hi.kept.2, Nat.le_refl _, fun hr ↦ absurd hi.unrevoked.1 hr,
      fun old hold ↦ .inr ?_⟩
    rw [hcredentials]
    rcases hold with hold | hold
    · exact List.mem_cons.mpr (.inl (hi.current old hold))
    · exact List.mem_cons_of_mem _ hold
  have hne {other : ℕ} (hother : Fresh s other) : .refreshToken other ∉ credential :: s.credentials :=
    fun hmem ↦ (List.mem_cons.mp hmem).elim
      (fun heq ↦ hother.absent (hi.range other heq.symm)) hother.unused
  refine ⟨⟨?_, ?_, ?_, ?_, ?_⟩, ⟨rfl, rfl, hi.user, ?_, fun hr ↦ hr⟩, ?_, ?_, ?_, ?_, ?_, ?_,
    h.distinct_finish⟩
  · rw [hcredentials]
    exact List.nodup_cons.mpr ⟨hi.unused, h.family.once⟩
  · intro a ha hpresented
    rcases List.mem_cons.mp ha with rfl | ha
    · exact hi.inTime (Option.some.inj hpresented)
    · exact h.family.approved a ha hpresented
  · intro a ha hpresented
    rcases List.mem_cons.mp ha with rfl | ha
    · exact ⟨hi.unrevoked.1, hi.undenied⟩
    · exact h.family.usable a ha hpresented
  · intro a ha hr
    rcases List.mem_cons.mp ha with rfl | ha
    · cases hr
    · exact h.family.replayed a ha hr
  · intro hbarred
    rcases hbarred with hrevoked | hdenied
    · exact absurd hi.unrevoked.2 hrevoked
    · rw [Server.finish] at hdenied
      simp [hi.undenied] at hdenied
  · intro other ht
    rw [← Option.some.inj (hi.refresh.symm.trans ht)]
    exact hi.fresh.drawn
  · rw [hcredentials]
    exact iff_of_false hi.issued fun hmem ↦ hmem hi.device
  · intro ht
    exact absurd ht hi.issued
  · intro other ht
    rw [hcredentials, ← Option.some.inj (hi.refresh.symm.trans ht)]
    exact hne hi.fresh
  · rw [hcredentials]
    intro other hother
    rcases List.mem_cons.mp hother with heq | hother
    · exact h.grant.refresh other (hi.range other heq.symm)
    · exact h.used other hother
  · rw [accessTokens_finish]
    intro other hother
    rcases List.mem_cons.mp hother with rfl | hother
    · exact ⟨haccess.1.trans hi.kept.1.symm, haccess.2.trans hi.kept.2.symm⟩
    · obtain ⟨hid, hscope⟩ := h.tokens other hother
      exact ⟨hid.trans hi.kept.1.symm, hscope.trans hi.kept.2.symm⟩
  · intro i stage hstage
    obtain ⟨hid, hstage⟩ := requests_finish hstage
    refine (h.stages i stage hstage).later hlater fun other hother hfresh ↦
      ⟨hfresh.drawn, ?_, fun ht ↦ ?_⟩
    · rw [hcredentials]
      exact hne hfresh
    · obtain rfl := Option.some.inj (hi.refresh.symm.trans ht)
      exact hid (h.distinct i id _ (Option.bind_eq_some_iff.mpr ⟨stage, hstage, hother⟩) hi.drawn)

theorem userFromDeviceGrant_flush {stored : OAuthDeviceGrant} {access : AccessToken}
    (hstatus : written.status = read.status) (huser : written.userId = read.userId)
    (hrevoked : written.revokedAt = read.revokedAt) :
    userFromDeviceGrant (flush read written stored) access = userFromDeviceGrant stored access := by
  simp only [userFromDeviceGrant, flush, hstatus, huser, hrevoked, column_self]

theorem denied_finish (h : answer ≠ .status .denied) :
    (s.finish id answer replayed grant).denied = s.denied := by
  rw [Server.finish, decide_eq_false h, Bool.or_false]

theorem Sound.commit_poll (h : Sound s) {status : GrantStatus} (interval : ℕ)
    (polled : Option ℕ) (code : String) (hstatus : status = read.status ∨ status = .expired) :
    Sound (s.finish id (.oauthError code) false (flush read
      { read with status := status, interval := interval, lastPolledAt := polled } s.grant)) := by
  have hcases : status = read.status ∨ column read.status status s.grant.status = .expired := by
    by_cases heq : status = read.status
    · exact .inl heq
    · exact .inr ((column_of_ne heq).trans (hstatus.resolve_left heq))
  refine h.finish_quiet rfl ⟨rfl, rfl, ?_, column_self .., column_self .., ?_⟩
    (fun hr ↦ absurd hr Bool.false_ne_true) ?_
  · simp only [flush, column_self]
    intro hpending
    rcases hcases with rfl | hexpired
    · exact h.grant.user ((column_self read.status s.grant.status).symm.trans hpending)
    · cases hexpired.symm.trans hpending
  · simp only [flush, column_self]
    exact fun hr ↦ hr
  · intro hbarred access haccess
    rcases hcases with heq | hexpired
    · have hsame : userFromDeviceGrant (flush read { read with
          status := status, interval := interval, lastPolledAt := polled } s.grant) access =
          userFromDeviceGrant s.grant access := userFromDeviceGrant_flush heq rfl rfl
      rw [hsame]
      rw [denied_finish (by simp)] at hbarred
      simp only [flush, column_self] at hbarred
      exact h.family.rejected hbarred access haccess
    · refine userFromDeviceGrant_eq_none (.inl fun happroved ↦ ?_)
      cases hexpired.symm.trans happroved

/-- A commit that finds what it needs keeps the family. -/
theorem Sound.commit (h : Sound s) (hread : Earlier s read)
    (hprepared : Prepared s read written answer replayed)
    (hrequest : s.requests id = some (.committing read written answer replayed))
    (hsafe : (Stage.committing read written answer replayed).Safe s) :
    Sound (s.finish id answer replayed (flush read written s.grant)) := by
  cases hprepared with
  | poll interval polled code hstatus => exact h.commit_poll interval polled code hstatus
  | exchange now hissued hnew hrefresh =>
    obtain ⟨hunissued, hinTime, hunrevoked, hundenied⟩ := hsafe
    refine h.finish_tokens ⟨⟨rfl, rfl⟩, ?_, ?_, column_of_ne (Ne.symm hrefresh), ⟨hunrevoked, ?_⟩,
      hundenied, h.issued.mp hunissued, List.mem_cons_self, fun _ ↦ hinTime, ?_, ?_, hnew, ?_⟩
      ⟨hread.id, hread.scope⟩
    · simp only [flush, column_self]
      exact h.grant.user
    · simp [flush, column, hissued]
    · simp only [flush, column_self]
      exact hunrevoked
    · intro old hold
      cases (h.unissued hunissued).symm.trans hold
    · intro token htoken
      cases htoken
    · rw [hrequest]
      rfl
  | @rotation token new hserved hnew hrefresh =>
    obtain ⟨hcurrent, hunrevoked, hundenied⟩ := hsafe
    have hissued : s.grant.tokenIssuedAt ≠ none := by
      intro hnone
      cases (h.unissued hnone).symm.trans hcurrent
    refine h.finish_tokens ⟨⟨rfl, rfl⟩, ?_, ?_, column_of_ne (Ne.symm hrefresh), ⟨hunrevoked, ?_⟩,
      hundenied, h.current token hcurrent, ?_, ?_, ?_, ?_, hnew, ?_⟩ ⟨hread.id, hread.scope⟩
    · simp only [flush, column_self]
      exact h.grant.user
    · simp only [flush, column_self]
      exact hissued
    · simp only [flush, column_self]
      exact hunrevoked
    · refine List.mem_cons_of_mem _ ?_
      by_contra hmem
      exact hissued (h.issued.mpr hmem)
    · intro hdevice
      cases hdevice
    · intro old hold
      rw [Option.some.inj (hold.symm.trans hcurrent)]
    · intro other hother
      cases hother
      exact hcurrent
    · rw [hrequest]
      rfl
  | @decision user status hpending hstatus =>
    have hne : status ≠ read.status := by
      rw [hpending]
      rcases hstatus with rfl | rfl <;> simp
    have huser : some user ≠ read.userId := by
      rw [hread.user hpending]
      simp
    refine h.finish_quiet rfl ⟨rfl, rfl, ?_, column_self .., column_self .., ?_⟩
      (fun hr ↦ absurd hr Bool.false_ne_true) ?_
    · simp only [flush, column_of_ne hne]
      intro hp
      rcases hstatus with rfl | rfl <;> cases hp
    · simp only [flush, column_self]
      exact fun hr ↦ hr
    · intro hbarred access haccess
      by_cases hrevoked : s.grant.revokedAt = none
      · rcases hstatus with rfl | rfl
        · rw [denied_finish (by simp)] at hbarred
          simp only [flush, column_self] at hbarred
          have hsub := hsafe (hbarred.resolve_left (absurd hrevoked)) hrevoked access haccess
          refine userFromDeviceGrant_eq_none (.inr (.inr ?_))
          simp only [flush, column_of_ne huser]
          exact Ne.symm hsub
        · refine userFromDeviceGrant_eq_none (.inl ?_)
          simp [flush, column_of_ne hne]
      · refine userFromDeviceGrant_eq_none (.inr (.inl ?_))
        simp only [flush, column_self]
        exact hrevoked
  | revocation now answer replayed hnone hanswer =>
    have hrevoked : (flush read { read with revokedAt := some now } s.grant).revokedAt ≠ none := by
      simp [flush, column, hnone]
    refine h.finish_quiet ?_ ⟨rfl, rfl, ?_, column_self .., column_self .., fun _ ↦ hrevoked⟩
      (fun _ ↦ hrevoked) fun _ access _ ↦ userFromDeviceGrant_eq_none (.inr (.inl hrevoked))
    · rcases hanswer with rfl | rfl <;> rfl
    · simp only [flush, column_self]
      exact h.grant.user

/-- A commit that keeps the family has found what it needs. -/
theorem Sound.safe_of_commit (h : Sound s) (hread : Earlier s read)
    (hprepared : Prepared s read written answer replayed)
    (hfamily : (s.finish id answer replayed (flush read written s.grant)).OneFamily) :
    (Stage.committing read written answer replayed).Safe s := by
  cases hprepared with
  | poll interval polled code hstatus => trivial
  | exchange now hissued hnew hrefresh =>
    have hnodup := hfamily.once
    rw [credentials_finish] at hnodup
    obtain ⟨hunused, -⟩ := List.nodup_cons.mp hnodup
    obtain ⟨hrevoked, hdenied⟩ := hfamily.usable _ List.mem_cons_self (by simp [Answer.presented])
    exact ⟨h.issued.mpr hunused, hfamily.approved _ List.mem_cons_self rfl, hrevoked, hdenied⟩
  | rotation hserved hnew hrefresh =>
    have hnodup := hfamily.once
    rw [credentials_finish] at hnodup
    obtain ⟨hunused, -⟩ := List.nodup_cons.mp hnodup
    obtain ⟨hrevoked, hdenied⟩ := hfamily.usable _ List.mem_cons_self (by simp [Answer.presented])
    exact ⟨hserved.resolve_right hunused, hrevoked, hdenied⟩
  | @decision user status hpending hstatus =>
    rcases hstatus with rfl | rfl
    · intro hdenied hrevoked access haccess
      have hne : GrantStatus.approved ≠ read.status := by simp [hpending]
      have huser : some user ≠ read.userId := by simp [hread.user hpending]
      obtain ⟨hid, hscope⟩ := h.tokens access haccess
      refine sub_ne_of_userFromDeviceGrant (hfamily.rejected (.inr ?_) access haccess)
        (column_of_ne hne) ?_ hid hscope (column_of_ne huser)
      · rw [denied_finish (by simp)]
        exact hdenied
      · exact (column_self ..).trans hrevoked
    · trivial
  | revocation now answer replayed hnone hanswer => rcases hanswer with rfl | rfl <;> trivial

end finish

/-- A reply either is an answer without tokens or is about to be committed. -/
inductive Decided (s : Server) (read : OAuthDeviceGrant) (replayed : Bool) : Reply → Prop
  | answer {answer : Answer} (hanswer : answer.presented = none)
      (hdenied : answer ≠ .status .denied) (hreplayed : replayed = true → read.revokedAt ≠ none) :
      Decided s read replayed (.answer answer)
  | commit {written : OAuthDeviceGrant} {answer : Answer}
      (hprepared : Prepared { s with nextToken := s.nextToken + 1 } read written answer replayed)
      (hnew : ∀ token, answer.refreshToken = some token → token = s.nextToken) :
      Decided s read replayed (.commit written answer)

theorem Sound.fresh_next (h : Sound s) : Fresh { s with nextToken := s.nextToken + 1 } s.nextToken :=
  ⟨Nat.lt_succ_self _, fun hused ↦ Nat.lt_irrefl _ (h.used _ hused),
    fun hnext ↦ Nat.lt_irrefl _ (h.grant.refresh _ hnext)⟩

theorem Earlier.refresh_ne_next (h : Earlier s read) :
    read.refreshTokenHash ≠ some s.nextToken :=
  fun hnext ↦ Nat.lt_irrefl _ (h.refresh _ hnext)

theorem Sound.decided_exchange (h : Sound s) (hread : Earlier s read) :
    Decided s read false (deviceTokenExchange read s.clock s.nextToken) := by
  rw [deviceTokenExchange]
  by_cases hissued : read.tokenIssuedAt = none
  · rw [if_neg (not_not.mpr hissued)]
    have hpoll {status : GrantStatus} (hstatus : status = read.status ∨ status = .expired)
        (interval : ℕ) (polled : Option ℕ) (code : String) :
        Decided s read false (.commit
          { read with status := status, interval := interval, lastPolledAt := polled }
          (.oauthError code)) :=
      .commit (.poll interval polled code hstatus) fun _ ht ↦ by cases ht
    split_ifs
    · exact hpoll (.inl rfl) _ _ _
    · exact hpoll (.inr rfl) _ _ _
    · dsimp only
      split
      · exact hpoll (.inl rfl) _ _ _
      · exact hpoll (.inl rfl) _ _ _
      · exact hpoll (.inl rfl) _ _ _
      · exact .commit (.exchange _ hissued h.fresh_next hread.refresh_ne_next)
          fun token ht ↦ (Option.some.inj ht).symm
  · rw [if_pos hissued]
    exact .answer rfl (by simp) fun hr ↦ absurd hr Bool.false_ne_true

theorem Sound.decided_refresh (h : Sound s) (hread : Earlier s read) {token : ℕ}
    (hserved : Served s token) :
    Decided s read false (deviceTokenRefresh read s.nextToken token) := by
  rw [deviceTokenRefresh]
  split_ifs
  · exact .answer rfl (by simp) fun hr ↦ absurd hr Bool.false_ne_true
  · exact .commit (.rotation hserved h.fresh_next hread.refresh_ne_next)
      fun token ht ↦ (Option.some.inj ht).symm

theorem decided_stolen (s : Server) (read : OAuthDeviceGrant) (replayed : Bool) :
    Decided s read replayed (revokeStolen read s.clock) := by
  rw [revokeStolen]
  split_ifs with hnone
  · exact .commit (.revocation _ _ replayed hnone (.inl rfl)) fun _ ht ↦ by cases ht
  · exact .answer rfl (by simp) fun _ ↦ hnone

theorem decided_approve (s : Server) (read : OAuthDeviceGrant) (user : ℕ) (approve : Bool) :
    Decided s read false (deviceApprove read s.clock user approve) := by
  rw [deviceApprove]
  split_ifs with hrefused happrove
  · exact .answer rfl (by simp) fun hr ↦ absurd hr Bool.false_ne_true
  · have hpending := not_not.mp (not_or.mp hrefused).1
    exact .commit (.decision user hpending (.inl rfl)) fun _ ht ↦ by cases ht
  · have hpending := not_not.mp (not_or.mp hrefused).1
    exact .commit (.decision user hpending (.inr rfl)) fun _ ht ↦ by cases ht

theorem decided_revoke (s : Server) (read : OAuthDeviceGrant) (user : ℕ) :
    Decided s read false (revokeDeviceGrant read s.clock user) := by
  rw [revokeDeviceGrant]
  split_ifs with huser hnone
  · exact .answer rfl (by simp) fun hr ↦ absurd hr Bool.false_ne_true
  · exact .commit (.revocation _ _ false hnone (.inr rfl)) fun _ ht ↦ by cases ht
  · exact .answer rfl (by simp) fun hr ↦ absurd hr Bool.false_ne_true

/-- A request that is answered without a commit. -/
theorem Sound.finish_same (h : Sound s) (id : ℕ) (hanswer : answer.presented = none)
    (hdenied : answer ≠ .status .denied)
    (hreplayed : replayed = true → s.grant.revokedAt ≠ none) :
    Sound (s.finish id answer replayed s.grant) := by
  refine h.finish_quiet hanswer ⟨rfl, rfl, h.grant.user, rfl, rfl, fun hr ↦ hr⟩ hreplayed ?_
  rw [denied_finish hdenied]
  exact h.family.rejected

theorem Sound.settle (h : Sound s) (id : ℕ) (hread : Earlier s read) {reply : Reply}
    (hdecided : Decided s read replayed reply) : Sound (s.settle id read replayed reply) := by
  cases hdecided with
  | answer hanswer hdenied hreplayed =>
    exact h.finish_same id hanswer hdenied fun hr ↦ hread.revoked (hreplayed hr)
  | commit hprepared hnew =>
    refine h.enter id (Nat.le_succ _) ⟨?_, ?_⟩ fun token ht ↦ Nat.le_of_eq (hnew token ht).symm
    · exact hread.later ⟨rfl, rfl, Nat.le_succ _, fun hr ↦ hr, fun _ ht ↦ ht⟩
    · exact hprepared.later ⟨rfl, rfl, Nat.le_refl _, fun hr ↦ hr, fun _ ht ↦ ht⟩
        fun _ _ hfresh ↦ ⟨hfresh.drawn, hfresh.unused, hfresh.absent⟩

theorem Sound.enter_plain (h : Sound s) (id : ℕ) {stage : Stage}
    (hstage : stage.Sound (s.enter id stage)) (htoken : stage.token = none) :
    Sound (s.enter id stage) :=
  h.enter id (Nat.le_refl _) hstage fun _ ht ↦ by cases htoken.symm.trans ht

theorem Sound.grant_enter (h : Sound s) (id : ℕ) (stage : Stage) :
    Earlier (s.enter id stage) s.grant :=
  h.grant.later ⟨rfl, rfl, Nat.le_refl _, fun hr ↦ hr, fun _ ht ↦ ht⟩

theorem Sound.advance (h : Sound s) {id : ℕ} {stage : Stage} (hrequest : s.requests id = some stage)
    (hsafe : stage.Safe s) : Sound (s.advance id stage) := by
  have hstage := h.stages id stage hrequest
  cases stage with
  | arrived request =>
    cases request with
    | exchange => exact h.enter_plain id (h.grant_enter id _) rfl
    | refresh token =>
      rw [Server.advance]
      split_ifs with hcurrent
      · exact h.enter_plain id ⟨h.grant_enter id _, hcurrent, .inl hcurrent⟩ rfl
      · exact h.enter_plain id trivial rfl
    | approve user approve => exact h.enter_plain id (h.grant_enter id _) rfl
    | revoke user => exact h.enter_plain id (h.grant_enter id _) rfl
  | refreshMissed token replayed =>
    rw [Server.advance]
    split_ifs with hprev
    · exact h.enter_plain id (h.grant_enter id _) rfl
    · refine h.finish_same id rfl (by simp) fun hr ↦ ?_
      subst hr
      exact hsafe.resolve_left hprev
  | exchangeRead grant => exact h.settle id hstage (h.decided_exchange hstage)
  | refreshRead grant token => exact h.settle id hstage.1 (h.decided_refresh hstage.1 hstage.2.2)
  | stolenRead grant replayed => exact h.settle id hstage (decided_stolen s grant replayed)
  | approveRead grant user approve => exact h.settle id hstage (decided_approve s grant user approve)
  | revokeRead grant user => exact h.settle id hstage (decided_revoke s grant user)
  | committing read written answer replayed => exact h.commit hstage.1 hstage.2 hrequest hsafe

theorem Sound.safe_of_advance (h : Sound s) {id : ℕ} {stage : Stage}
    (hrequest : s.requests id = some stage) (hfamily : (s.advance id stage).OneFamily) :
    stage.Safe s := by
  have hstage := h.stages id stage hrequest
  cases stage with
  | refreshMissed token replayed =>
    cases replayed with
    | false => trivial
    | true =>
      by_cases hprev : s.grant.prevRefreshTokenHash = some token
      · exact .inl hprev
      · rw [Server.advance, if_neg hprev] at hfamily
        exact .inr (hfamily.replayed _ List.mem_cons_self rfl).2
  | committing read written answer replayed => exact h.safe_of_commit hstage.1 hstage.2 hfamily
  | _ => trivial

theorem Sound.keep (h : Sound s) (event : Event) (hsafe : Safe s event) :
    Sound (step s event) := by
  cases event with
  | arrive id request =>
    rw [step]
    split_ifs
    · exact h.enter_plain id trivial rfl
    · exact h
  | advance id =>
    rw [step]
    cases hrequest : s.requests id with
    | none => exact h
    | some stage => exact h.advance hrequest (hsafe stage hrequest)
  | pass time =>
    have hlater : Later s (step s (.pass time)) :=
      ⟨rfl, rfl, Nat.le_refl _, fun hr ↦ hr, fun _ ht ↦ ht⟩
    exact ⟨⟨h.family.once, h.family.approved, h.family.usable, h.family.replayed,
      h.family.rejected⟩, h.grant.later hlater, h.issued, h.unissued, h.current, h.used, h.tokens,
      fun id stage hid ↦ (h.stages id stage hid).later hlater fun _ _ hfresh ↦
        ⟨hfresh.drawn, hfresh.unused, hfresh.absent⟩, h.distinct⟩

theorem Sound.safe_of_step (h : Sound s) (event : Event)
    (hfamily : (step s event).OneFamily) : Safe s event := by
  cases event with
  | advance id =>
    intro stage hrequest
    rw [step, hrequest] at hfamily
    exact h.safe_of_advance hrequest hfamily
  | _ => trivial

theorem sound_initial (grantId expiresAt : ℕ) (scope : String) :
    Sound (.initial grantId expiresAt scope) where
  family := ⟨List.nodup_nil, fun _ ha ↦ absurd ha List.not_mem_nil,
    fun _ ha ↦ absurd ha List.not_mem_nil, fun _ ha ↦ absurd ha List.not_mem_nil,
    fun _ _ ha ↦ absurd ha List.not_mem_nil⟩
  grant := ⟨rfl, rfl, fun _ ↦ rfl, fun _ ht ↦ (by cases ht), fun hr ↦ hr⟩
  issued := iff_of_true rfl List.not_mem_nil
  unissued := fun _ ↦ rfl
  current := fun _ ht ↦ by cases ht
  used := fun _ ht ↦ absurd ht List.not_mem_nil
  tokens := fun _ ha ↦ absurd ha List.not_mem_nil
  stages := fun _ _ hrequest ↦ by cases hrequest
  distinct := fun _ _ _ ht ↦ by cases ht

end invariant

/-- In every state of a run the grant has issued one family of tokens exactly when each commit of
the run finds what it needs. -/
theorem oneFamily_iff (grantId expiresAt : ℕ) (scope : String) (events : List Event) :
    (∀ n, ((events.take n).foldl step (.initial grantId expiresAt scope)).OneFamily) ↔
      Throughout step Safe (.initial grantId expiresAt scope) events :=
  forall_take_iff_throughout (sound_initial grantId expiresAt scope) (fun _ h ↦ h.family)
    (fun _ event h ↦ h.keep event) fun _ event h ↦ h.safe_of_step event

/-- Two exchanges read the approved grant before either has committed. -/
def exchangedTwice : List Event :=
  [.arrive 1 (.approve 7 true), .advance 1, .advance 1, .advance 1,
    .arrive 2 .exchange, .arrive 3 .exchange, .advance 2, .advance 3, .advance 2, .advance 3,
    .advance 2, .advance 3]

/-- Both return tokens. -/
theorem exchangedTwice_twoFamilies :
    (exchangedTwice.foldl step (.initial 1 900 "write")).credentials =
        [.deviceCode, .deviceCode] ∧
      ¬∀ n, ((exchangedTwice.take n).foldl step (.initial 1 900 "write")).OneFamily := by
  have hcredentials : (exchangedTwice.foldl step (.initial 1 900 "write")).credentials =
      [.deviceCode, .deviceCode] := by decide
  refine ⟨hcredentials, fun h ↦ ?_⟩
  have hnodup := (h 12).once
  rw [List.take_of_length_le (by decide), hcredentials] at hnodup
  simp at hnodup

end AnyList.Accounts.DeviceGrants
