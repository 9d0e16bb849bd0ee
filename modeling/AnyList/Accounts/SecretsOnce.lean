import AnyList.Accounts.AccountSecurity
import AnyList.Library.Runs

namespace AnyList.Accounts.AccountSecurity

open AnyList.Library.Runs

/-- Secrets have their effect once, links only before the next password reset or email change, and
tokens are current only until then. -/
structure OneTime (s : Server) : Prop where
  once : (s.effects.map Effect.secret).Nodup
  links : ∀ e ∈ s.effects, ∀ kind token, e.secret = .link kind token → s.issuedAt token = e.resets
  tokens : ∀ t ∈ s.issued, s.account.sessionIsCurrent t.version = true → t.resets = s.resets

/-- The commit of a second factor must find the backup code unused. -/
def Safe (s : Server) : Event → Prop
  | .advance id => ∀ version code, s.requests id = some (.codeFound version code) →
    ∃ row ∈ s.account.backupCodes, row.id = code ∧ row.used = false
  | _ => True

/-- The links of an account. -/
def Account.links (account : Account) : List (Link × ℕ) :=
  account.resetTokens.map (fun row ↦ (.reset, row.token)) ++
    account.activations.map (fun row ↦ (.activation, row.token)) ++
      account.emailChanges.map (fun row ↦ (.emailChange, row.token))

/-- The link that a request was sent with. -/
def Request.link : Request → Option (Link × ℕ)
  | .resetPassword token _ => some (.reset, token)
  | .activateEmail token => some (.activation, token)
  | .confirmEmailChange token => some (.emailChange, token)
  | _ => none

section invariant

/-- A link that was issued since the last password reset or email change and not used. -/
structure Live (s : Server) (link : Link × ℕ) : Prop where
  drawn : link.2 < s.nextToken
  issued : s.issuedAt link.2 = s.resets
  unused : .link link.1 link.2 ∉ s.effects.map Effect.secret

def Stage.Sound (s : Server) (id : ℕ) : Stage → Prop
  | .locked _ => s.lock = some id
  | .rechecked request => s.lock = some id ∧ ∀ link, request.link = some link → Live s link
  | .confirmed token _ => s.lock = some id ∧ Live s (.emailChange, token)
  | .issuing _ version | .secondFactor version _ => version ≤ s.account.user.sessionVersion
  | .codeFound version code => version ≤ s.account.user.sessionVersion ∧
    ((∃ row ∈ s.account.backupCodes, row.id = code ∧ row.used = false) ∨
      .backupCode code ∈ s.effects.map Effect.secret)
  | _ => True

structure Sound (first : ℕ) (s : Server) : Prop where
  oneTime : OneTime s
  version : s.account.user.sessionVersion = first + s.resets
  links : ∀ link ∈ s.account.links, Live s link
  drawn : ∀ kind token, .link kind token ∈ s.effects.map Effect.secret → token < s.nextToken
  codes : ∀ code, .backupCode code ∈ s.effects.map Effect.secret →
    ∀ row ∈ s.account.backupCodes, row.id = code → row.used = true
  issued : ∀ t ∈ s.issued, t.version ≤ first + t.resets ∧ t.resets ≤ s.resets
  stages : ∀ id stage, s.requests id = some stage → stage.Sound s id

/-- What the request `i` keeps of an earlier state. -/
structure Later (s s' : Server) (i : ℕ) : Prop where
  lock : s.lock = some i → s'.lock = some i
  live : s.lock = some i → ∀ link, Live s link → Live s' link
  version : s.account.user.sessionVersion ≤ s'.account.user.sessionVersion
  codes : ∀ code, (∃ row ∈ s.account.backupCodes, row.id = code ∧ row.used = false) ∨
      .backupCode code ∈ s.effects.map Effect.secret →
    (∃ row ∈ s'.account.backupCodes, row.id = code ∧ row.used = false) ∨
      .backupCode code ∈ s'.effects.map Effect.secret

variable {first : ℕ} {s s' : Server} {id : ℕ}

theorem Stage.Sound.later {i : ℕ} {stage : Stage} (h : stage.Sound s i) (hl : Later s s' i) :
    stage.Sound s' i := by
  cases stage with
  | arrived _ | found _ | outdated _ => trivial
  | locked request => exact hl.lock h
  | rechecked request => exact ⟨hl.lock h.1, fun link hlink ↦ hl.live h.1 link (h.2 link hlink)⟩
  | confirmed token email => exact ⟨hl.lock h.1, hl.live h.1 _ h.2⟩
  | issuing pending version => exact Nat.le_trans h hl.version
  | secondFactor version code => exact Nat.le_trans h hl.version
  | codeFound version code => exact ⟨Nat.le_trans h.1 hl.version, hl.codes code h.2⟩

theorem Live.congr {link : Link × ℕ} (h : Live s link) (hnext : s'.nextToken = s.nextToken)
    (hissued : s'.issuedAt = s.issuedAt) (hresets : s'.resets = s.resets)
    (heffects : s'.effects = s.effects) : Live s' link where
  drawn := hnext ▸ h.drawn
  issued := by rw [hissued, hresets, h.issued]
  unused := heffects ▸ h.unused

theorem Sound.finish (h : Sound first s) (id : ℕ) : Sound first (s.finish id) where
  oneTime := ⟨h.oneTime.once, h.oneTime.links, h.oneTime.tokens⟩
  version := h.version
  links := fun link hlink ↦ (h.links link hlink).congr rfl rfl rfl rfl
  drawn := h.drawn
  codes := h.codes
  issued := h.issued
  stages := by
    intro i stage hi
    have hi : Function.update s.requests id none i = some stage := hi
    by_cases hid : i = id
    · rw [hid, Function.update_self] at hi
      cases hi
    · rw [Function.update_of_ne hid] at hi
      refine (h.stages i stage hi).later
        ⟨fun hlock ↦ ?_, fun _ link hlink ↦ hlink.congr rfl rfl rfl rfl, Nat.le_refl _,
          fun code hcode ↦ hcode⟩
      rw [Server.finish, hlock, if_neg fun heq ↦ hid (Option.some.inj heq)]

/-- A request that goes on, where it may take the lock that nobody has. -/
theorem Sound.enter (h : Sound first s) {stage : Stage} {lock : Option ℕ}
    (hlock : lock = s.lock ∨ s.lock = none)
    (hstage : stage.Sound { s.enter id stage with lock := lock } id) :
    Sound first { s.enter id stage with lock := lock } where
  oneTime := ⟨h.oneTime.once, h.oneTime.links, h.oneTime.tokens⟩
  version := h.version
  links := fun link hlink ↦ (h.links link hlink).congr rfl rfl rfl rfl
  drawn := h.drawn
  codes := h.codes
  issued := h.issued
  stages := by
    intro i other hi
    have hi : Function.update s.requests id (some stage) i = some other := hi
    by_cases hid : i = id
    · subst hid
      rw [Function.update_self] at hi
      exact Option.some.inj hi ▸ hstage
    · rw [Function.update_of_ne hid] at hi
      refine (h.stages i other hi).later
        ⟨fun hheld ↦ ?_, fun _ link hlink ↦ hlink.congr rfl rfl rfl rfl, Nat.le_refl _,
          fun code hcode ↦ hcode⟩
      rcases hlock with rfl | hnone
      · exact hheld
      · cases hnone.symm.trans hheld

theorem Sound.issue (h : Sound first s) (pending : Bool) {version : ℕ}
    (hversion : version ≤ s.account.user.sessionVersion) :
    Sound first (s.issue pending version) where
  oneTime := by
    refine ⟨h.oneTime.once, h.oneTime.links, fun t ht hcurrent ↦ ?_⟩
    rcases List.mem_cons.mp ht with rfl | ht
    · rfl
    · exact h.oneTime.tokens t ht hcurrent
  version := h.version
  links := fun link hlink ↦ (h.links link hlink).congr rfl rfl rfl rfl
  drawn := h.drawn
  codes := h.codes
  issued := by
    intro t ht
    rcases List.mem_cons.mp ht with rfl | ht
    · exact ⟨h.version ▸ hversion, Nat.le_refl _⟩
    · exact h.issued t ht
  stages := fun i stage hi ↦ (h.stages i stage hi).later
    ⟨fun hheld ↦ hheld, fun _ link hlink ↦ hlink.congr rfl rfl rfl rfl, Nat.le_refl _,
      fun code hcode ↦ hcode⟩

/-- What a request may commit. -/
structure Prepared (s : Server) (account : Account) (secret : Option Secret) (resets : Bool) :
    Prop where
  version : account.user.sessionVersion =
    s.account.user.sessionVersion + if resets then 1 else 0
  links : ∀ link ∈ account.links, resets = false ∧ (link.2 = s.nextToken ∨
    link ∈ s.account.links ∧ secret ≠ some (.link link.1 link.2))
  codes : account.backupCodes = s.account.backupCodes ∧ (∀ code, secret ≠ some (.backupCode code)) ∨
    ∃ code, secret = some (.backupCode code) ∧ account = s.account.markUsed code ∧
      .backupCode code ∉ s.effects.map Effect.secret
  live : ∀ kind token, secret = some (.link kind token) → Live s (kind, token)

section commit

variable {account : Account} {secret : Option Secret} {resets : Bool}

theorem effects_commit : (s.commit account secret resets).effects.map Effect.secret =
    secret.toList ++ s.effects.map Effect.secret := by
  cases secret <;> rfl

theorem mem_effects_commit {other : Secret} :
    other ∈ (s.commit account secret resets).effects.map Effect.secret ↔
      secret = some other ∨ other ∈ s.effects.map Effect.secret := by
  rw [effects_commit, List.mem_append, Option.mem_toList]

theorem issuedAt_commit {token : ℕ} (h : token < s.nextToken) :
    (s.commit account secret resets).issuedAt token = s.issuedAt token :=
  Function.update_of_ne (Nat.ne_of_lt h) ..

/-- A link that the commit does not use, and that it does not end. -/
theorem Live.commit {link : Link × ℕ} (h : Live s link) (hresets : resets = false)
    (hother : secret ≠ some (.link link.1 link.2)) :
    Live (s.commit account secret resets) link where
  drawn := Nat.lt_succ_of_lt h.drawn
  issued := by
    rw [issuedAt_commit h.drawn, h.issued, Server.commit, hresets]
    rfl
  unused := fun hused ↦ (mem_effects_commit.mp hused).elim hother h.unused

theorem backupCodes_markUsed {code : ℕ} {row : TotpBackupCode} :
    row ∈ (s.account.markUsed code).backupCodes ↔
      ∃ stored ∈ s.account.backupCodes,
        (if stored.id = code then { stored with used := true } else stored) = row :=
  List.mem_map

theorem Sound.oneTime_commit (h : Sound first s) (hp : Prepared s account secret resets) :
    OneTime (s.commit account secret resets) where
  once := by
    rw [effects_commit]
    cases hsecret : secret with
    | none => exact h.oneTime.once
    | some used =>
      refine List.nodup_cons.mpr ⟨?_, h.oneTime.once⟩
      cases used with
      | link kind token => exact (hp.live kind token hsecret).unused
      | backupCode code =>
        rcases hp.codes with ⟨-, hno⟩ | ⟨other, hother, -, hunused⟩
        · exact absurd hsecret (hno code)
        · cases hother.symm.trans hsecret
          exact hunused
  links := by
    intro e he kind token hlink
    rcases List.mem_append.mp he with he | he
    · obtain ⟨used, hused, rfl⟩ := Option.map_eq_some_iff.mp (Option.mem_toList.mp he)
      have hlive := hp.live kind token (hused.trans (congrArg some hlink))
      exact (issuedAt_commit hlive.drawn).trans hlive.issued
    · have hdrawn := h.drawn kind token (List.mem_map.mpr ⟨e, he, hlink⟩)
      exact (issuedAt_commit hdrawn).trans (h.oneTime.links e he kind token hlink)
  tokens := by
    intro t ht hcurrent
    have hversion : t.version = account.user.sessionVersion := of_decide_eq_true hcurrent
    rw [hp.version] at hversion
    cases resets with
    | false => exact h.oneTime.tokens t ht (decide_eq_true hversion)
    | true =>
      have hissued := h.issued t ht
      have hstored := h.version
      simp only [if_true] at hversion
      omega

/-- A commit of a request that has given the lock back. -/
theorem Sound.commit (h : Sound first s) (hp : Prepared s account secret resets)
    (hholder : s.lock = none ∨
      resets = false ∧ ∀ kind token, secret ≠ some (.link kind token)) :
    Sound first (s.commit account secret resets) where
  oneTime := h.oneTime_commit hp
  version := by
    rw [Server.commit, hp.version, h.version]
    cases resets <;> rfl
  links := by
    intro link hlink
    obtain ⟨hresets, hnew | ⟨hold, hother⟩⟩ := hp.links link hlink
    · refine ⟨hnew ▸ Nat.lt_succ_self _, ?_, fun hused ↦ ?_⟩
      · rw [hnew, Server.commit, hresets]
        exact Function.update_self ..
      · rcases mem_effects_commit.mp hused with hused | hused
        · exact absurd hnew (Nat.ne_of_lt (hp.live _ _ hused).drawn)
        · exact absurd hnew (Nat.ne_of_lt (h.drawn _ _ hused))
    · exact (h.links link hold).commit hresets hother
  drawn := by
    intro kind token hused
    rcases mem_effects_commit.mp hused with hused | hused
    · exact Nat.lt_succ_of_lt (hp.live kind token hused).drawn
    · exact Nat.lt_succ_of_lt (h.drawn kind token hused)
  codes := by
    intro code hused row hrow hid
    rcases hp.codes with ⟨hcodes, hno⟩ | ⟨other, hsecret, rfl, -⟩
    · have hused := (mem_effects_commit.mp hused).resolve_left (hno code)
      exact h.codes code hused row (hcodes ▸ hrow) hid
    · obtain ⟨stored, hstored, rfl⟩ := backupCodes_markUsed.mp hrow
      by_cases hmarked : stored.id = other
      · rw [if_pos hmarked]
      · rw [if_neg hmarked] at hid ⊢
        rcases mem_effects_commit.mp hused with hused | hused
        · cases hsecret.symm.trans hused
          exact absurd hid hmarked
        · exact h.codes code hused stored hstored hid
  issued := by
    intro t ht
    obtain ⟨hversion, hresets⟩ := h.issued t ht
    refine ⟨hversion, Nat.le_trans hresets ?_⟩
    cases resets <;> simp [Server.commit]
  stages := by
    intro i stage hi
    refine (h.stages i stage hi).later ⟨fun hheld ↦ hheld, fun hheld link hlink ↦ ?_, ?_, ?_⟩
    · rcases hholder with hnone | ⟨hresets, hno⟩
      · cases hnone.symm.trans hheld
      · exact hlink.commit hresets (hno _ _)
    · rw [Server.commit, hp.version]
      exact Nat.le_add_right _ _
    · intro code hcode
      rcases hcode with ⟨row, hrow, hid, hunused⟩ | hused
      · rcases hp.codes with ⟨hcodes, -⟩ | ⟨other, hsecret, rfl, -⟩
        · exact .inl ⟨row, hcodes.symm ▸ hrow, hid, hunused⟩
        · by_cases hmarked : code = other
          · exact .inr (mem_effects_commit.mpr (.inl (hmarked ▸ hsecret)))
          · refine .inl ⟨row, backupCodes_markUsed.mpr ⟨row, hrow, if_neg ?_⟩, hid, hunused⟩
            exact hid ▸ hmarked
      · exact .inr (mem_effects_commit.mpr (.inr hused))

end commit

section replies

/-- What a statement of the request `id` may lead to. -/
inductive Decided (s : Server) (id : ℕ) : Reply → Prop
  | proceed {stage : Stage} (h : stage.Sound s id) : Decided s id (.proceed stage)
  | done : Decided s id .done
  | refuse (status : ℕ) (detail : String) : Decided s id (.refuse status detail)
  | session (pending : Bool) {version : ℕ} (h : version ≤ s.account.user.sessionVersion) :
      Decided s id (.session pending version)
  | commit {account : Account} {secret : Option Secret} {resets : Bool}
      (h : Prepared s account secret resets)
      (hholder : s.lock = some id ∨
        resets = false ∧ ∀ kind token, secret ≠ some (.link kind token)) :
      Decided s id (.commit account secret resets)
  | commitSession {account : Account} {code version : ℕ}
      (h : Prepared s account (some (.backupCode code)) false)
      (hversion : version ≤ s.account.user.sessionVersion) :
      Decided s id (.commitSession account (.backupCode code) version)

theorem Prepared.finish {account : Account} {secret : Option Secret} {resets : Bool}
    (h : Prepared s account secret resets) (id : ℕ) :
    Prepared (s.finish id) account secret resets :=
  ⟨h.version, h.links, h.codes, fun kind token hsecret ↦
    (h.live kind token hsecret).congr rfl rfl rfl rfl⟩

theorem Sound.settle (h : Sound first s) {reply : Reply} (hdecided : Decided s id reply) :
    Sound first (s.settle id reply) := by
  cases hdecided with
  | proceed hstage =>
    exact h.enter (.inl rfl) (hstage.later ⟨fun hheld ↦ hheld,
      fun _ link hlink ↦ hlink.congr rfl rfl rfl rfl, Nat.le_refl _, fun _ hcode ↦ hcode⟩)
  | done => exact h.finish id
  | refuse status detail => exact h.finish id
  | session pending hversion => exact (h.issue pending hversion).finish id
  | commit hp hholder =>
    refine (h.finish id).commit (hp.finish id) (hholder.imp_left fun hheld ↦ ?_)
    rw [Server.finish, if_pos hheld]
  | commitSession hp hversion =>
    refine Sound.issue ((h.finish id).commit (hp.finish id) (.inr ⟨rfl, fun _ _ heq ↦ ?_⟩)) false ?_
    · cases heq
    · rw [Server.commit, hp.version]
      exact hversion

variable (s)

theorem prepared_removeResetToken (token : ℕ) :
    Prepared s (s.account.removeResetToken token) none false := by
  refine ⟨rfl, fun link hlink ↦ ⟨rfl, .inr ⟨?_, by simp⟩⟩, .inl ⟨rfl, by simp⟩, by simp⟩
  simp only [Account.links, Account.removeResetToken, List.mem_append, List.mem_map,
    List.mem_filter] at hlink ⊢
  rcases hlink with (⟨row, hrow, rfl⟩ | hlink) | hlink
  · exact .inl (.inl ⟨row, hrow.1, rfl⟩)
  · exact .inl (.inr hlink)
  · exact .inr hlink

theorem prepared_removeActivation (token : ℕ) :
    Prepared s (s.account.removeActivation token) none false := by
  refine ⟨rfl, fun link hlink ↦ ⟨rfl, .inr ⟨?_, by simp⟩⟩, .inl ⟨rfl, by simp⟩, by simp⟩
  simp only [Account.links, Account.removeActivation, List.mem_append, List.mem_map,
    List.mem_filter] at hlink ⊢
  rcases hlink with (hlink | ⟨row, hrow, rfl⟩) | hlink
  · exact .inl (.inl hlink)
  · exact .inl (.inr ⟨row, hrow.1, rfl⟩)
  · exact .inr hlink

theorem prepared_activate {token : ℕ} (hlive : Live s (.activation, token)) (user : User)
    (huser : user.sessionVersion = s.account.user.sessionVersion) :
    Prepared s { s.account.removeActivation token with user := user }
      (some (.link .activation token)) false := by
  refine ⟨huser, fun link hlink ↦ ⟨rfl, .inr ?_⟩, .inl ⟨rfl, by simp⟩, fun kind other heq ↦ ?_⟩
  · simp only [Account.links, Account.removeActivation, List.mem_append, List.mem_map,
      List.mem_filter] at hlink ⊢
    rcases hlink with (⟨row, hrow, rfl⟩ | ⟨row, ⟨hrow, hother⟩, rfl⟩) | ⟨row, hrow, rfl⟩
    · exact ⟨.inl (.inl ⟨row, hrow, rfl⟩), by simp⟩
    · refine ⟨.inl (.inr ⟨row, hrow, rfl⟩), fun heq ↦ ?_⟩
      cases heq
      exact of_decide_eq_true hother rfl
    · exact ⟨.inr ⟨row, hrow, rfl⟩, by simp⟩
  · cases heq
    exact hlive

theorem prepared_newResetToken (now : ℕ) :
    Prepared s { s.account with resetTokens := [⟨s.nextToken, now⟩] } none false := by
  refine ⟨rfl, fun link hlink ↦ ⟨rfl, ?_⟩, .inl ⟨rfl, by simp⟩, by simp⟩
  simp only [Account.links, List.mem_append, List.map_cons, List.map_nil,
    List.mem_singleton] at hlink ⊢
  rcases hlink with (rfl | hlink) | hlink
  · exact .inl rfl
  · exact .inr ⟨.inl (.inr hlink), by simp⟩
  · exact .inr ⟨.inr hlink, by simp⟩

theorem prepared_newEmailChange (email previous : String) (version now : ℕ) :
    Prepared s { s.account with emailChanges := [⟨s.nextToken, email, previous, version, now⟩] }
      none false := by
  refine ⟨rfl, fun link hlink ↦ ⟨rfl, ?_⟩, .inl ⟨rfl, by simp⟩, by simp⟩
  simp only [Account.links, List.mem_append, List.map_cons, List.map_nil,
    List.mem_singleton] at hlink ⊢
  rcases hlink with hlink | rfl
  · exact .inr ⟨.inl hlink, by simp⟩
  · exact .inl rfl

/-- A new password or a new email ends all links and all sessions. -/
theorem prepared_reset {account : Account} (secret : Option (Link × ℕ))
    (hversion : account.user.sessionVersion = s.account.user.sessionVersion + 1)
    (hlinks : account.links = []) (hcodes : account.backupCodes = s.account.backupCodes)
    (hlive : ∀ link, secret = some link → Live s link) :
    Prepared s account (secret.map fun link ↦ .link link.1 link.2) true := by
  refine ⟨hversion, fun link hlink ↦ ?_, .inl ⟨hcodes, fun code hcode ↦ ?_⟩,
    fun kind token hlink ↦ ?_⟩
  · rw [hlinks] at hlink
    exact absurd hlink List.not_mem_nil
  · obtain ⟨link, -, hlink⟩ := Option.map_eq_some_iff.mp hcode
    cases hlink
  · obtain ⟨link, hsecret, hlink⟩ := Option.map_eq_some_iff.mp hlink
    cases hlink
    exact hlive link hsecret

theorem prepared_markUsed {code : ℕ} (hunused : .backupCode code ∉ s.effects.map Effect.secret) :
    Prepared s (s.account.markUsed code) (some (.backupCode code)) false := by
  refine ⟨rfl, fun link hlink ↦ ⟨rfl, .inr ⟨hlink, by simp⟩⟩, .inr ⟨code, rfl, rfl, hunused⟩, ?_⟩
  intro kind token heq
  cases heq

variable {s}

theorem mem_links_of_resetToken {account : Account} {token : ℕ}
    (h : (account.resetToken token).isNone ≠ true) : (.reset, token) ∈ account.links := by
  obtain ⟨row, hfind⟩ := Option.ne_none_iff_exists'.mp (mt Option.isNone_iff_eq_none.mpr h)
  refine List.mem_append_left _ (List.mem_append_left _ (List.mem_map.mpr
    ⟨row, List.mem_of_find?_eq_some hfind, ?_⟩))
  rw [of_decide_eq_true (List.find?_some
    (p := fun row : PasswordResetToken ↦ decide (row.token = token)) hfind)]

theorem mem_links_of_activation {account : Account} {token : ℕ} {row : EmailActivation}
    (h : account.activation token = some row) : (.activation, token) ∈ account.links := by
  refine List.mem_append_left _ (List.mem_append_right _ (List.mem_map.mpr
    ⟨row, List.mem_of_find?_eq_some h, ?_⟩))
  rw [of_decide_eq_true (List.find?_some
    (p := fun row : EmailActivation ↦ decide (row.token = token)) h)]

theorem mem_links_of_emailChange {account : Account} {token : ℕ} {row : EmailChangeToken}
    (h : account.emailChange token = some row) : (.emailChange, token) ∈ account.links := by
  refine List.mem_append_right _ (List.mem_map.mpr ⟨row, List.mem_of_find?_eq_some h, ?_⟩)
  rw [of_decide_eq_true (List.find?_some
    (p := fun row : EmailChangeToken ↦ decide (row.token = token)) h)]

variable (settings : Settings) (taken : String → Bool) (totp : ℕ → String → Bool)

theorem decided_arrived (s : Server) (id now : ℕ) (request : Request) :
    Decided s id (arrived settings totp s.account now request) := by
  cases request with
  | forgotPassword email =>
    rw [arrived]
    split_ifs
    · exact .refuse _ _
    · exact .proceed trivial
  | resetPassword token password =>
    rw [arrived]
    cases s.account.resetToken token with
    | none => exact .refuse _ _
    | some record =>
      dsimp only
      split_ifs <;> exact .proceed trivial
  | activateEmail token =>
    rw [arrived]
    cases s.account.activation token with
    | none => exact .refuse _ _
    | some activation =>
      dsimp only
      split_ifs <;> exact .proceed trivial
  | resetUserPassword password => exact .proceed trivial
  | changeUserEmail email => exact .proceed trivial
  | requestEmailChange version password recentSso email =>
    rw [arrived]
    split_ifs
    · exact .refuse _ _
    · exact .refuse _ _
    · exact .proceed trivial
  | confirmEmailChange token =>
    rw [arrived]
    split_ifs
    · exact .refuse _ _
    · exact .proceed trivial
  | login email password =>
    rw [arrived]
    split_ifs
    · exact .refuse _ _
    · exact .refuse _ _
    · exact .refuse _ _
    · exact .proceed (Nat.le_refl _)
  | verify2fa version code =>
    rw [arrived]
    split_ifs
    · exact .refuse _ _
    · exact .proceed (Nat.le_refl _)
    · exact .proceed (Nat.le_refl _)

theorem decided_outdated (s : Server) (id : ℕ) (request : Request) :
    Decided s id (outdated s.account request) := by
  cases request with
  | resetPassword token password =>
    exact .commit (prepared_removeResetToken s token) (.inr ⟨rfl, by simp⟩)
  | activateEmail token =>
    exact .commit (prepared_removeActivation s token) (.inr ⟨rfl, by simp⟩)
  | _ => exact .done

theorem Sound.decided_locked (h : Sound first s) (hheld : s.lock = some id) (now : ℕ)
    (request : Request) : Decided s id (locked taken s.account now request) := by
  have hgo (request : Request) (hno : request.link = none) :
      Decided s id (.proceed (.rechecked request)) :=
    .proceed ⟨hheld, fun link hlink ↦ by cases hno.symm.trans hlink⟩
  cases request with
  | resetPassword token password =>
    rw [locked]
    split_ifs with hnone
    · exact .refuse _ _
    · refine .proceed ⟨hheld, fun link hlink ↦ ?_⟩
      exact Option.some.inj hlink ▸ h.links _ (mem_links_of_resetToken hnone)
  | activateEmail token =>
    rw [locked]
    split_ifs with hall
    · exact .refuse _ _
    · refine .proceed ⟨hheld, fun link hlink ↦ ?_⟩
      cases hfind : s.account.activation token with
      | none =>
        rw [hfind] at hall
        exact absurd rfl hall
      | some row => exact Option.some.inj hlink ▸ h.links _ (mem_links_of_activation hfind)
  | changeUserEmail email =>
    rw [locked]
    split_ifs
    · exact .done
    · exact .refuse _ _
    · exact hgo _ rfl
  | requestEmailChange version password recentSso email =>
    rw [locked]
    split_ifs
    · exact .refuse _ _
    · exact .refuse _ _
    · exact .refuse _ _
    · exact hgo _ rfl
  | confirmEmailChange token =>
    rw [locked]
    cases hfind : s.account.emailChange token with
    | none => exact .refuse _ _
    | some record =>
      dsimp only
      split_ifs
      · exact .refuse _ _
      · exact .proceed ⟨hheld, h.links _ (mem_links_of_emailChange hfind)⟩
  | forgotPassword _ | resetUserPassword _ | login _ _ | verify2fa _ _ => exact hgo _ rfl

theorem decided_rechecked (hheld : s.lock = some id) (now : ℕ) {request : Request}
    (hlive : ∀ link, request.link = some link → Live s link) :
    Decided s id (rechecked s.account now s.nextToken request) := by
  cases request with
  | forgotPassword email => exact .commit (prepared_newResetToken s now) (.inl hheld)
  | resetPassword token password =>
    exact .commit (prepared_reset s (some (.reset, token)) rfl rfl rfl hlive) (.inl hheld)
  | activateEmail token =>
    exact .commit (prepared_activate s (hlive _ rfl) _ rfl) (.inl hheld)
  | resetUserPassword password =>
    exact .commit (prepared_reset s none rfl rfl rfl hlive) (.inl hheld)
  | changeUserEmail email =>
    exact .commit (prepared_reset s none rfl rfl rfl hlive) (.inl hheld)
  | requestEmailChange version password recentSso email =>
    exact .commit (prepared_newEmailChange s _ _ _ now) (.inl hheld)
  | _ => exact .done

theorem decided_confirmed (hheld : s.lock = some id) {token : ℕ} (email : String)
    (hlive : Live s (.emailChange, token)) :
    Decided s id (confirmed taken s.account token email) := by
  rw [confirmed]
  split_ifs
  · exact .refuse _ _
  · refine .commit (prepared_reset s (some (.emailChange, token)) rfl rfl rfl ?_)
      (.inl hheld)
    intro link hlink
    exact Option.some.inj hlink ▸ hlive

theorem decided_secondFactor {version : ℕ} (hversion : version ≤ s.account.user.sessionVersion)
    (code : String) : Decided s id (secondFactor s.account version code) := by
  rw [secondFactor]
  cases hcode : s.account.backupCode code with
  | none => exact .refuse _ _
  | some row =>
    refine .proceed ⟨hversion, .inl ⟨row, ?_⟩⟩
    rw [Account.backupCode] at hcode
    split at hcode
    · rename_i hfilter
      cases hcode
      have hmem := List.mem_filter.mp (hfilter ▸ List.mem_singleton_self row)
      exact ⟨hmem.1, rfl, (of_decide_eq_true hmem.2).2⟩
    · cases hcode

theorem Sound.advance (h : Sound first s) {stage : Stage} (hrequest : s.requests id = some stage)
    (hsafe : Safe s (.advance id)) : Sound first (advance settings taken totp s id stage) := by
  have hstage := h.stages id stage hrequest
  cases stage with
  | arrived request => exact h.settle (decided_arrived settings totp s id s.clock request)
  | found request =>
    rw [AccountSecurity.advance]
    split_ifs with hwants hfree
    · exact h.finish id
    · exact h.enter (.inr hfree) rfl
    · exact h
  | outdated request => exact h.settle (decided_outdated s id request)
  | locked request => exact h.settle (h.decided_locked taken hstage s.clock request)
  | rechecked request => exact h.settle (decided_rechecked hstage.1 s.clock hstage.2)
  | confirmed token email => exact h.settle (decided_confirmed taken hstage.1 email hstage.2)
  | issuing pending version => exact h.settle (.session pending hstage)
  | secondFactor version code => exact h.settle (decided_secondFactor hstage code)
  | codeFound version code =>
    refine h.settle (.commitSession (prepared_markUsed s fun hused ↦ ?_) hstage.1)
    obtain ⟨row, hrow, hid, hunused⟩ := hsafe version code hrequest
    cases hunused.symm.trans (h.codes code hused row hrow hid)

theorem Sound.keep (h : Sound first s) (event : Event) (hsafe : Safe s event) :
    Sound first (step settings taken totp s event) := by
  cases event with
  | arrive id request =>
    rw [step]
    split_ifs
    · have hstage : (Stage.arrived request).Sound s id := trivial
      exact h.settle (.proceed hstage)
    · exact h
  | advance id =>
    rw [step]
    cases hrequest : s.requests id with
    | none => exact h
    | some stage => exact h.advance settings taken totp hrequest hsafe
  | abort id => exact h.finish id
  | pass time =>
    exact ⟨⟨h.oneTime.once, h.oneTime.links, h.oneTime.tokens⟩, h.version,
      fun link hlink ↦ (h.links link hlink).congr rfl rfl rfl rfl, h.drawn, h.codes, h.issued,
      fun i stage hi ↦ (h.stages i stage hi).later ⟨fun hheld ↦ hheld,
        fun _ link hlink ↦ hlink.congr rfl rfl rfl rfl, Nat.le_refl _, fun _ hcode ↦ hcode⟩⟩

theorem Sound.safe_of_step (h : Sound first s) (event : Event)
    (hone : OneTime (step settings taken totp s event)) : Safe s event := by
  cases event with
  | advance id =>
    intro version code hrequest
    refine (h.stages id _ hrequest).2.resolve_right fun hused ↦ ?_
    rw [step, hrequest] at hone
    have hnodup : ((s.commit (s.account.markUsed code) (some (.backupCode code)) false).effects.map
        Effect.secret).Nodup := hone.once
    rw [effects_commit] at hnodup
    exact (List.nodup_cons.mp hnodup).1 hused
  | _ => trivial

theorem sound_registered (user : User) (activates : Bool) (backupCodes : List TotpBackupCode) :
    Sound user.sessionVersion (.registered user activates backupCodes) where
  oneTime := ⟨List.nodup_nil, fun _ he ↦ absurd he List.not_mem_nil,
    fun _ ht ↦ absurd ht List.not_mem_nil⟩
  version := rfl
  links := by
    intro link hlink
    cases activates with
    | false => exact absurd hlink List.not_mem_nil
    | true =>
      obtain rfl := List.mem_singleton.mp hlink
      exact ⟨Nat.zero_lt_one, rfl, List.not_mem_nil⟩
  drawn := fun _ _ hused ↦ absurd hused List.not_mem_nil
  codes := fun _ hused ↦ absurd hused List.not_mem_nil
  issued := fun _ ht ↦ absurd ht List.not_mem_nil
  stages := fun _ _ hrequest ↦ by cases hrequest

end replies

end invariant

/-- In every state of a run the secrets of an account have worked once exactly when each second
factor that commits finds its backup code unused. -/
theorem oneTime_iff (settings : Settings) (taken : String → Bool) (totp : ℕ → String → Bool)
    (user : User) (activates : Bool) (backupCodes : List TotpBackupCode) (events : List Event) :
    (∀ n, OneTime ((events.take n).foldl (step settings taken totp)
        (.registered user activates backupCodes))) ↔
      Throughout (step settings taken totp) Safe (.registered user activates backupCodes) events :=
  forall_take_iff_throughout (sound_registered user activates backupCodes) (fun _ h ↦ h.oneTime)
    (fun _ event h ↦ h.keep settings taken totp event)
    fun _ event h ↦ h.safe_of_step settings taken totp event

def plainSettings : Settings := ⟨true, false, false⟩

def protectedUser : User := ⟨"a@x", some "secret", true, true, 0⟩

/-- Two second factors read the same backup code before either has committed. -/
def codeTwice : List Event :=
  [.arrive 1 (.verify2fa 0 "1234-5678"), .arrive 2 (.verify2fa 0 "1234-5678"),
    .advance 1, .advance 2, .advance 1, .advance 2, .advance 1, .advance 2]

/-- Both are let in. -/
theorem codeTwice_notOneTime :
    ((codeTwice.foldl (step plainSettings (fun _ ↦ false) fun _ _ ↦ false)
        (.registered protectedUser false [⟨1, "1234-5678", false⟩])).effects.map Effect.secret =
      [.backupCode 1, .backupCode 1]) ∧
    ¬∀ n, OneTime ((codeTwice.take n).foldl (step plainSettings (fun _ ↦ false) fun _ _ ↦ false)
        (.registered protectedUser false [⟨1, "1234-5678", false⟩])) := by
  have heffects : (codeTwice.foldl (step plainSettings (fun _ ↦ false) fun _ _ ↦ false)
      (.registered protectedUser false [⟨1, "1234-5678", false⟩])).effects.map Effect.secret =
      [.backupCode 1, .backupCode 1] := by decide
  refine ⟨heffects, fun h ↦ ?_⟩
  have honce := (h 8).once
  rw [List.take_of_length_le (by decide), heffects] at honce
  simp at honce

end AnyList.Accounts.AccountSecurity
