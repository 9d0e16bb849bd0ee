import AnyList.Library.Runs
import AnyList.Library.Table
import Mathlib.Logic.Function.Basic

namespace AnyList.Accounts.Administration

open AnyList.Library AnyList.Library.Runs

inductive UserRole
  | admin
  | user
  deriving DecidableEq

/-- An account; its email is stored stripped and in lower case. -/
structure User where
  username : String
  email : String
  role : UserRole
  isAdmin : Bool
  deriving DecidableEq

/-- Whether others than the first user may register, and up to how many users (0 is unlimited). -/
structure Settings where
  enableRegistrations : Bool
  registrationMaxAllowedUsers : ℕ

inductive Request
  | register (username email : String)
  | createUser (requester : ℕ) (username email : String) (isAdmin : Bool)
  | toggleAdmin (requester target : ℕ)
  | deleteUser (requester target : ℕ)

/-- Where a request stands between two statements it sends to the database, with what it read. -/
inductive Stage
  | registerArrived (username email : String)
  | registerLocked (username email : String)
  | registerAllowed (username email : String)
  | registerNew (username email : String)
  | registerCounted (username email : String) (isFirstUser : Bool)
  | createAuthorised (username email : String) (isAdmin : Bool)
  | createNew (username email : String) (isAdmin : Bool)
  | toggleAuthorised (requester target : ℕ)
  | toggleRead (requester target : ℕ) (isAdmin : Bool)
  | toggleChecked (target : ℕ) (isAdmin : Bool)
  | deleteAuthorised (requester target : ℕ)
  | deleteChecked (target : ℕ)
  | deleteFound (target : ℕ)

/-- What one statement of a request leads to. -/
inductive Reply
  | proceed (stage : Stage)
  | refuse (status : ℕ) (detail : String)
  | commit (users : Table User)

section statements

variable (settings : Settings) (users : Table User)

def registrationAllowed : Bool :=
  let count := users.rows.length
  if count = 0 then true
  else if !settings.enableRegistrations then false
  else if settings.registrationMaxAllowedUsers > 0 then
    decide (count < settings.registrationMaxAllowedUsers)
  else true

/-- A user of this name or email, which the unique constraints admit once. -/
def taken (username email : String) : Bool :=
  users.rows.any fun row ↦ decide (row.2.email = email ∨ row.2.username = username)

def countAdmins : ℕ := users.rows.countP fun row ↦ row.2.isAdmin

def hasAdmin : Bool := users.rows.any fun row ↦ row.2.isAdmin

def newUser (username email : String) (isAdmin : Bool) : User where
  username := username
  email := email
  role := if isAdmin then .admin else .user
  isAdmin := isAdmin

def insertUser (username email : String) (isAdmin : Bool) (detail : String) : Reply :=
  if taken users username email then .refuse 400 detail
  else .commit (users.insert (newUser username email isAdmin))

def soleAdminDetail : String :=
  "You are the sole admin. Promote another user before removing your own admin rights."

def ownAccountDetail : String :=
  "You cannot delete your own account while other users exist."

def registeredDetail : String := "User with this email or username already exists"

def createdDetail : String := "A user with this email or username already exists"

def reply : Stage → Reply
  | .registerArrived username email => .proceed (.registerLocked username email)
  | .registerLocked username email =>
    if registrationAllowed settings users then .proceed (.registerAllowed username email)
    else .refuse 403 "Registrations are disabled."
  | .registerAllowed username email =>
    if taken users username email then .refuse 400 registeredDetail
    else .proceed (.registerNew username email)
  | .registerNew username email =>
    .proceed (.registerCounted username email (decide (users.rows.length = 0)))
  | .registerCounted username email isFirstUser =>
    insertUser users username email isFirstUser createdDetail
  | .createAuthorised username email isAdmin =>
    if taken users username email then .refuse 400 createdDetail
    else .proceed (.createNew username email isAdmin)
  | .createNew username email isAdmin => insertUser users username email isAdmin createdDetail
  | .toggleAuthorised requester target =>
    match users.get target with
    | none => .refuse 404 "User not found"
    | some user =>
      -- the requester's own row is the one that authorised the request
      .proceed (.toggleRead requester target (if target = requester then true else user.isAdmin))
  | .toggleRead requester target isAdmin =>
    if target = requester ∧ isAdmin = true ∧ countAdmins users ≤ 1 then .refuse 400 soleAdminDetail
    else .proceed (.toggleChecked target isAdmin)
  | .toggleChecked target isAdmin =>
    .commit (users.modifyAt target fun user ↦ { user with isAdmin := !isAdmin })
  | .deleteAuthorised requester target =>
    if target = requester ∧ users.rows.length > 1 then .refuse 400 ownAccountDetail
    else .proceed (.deleteChecked target)
  | .deleteChecked target =>
    if (users.get target).isNone then .refuse 404 "User not found"
    else .proceed (.deleteFound target)
  | .deleteFound target => .commit (users.eraseAt target)

end statements

/-- The users, the registration that holds the bootstrap lock, and the requests under way. -/
structure Server where
  users : Table User
  bootstrap : Option ℕ
  requests : ℕ → Option Stage

namespace Server

variable (s : Server) (id : ℕ)

def initial : Server := ⟨.empty, none, fun _ ↦ none⟩

def enter (stage : Stage) : Server :=
  { s with requests := Function.update s.requests id (some stage) }

/-- A request ends, and with it its hold on the bootstrap lock. -/
def finish : Server where
  users := s.users
  bootstrap := if s.bootstrap = some id then none else s.bootstrap
  requests := Function.update s.requests id none

def isAdmin : Bool := ((s.users.get id).map User.isAdmin).getD false

end Server

inductive Event
  | arrive (id : ℕ) (request : Request)
  | advance (id : ℕ)

/-- A request is taken up; one for administrators is refused to others. -/
def arrive (s : Server) (id : ℕ) : Request → Server
  | .register username email => s.enter id (.registerArrived username email)
  | .createUser requester username email isAdmin =>
    if s.isAdmin requester then s.enter id (.createAuthorised username email isAdmin) else s
  | .toggleAdmin requester target =>
    if s.isAdmin requester then s.enter id (.toggleAuthorised requester target) else s
  | .deleteUser requester target =>
    if s.isAdmin requester then s.enter id (.deleteAuthorised requester target) else s

def settle (s : Server) (id : ℕ) : Reply → Server
  | .proceed stage => s.enter id stage
  | .refuse _ _ => s.finish id
  | .commit users => { s.finish id with users := users }

/-- The next statement of a request; a registration first waits for the bootstrap lock. -/
def advance (settings : Settings) (s : Server) (id : ℕ) : Server :=
  match s.requests id with
  | none => s
  | some (.registerArrived username email) =>
    if s.bootstrap = none then
      { s.enter id (.registerLocked username email) with bootstrap := some id }
    else s
  | some stage => settle s id (reply settings s.users stage)

def step (settings : Settings) (s : Server) : Event → Server
  | .arrive id request =>
    if s.requests id = none then arrive s id request else s
  | .advance id => advance settings s id

/-- Somebody administers the server as soon as it has users, and both marks of an administrator
agree. -/
structure Administered (users : Table User) : Prop where
  someAdmin : users.rows ≠ [] → ∃ row ∈ users.rows, row.2.isAdmin = true
  roles : ∀ row ∈ users.rows, row.2.role = .admin ↔ row.2.isAdmin = true

/-- What a commit must find: a new user is an administrator, or there is one, or the name is
taken; the target of a toggle is gone or has the mark already that is written; a deletion leaves
an administrator, or nobody. -/
def Stage.Safe (users : Table User) : Stage → Prop
  | .registerCounted username email isAdmin | .createNew username email isAdmin =>
    taken users username email = true ∨ isAdmin = true ∨ ∃ row ∈ users.rows, row.2.isAdmin = true
  | .toggleChecked target isAdmin => ∀ row ∈ users.rows, row.1 = target → row.2.isAdmin = !isAdmin
  | .deleteFound target => (∃ row ∈ users.rows, row.1 ≠ target ∧ row.2.isAdmin = true) ∨
    ∀ row ∈ users.rows, row.1 = target
  | _ => True

def Safe (s : Server) : Event → Prop
  | .arrive _ _ => True
  | .advance id => ∀ stage, s.requests id = some stage → stage.Safe s.users

section invariant

variable {users : Table User} {username email : String} {isAdmin : Bool} {target : ℕ}
  {stage : Stage} {settings : Settings}

theorem administered_empty : Administered .empty :=
  ⟨fun h ↦ absurd rfl h, fun _ hrow ↦ absurd hrow List.not_mem_nil⟩

theorem administered_insert_iff (h : Administered users) :
    Administered (users.insert (newUser username email isAdmin)) ↔
      isAdmin = true ∨ ∃ row ∈ users.rows, row.2.isAdmin = true := by
  constructor
  · intro h'
    obtain ⟨row, hrow, hadmin⟩ := h'.someAdmin (by simp [Table.insert])
    rcases Table.mem_insert.mp hrow with hrow | rfl
    · exact .inr ⟨row, hrow, hadmin⟩
    · exact .inl hadmin
  · intro hsafe
    refine ⟨fun _ ↦ ?_, fun row hrow ↦ ?_⟩
    · rcases hsafe with hnew | ⟨row, hrow, hadmin⟩
      · exact ⟨_, Table.mem_insert.mpr (.inr rfl), hnew⟩
      · exact ⟨row, Table.mem_insert.mpr (.inl hrow), hadmin⟩
    · rcases Table.mem_insert.mp hrow with hrow | rfl
      · exact h.roles row hrow
      · cases isAdmin <;> simp [newUser]

/-- A toggle leaves the role as it is, so it breaks the agreement unless it changes nothing. -/
theorem administered_toggle_iff (h : Administered users) :
    Administered (users.modifyAt target fun user ↦ { user with isAdmin := !isAdmin }) ↔
      ∀ row ∈ users.rows, row.1 = target → row.2.isAdmin = !isAdmin := by
  constructor
  · intro h' row hrow htarget
    have hmem := Table.mem_modify_of_mem
      (f := fun i user ↦ if i = target then { user with isAdmin := !isAdmin } else user) hrow
    rw [if_pos htarget] at hmem
    have hroles := (h'.roles _ hmem).symm.trans (h.roles row hrow)
    exact (Bool.eq_iff_iff.mpr hroles).symm
  · intro hsame
    have hrows : (users.modifyAt target fun user ↦ { user with isAdmin := !isAdmin }).rows =
        users.rows := by
      refine (List.map_congr_left fun row hrow ↦ ?_).trans (List.map_id' _)
      dsimp only
      by_cases htarget : row.1 = target
      · rw [if_pos htarget, ← hsame row hrow htarget]
      · rw [if_neg htarget]
    exact ⟨fun hne ↦ by rw [hrows] at hne ⊢; exact h.someAdmin hne,
      fun row hrow ↦ h.roles row (hrows ▸ hrow)⟩

theorem administered_erase_iff (h : Administered users) :
    Administered (users.eraseAt target) ↔
      (∃ row ∈ users.rows, row.1 ≠ target ∧ row.2.isAdmin = true) ∨
        ∀ row ∈ users.rows, row.1 = target := by
  have hmem (row : ℕ × User) : row ∈ (users.eraseAt target).rows ↔
      row ∈ users.rows ∧ row.1 ≠ target := by
    simp [Table.eraseAt]
  constructor
  · intro h'
    by_cases hne : (users.eraseAt target).rows = []
    · refine .inr fun row hrow ↦ ?_
      by_contra hother
      have hkept := (hmem row).mpr ⟨hrow, hother⟩
      rw [hne] at hkept
      exact List.not_mem_nil hkept
    · obtain ⟨row, hrow, hadmin⟩ := h'.someAdmin hne
      obtain ⟨hrow, hother⟩ := (hmem row).mp hrow
      exact .inl ⟨row, hrow, hother, hadmin⟩
  · intro hsafe
    refine ⟨fun hne ↦ ?_, fun row hrow ↦ h.roles row ((hmem row).mp hrow).1⟩
    rcases hsafe with ⟨row, hrow, hother, hadmin⟩ | hall
    · exact ⟨row, (hmem row).mpr ⟨hrow, hother⟩, hadmin⟩
    · obtain ⟨row, hrow⟩ := List.exists_mem_of_ne_nil _ hne
      obtain ⟨hrow, hother⟩ := (hmem row).mp hrow
      exact absurd (hall row hrow) hother

theorem administered_insertUser_iff (h : Administered users) {detail : String} {s : Server}
    (hs : s.users = users) {id : ℕ} :
    Administered (settle s id (insertUser users username email isAdmin detail)).users ↔
      taken users username email = true ∨ isAdmin = true ∨
        ∃ row ∈ users.rows, row.2.isAdmin = true := by
  rw [insertUser]
  by_cases htaken : taken users username email = true
  · rw [if_pos htaken]
    refine iff_of_true ?_ (.inl htaken)
    rw [settle, Server.finish, hs]
    exact h
  · rw [if_neg htaken]
    exact (administered_insert_iff h).trans (or_iff_right htaken).symm

/-- A statement keeps the server administered exactly when it finds what its commit needs. -/
theorem administered_settle_iff {s : Server} (h : Administered s.users) {id : ℕ} :
    Administered (settle s id (reply settings s.users stage)).users ↔ stage.Safe s.users := by
  cases stage with
  | registerCounted username email isFirstUser => exact administered_insertUser_iff h rfl
  | createNew username email isAdmin => exact administered_insertUser_iff h rfl
  | toggleChecked target isAdmin => exact administered_toggle_iff h
  | deleteFound target => exact administered_erase_iff h
  | registerArrived username email => exact iff_of_true h trivial
  | registerNew username email => exact iff_of_true h trivial
  | registerLocked _ _ | registerAllowed _ _ | createAuthorised _ _ _ | toggleRead _ _ _
  | deleteAuthorised _ _ | deleteChecked _ =>
    rw [reply]
    split_ifs <;> exact iff_of_true h trivial
  | toggleAuthorised requester target =>
    rw [reply]
    cases s.users.get target <;> exact iff_of_true h trivial

theorem users_arrive (s : Server) (id : ℕ) (request : Request) :
    (arrive s id request).users = s.users := by
  cases request with
  | register username email => rfl
  | createUser _ _ _ _ | toggleAdmin _ _ | deleteUser _ _ =>
    rw [arrive]
    split_ifs <;> rfl

theorem administered_advance_iff {s : Server} (h : Administered s.users) (id : ℕ) :
    Administered (advance settings s id).users ↔ Safe s (.advance id) := by
  rw [advance]
  cases hstage : s.requests id with
  | none => exact iff_of_true h fun stage hsome ↦ by simp [hstage] at hsome
  | some stage =>
    have hsafe : Safe s (.advance id) ↔ stage.Safe s.users := by
      simp only [Safe, hstage, Option.some.injEq, forall_eq']
    rw [hsafe]
    cases stage with
    | registerArrived username email =>
      dsimp only
      split_ifs <;> exact iff_of_true h trivial
    | _ => exact administered_settle_iff h

theorem administered_step_iff {s : Server} (h : Administered s.users) (event : Event) :
    Administered (step settings s event).users ↔ Safe s event := by
  cases event with
  | arrive id request =>
    refine iff_of_true ?_ trivial
    rw [step]
    split_ifs
    · rw [users_arrive]
      exact h
    · exact h
  | advance id => exact administered_advance_iff h id

end invariant

/-- In every state of a run the server is administered exactly when each commit of the run finds
what it needs. -/
theorem administered_iff (settings : Settings) (events : List Event) :
    (∀ n, Administered ((events.take n).foldl (step settings) .initial).users) ↔
      Throughout (step settings) Safe .initial events :=
  forall_take_iff_throughout (I := fun s : Server ↦ Administered s.users) administered_empty
    (fun _ h ↦ h) (fun _ event h ↦ (administered_step_iff h event).mpr)
    fun _ event h ↦ (administered_step_iff h event).mp

def openSettings : Settings := ⟨true, 0⟩

/-- The first user adds a second administrator, and the two take the mark from each other at the
same time. -/
def mutualDemotion : List Event :=
  [.arrive 1 (.register "a" "a@x"), .advance 1, .advance 1, .advance 1, .advance 1, .advance 1,
    .arrive 2 (.createUser 1 "b" "b@x" true), .advance 2, .advance 2,
    .arrive 3 (.toggleAdmin 1 2), .arrive 4 (.toggleAdmin 2 1), .advance 3, .advance 4,
    .advance 3, .advance 4, .advance 3, .advance 4]

/-- Nobody administers the server in the end, and both users have kept the role. -/
theorem mutualDemotion_unadministered :
    ((mutualDemotion.foldl (step openSettings) .initial).users.rows.map Prod.snd =
        [⟨"a", "a@x", .admin, false⟩, ⟨"b", "b@x", .admin, false⟩]) ∧
      ¬∀ n, Administered ((mutualDemotion.take n).foldl (step openSettings) .initial).users := by
  have hrows : (mutualDemotion.foldl (step openSettings) .initial).users.rows.map Prod.snd =
      [⟨"a", "a@x", .admin, false⟩, ⟨"b", "b@x", .admin, false⟩] := by decide
  refine ⟨hrows, fun h ↦ ?_⟩
  have hlast := (h 17).someAdmin
  revert hlast
  decide

end AnyList.Accounts.Administration
