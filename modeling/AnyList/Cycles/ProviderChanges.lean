import AnyList.Cycles.AccountCycle
import AnyList.Library.Table

namespace AnyList.Cycles.ProviderChanges

open AnyList.Library
open AnyList.Cycles.AccountCycle (SyncStatus)

inductive ConnectionType
  | jellyfin
  | emby
  | plex
  | nuvio
  | stremio
  | arvio
  deriving DecidableEq

inductive CloudProvider
  | trakt
  | simkl
  | mdblist
  deriving DecidableEq

inductive Source
  | connection (id : ℕ)
  | cloud (provider : CloudProvider)
  deriving DecidableEq

/-- `onboarding` says whether the first import of the connection still waits for its review. -/
structure Connection where
  type : ConnectionType
  url : String
  token : String
  providerAccountId : Option String
  serverUserId : Option String
  identityVersion : ℕ
  syncCollection : Bool
  syncWatched : Bool
  syncPlayback : Bool
  syncRatings : Bool
  plexSyncWatchlist : Bool
  librariesConfirmed : Bool
  stremioFullSyncDone : Bool
  onboarding : Bool
  deriving DecidableEq

structure CloudSettings where
  accessToken : Option String
  apiKey : Option String
  clientId : Option String
  syncWatched : Bool
  syncRatings : Bool
  syncLists : Bool
  syncWatchlist : Bool
  syncDropped : Bool
  watchlistSplit : Bool
  deriving DecidableEq

/-- What the digest of an account is taken of. -/
structure Signature where
  provider : ConnectionType ⊕ CloudProvider
  identity : List (Option String)
  identityVersion : ℕ
  flags : List Bool
  deriving DecidableEq

def Connection.signature (conn : Connection) : Signature where
  provider := .inl conn.type
  identity := [some conn.url, conn.providerAccountId, conn.serverUserId,
    if conn.type = .stremio then some conn.token else none]
  identityVersion := conn.identityVersion
  flags := [conn.syncCollection, conn.syncWatched, conn.syncPlayback, conn.syncRatings,
    conn.plexSyncWatchlist]

def CloudSettings.signature (settings : CloudSettings) (provider : CloudProvider) : Signature where
  provider := .inr provider
  identity := [settings.accessToken, settings.apiKey, settings.clientId]
  identityVersion := 0
  flags := [settings.syncWatched, settings.syncRatings, settings.syncLists, settings.syncWatchlist,
    settings.syncDropped, settings.watchlistSplit]

/-- A remote marker under the signature of the account it was fetched for. -/
structure Checkpoint where
  signature : Signature
  marker : String
  deriving DecidableEq

inductive ChangeState
  | unchanged
  | changed
  | unknown
  deriving DecidableEq

structure ChangeCheck where
  state : ChangeState
  checkpoint : Option Checkpoint
  deriving DecidableEq

structure JobStats where
  unchanged : Bool
  importPending : Bool
  errors : ℕ
  snapshotComplete : Bool
  providerCheckpoint : Option Checkpoint
  pendingCheckpoint : Option Checkpoint
  deriving DecidableEq

def JobStats.empty : JobStats := ⟨false, false, 0, true, none, none⟩

/-- The job of one provider pull. -/
structure PullJob where
  source : Source
  status : SyncStatus
  errors : ℕ
  warnings : Bool
  stats : JobStats
  deriving DecidableEq

def pendingJob (source : Source) : PullJob := ⟨source, .pending, 0, false, .empty⟩

def terminal (status : SyncStatus) : Bool := !status.active

/-- What the checks read: the connections, the settings of the cloud trackers, and the jobs. -/
structure Accounts where
  connections : Table Connection
  clouds : CloudProvider → CloudSettings
  jobs : Table PullJob

namespace Accounts

def signature (a : Accounts) : Source → Option Signature
  | .connection id => (a.connections.get id).map Connection.signature
  | .cloud provider => some ((a.clouds provider).signature provider)

/-- Providers without complete verified coverage must take the normal path. -/
def covered (a : Accounts) : Source → Bool
  | .connection id => ((a.connections.get id).map fun conn ↦
      decide (conn.type = .nuvio ∨ conn.type = .stremio ∧ conn.stremioFullSyncDone = true)).getD false
  | .cloud .trakt => !(a.clouds .trakt).syncLists
  | .cloud _ => true

/-- The latest finished pull of a source. -/
def previous (a : Accounts) (source : Source) : Option PullJob :=
  ((a.jobs.rows.filter fun row ↦
    decide (row.2.source = source) && terminal row.2.status).getLast?).map Prod.snd

/-- `probe` is the digest of the marker the provider reports, if it reports a valid one. -/
def checkProviderChanges (a : Accounts) (source : Source) (probe : Option String) : ChangeCheck :=
  match a.covered source, a.signature source, probe with
  | true, some signature, some marker =>
    let checkpoint : Checkpoint := ⟨signature, marker⟩
    let saved := (a.previous source).bind fun job ↦ job.stats.providerCheckpoint
    ⟨if saved = some checkpoint then .unchanged else .changed, some checkpoint⟩
  | _, _, _ => ⟨.unknown, none⟩

end Accounts

end AnyList.Cycles.ProviderChanges
