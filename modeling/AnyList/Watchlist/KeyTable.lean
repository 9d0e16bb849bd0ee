import AnyList.Watchlist.PlexWatchlist
import Mathlib.Data.Fintype.Option

namespace AnyList.Watchlist.KeyTable

open AnyList.Watchlist.Reconcile AnyList.Watchlist.PlexWatchlist

instance : Fintype Change :=
  ⟨{.addLocal, .removeLocal, .pushAdd, .pushRemove}, by rintro (_ | _ | _ | _) <;> decide⟩

/-- Where one key stands; `synced` is `none` while no baseline exists. -/
@[ext]
structure KeyState where
  inLocal : Bool
  inRemote : Bool
  synced : Option Bool
  deriving DecidableEq

/-- The table that classifies every key from its membership in the local set, the
remote set and the baseline. -/
def change (d : Directions) (k : KeyState) : Option Change :=
  match k.inLocal, k.inRemote, k.synced with
  | true, true, _ | false, false, _ => none
  | true, false, none => if d.pushEnabled then some .pushAdd else none
  | false, true, none => if d.pullEnabled then some .addLocal else none
  | true, false, some synced => localOnly d synced
  | false, true, some synced => remoteOnly d synced

/-- The key after its planned change succeeded (`ok`) or failed. -/
def perform (d : Directions) (k : KeyState) (ok : Bool) : KeyState :=
  match change d k with
  | none => ⟨k.inLocal, k.inRemote, some k.inLocal⟩
  | some .addLocal => ⟨ok, true, some ok⟩
  | some .removeLocal => ⟨false, false, some false⟩
  | some .pushAdd => ⟨true, ok, some ok⟩
  | some .pushRemove => ⟨false, !ok, some !ok⟩

/-- Pull only, before any baseline: the one mode whose first plan leaves work. -/
def firstPull (d : Directions) (synced : Option Bool) : Bool :=
  d.pullEnabled && !d.pushEnabled && synced.isNone

/-- Every change is about a key that one side has and the other lacks. -/
theorem change_sides :
    ∀ d k c, change d k = some c →
      k.inLocal = decide (c = .removeLocal ∨ c = .pushAdd) ∧ k.inRemote = !k.inLocal := by
  rintro ⟨pull, push⟩ ⟨inLocal, inRemote, synced⟩
  revert pull push inLocal inRemote synced
  decide

theorem change_first :
    ∀ d k c, k.synced = none → change d k = some c → c = .addLocal ∨ c = .pushAdd := by
  rintro ⟨pull, push⟩ ⟨inLocal, inRemote, synced⟩
  revert pull push inLocal inRemote synced
  decide

theorem perform_synced :
    ∀ d k ok, ∃ synced, (perform d k ok).synced = some synced := by
  rintro ⟨pull, push⟩ ⟨inLocal, inRemote, synced⟩
  revert pull push inLocal inRemote synced
  decide

theorem perform_first :
    ∀ d k ok, k.synced = none → (perform d k ok).inLocal = false →
      (perform d k ok).synced = some false := by
  rintro ⟨pull, push⟩ ⟨inLocal, inRemote, synced⟩
  revert pull push inLocal inRemote synced
  decide

theorem perform_settles :
    ∀ d k, (d.pullEnabled || d.pushEnabled) → firstPull d k.synced = false →
      change d (perform d k true) = none := by
  rintro ⟨pull, push⟩ ⟨inLocal, inRemote, synced⟩
  revert pull push inLocal inRemote synced
  decide

theorem perform_firstPull :
    ∀ d k, firstPull d k.synced = true →
      change d (perform d k true) =
        if k.inLocal && !k.inRemote then some .removeLocal else none := by
  rintro ⟨pull, push⟩ ⟨inLocal, inRemote, synced⟩
  revert pull push inLocal inRemote synced
  decide

theorem perform_agrees :
    ∀ d k, d.pullEnabled → (d.pushEnabled || k.synced.isSome) →
      (perform d k true).inLocal = (perform d k true).inRemote := by
  rintro ⟨pull, push⟩ ⟨inLocal, inRemote, synced⟩
  revert pull push inLocal inRemote synced
  decide

/-- A failed change is planned again, whatever the mode. -/
theorem perform_retries :
    ∀ d k c, change d k = some c → c ≠ .removeLocal →
      change d (perform d k false) = some c := by
  rintro ⟨pull, push⟩ ⟨inLocal, inRemote, synced⟩
  revert pull push inLocal inRemote synced
  decide

theorem perform_no_new_removal :
    ∀ d k ok c, firstPull d k.synced = false → c = .removeLocal ∨ c = .pushRemove →
      change d (perform d k ok) = some c → change d k = some c := by
  rintro ⟨pull, push⟩ ⟨inLocal, inRemote, synced⟩
  revert pull push inLocal inRemote synced
  decide

theorem perform_firstPull_removal :
    ∀ d k ok c, firstPull d k.synced = true → c = .removeLocal ∨ c = .pushRemove →
      change d (perform d k ok) = some c →
        c = .removeLocal ∧ k.inLocal = true ∧ k.inRemote = false := by
  rintro ⟨pull, push⟩ ⟨inLocal, inRemote, synced⟩
  revert pull push inLocal inRemote synced
  decide

/-- A push that already reached Plex leaves the local side of the plan as it was. -/
theorem change_pushed :
    ∀ k r c, r = k.inRemote ∨ change ⟨true, true⟩ k = some .pushAdd ∨
        change ⟨true, true⟩ k = some .pushRemove →
      c = .addLocal ∨ c = .removeLocal →
      (change ⟨true, true⟩ { k with inRemote := r } = some c ↔
        change ⟨true, true⟩ k = some c) := by
  rintro ⟨inLocal, inRemote, synced⟩
  revert inLocal inRemote synced
  decide

theorem perform_pushed :
    ∀ k r, r = k.inRemote ∨ change ⟨true, true⟩ k = some .pushAdd ∨
        change ⟨true, true⟩ k = some .pushRemove →
      r = k.inRemote ∨ r = (perform ⟨true, true⟩ k true).inLocal := by
  rintro ⟨inLocal, inRemote, synced⟩
  revert inLocal inRemote synced
  decide

/-- With both directions a key is merged three ways. -/
theorem perform_merges :
    ∀ k, (perform ⟨true, true⟩ k true).inLocal =
      (k.inLocal && k.inRemote || (k.inLocal || k.inRemote) && !k.synced.getD false) := by
  rintro ⟨inLocal, inRemote, synced⟩
  revert inLocal inRemote synced
  decide

/-- For a key absent locally, an absent baseline and one without the key are alike. -/
theorem change_absent (d : Directions) (r : Bool) :
    change d ⟨false, r, none⟩ = change d ⟨false, r, some false⟩ := by
  obtain ⟨pull, push⟩ := d
  revert pull push r
  decide

end AnyList.Watchlist.KeyTable
