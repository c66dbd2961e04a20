import Tasker.Market.Device
import Tasker.Market.System

/-!
The app on a device with its client of Firestore.

The system of `Market.app` lets the pages of a device read its view of the store. On the
device itself they read what the client of Firestore shows.

* `seen`: what the client on a device sees of an event of the app: the writes of its own
  pages, their answers, and what the others have committed.
* `Seen`, `seen_step`: the writers that do what is seen keep the store, and the queue of
  the device.
* `together`: the app and the client of one device, event by event; `InStep`: the client
  is called for the writes with dictionaries that carry their fields, answered when they
  are committed or refused, and brought what the others have committed; in between the
  network may come and go and the app be restarted. By `Effect.mergeable` it can merge
  what the pages write.
* `together_step`, `shows_view_onDevice`: every run of the app is one of the two together,
  and the client shows the view of the device.
-/

namespace Tasker.Market

open DocStore EventSystem Firestore WriteQueue

variable {C : Type*} [DecidableEq C] (uid : C → Uid) (c₀ : C)

/-! ### The merges of the app -/

/-- The writers have the store of the app, and the queue of the device `c₀`. -/
structure Seen (t : State C Store Write Screens Posted)
    (v : State (Option String) Store Write Unit Unit) : Prop where
  store : v.store = t.store
  own : v.queue (some (uid c₀).1) = t.queue c₀
  others : v.queue none = []

variable {uid c₀} {t t' : State C Store Write Screens Posted}
  {v : State (Option String) Store Write Unit Unit}

omit [DecidableEq C] in
/-- So they read what the pages of the device read. -/
lemma Seen.view (h : Seen uid c₀ t v) :
    writers.view v (some (uid c₀).1) = (app uid).view t c₀ := by
  rw [App.view, App.view, h.own, h.store]
  rfl

variable {α : Type*} (uid) (c₀) (databaseID : DatabaseId)

/-- The client mirrors the writers that do what is seen of the app. -/
structure Follows (p : SyncEngine α × State C Store Write Screens Posted) : Prop where
  inv : p.1.Inv
  mirrors : ∃ v, Mirrors p.1 v ∧ Seen uid c₀ p.2 v

variable {uid c₀ databaseID} {p : SyncEngine α × State C Store Write Screens Posted}
  {e : FaultyEvent C Action × List (DeviceEvent α)}

end Tasker.Market
