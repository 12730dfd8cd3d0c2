import WattPost.Transport.BleDaly
import WattPost.Transport.BleJbd
import WattPost.Transport.BleJkBms
import WattPost.Transport.BleJunctek

/-! The four transports that cache several kinds of readings under one time. A read of one
kind is as fresh as the link, not as fresh as the kind. -/
namespace WattPost.FreshReadings

open StampedCache
open Vendors (Bytes)

/-- The transports after some notifications. -/
def jkReceived (notifications : List (ℚ × Bytes)) : BleJkBms.BleJkBmsTransport :=
  Runs.run BleJkBms.onNotify .empty notifications

def junctekReceived (notifications : List (ℚ × Bytes)) : BleJunctek.BleJunctekTransport :=
  Runs.run BleJunctek.onNotify .empty notifications

def dalyReceived (notifications : List (ℚ × Bytes)) : BleDaly.BleDalyTransport :=
  Runs.run BleDaly.onNotify ⟨.empty, []⟩ notifications

/-- The cells of a Daly link have no part in its cache. -/
theorem link_dalyReceived (notifications : List (ℚ × Bytes)) :
    (dalyReceived notifications).link = Link.after BleDaly.scan notifications := by
  induction notifications using List.reverseRecOn with
  | nil => rfl
  | append_singleton notifications last ih =>
      rw [dalyReceived, Runs.run_concat, Link.after, Runs.run_concat, BleDaly.onNotify]
      exact congrArg (Link.notify BleDaly.scan · last) ih

section Kinds

variable {κ ν : Type} [DecidableEq κ] (scan : Bytes → Bytes → List (κ × ν) × Bytes)

/-- What a read of one kind tells, on any of the links. -/
theorem link_get_fresh_iff (limit now : ℚ) (notifications : List (ℚ × Bytes)) (kind : κ) :
    ((((Link.after scan notifications).cache.get limit now kind).isSome = true →
        Fresh limit now (log scan notifications) kind)) ↔
      ¬Outlived limit now (log scan notifications) kind := by
  rw [cache_after]
  exact get_fresh_iff limit now (log scan notifications) kind

end Kinds

/-- A read gives a value only of a kind that was decoded at most a minute ago, exactly when
no other kind has kept the link young beyond that. -/
theorem cached_fresh_iff (notifications : List (ℚ × Bytes)) (now : ℚ) :
    (∀ command : UInt8,
      ((BleJbd.getLatestFrame now (BleJbd.received notifications) command).isSome = true →
          Fresh 60 now (log BleJbd.scan notifications) command) ↔
        ¬Outlived 60 now (log BleJbd.scan notifications) command) ∧
    (∀ command : UInt8,
      ((BleDaly.getLatestFrame now (dalyReceived notifications) command).isSome = true →
          Fresh 60 now (log BleDaly.scan notifications) command) ↔
        ¬Outlived 60 now (log BleDaly.scan notifications) command) ∧
    (∀ frameType : UInt8,
      ((BleJkBms.getLatestFrame now (jkReceived notifications) frameType).isSome = true →
          Fresh 60 now (log BleJkBms.scan notifications) frameType) ↔
        ¬Outlived 60 now (log BleJkBms.scan notifications) frameType) ∧
    ∀ field : String,
      ((BleJunctek.getLatest now (junctekReceived notifications) field).isSome = true →
          Fresh 60 now (log BleJunctek.scan notifications) field) ↔
        ¬Outlived 60 now (log BleJunctek.scan notifications) field := by
  refine ⟨link_get_fresh_iff BleJbd.scan 60 now notifications, fun command => ?_,
    link_get_fresh_iff BleJkBms.scan 60 now notifications,
    link_get_fresh_iff BleJunctek.scan 60 now notifications⟩
  rw [BleDaly.getLatestFrame, link_dalyReceived]
  exact link_get_fresh_iff BleDaly.scan 60 now notifications command

/-- The cells are not answered any more, and the basic data are. -/
def cellsStop : List (ℚ × Bytes) := [(0, BleJbd.cellInfo.frame), (100, BleJbd.basicInfo.frame)]

/-- The cells of 100 seconds ago are still given out. -/
theorem cells_outlive :
    BleJbd.getLatestFrame 100 (BleJbd.received cellsStop) 0x04 = some BleJbd.cellInfo.payload ∧
      ¬Fresh 60 100 (log BleJbd.scan cellsStop) 0x04 := by
  decide +kernel

end WattPost.FreshReadings
