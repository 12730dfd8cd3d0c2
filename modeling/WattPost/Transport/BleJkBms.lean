import WattPost.Lib.FrameStream
import WattPost.Lib.StampedCache
import WattPost.Vendors.Base

/-! The JK stream: a frame goes from one header to the next, in either byte order. -/
namespace WattPost.BleJkBms

open FrameStream StampedCache
open Vendors (Bytes)

def jkFrameHeader : Bytes := [0x55, 0xaa, 0xeb, 0x90]

def jkFrameHeaderAlt : Bytes := [0xaa, 0x55, 0x90, 0xeb]

def completeFrameMin : Nat := 200

def completeFrameMax : Nat := 320

def staleAfterSeconds : ℚ := 60

/-- Where the first header of either kind stands, from a place on. -/
def findHeader (buf : Bytes) (start : Nat) : Option Nat :=
  match find jkFrameHeader (buf.drop start), find jkFrameHeaderAlt (buf.drop start) with
  | some i, some j => some (start + min i j)
  | some i, none => some (start + i)
  | none, some j => some (start + j)
  | none, none => none

theorem findHeader_ge {buf : Bytes} {start i : Nat} (h : findHeader buf start = some i) :
    start ≤ i := by
  unfold findHeader at h
  split at h
  case h_4 => cases h
  all_goals
    obtain rfl := Option.some.inj h
    exact Nat.le_add_right _ _

/-- The loop of `_on_notify`: the frames, by type, and what is left in the buffer. -/
def split (buf : Bytes) : List (UInt8 × Bytes) × Bytes :=
  if buf.length < completeFrameMin then ([], buf)
  else
    match _hNext : findHeader buf 4 with
    | none => ([], if buf.length > completeFrameMax * 2 then [] else buf)
    | some next =>
        let rest := split (buf.drop next)
        if (buf.take next).length < 6 then rest
        else (((buf.take next).getD 4 0, buf.take next) :: rest.1, rest.2)
termination_by buf.length
decreasing_by
  have hGe := findHeader_ge (by assumption)
  simp only [List.length_drop, completeFrameMin] at *
  omega

/-- `_on_notify` on the buffer. -/
def scan (buf data : Bytes) : List (UInt8 × Bytes) × Bytes :=
  if data.isEmpty then ([], buf)
  else
    match findHeader (buf ++ data) 0 with
    | none => ([], if (buf ++ data).length > 1024 then [] else buf ++ data)
    | some start => split ((buf ++ data).drop start)

/-- The transport: its buffer, and the latest frames by type with their one time. -/
abbrev BleJkBmsTransport := Link UInt8 UInt8 Bytes

/-- `_on_notify`. -/
def onNotify (s : BleJkBmsTransport) (notification : ℚ × Bytes) : BleJkBmsTransport :=
  s.notify scan notification

/-- `get_latest_frame`. -/
def getLatestFrame (now : ℚ) (s : BleJkBmsTransport) (frameType : UInt8) : Option Bytes :=
  s.cache.get staleAfterSeconds now frameType

end WattPost.BleJkBms
