import WattPost.Lib.FrameStream
import WattPost.Lib.StampedCache
import WattPost.Vendors.Shunts

/-! The Junctek stream: lines of text, each of which tells some fields. -/
namespace WattPost.BleJunctek

open FrameStream StampedCache
open Vendors (Bytes)
open PyDict (PyVal)
open Vendors.Junctek (parseResponse)

def staleAfterSeconds : ℚ := 60

/-- `bytes.decode("ascii", errors="ignore")`. -/
def decodeAscii (bytes : Bytes) : String :=
  String.ofList ((bytes.filter (· < 0x80)).map fun b => Char.ofNat b.toNat)

/-- The loop of `_on_notify`: the fields of the whole lines, and what is left in the
buffer. -/
def lines (buf : Bytes) : List (String × PyVal) × Bytes :=
  match _hNewline : find [0x0a] buf with
  | none => ([], buf)
  | some nl =>
      let rest := lines (buf.drop (nl + 1))
      ((parseResponse (decodeAscii (buf.take nl))).getD [] ++ rest.1, rest.2)
termination_by buf.length
decreasing_by
  have hLength := (find_some (by assumption)).1.length_le
  simp only [List.length_drop, List.length_singleton] at *
  omega

/-- `_on_notify` on the buffer. -/
def scan (buf data : Bytes) : List (String × PyVal) × Bytes := lines (buf ++ data)

/-- The transport: its buffer, and the latest fields with their one time. -/
abbrev BleJunctekTransport := Link UInt8 String PyVal

/-- `_on_notify`. -/
def onNotify (s : BleJunctekTransport) (notification : ℚ × Bytes) : BleJunctekTransport :=
  s.notify scan notification

/-- A field of `get_latest`, if there is one. -/
def getLatest (now : ℚ) (s : BleJunctekTransport) (field : String) : Option PyVal :=
  s.cache.get staleAfterSeconds now field

end WattPost.BleJunctek
