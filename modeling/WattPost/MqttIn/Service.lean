import WattPost.Lib.PyFloat

/-! `MqttInService`: messages from a broker become the metrics of virtual devices,
which the scheduler merges into each poll. A route says where a topic's value goes
and how it is taken from the payload. -/
namespace WattPost.MqttIn

open PyDict

/-- What `json.loads` makes of a payload; it also takes `NaN` and `Infinity`. The
text of a list or of a dictionary is what `str` makes of it. -/
inductive Payload where
  | null
  | bool (b : Bool)
  | int (n : Int)
  | float (x : PyFloat)
  | str (s : PyStr)
  | list (text : String)
  | dict (text : String) (fields : List (String × Payload))

/-- A message: its text, and the parsed text when it is JSON. -/
structure Message where
  text : String
  parsed : Option Payload

/-- A segment of the path; of equal names in a dictionary the last one counts. -/
def Payload.segment (payload : Payload) (seg : String) : Option Payload :=
  match payload with
  | .dict _ fields => (fields.reverse.find? fun x => x.1 = seg).map Prod.snd
  | _ => none

/-- The loop of `_extract_json_path`: empty segments are skipped. -/
def walkPath : Payload → List String → Option Payload
  | payload, [] => some payload
  | payload, seg :: segs =>
      if seg = "" then walkPath payload segs
      else (payload.segment seg).bind fun inner => walkPath inner segs

/-- `_extract_json_path`. -/
def extractJsonPath (message : Message) (dotted : String) : Option Payload :=
  message.parsed.bind fun payload => walkPath payload (PyText.split dotted '.')

/-- `_coerce_value` of a text. What is no number passes through. -/
def coerceText : PyStr → Option PyScalar
  | .surrogates => some (.text .surrogates)
  | .utf8 raw =>
      let s := PyText.strip raw
      if s = "" then none
      else if PyText.contains s "." || PyText.contains (PyText.lower s) "e" then
        some ((PyFloat.ofText s).elim (.text (.utf8 s)) .float)
      else some ((PyText.toInt s).elim (.text (.utf8 s)) .int)

/-- `_coerce_value`; a number passes through as it is. -/
def coerceValue : Option Payload → Option PyScalar
  | none | some .null => none
  | some (.bool b) => some (.bool b)
  | some (.int n) => some (.int n)
  | some (.float x) => some (.float x)
  | some (.str s) => coerceText s
  | some (.list text) => coerceText (.utf8 text)
  | some (.dict text _) => coerceText (.utf8 text)

/-- `(label, metric, value_kind, path)`. -/
structure Route where
  label : String
  metric : String
  valueKind : String
  path : String

/-- A virtual device. -/
structure Device where
  snapshot : Dict PyScalar
  lastAt : ℚ

/-- The device of a label before its first message. -/
def newDevice (label : String) : Device where
  snapshot := Dict.ofList
    [("_vendor", .text (.utf8 "mqtt")), ("_kind", .text (.utf8 "sensor")),
      ("_label", .text (.utf8 label)), ("_slave_id", .none)]
  lastAt := 0

/-- `_handle_state_message`. -/
def handleStateMessage (devices : Dict Device) (route : Route) (message : Message) (now : ℚ) :
    Dict Device :=
  let raw :=
    if route.valueKind = "json" then extractJsonPath message route.path
    else if message.text = "" then none
    else some (.str (.utf8 message.text))
  match coerceValue raw with
  | none => devices
  | some value =>
      let device := (devices.get route.label).getD (newDevice route.label)
      devices.set route.label ⟨device.snapshot.set route.metric value, now⟩

/-- `current_snapshots`: devices that were not heard of for a while drop out. -/
def currentSnapshots (devices : Dict Device) (staleAfterSeconds now : ℚ) :
    Dict (Dict PyScalar) :=
  (devices.filter fun label => decide (∃ device ∈ devices.get label,
    now - max 1 staleAfterSeconds ≤ device.lastAt)).map Device.snapshot

theorem coerceText_ne_nan (s : PyStr) : coerceText s ≠ some (.float .nan) := by
  intro h
  unfold coerceText at h
  split at h
  · cases h
  · dsimp only at h
    split_ifs at h
    · cases hFloat : PyFloat.ofText (PyText.strip _) with
      | none =>
          rw [hFloat] at h
          cases h
      | some x =>
          rw [hFloat] at h
          cases h
          exact PyFloat.ofText_ne_nan _ hFloat
    · cases hInt : PyText.toInt (PyText.strip _) with
      | none =>
          rw [hInt] at h
          cases h
      | some n =>
          rw [hInt] at h
          cases h

/-- A `nan` comes from a number of a JSON payload, and from nowhere else. -/
theorem coerceValue_nan_iff (raw : Option Payload) :
    coerceValue raw = some (.float .nan) ↔ raw = some (.float .nan) := by
  constructor
  · intro h
    unfold coerceValue at h
    split at h
    · cases h
    · cases h
    · cases h
    · cases h
    · cases h
      rfl
    · exact absurd h (coerceText_ne_nan _)
    · exact absurd h (coerceText_ne_nan _)
    · exact absurd h (coerceText_ne_nan _)
  · rintro rfl
    rfl

end WattPost.MqttIn
