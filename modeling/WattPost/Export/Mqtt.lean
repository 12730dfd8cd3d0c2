import WattPost.Cloud.JsonText
import WattPost.Lib.PyDict

/-! The MQTT exporter: the messages that it publishes for a poll result. Every device has a
snapshot, every number and text of a device a topic of its own, and Home Assistant is told of
each number once a connection. -/
namespace WattPost.Export.Mqtt

open PyDict
open WattPost.Cloud (Json Fields)

/-- What `MqttExporter.__init__` keeps and publishing reads. -/
structure MqttExporter where
  topicPrefix : String
  retain : Bool
  publishPerMetric : Bool
  haDiscovery : Bool
  haDiscoveryPrefix : String
  haNodeId : String

/-- The prefixes lose the slashes at their end. -/
def MqttExporter.init (topicPrefix : String) (retain publishPerMetric haDiscovery : Bool)
    (haDiscoveryPrefix haNodeId : String) : MqttExporter where
  topicPrefix := PyText.rstrip topicPrefix '/'
  retain := retain
  publishPerMetric := publishPerMetric
  haDiscovery := haDiscovery
  haDiscoveryPrefix := PyText.rstrip haDiscoveryPrefix '/'
  haNodeId := haNodeId

/-! ### Home Assistant -/

def metaKeys : List String := ["_vendor", "_kind", "_label", "_slave_id", "_errors"]

def haDeviceMeta : List String := ["model", "serial", "firmware_version", "device_id"]

def sensorMeta (deviceClass unit stateClass : String) : List (String × String) :=
  [("device_class", deviceClass), ("unit_of_measurement", unit), ("state_class", stateClass)]

/-- `_ha_sensor_meta`. -/
def haSensorMeta (metric : String) : List (String × String) :=
  let m := PyText.lower metric
  if m = "soc_pct" then sensorMeta "battery" "%" "measurement"
  else if PyText.endsWith m "_v" then sensorMeta "voltage" "V" "measurement"
  else if PyText.endsWith m "_a" then sensorMeta "current" "A" "measurement"
  else if PyText.endsWith m "_w" then sensorMeta "power" "W" "measurement"
  else if PyText.endsWith m "_c" then sensorMeta "temperature" "°C" "measurement"
  else if PyText.endsWith m "_pct" then
    [("unit_of_measurement", "%"), ("state_class", "measurement")]
  else if PyText.endsWith m "_ah" then
    [("unit_of_measurement", "Ah"), ("state_class", "measurement")]
  else if PyText.endsWith m "_wh" then sensorMeta "energy" "Wh" "total_increasing"
  else if PyText.endsWith m "_hz" then sensorMeta "frequency" "Hz" "measurement"
  else if PyText.endsWith m "_count" then [("state_class", "measurement")]
  else []

def unitSuffixes : List String := ["v", "a", "w", "c", "ah", "wh", "pct", "hz"]

/-- `str.title`: a letter behind a letter is small, every other one a capital. -/
def titleChars (behindLetter : Bool) : List Char → List Char
  | [] => []
  | c :: cs => (if behindLetter then c.toLower else c.toUpper) :: titleChars c.isAlpha cs

def title (s : String) : String := String.ofList (titleChars false s.toList)

/-- `_ha_name`. -/
def haName (metric : String) : String :=
  let parts := PyText.split metric '_'
  let named := if (parts.getLast?.map PyText.lower).any unitSuffixes.contains
    then parts.dropLast else parts
  if named = [] then title (PyText.replaceChar metric '_' ' ')
  else title (String.intercalate " " named)

/-! ### Messages -/

/-- What is published: a word, or a value as JSON. -/
inductive Body where
  | word (s : String)
  | json (j : Json)
deriving DecidableEq

structure Out where
  topic : String
  body : Body
  retain : Bool
deriving DecidableEq

namespace MqttExporter

variable (x : MqttExporter)

def statusTopic : String := x.topicPrefix ++ "/_status"

/-- `<prefix>/<label>/<name>`. -/
def topic (label name : String) : String := x.topicPrefix ++ "/" ++ label ++ "/" ++ name

def objectId (label metric : String) : String := label ++ "_" ++ metric

def configTopic (label metric : String) : String :=
  x.haDiscoveryPrefix ++ "/sensor/" ++ x.haNodeId ++ "/" ++ objectId label metric ++ "/config"

def identifier (label : String) : String := x.haNodeId ++ "_" ++ label

/-- `if isinstance(v, str) and v: device_block[name] = v`. -/
def aboutField (data : Dict Json) (key name : String) : Fields :=
  match data.get key with
  | some (.str s) => if s = "" then [] else [(name, .str s)]
  | _ => []

/-- The `device` block. -/
def deviceBlock (label : String) (data : Dict Json) : Fields :=
  [("identifiers", .arr [.str (x.identifier label)]),
    ("name", .str (title (PyText.replaceChar label '_' ' '))),
    ("manufacturer", .str "WattPost")] ++
  aboutField data "model" "model" ++ aboutField data "serial" "serial_number" ++
  aboutField data "firmware_version" "sw_version"

/-- The fields of a config, in front of `**_ha_sensor_meta(metric)` and with it. -/
def ownFields (label metric : String) (data : Dict Json) : Fields :=
  [("name", .str (haName metric)), ("state_topic", .str (x.topic label metric)),
    ("unique_id", .str (x.haNodeId ++ "_" ++ label ++ "_" ++ metric)),
    ("object_id", .str (objectId label metric)),
    ("value_template", .str "\x7b\x7b value \x7d\x7d"),
    ("availability_topic", .str x.statusTopic), ("payload_available", .str "online"),
    ("payload_not_available", .str "offline"),
    ("device", .obj (x.deviceBlock label data))]

def configFields (label metric : String) (data : Dict Json) : Fields :=
  x.ownFields label metric data ++ (haSensorMeta metric).map fun field => (field.1, .str field.2)

def config (label metric : String) (data : Dict Json) : Json :=
  .obj (x.configFields label metric data)

/-- The pairs whose config was published since the connection began. -/
abbrev Announced := List (String × String)

/-- `_publish_ha_discovery`. -/
def publishHaDiscovery (label metric : String) (data : Dict Json) (announced : Announced) :
    List Out × Announced :=
  if (label, metric) ∈ announced then ([], announced)
  else
    ([⟨x.configTopic label metric, .json (x.config label metric data), true⟩],
      (label, metric) :: announced)

/-- `isinstance(v, (int, float))` of what is no bool. -/
def isNumber : Json → Bool
  | .int _ | .float _ => true
  | _ => false

/-- What has a topic of its own: a number or a text. -/
def isScalar : Json → Bool
  | .str _ => true
  | v => isNumber v

/-- Home Assistant is told of a number that does not identify the device. -/
def tell (label : String) (data : Dict Json) (k : String) (v : Json) (announced : Announced) :
    List Out × Announced :=
  if x.haDiscovery && isNumber v && !haDeviceMeta.contains k then
    x.publishHaDiscovery label k data announced
  else ([], announced)

/-- The loop over the values of a device. -/
def publishMetrics (label : String) (data : Dict Json) :
    List (String × Json) → Announced → List Out × Announced
  | [], announced => ([], announced)
  | (k, v) :: rest, announced =>
      if metaKeys.contains k || !isScalar v then publishMetrics label data rest announced
      else
        let told := x.tell label data k v announced
        let others := publishMetrics label data rest told.2
        (⟨x.topic label k, .json v, x.retain⟩ :: (told.1 ++ others.1), others.2)

/-- One turn of the loop over the devices. -/
def publishDevice (timestamp : Json) (label : String) (data : Dict Json) (announced : Announced) :
    List Out × Announced :=
  if data.entries.isEmpty then ([], announced)
  else
    let snapshot : Out :=
      ⟨x.topic label "state", .json (.obj (data.set "_ts" timestamp).entries), x.retain⟩
    if !x.publishPerMetric then ([snapshot], announced)
    else
      let metrics := x.publishMetrics label data data.entries announced
      (snapshot :: metrics.1, metrics.2)

def publishDevices (timestamp : Json) :
    List (String × Dict Json) → Announced → List Out × Announced
  | [], announced => ([], announced)
  | (label, data) :: rest, announced =>
      let device := x.publishDevice timestamp label data announced
      let others := publishDevices timestamp rest device.2
      (device.1 ++ others.1, others.2)

end MqttExporter

/-- A poll result. -/
structure PollResult where
  timestamp : Json
  devices : Dict (Dict Json)

/-- `_publish_result`. -/
def MqttExporter.publishResult (x : MqttExporter) (result : PollResult)
    (announced : MqttExporter.Announced) : List Out × MqttExporter.Announced :=
  x.publishDevices result.timestamp result.devices.entries announced

/-! ### What a result publishes -/

namespace MqttExporter

variable {x : MqttExporter}

/-- A message about a device. -/
inductive DeviceOut (x : MqttExporter) (label : String) (data : Dict Json) : Out → Prop where
  | snapshot (j : Json) : DeviceOut x label data ⟨x.topic label "state", .json j, x.retain⟩
  | value {k : String} {v : Json} (hMem : (k, v) ∈ data.entries)
      (hMeta : metaKeys.contains k = false) (hScalar : isScalar v = true) :
      DeviceOut x label data ⟨x.topic label k, .json v, x.retain⟩
  | config {k : String} {v : Json} (hMem : (k, v) ∈ data.entries)
      (hMeta : metaKeys.contains k = false) (hNumber : isNumber v = true) :
      DeviceOut x label data ⟨x.configTopic label k, .json (x.config label k data), true⟩

/-- Whether Home Assistant is told of a value. -/
def discovered (k : String) (v : Json) : Bool :=
  !metaKeys.contains k && isNumber v && !haDeviceMeta.contains k

theorem isScalar_of_isNumber {v : Json} (h : isNumber v = true) : isScalar v = true := by
  cases v <;> first | rfl | cases h

/-- The config of a metric. -/
def configOut (x : MqttExporter) (label k : String) (data : Dict Json) : Out :=
  ⟨x.configTopic label k, .json (x.config label k data), true⟩

/-- What telling of one value does. -/
structure Told (x : MqttExporter) (label : String) (data : Dict Json) (k : String) (v : Json)
    (announced : Announced) (done : List Out × Announced) : Prop where
  about : ∀ o ∈ done.1, o = x.configOut label k data ∧ isNumber v = true
  told : x.haDiscovery = true → discovered k v = true → (label, k) ∈ done.2
  kept : announced ⊆ done.2
  fresh : ∀ pair ∈ done.2,
    pair ∈ announced ∨ (pair = (label, k) ∧ x.configOut label k data ∈ done.1)

theorem told_tell (label : String) (data : Dict Json) (k : String) (v : Json)
    (announced : Announced) :
    Told x label data k v announced (x.tell label data k v announced) := by
  unfold tell
  split
  case isTrue hTold =>
    rw [Bool.and_eq_true, Bool.and_eq_true] at hTold
    unfold publishHaDiscovery
    split
    case isTrue hOld =>
      refine ⟨?_, fun _ _ => hOld, List.Subset.refl _, fun _ h => Or.inl h⟩
      intro o ho
      cases ho
    case isFalse =>
      refine ⟨?_, fun _ _ => List.mem_cons_self, List.subset_cons_self _ _, ?_⟩
      · intro o ho
        exact ⟨List.mem_singleton.mp ho, hTold.1.2⟩
      · intro pair hPair
        rcases List.mem_cons.mp hPair with rfl | hOld
        · exact Or.inr ⟨rfl, List.mem_singleton.mpr rfl⟩
        · exact Or.inl hOld
  case isFalse hSilent =>
    refine ⟨?_, ?_, List.Subset.refl _, fun _ h => Or.inl h⟩
    · intro o ho
      cases ho
    · intro hOn hDiscovered
      unfold discovered at hDiscovered
      simp only [Bool.and_eq_true] at hDiscovered hSilent
      exact absurd ⟨⟨hOn, hDiscovered.1.2⟩, hDiscovered.2⟩ hSilent

/-- The pair is a number of the device, and its config is among the messages. -/
def Announces (x : MqttExporter) (label : String) (data : Dict Json) (pair : String × String)
    (outs : List Out) : Prop :=
  pair.1 = label ∧ x.configOut label pair.2 data ∈ outs ∧
    ∃ v, (pair.2, v) ∈ data.entries ∧ metaKeys.contains pair.2 = false ∧ isNumber v = true

theorem Announces.mono {x : MqttExporter} {label : String} {data : Dict Json}
    {pair : String × String} {outs outs' : List Out} (h : Announces x label data pair outs)
    (hSub : outs ⊆ outs') : Announces x label data pair outs' := ⟨h.1, hSub h.2.1, h.2.2⟩

/-- What a loop over values has published. -/
structure MetricsDone (x : MqttExporter) (label : String) (data : Dict Json)
    (entries : List (String × Json)) (announced : Announced) (done : List Out × Announced) :
    Prop where
  about : ∀ o ∈ done.1, DeviceOut x label data o
  value : ∀ e ∈ entries, metaKeys.contains e.1 = false → isScalar e.2 = true →
    ⟨x.topic label e.1, .json e.2, x.retain⟩ ∈ done.1
  told : x.haDiscovery = true → ∀ e ∈ entries, discovered e.1 e.2 = true → (label, e.1) ∈ done.2
  kept : announced ⊆ done.2
  fresh : ∀ pair ∈ done.2, pair ∈ announced ∨ Announces x label data pair done.1

section Metrics

variable {label : String} {data : Dict Json} {k : String} {v : Json}
  {rest : List (String × Json)} {announced : Announced} {done : List Out × Announced}

theorem metricsDone_nil : MetricsDone x label data [] announced ([], announced) where
  about _ h := by cases h
  value _ h := by cases h
  told _ _ h := by cases h
  kept := List.Subset.refl _
  fresh _ h := Or.inl h

/-- A value that has no topic changes nothing. -/
theorem MetricsDone.skip (h : MetricsDone x label data rest announced done)
    (hSkipped : metaKeys.contains k = true ∨ isScalar v = false) :
    MetricsDone x label data ((k, v) :: rest) announced done where
  about := h.about
  value := by
    intro e he hMeta hScalar
    rcases List.mem_cons.mp he with rfl | hOld
    · rcases hSkipped with hMeta' | hScalar'
      · exact absurd (hMeta.symm.trans hMeta') (by decide)
      · exact absurd (hScalar.symm.trans hScalar') (by decide)
    · exact h.value e hOld hMeta hScalar
  told := by
    intro hOn e he hDiscovered
    rcases List.mem_cons.mp he with rfl | hOld
    · unfold discovered at hDiscovered
      rw [Bool.and_eq_true, Bool.and_eq_true, Bool.not_eq_true'] at hDiscovered
      rcases hSkipped with hMeta' | hScalar'
      · exact absurd (hDiscovered.1.1.symm.trans hMeta') (by decide)
      · exact absurd ((isScalar_of_isNumber hDiscovered.1.2).symm.trans hScalar') (by decide)
    · exact h.told hOn e hOld hDiscovered
  kept := h.kept
  fresh := h.fresh

theorem MetricsDone.cons {told : List Out × Announced}
    (hTold : Told x label data k v announced told)
    (h : MetricsDone x label data rest told.2 done) (hMem : (k, v) ∈ data.entries)
    (hMeta : metaKeys.contains k = false) (hScalar : isScalar v = true) :
    MetricsDone x label data ((k, v) :: rest) announced
      (⟨x.topic label k, .json v, x.retain⟩ :: (told.1 ++ done.1), done.2) where
  about := by
    intro o ho
    rcases List.mem_cons.mp ho with rfl | ho
    · exact .value hMem hMeta hScalar
    · rcases List.mem_append.mp ho with hConfig | hLater
      · obtain ⟨rfl, hNumber⟩ := hTold.about o hConfig
        exact .config hMem hMeta hNumber
      · exact h.about o hLater
  value := by
    intro e he hMeta' hScalar'
    rcases List.mem_cons.mp he with rfl | hOld
    · exact List.mem_cons_self
    · exact List.mem_cons_of_mem _ (List.mem_append_right _ (h.value e hOld hMeta' hScalar'))
  told := by
    intro hOn e he hDiscovered
    rcases List.mem_cons.mp he with rfl | hOld
    · exact h.kept (hTold.told hOn hDiscovered)
    · exact h.told hOn e hOld hDiscovered
  kept := fun _ hPair => h.kept (hTold.kept hPair)
  fresh := by
    intro pair hPair
    rcases h.fresh pair hPair with hOld | hLater
    · rcases hTold.fresh pair hOld with hBefore | ⟨rfl, hNew⟩
      · exact Or.inl hBefore
      · exact Or.inr ⟨rfl, List.mem_cons_of_mem _ (List.mem_append_left _ hNew),
          v, hMem, hMeta, (hTold.about _ hNew).2⟩
    · exact Or.inr (hLater.mono fun _ ho =>
        List.mem_cons_of_mem _ (List.mem_append_right _ ho))

theorem metricsDone_publishMetrics {entries : List (String × Json)}
    (hEntries : ∀ e ∈ entries, e ∈ data.entries) (announced : Announced) :
    MetricsDone x label data entries announced
      (x.publishMetrics label data entries announced) := by
  induction entries generalizing announced with
  | nil => exact metricsDone_nil
  | cons e rest ih =>
      obtain ⟨k, v⟩ := e
      have hRest : ∀ e ∈ rest, e ∈ data.entries := fun e he =>
        hEntries e (List.mem_cons_of_mem _ he)
      unfold publishMetrics
      split
      case isTrue hSkipped =>
        rw [Bool.or_eq_true, Bool.not_eq_true'] at hSkipped
        exact (ih hRest announced).skip hSkipped
      case isFalse hTaken =>
        rw [Bool.or_eq_true, not_or, Bool.not_eq_true, Bool.not_eq_true', Bool.not_eq_false]
          at hTaken
        exact .cons (told_tell label data k v announced) (ih hRest _)
          (hEntries _ List.mem_cons_self) hTaken.1 hTaken.2

end Metrics

/-- What a loop over the devices has published. -/
structure DevicesDone (x : MqttExporter) (entries : List (String × Dict Json))
    (announced : Announced) (done : List Out × Announced) : Prop where
  about : ∀ o ∈ done.1, ∃ e ∈ entries, DeviceOut x e.1 e.2 o
  value : x.publishPerMetric = true → ∀ e ∈ entries, ∀ kv ∈ e.2.entries,
    metaKeys.contains kv.1 = false → isScalar kv.2 = true →
      ⟨x.topic e.1 kv.1, .json kv.2, x.retain⟩ ∈ done.1
  told : x.publishPerMetric = true → x.haDiscovery = true → ∀ e ∈ entries,
    ∀ kv ∈ e.2.entries, discovered kv.1 kv.2 = true → (e.1, kv.1) ∈ done.2
  kept : announced ⊆ done.2
  fresh : ∀ pair ∈ done.2,
    pair ∈ announced ∨ ∃ e ∈ entries, Announces x e.1 e.2 pair done.1

theorem devicesDone_publishDevice (timestamp : Json) (label : String) (data : Dict Json)
    (announced : Announced) :
    DevicesDone x [(label, data)] announced
      (x.publishDevice timestamp label data announced) := by
  unfold publishDevice
  split
  case isTrue hEmpty =>
    have hNone : ∀ e ∈ [(label, data)], ∀ kv, kv ∉ e.2.entries := by
      intro e he kv hkv
      rw [List.mem_singleton.mp he, List.isEmpty_iff.mp hEmpty] at hkv
      cases hkv
    refine ⟨?_, ?_, ?_, List.Subset.refl _, fun _ h => Or.inl h⟩
    · intro o ho
      cases ho
    · intro _ e he kv hkv
      exact absurd hkv (hNone e he kv)
    · intro _ _ e he kv hkv
      exact absurd hkv (hNone e he kv)
  case isFalse =>
    dsimp only
    split
    case isTrue hOff =>
      rw [Bool.not_eq_true'] at hOff
      refine ⟨?_, ?_, ?_, List.Subset.refl _, fun _ h => Or.inl h⟩
      · intro o ho
        rw [List.mem_singleton.mp ho]
        exact ⟨_, List.mem_singleton.mpr rfl, .snapshot _⟩
      · intro hOn
        exact absurd (hOn.symm.trans hOff) (by decide)
      · intro hOn
        exact absurd (hOn.symm.trans hOff) (by decide)
    case isFalse =>
      have hDone : MetricsDone x label data data.entries announced _ :=
        metricsDone_publishMetrics (fun e he => he) announced
      refine ⟨?_, ?_, ?_, hDone.kept, ?_⟩
      · intro o ho
        refine ⟨_, List.mem_singleton.mpr rfl, ?_⟩
        rcases List.mem_cons.mp ho with rfl | hMetric
        · exact .snapshot _
        · exact hDone.about o hMetric
      · intro _ e he kv hkv hMeta hScalar
        rw [List.mem_singleton.mp he] at hkv ⊢
        exact List.mem_cons_of_mem _ (hDone.value kv hkv hMeta hScalar)
      · intro _ hOn e he kv hkv hDiscovered
        rw [List.mem_singleton.mp he] at hkv ⊢
        exact hDone.told hOn kv hkv hDiscovered
      · intro pair hPair
        refine (hDone.fresh pair hPair).imp id fun hNew => ?_
        exact ⟨_, List.mem_singleton.mpr rfl, hNew.mono (List.subset_cons_self _ _)⟩

theorem devicesDone_publishDevices (timestamp : Json) (entries : List (String × Dict Json))
    (announced : Announced) :
    DevicesDone x entries announced (x.publishDevices timestamp entries announced) := by
  induction entries generalizing announced with
  | nil =>
      refine ⟨?_, ?_, ?_, List.Subset.refl _, fun _ h => Or.inl h⟩
      · intro o ho
        cases ho
      · intro _ e he
        cases he
      · intro _ _ e he
        cases he
  | cons e rest ih =>
      obtain ⟨label, data⟩ := e
      have hFirst := devicesDone_publishDevice (x := x) timestamp label data announced
      have hRest := ih (x.publishDevice timestamp label data announced).2
      refine ⟨?_, ?_, ?_, fun _ h => hRest.kept (hFirst.kept h), ?_⟩
      · intro o ho
        rcases List.mem_append.mp ho with hHere | hLater
        · obtain ⟨e, he, hAbout⟩ := hFirst.about o hHere
          rw [List.mem_singleton.mp he] at hAbout
          exact ⟨_, List.mem_cons_self, hAbout⟩
        · obtain ⟨e, he, hAbout⟩ := hRest.about o hLater
          exact ⟨e, List.mem_cons_of_mem _ he, hAbout⟩
      · intro hOn e he kv hkv hMeta hScalar
        rcases List.mem_cons.mp he with rfl | hOld
        · exact List.mem_append_left _
            (hFirst.value hOn _ (List.mem_singleton.mpr rfl) kv hkv hMeta hScalar)
        · exact List.mem_append_right _ (hRest.value hOn e hOld kv hkv hMeta hScalar)
      · intro hOn hTells e he kv hkv hDiscovered
        rcases List.mem_cons.mp he with rfl | hOld
        · exact hRest.kept
            (hFirst.told hOn hTells _ (List.mem_singleton.mpr rfl) kv hkv hDiscovered)
        · exact hRest.told hOn hTells e hOld kv hkv hDiscovered
      · intro pair hPair
        rcases hRest.fresh pair hPair with hOld | ⟨e, he, hLater⟩
        · rcases hFirst.fresh pair hOld with hBefore | ⟨e, he, hHere⟩
          · exact Or.inl hBefore
          · rw [List.mem_singleton.mp he] at hHere
            exact Or.inr ⟨_, List.mem_cons_self, hHere.mono (List.subset_append_left _ _)⟩
        · exact Or.inr ⟨e, List.mem_cons_of_mem _ he, hLater.mono (List.subset_append_right _ _)⟩

end MqttExporter

end WattPost.Export.Mqtt
