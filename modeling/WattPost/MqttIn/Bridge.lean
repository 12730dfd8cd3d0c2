import WattPost.Export.Mqtt
import WattPost.Lib.RetainedTopics
import WattPost.MqttIn.DiscoveryContract

/-! One installation exports its readings over a broker and another reads them in by discovery.
Both may lose the broker at any point and come back, and others publish on it as well. -/
namespace WattPost.MqttIn

open PyDict
open RetainedTopics (Subscriber State Reading heard)
open WattPost.Cloud (Json Fields)
open WattPost.Export.Mqtt (MqttExporter Out Body PollResult)
open WattPost.Export.Mqtt.MqttExporter (Announced objectId isNumber isScalar)

/-! ### The reading side -/

/-- The payload of a message: its text, and what `json.loads` makes of it. -/
structure Packet where
  message : Message
  config : Option Json

/-- A topic filter, level by level. -/
def matchesFilter : List String → List String → Bool
  | [], [] => true
  | p :: ps, t :: ts => p = "#" || ((p = "+" || p = t) && matchesFilter ps ts)
  | p :: _, [] => p = "#"
  | [], _ :: _ => false

/-- `_ha_config_topic` and `_ha_config_topic_with_node`. -/
def haConfigTopics (cfg : DiscoveryCfg) : List String :=
  [cfg.haDiscoveryPrefix ++ "/+/+/config", cfg.haDiscoveryPrefix ++ "/+/+/+/config"]

def listensTo (cfg : DiscoveryCfg) (topic : String) : Bool :=
  cfg.haDiscovery && (haConfigTopics cfg).any fun f =>
    matchesFilter (PyText.split f '/') (PyText.split topic '/')

def published (r : Reading String Packet ℚ) : Published where
  topic := r.message.1
  message := r.message.2.message
  config := r.message.2.config
  now := r.moment

/-- `MqttInService` as a subscriber: it subscribes to its routes when it connects, and to those
of the discovery again behind every config. -/
def subscriber (host : PyHost) (cfg : DiscoveryCfg) : Subscriber String Packet Service ℚ where
  listens := listensTo cfg
  renews := isConfigTopic cfg
  receive now s topic p := receive host cfg s ⟨topic, p.message, p.config, now⟩
  wants s := (manualRoutes cfg).keys ++ s.haRoutes.keys
  again s := s.haRoutes.keys

/-! ### The publishing side -/

/-- An exporter and its connection: what it has announced, what it has still to publish, and the
result that it is about. -/
structure Exporting where
  connected : Bool
  announced : Announced
  outbox : List Out
  last : Option PollResult

structure Bridge where
  exporter : Exporting
  link : State String Packet ℚ

/-- The two installations, and what `json.loads` makes of the exporter's payloads as plain
values. -/
structure Setup where
  out : MqttExporter
  into : DiscoveryCfg
  host : PyHost
  loads : Json → Option Payload

namespace Setup

variable (u : Setup)

def packet : Body → Packet
  | .word s => ⟨⟨s, none⟩, none⟩
  | .json j => ⟨⟨WattPost.Cloud.JsonText.dumps j, u.loads j⟩, some j⟩

/-- Where a reading arrives. -/
def route (label metric : String) : Route where
  label := slug (u.out.identifier label) "mqtt_device"
  metric := slug (objectId label metric) "value"
  valueKind := "raw"
  path := ""

/-- Others leave the topics of the exporter alone, and announce nothing on them and nothing that
arrives where its readings do. -/
def Foreign (U : String → String → Prop) (topic : String) (p : Packet) : Prop :=
  ∀ label metric, U label metric →
    topic ≠ u.out.topic label metric ∧ topic ≠ u.out.configTopic label metric ∧
      ∀ stateTopic route, announcement u.host ⟨topic, p.message, p.config, 0⟩ =
          some (stateTopic, route) →
        stateTopic ≠ u.out.topic label metric ∧
          (route.label, route.metric) ≠
            ((u.route label metric).label, (u.route label metric).metric)

/-- What the exporter publishes about the pairs `U`. -/
inductive Ours (U : String → String → Prop) : String → Body → Prop where
  | status (s : String) : Ours U u.out.statusTopic (.word s)
  | snapshot {label : String} (j : Json) (hLabel : '/' ∉ label.toList) :
      Ours U (u.out.topic label "state") (.json j)
  | value {label metric : String} {v : Json} (hPair : U label metric)
      (hScalar : isScalar v = true) : Ours U (u.out.topic label metric) (.json v)
  | config {label metric : String} (data : Dict Json) (hPair : U label metric) :
      Ours U (u.out.configTopic label metric) (.json (u.out.config label metric data))

def Allowed (U : String → String → Prop) (topic : String) (p : Packet) : Prop :=
  u.Foreign U topic p ∨ ∃ body, Ours u U topic body ∧ p = u.packet body

/-- The result is about the pairs `U`. -/
def Within (U : String → String → Prop) (r : PollResult) : Prop :=
  ∀ e ∈ r.devices.entries, '/' ∉ e.1.toList ∧ ∀ kv ∈ e.2.entries,
    WattPost.Export.Mqtt.metaKeys.contains kv.1 = false → isScalar kv.2 = true → U e.1 kv.1

def reader : Subscriber String Packet Service ℚ := subscriber u.host u.into

/-- One step of the two installations and their broker, which tells everyone when the exporter
is gone. -/
inductive Step (U : String → String → Prop) : Bridge → Bridge → Prop where
  | exporterConnects (b : Bridge) (hOff : b.exporter.connected = false) :
      Step U b { b with exporter := ⟨true, [], [⟨u.out.statusTopic, .word "online", true⟩], none⟩ }
  | exporterTakes (b : Bridge) (r : PollResult) (hWithin : Within U r)
      (hOn : b.exporter.connected = true) (hIdle : b.exporter.outbox = []) :
      Step U b { b with exporter := ⟨true, (u.out.publishResult r b.exporter.announced).2,
        (u.out.publishResult r b.exporter.announced).1, some r⟩ }
  | exporterPublishes (b : Bridge) (o : Out) (rest : List Out)
      (hOutbox : b.exporter.outbox = o :: rest) :
      Step U b
        ⟨{ b.exporter with outbox := rest }, b.link.publish u.reader o.topic (u.packet o.body)⟩
  | exporterDrops (b : Bridge) :
      Step U b ⟨⟨false, [], [], none⟩,
        b.link.publish u.reader u.out.statusTopic (u.packet (.word "offline"))⟩
  | othersPublish (b : Bridge) (topic : String) (p : Packet) (hForeign : u.Foreign U topic p) :
      Step U b { b with link := b.link.publish u.reader topic p }
  | reads (b : Bridge) (link : State String Packet ℚ)
      (hLink : RetainedTopics.Step u.reader (.initial u.into) (fun _ _ => False) b.link link) :
      Step U b { b with link := link }

/-- Nothing was published yet, and nobody has connected. -/
def start : Bridge := ⟨⟨false, [], [], none⟩, ⟨fun _ => none, none, []⟩⟩

inductive Reachable (U : String → String → Prop) : Bridge → Prop where
  | start : Reachable U start
  | step {b b' : Bridge} : Reachable U b → Setup.Step u U b b' → Reachable U b'

/-- The settings and names under which the two sides can agree. The exporter retains its
messages, publishes every metric on a topic of its own and announces it; the reading side
follows the announcements, under the same prefix. No node, label or metric has a slash and no
metric is called "state"; no topic of a pair is one of the configs; two pairs do not arrive under
one slug, as "bank 1" and "bank-1" would; and the manual mappings of the reading side have other
topics and keys. -/
structure Clear (U : String → String → Prop) : Prop where
  retain : u.out.retain = true
  perMetric : u.out.publishPerMetric = true
  announces : u.out.haDiscovery = true
  listens : u.into.haDiscovery = true
  samePrefix : u.into.haDiscoveryPrefix = u.out.haDiscoveryPrefix
  node : '/' ∉ u.out.haNodeId.toList
  label : ∀ label metric, U label metric → '/' ∉ label.toList
  metric : ∀ label metric, U label metric → '/' ∉ metric.toList ∧ metric ≠ "state"
  noConfig : ∀ label metric, U label metric →
    isConfigTopic u.into (u.out.topic label metric) = false ∧
      listensTo u.into (u.out.topic label metric) = false
  distinct : ∀ label metric label' metric', U label metric → U label' metric' →
    (u.route label metric).metric = (u.route label' metric').metric →
      label = label' ∧ metric = metric'
  manual : ∀ topic route, (manualRoutes u.into).get topic = some route →
    ∀ label metric, U label metric → topic ≠ u.out.topic label metric ∧
      (route.label, route.metric) ≠ ((u.route label metric).label, (u.route label metric).metric)

end Setup

end WattPost.MqttIn
