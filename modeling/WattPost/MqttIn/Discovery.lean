import WattPost.Cloud.Json
import WattPost.MqttIn.Service

/-! Home Assistant discovery: config messages name the entities and the topics of their values,
and every other message is routed by its topic. -/
namespace WattPost.MqttIn

open PyDict
open WattPost.Cloud (Json Fields)

/-- `MqttInTopicCfg`. -/
structure TopicCfg where
  topic : String
  label : String
  metric : String
  vendor : String
  kind : String
  valueType : String
  jsonPath : String

/-- What routing reads of `MqttInCfg`. -/
structure DiscoveryCfg where
  haDiscovery : Bool
  haDiscoveryPrefix : String
  topics : List TopicCfg

/-- What the code takes from Python: the characters of `\w`, and `str` of a JSON value that is
no string. -/
structure PyHost where
  isWord : Char → Bool
  render : Json → String

def PyHost.str (host : PyHost) : Json → String
  | .str s => s
  | v => host.render v

/-- `a or b`. -/
def pyOr (a b : Option Json) : Option Json := if Json.truthy a then a else b

/-! ### Value templates -/

def skipSpace (cs : List Char) : List Char := cs.dropWhile PyText.isSpace

/-- What stands behind `p`. -/
def after (p cs : List Char) : Option (List Char) :=
  if p.isPrefixOf cs then some (cs.drop p.length) else none

/-- One `.word` or `["word"]`. -/
def segment (isWord : Char → Bool) : List Char → Option (List Char × List Char)
  | '.' :: rest =>
      match rest.takeWhile isWord with
      | [] => none
      | word => some (word, rest.dropWhile isWord)
  | '[' :: quote :: rest =>
      if quote = '\'' ∨ quote = '"' then
        match rest.takeWhile isWord, rest.dropWhile isWord with
        | [], _ => none
        | word, close :: ']' :: behind =>
            if close = '\'' ∨ close = '"' then some (word, behind) else none
        | _, _ => none
      else none
  | _ => none

/-- As many of them as there are, at most `n`. -/
def segments (isWord : Char → Bool) : Nat → List Char → List (List Char) × List Char
  | 0, cs => ([], cs)
  | n + 1, cs =>
      match segment isWord cs with
      | none => ([], cs)
      | some (word, rest) =>
          let (words, behind) := segments isWord n rest
          (word :: words, behind)

/-- Two closing braces, and nothing but blanks behind them. -/
def closes (cs : List Char) : Bool :=
  (after ['\x7d', '\x7d'] (skipSpace cs)).any fun behind => behind.all PyText.isSpace

/-- What stands behind the opening braces and `name`. -/
def opens (name : String) (cs : List Char) : Option (List Char) :=
  (after ['\x7b', '\x7b'] (skipSpace cs)).bind fun behind => after name.toList (skipSpace behind)

/-- How a template is taken: `re.match` raises on one that is no string. -/
inductive Template where
  | raises
  | unsupported
  | supported (valueKind path : String)
deriving DecidableEq

/-- `_VALUE_JSON_DOT`, and the path of its segments. -/
def jsonPath (host : PyHost) (cs : List Char) : Option String :=
  (opens "value_json" cs).bind fun behind =>
    match segments host.isWord behind.length behind with
    | ([], _) => none
    | (words, rest) =>
        if closes rest then some (String.intercalate "." (words.map String.ofList)) else none

/-- `_parse_value_template`. -/
def parseValueTemplate (host : PyHost) (tmpl : Option Json) : Template :=
  if !Json.truthy tmpl then .supported "raw" ""
  else
    match tmpl with
    | some (.str s) =>
        if (opens "value" s.toList).any closes then .supported "raw" ""
        else
          match jsonPath host s.toList with
          | some path => .supported "json" path
          | none => .unsupported
    | _ => .raises

/-! ### Labels and metrics -/

def isSlugChar (c : Char) : Bool := c.isAlphanum || c = '_'

/-- `re.sub(r"[^a-zA-Z0-9_]+", "_", s)`; `inRun` says that the run has its `_` already. -/
def slugChars (inRun : Bool) : List Char → List Char
  | [] => []
  | c :: cs =>
      if isSlugChar c then c :: slugChars false cs
      else if inRun then slugChars true cs
      else '_' :: slugChars true cs

/-- The same with `.strip("_") or default`. -/
def slug (s default : String) : String :=
  let chars := PyText.rstripBy (· == '_') ((slugChars false s.toList).dropWhile (· == '_'))
  if chars = [] then default else String.ofList chars

/-- `dev = cfg.get("device") or {}`; the code raises on one that is no dictionary. -/
def deviceFields (fields : Fields) : Option Fields :=
  let dev := Json.get? fields "device"
  if Json.truthy dev then
    match dev with
    | some (.obj fields) => some fields
    | _ => none
  else some []

/-- What the label is made of; `re.sub` raises on what is no string. -/
def labelSeed (host : PyHost) (topic : String) (fields dev : Fields) : Option String :=
  match Json.get? dev "identifiers" with
  | some (.arr (first :: _)) => some (host.str first)
  | _ =>
      let name := Json.get? dev "name"
      if Json.truthy name then name.map host.str
      else Json.strValue (pyOr (pyOr (Json.get? fields "unique_id") (Json.get? fields "object_id"))
        (some (.str topic)))

def metricSeed (host : PyHost) (fields : Fields) : String :=
  (pyOr (Json.get? fields "object_id") (Json.get? fields "name")).elim "value" fun seed =>
    if Json.truthy (some seed) then host.str seed else "value"

/-- What a usable config says of its entity. -/
structure Entity where
  stateTopic : String
  route : Route
  about : List (String × String)

/-- The display fields of a device that its block fills. -/
def aboutDevice (host : PyHost) (dev : Fields) : List (String × String) :=
  [("model", "model"), ("manufacturer", "manufacturer"),
    ("firmware_version", "sw_version")].filterMap fun field =>
    (Json.get? dev field.2).bind fun v =>
      if Json.truthy (some v) then some (field.1, host.str v) else none

/-- The entity of a config that is not empty; `none` where `_handle_ha_config` returns early or
raises, which it does before it changes anything. -/
def entityOf (host : PyHost) (topic : String) (config : Option Json) : Option Entity :=
  match config with
  | some (.obj fields) =>
      match pyOr (Json.get? fields "state_topic") (Json.get? fields "stat_t") with
      | some (.str stateTopic) =>
          if stateTopic = "" then none
          else
            match parseValueTemplate host
                (pyOr (Json.get? fields "value_template") (Json.get? fields "val_tpl")) with
            | .supported valueKind path =>
                (deviceFields fields).bind fun dev =>
                  (labelSeed host topic fields dev).map fun seed =>
                    { stateTopic := stateTopic
                      route :=
                        { label := slug seed "mqtt_device"
                          metric := slug (metricSeed host fields) "value"
                          valueKind := valueKind
                          path := path }
                      about := aboutDevice host dev }
            | _ => none
      | _ => none
  | _ => none

/-! ### The service -/

/-- A message as it arrives: its payload as a value and as a config, and the clock. -/
structure Published where
  topic : String
  message : Message
  config : Option Json
  now : ℚ

/-- The route table of the discovery, and the devices. -/
structure Service where
  haRoutes : Dict Route
  devices : Dict Device

def deviceRow (vendor kind label : String) : Device where
  snapshot := Dict.ofList
    [("_vendor", .text (.utf8 vendor)), ("_kind", .text (.utf8 kind)),
      ("_label", .text (.utf8 label)), ("_slave_id", .none)]
  lastAt := 0

/-- The route of `_add_manual_route`. -/
def manualRoute (t : TopicCfg) : Route :=
  let valueKind := if t.valueType = "scalar" ∨ t.valueType = "json" then t.valueType else "scalar"
  { label := t.label
    metric := t.metric
    valueKind := valueKind
    path := if valueKind = "json" then t.jsonPath else "" }

def manualRoutes (cfg : DiscoveryCfg) : Dict Route :=
  Dict.ofList (cfg.topics.map fun t => (t.topic, manualRoute t))

/-- `__init__`. -/
def Service.initial (cfg : DiscoveryCfg) : Service where
  haRoutes := Dict.empty
  devices := cfg.topics.foldl
    (fun devices t => devices.setDefault t.label (deviceRow t.vendor t.kind t.label)) Dict.empty

/-- The end of `_handle_ha_config`: the route, the row and what is known of the device. -/
def Service.register (s : Service) (e : Entity) : Service :=
  let row := (s.devices.get e.route.label).getD (deviceRow "mqtt" "ha_entity" e.route.label)
  let snapshot := e.about.foldl
    (fun snapshot field => snapshot.setDefault field.1 (.text (.utf8 field.2))) row.snapshot
  { haRoutes := s.haRoutes.set e.stateTopic e.route
    devices := s.devices.set e.route.label { row with snapshot := snapshot } }

/-- `_handle_ha_config`. An empty payload takes away the routes whose label is the topic. -/
def handleHaConfig (host : PyHost) (s : Service) (msg : Published) : Service :=
  if msg.message.text = "" then
    { s with haRoutes := s.haRoutes.filter fun stateTopic =>
        (s.haRoutes.get stateTopic).all fun route => route.label != msg.topic }
  else
    match entityOf host msg.topic msg.config with
    | none => s
    | some e => s.register e

/-- Whether `_run` takes a message for a config. -/
def isConfigTopic (cfg : DiscoveryCfg) (topic : String) : Bool :=
  cfg.haDiscovery && PyText.startsWith topic (cfg.haDiscoveryPrefix ++ "/") &&
    PyText.endsWith topic "/config"

/-- One message in the loop of `_run`. -/
def receive (host : PyHost) (cfg : DiscoveryCfg) (s : Service) (msg : Published) : Service :=
  if isConfigTopic cfg msg.topic then handleHaConfig host s msg
  else
    match (s.haRoutes.get msg.topic).or ((manualRoutes cfg).get msg.topic) with
    | none => s
    | some route =>
        { s with devices := handleStateMessage s.devices route msg.message msg.now }

/-- The messages of a connection, or of several one after the other. -/
def receiveAll (host : PyHost) (cfg : DiscoveryCfg) (s : Service) (msgs : List Published) :
    Service := msgs.foldl (receive host cfg) s

end WattPost.MqttIn
