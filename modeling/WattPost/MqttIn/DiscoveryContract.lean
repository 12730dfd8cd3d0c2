import WattPost.MqttIn.Discovery

/-! What Home Assistant's discovery promises about the messages so far, and when the service
keeps it. A topic has one route, that of the last config that named it, so that an entity which
shares its topic is lost; and deleting an entity deletes no route. -/
namespace WattPost.MqttIn

open PyDict
open WattPost.Cloud (Json)

variable {host : PyHost} {cfg : DiscoveryCfg}

/-! ### The entities of a history -/

/-- The last config on a topic. -/
def latest (cfg : DiscoveryCfg) (history : List Published) (topic : String) : Option Published :=
  history.foldl (fun found msg =>
    if isConfigTopic cfg msg.topic ∧ msg.topic = topic then some msg else found) none

/-- The entity that a config message announces: its topic and where its values go. -/
def announcement (host : PyHost) (msg : Published) : Option (String × Route) :=
  if msg.message.text = "" then none
  else (entityOf host msg.topic msg.config).map fun e => (e.stateTopic, e.route)

/-- What the latest config of an entity announces. -/
def live (host : PyHost) (cfg : DiscoveryCfg) (history : List Published) (topic : String) :
    Option (String × Route) := (latest cfg history topic).bind (announcement host)

/-- The latest config of the entity is empty. -/
def Withdrawn (cfg : DiscoveryCfg) (history : List Published) (topic : String) : Prop :=
  ∃ msg, latest cfg history topic = some msg ∧ msg.message.text = ""

/-- Some config of the entity sent its values there. -/
def Had (host : PyHost) (cfg : DiscoveryCfg) (history : List Published) (topic : String)
    (label metric : String) : Prop :=
  ∃ msg ∈ history, isConfigTopic cfg msg.topic = true ∧ msg.topic = topic ∧
    ∃ stateTopic route, announcement host msg = some (stateTopic, route) ∧
      route.label = label ∧ route.metric = metric

/-- A live entity or a manual mapping sends the values of a state topic there. -/
def Owned (host : PyHost) (cfg : DiscoveryCfg) (history : List Published)
    (stateTopic label metric : String) : Prop :=
  (∃ topic route, live host cfg history topic = some (stateTopic, route) ∧
      route.label = label ∧ route.metric = metric) ∨
    ∃ route, (manualRoutes cfg).get stateTopic = some route ∧
      route.label = label ∧ route.metric = metric

/-- The value that a route takes from a message. -/
def extracted (route : Route) (message : Message) : Option PyScalar :=
  coerceValue (if route.valueKind = "json" then extractJsonPath message route.path
    else if message.text = "" then none
    else some (.str (.utf8 message.text)))

def Service.value (s : Service) (label metric : String) : Option PyScalar :=
  (s.devices.get label).bind fun device => device.snapshot.get metric

/-- A state message between two states: every live entity of its topic has its value, and
nothing reaches an entity that was withdrawn. -/
structure Follows (host : PyHost) (cfg : DiscoveryCfg) (history : List Published)
    (msg : Published) (s s' : Service) : Prop where
  updated : ∀ topic route value, live host cfg history topic = some (msg.topic, route) →
    extracted route msg.message = some value → s'.value route.label route.metric = some value
  silent : ∀ topic label metric, Withdrawn cfg history topic →
    Had host cfg history topic label metric →
    ¬ Owned host cfg history msg.topic label metric →
    s'.value label metric = s.value label metric

/-- The service follows the contract at every state message of a run. -/
def FollowsRun (host : PyHost) (cfg : DiscoveryCfg) (run : List Published) : Prop :=
  ∀ before msg rest, run = before ++ msg :: rest → isConfigTopic cfg msg.topic = false →
    Follows host cfg before msg (receiveAll host cfg (.initial cfg) before)
      (receiveAll host cfg (.initial cfg) (before ++ [msg]))

/-! ### The condition -/

/-- The route of the last usable config that named a state topic. -/
def lastNamed (host : PyHost) (cfg : DiscoveryCfg) (history : List Published)
    (stateTopic : String) : Option Route :=
  history.foldl (fun found msg =>
    if isConfigTopic cfg msg.topic then
      match announcement host msg with
      | some (named, route) => if named = stateTopic then some route else found
      | none => found
    else found) none

/-- Every live entity of the topic that takes a value from the message agrees with the last
config that named the topic; and what that config takes from it goes to no entity that was
withdrawn, unless it is a live one's too. -/
def Sound (host : PyHost) (cfg : DiscoveryCfg) (history : List Published) (msg : Published) :
    Prop :=
  ∀ route, lastNamed host cfg history msg.topic = some route →
    (∀ topic other, live host cfg history topic = some (msg.topic, other) →
      extracted other msg.message ≠ none → other = route) ∧
    (extracted route msg.message ≠ none →
      Owned host cfg history msg.topic route.label route.metric ∨
        ∀ topic, Withdrawn cfg history topic →
          ¬ Had host cfg history topic route.label route.metric)

def SoundRun (host : PyHost) (cfg : DiscoveryCfg) (run : List Published) : Prop :=
  ∀ before msg rest, run = before ++ msg :: rest → isConfigTopic cfg msg.topic = false →
    Sound host cfg before msg

/-! ### One message -/

theorem handleStateMessage_eq (devices : Dict Device) (route : Route) (message : Message)
    (now : ℚ) :
    handleStateMessage devices route message now =
      match extracted route message with
      | none => devices
      | some value =>
          devices.set route.label
            ⟨((devices.get route.label).getD (newDevice route.label)).snapshot.set route.metric value,
              now⟩ := rfl

/-- A state message changes one value of a device that has its row, and only to what its route
takes from it. -/
theorem value_handleStateMessage {s : Service} {route : Route} {device : Device}
    (hRow : s.devices.get route.label = some device) (message : Message) (now : ℚ)
    (label metric : String) :
    Service.value { s with devices := handleStateMessage s.devices route message now } label
        metric =
      if label = route.label ∧ metric = route.metric then
        (extracted route message).or (s.value label metric)
      else s.value label metric := by
  rw [Service.value, Service.value, handleStateMessage_eq]
  cases hValue : extracted route message with
  | none => simp
  | some value =>
      dsimp only
      rw [hRow, Option.getD_some, Dict.get_set]
      by_cases hLabel : label = route.label
      · subst hLabel
        rw [if_pos rfl, hRow, Option.bind_some, Option.bind_some, Dict.get_set]
        by_cases hMetric : metric = route.metric
        · simp [hMetric]
        · simp [hMetric]
      · simp [hLabel]

theorem isSlugChar_slugChars (inRun : Bool) (cs : List Char) :
    ∀ c ∈ slugChars inRun cs, isSlugChar c = true := by
  induction cs generalizing inRun with
  | nil => exact fun _ h => by cases h
  | cons c cs ih =>
      rw [slugChars]
      split_ifs with hSlug hRun
      · exact List.forall_mem_cons.mpr ⟨hSlug, ih false⟩
      · exact ih true
      · exact List.forall_mem_cons.mpr ⟨by decide, ih true⟩

/-- A label has no slash. -/
theorem slash_notMem_slug (s : String) {default : String} (hDefault : '/' ∉ default.toList) :
    '/' ∉ (slug s default).toList := by
  unfold slug
  dsimp only
  split_ifs with hEmpty
  · exact hDefault
  · rw [String.toList_ofList]
    intro hMem
    have hSlug : '/' ∈ slugChars false s.toList := by
      have hDrop := List.mem_reverse.mp
        ((List.dropWhile_suffix _).subset (List.mem_reverse.mp hMem))
      exact (List.dropWhile_suffix _).subset hDrop
    exact absurd (isSlugChar_slugChars false s.toList _ hSlug) (by decide)

theorem slash_mem_topic {topic : String} (h : isConfigTopic cfg topic = true) :
    '/' ∈ topic.toList := by
  unfold isConfigTopic at h
  rw [Bool.and_eq_true, Bool.and_eq_true] at h
  have hStart := List.isPrefixOf_iff_prefix.mp h.1.2
  refine hStart.subset ?_
  rw [String.toList_append]
  exact List.mem_append_right _ (by decide)

theorem slash_notMem_label {msg : Published} {stateTopic : String} {route : Route}
    (h : announcement host msg = some (stateTopic, route)) : '/' ∉ route.label.toList := by
  unfold announcement at h
  split_ifs at h
  obtain ⟨e, hEntity, hPair⟩ := Option.map_eq_some_iff.mp h
  cases hPair
  unfold entityOf at hEntity
  split at hEntity
  · split at hEntity
    · split_ifs at hEntity
      split at hEntity
      · obtain ⟨dev, _, hSeed⟩ := Option.bind_eq_some_iff.mp hEntity
        obtain ⟨seed, _, rfl⟩ := Option.map_eq_some_iff.mp hSeed
        exact slash_notMem_slug seed (by decide)
      · cases hEntity
    · cases hEntity
  · cases hEntity

/-! ### The messages so far -/

theorem lastNamed_concat (history : List Published) (msg : Published) (stateTopic : String) :
    lastNamed host cfg (history ++ [msg]) stateTopic =
      if isConfigTopic cfg msg.topic then
        match announcement host msg with
        | some (named, route) =>
            if named = stateTopic then some route else lastNamed host cfg history stateTopic
        | none => lastNamed host cfg history stateTopic
      else lastNamed host cfg history stateTopic := by
  rw [lastNamed, List.foldl_concat]
  rfl

theorem latest_concat (history : List Published) (msg : Published) (topic : String) :
    latest cfg (history ++ [msg]) topic =
      if isConfigTopic cfg msg.topic ∧ msg.topic = topic then some msg
      else latest cfg history topic := by
  rw [latest, List.foldl_concat]
  rfl

/-- The last route of a topic was announced. -/
theorem lastNamed_label {history : List Published} {stateTopic : String} {route : Route}
    (h : lastNamed host cfg history stateTopic = some route) : '/' ∉ route.label.toList := by
  induction history using List.reverseRecOn with
  | nil => cases h
  | append_singleton history msg ih =>
      rw [lastNamed_concat] at h
      split_ifs at h with hConfig
      · cases hAnnounced : announcement host msg with
        | none =>
            rw [hAnnounced] at h
            exact ih h
        | some named =>
            rw [hAnnounced] at h
            dsimp only at h
            split_ifs at h with hNamed
            · cases h
              exact slash_notMem_label hAnnounced
            · exact ih h
      · exact ih h

/-- A topic that a live entity names has a last route. -/
theorem lastNamed_of_live {history : List Published} {topic stateTopic : String} {route : Route}
    (h : live host cfg history topic = some (stateTopic, route)) :
    ∃ last, lastNamed host cfg history stateTopic = some last := by
  induction history using List.reverseRecOn with
  | nil => cases h
  | append_singleton history msg ih =>
      rw [live, latest_concat] at h
      rw [lastNamed_concat]
      by_cases hLatest : isConfigTopic cfg msg.topic = true ∧ msg.topic = topic
      · rw [if_pos hLatest, Option.bind_some] at h
        rw [if_pos hLatest.1, h]
        exact ⟨route, if_pos rfl⟩
      · rw [if_neg hLatest] at h
        obtain ⟨last, hLast⟩ := ih h
        split_ifs
        · cases hAnnounced : announcement host msg with
          | none => exact ⟨last, hLast⟩
          | some named =>
              dsimp only
              split_ifs
              · exact ⟨_, rfl⟩
              · exact ⟨last, hLast⟩
        · exact ⟨last, hLast⟩

/-- What holds of the service after every history. -/
structure Inv (host : PyHost) (cfg : DiscoveryCfg) (history : List Published) (s : Service) :
    Prop where
  routes : ∀ stateTopic, s.haRoutes.get stateTopic = lastNamed host cfg history stateTopic
  haRows : ∀ stateTopic route, s.haRoutes.get stateTopic = some route →
    ∃ device, s.devices.get route.label = some device
  manualRows : ∀ stateTopic route, (manualRoutes cfg).get stateTopic = some route →
    ∃ device, s.devices.get route.label = some device

theorem get_setAll_mem {α : Type} {xs : List (String × α)} {d : Dict α} {k : String} {v : α}
    (h : (d.setAll xs).get k = some v) : (k, v) ∈ xs ∨ d.get k = some v := by
  induction xs generalizing d with
  | nil => exact Or.inr h
  | cons e xs ih =>
      rcases ih (d := d.set e.1 e.2) h with hMem | hGet
      · exact Or.inl (List.mem_cons_of_mem _ hMem)
      · rw [Dict.get_set] at hGet
        split_ifs at hGet with hKey
        · cases hGet
          exact Or.inl (hKey ▸ List.mem_cons_self)
        · exact Or.inr hGet

theorem setDefault_keeps {α : Type} {d : Dict α} {k : String} (h : ∃ v, d.get k = some v)
    (k' : String) (v' : α) : ∃ v, (d.setDefault k' v').get k = some v := by
  obtain ⟨v, hGet⟩ := h
  by_cases hKey : k = k'
  · subst hKey
    rw [Dict.setDefault, hGet]
    exact ⟨v, hGet⟩
  · rw [Dict.get_setDefault_of_ne hKey]
    exact ⟨v, hGet⟩

/-- Every manual mapping has its row from the start. -/
theorem initial_row {topics : List TopicCfg} {d : Dict Device} {label : String}
    (h : (∃ t ∈ topics, t.label = label) ∨ ∃ device, d.get label = some device) :
    ∃ device, (topics.foldl (fun devices t =>
      devices.setDefault t.label (deviceRow t.vendor t.kind t.label)) d).get label =
        some device := by
  induction topics generalizing d with
  | nil =>
      rcases h with ⟨t, hMem, _⟩ | hRow
      · cases hMem
      · exact hRow
  | cons t topics ih =>
      rw [List.foldl_cons]
      refine ih ?_
      rcases h with ⟨t', hMem, hLabel⟩ | hRow
      · rcases List.mem_cons.mp hMem with rfl | hMem
        · right
          rw [← hLabel, Dict.get_setDefault_self]
          cases d.get t'.label <;> exact ⟨_, rfl⟩
        · exact Or.inl ⟨t', hMem, hLabel⟩
      · exact Or.inr (setDefault_keeps hRow _ _)

theorem inv_initial : Inv host cfg [] (.initial cfg) where
  routes _ := rfl
  haRows _ _ h := by cases h
  manualRows stateTopic route h := by
    rcases get_setAll_mem h with hMem | hGet
    · obtain ⟨t, hTopic, hPair⟩ := List.mem_map.mp hMem
      cases hPair
      exact initial_row (Or.inl ⟨t, hTopic, rfl⟩)
    · cases hGet

/-- Rows stay. -/
theorem row_handleStateMessage {devices : Dict Device} {label : String}
    (h : ∃ device, devices.get label = some device) (route : Route) (message : Message) (now : ℚ) :
    ∃ device, (handleStateMessage devices route message now).get label = some device := by
  rw [handleStateMessage_eq]
  cases extracted route message with
  | none => exact h
  | some value =>
      dsimp only
      rw [Dict.get_set]
      split_ifs
      · exact ⟨_, rfl⟩
      · exact h

theorem row_register {s : Service} {label : String}
    (h : ∃ device, s.devices.get label = some device) (e : Entity) :
    ∃ device, (s.register e).devices.get label = some device := by
  unfold Service.register
  dsimp only
  rw [Dict.get_set]
  split_ifs
  · exact ⟨_, rfl⟩
  · exact h

/-- An empty config takes no route away: a label is never a topic. -/
theorem Inv.get_withdraw {history : List Published} {s : Service} (h : Inv host cfg history s)
    {msg : Published} (hConfig : isConfigTopic cfg msg.topic = true) (stateTopic : String) :
    (s.haRoutes.filter fun stateTopic =>
      (s.haRoutes.get stateTopic).all fun route => route.label != msg.topic).get stateTopic =
        s.haRoutes.get stateTopic := by
  rw [Dict.get_filter]
  refine ite_eq_left_iff.mpr fun hDropped => ?_
  cases hGet : s.haRoutes.get stateTopic with
  | none => rfl
  | some route =>
      rw [h.routes] at hGet
      have hNe : route.label ≠ msg.topic := by
        intro hEq
        exact lastNamed_label hGet (hEq ▸ slash_mem_topic hConfig)
      rw [h.routes, hGet] at hDropped
      exact absurd (by simpa using hNe) hDropped

theorem Inv.step {history : List Published} {s : Service} (h : Inv host cfg history s)
    (msg : Published) : Inv host cfg (history ++ [msg]) (receive host cfg s msg) := by
  unfold receive
  by_cases hConfig : isConfigTopic cfg msg.topic = true
  · rw [if_pos hConfig]
    unfold handleHaConfig
    by_cases hEmpty : msg.message.text = ""
    · rw [if_pos hEmpty]
      have hNone : announcement host msg = none := if_pos hEmpty
      constructor
      · intro stateTopic
        rw [lastNamed_concat, if_pos hConfig, hNone]
        exact (h.get_withdraw hConfig stateTopic).trans (h.routes stateTopic)
      · intro stateTopic route hGet
        exact h.haRows stateTopic route ((h.get_withdraw hConfig stateTopic).symm.trans hGet)
      · exact h.manualRows
    · rw [if_neg hEmpty]
      cases hEntity : entityOf host msg.topic msg.config with
      | none =>
          have hNone : announcement host msg = none := by
            rw [announcement, if_neg hEmpty, hEntity]
            rfl
          refine ⟨fun stateTopic => ?_, h.haRows, h.manualRows⟩
          rw [lastNamed_concat, if_pos hConfig, hNone]
          exact h.routes stateTopic
      | some e =>
          have hSome : announcement host msg = some (e.stateTopic, e.route) := by
            rw [announcement, if_neg hEmpty, hEntity]
            rfl
          constructor
          · intro stateTopic
            rw [lastNamed_concat, if_pos hConfig, hSome]
            show (s.haRoutes.set e.stateTopic e.route).get stateTopic = _
            rw [Dict.get_set, h.routes]
            simp only [eq_comm]
          · intro stateTopic route hGet
            change (s.haRoutes.set e.stateTopic e.route).get stateTopic = some route at hGet
            rw [Dict.get_set] at hGet
            split_ifs at hGet with hTopic
            · cases hGet
              show ∃ device, (s.devices.set _ _).get _ = some device
              rw [Dict.get_set, if_pos rfl]
              exact ⟨_, rfl⟩
            · exact row_register (h.haRows stateTopic route hGet) e
          · intro stateTopic route hGet
            exact row_register (h.manualRows stateTopic route hGet) e
  · rw [if_neg hConfig]
    have hSame : ∀ stateTopic, lastNamed host cfg (history ++ [msg]) stateTopic =
        lastNamed host cfg history stateTopic := by
      intro stateTopic
      rw [lastNamed_concat, if_neg hConfig]
    cases (s.haRoutes.get msg.topic).or ((manualRoutes cfg).get msg.topic) with
    | none =>
        refine ⟨fun stateTopic => ?_, h.haRows, h.manualRows⟩
        rw [hSame]
        exact h.routes stateTopic
    | some route =>
        constructor
        · intro stateTopic
          rw [hSame]
          exact h.routes stateTopic
        · intro stateTopic route' hGet
          exact row_handleStateMessage (h.haRows stateTopic route' hGet) _ _ _
        · intro stateTopic route' hGet
          exact row_handleStateMessage (h.manualRows stateTopic route' hGet) _ _ _

theorem receiveAll_concat (s : Service) (history : List Published) (msg : Published) :
    receiveAll host cfg s (history ++ [msg]) =
      receive host cfg (receiveAll host cfg s history) msg := List.foldl_concat ..

theorem inv_receiveAll (history : List Published) :
    Inv host cfg history (receiveAll host cfg (.initial cfg) history) := by
  induction history using List.reverseRecOn with
  | nil => exact inv_initial
  | append_singleton history msg ih =>
      rw [receiveAll_concat]
      exact ih.step msg

/-! ### The contract -/

/-- At a message that meets the condition the service does as promised. -/
theorem Inv.follows {history : List Published} {s : Service} (h : Inv host cfg history s)
    {msg : Published} (hState : isConfigTopic cfg msg.topic = false)
    (hSound : Sound host cfg history msg) :
    Follows host cfg history msg s (receive host cfg s msg) := by
  unfold receive
  rw [hState, if_neg Bool.false_ne_true, h.routes]
  cases hLast : lastNamed host cfg history msg.topic with
  | some route =>
      obtain ⟨hAgree, hSilent⟩ := hSound route hLast
      obtain ⟨device, hRow⟩ := h.haRows msg.topic route ((h.routes msg.topic).trans hLast)
      rw [Option.some_or]
      constructor
      · intro topic other value hLive hValue
        have hSame : other = route := hAgree topic other hLive (by simp [hValue])
        subst hSame
        rw [value_handleStateMessage hRow, if_pos ⟨rfl, rfl⟩, hValue]
        rfl
      · intro topic label metric hWithdrawn hHad hNotOwned
        rw [value_handleStateMessage hRow]
        split_ifs with hPlace
        · obtain ⟨rfl, rfl⟩ := hPlace
          cases hValue : extracted route msg.message with
          | none => rfl
          | some value =>
              rcases hSilent (by simp [hValue]) with hOwned | hNever
              · exact absurd hOwned hNotOwned
              · exact absurd hHad (hNever topic hWithdrawn)
        · rfl
  | none =>
      have hNoLive : ∀ topic route, live host cfg history topic ≠ some (msg.topic, route) := by
        intro topic route hLive
        obtain ⟨last, hSome⟩ := lastNamed_of_live hLive
        rw [hLast] at hSome
        cases hSome
      rw [Option.none_or]
      cases hManual : (manualRoutes cfg).get msg.topic with
      | none => exact ⟨fun topic route _ hLive _ => absurd hLive (hNoLive topic route),
          fun _ _ _ _ _ _ => rfl⟩
      | some route =>
          obtain ⟨device, hRow⟩ := h.manualRows msg.topic route hManual
          refine ⟨fun topic other _ hLive _ => absurd hLive (hNoLive topic other), ?_⟩
          intro topic label metric _ _ hNotOwned
          rw [value_handleStateMessage hRow]
          split_ifs with hPlace
          · exact absurd (Or.inr ⟨route, hManual, hPlace.1.symm, hPlace.2.symm⟩) hNotOwned
          · rfl

/-- In a run whose state messages all meet the condition, the service follows the discovery
contract at each of them. -/
theorem discovery_followed {run : List Published} (h : SoundRun host cfg run) :
    FollowsRun host cfg run := by
  intro before msg rest hRun hState
  rw [receiveAll_concat]
  exact (inv_receiveAll before).follows hState (h before msg rest hRun hState)

/-! ### Two sensors on one topic -/

def asciiPython : PyHost where
  isWord c := c.isAlphanum || c = '_'
  render _ := ""

def discoveryOn : DiscoveryCfg where
  haDiscovery := true
  haDiscoveryPrefix := "ha"
  topics := []

/-- The config of a quantity of the sensor `Shed`, which publishes all its values at once. -/
def shedConfig (quantity : String) : Published where
  topic := "ha/sensor/" ++ quantity ++ "/config"
  message := ⟨"config", none⟩
  config := some (.obj [("stat_t", .str "z2m"), ("object_id", .str quantity),
    ("val_tpl", .str ("\x7b\x7bvalue_json." ++ quantity ++ "\x7d\x7d")),
    ("device", .obj [("name", .str "Shed")])])
  now := 0

def shedState : Published where
  topic := "z2m"
  message := ⟨"state", some (.dict "" [("temp", .int 21), ("hum", .int 40)])⟩
  config := none
  now := 1

def shedRoute : Route where
  label := "Shed"
  metric := "temp"
  valueKind := "json"
  path := "temp"

theorem discovery_followed_shed :
    FollowsRun asciiPython discoveryOn [shedConfig "temp", shedState] := by
  refine discovery_followed fun before msg rest hRun hState => ?_
  cases before with
  | nil =>
      cases hRun
      exact absurd hState (by decide)
  | cons first before =>
      cases before with
      | cons second before =>
          have hLength := congrArg List.length hRun
          simp at hLength
      | nil =>
          cases hRun
          have hAnnounced : announcement asciiPython (shedConfig "temp") =
              some ("z2m", shedRoute) := rfl
          have hLive : ∀ topic, live asciiPython discoveryOn [shedConfig "temp"] topic =
              if (shedConfig "temp").topic = topic then some ("z2m", shedRoute) else none := by
            intro topic
            have hConfig : isConfigTopic discoveryOn (shedConfig "temp").topic = true := by decide
            rw [live, ← List.nil_append [shedConfig "temp"], latest_concat, hConfig]
            by_cases hTopic : (shedConfig "temp").topic = topic
            · simp [hTopic, hAnnounced]
            · simp [hTopic, latest]
          intro route hLast
          obtain rfl := Option.some.inj hLast
          constructor
          · intro topic other hOther _
            rw [hLive] at hOther
            split_ifs at hOther
            cases hOther
            rfl
          · exact fun _ => Or.inl (Or.inl ⟨_, shedRoute, (hLive _).trans (if_pos rfl), rfl, rfl⟩)

/-- With the second config the first quantity is lost. -/
theorem shared_topic_loses_entity :
    ¬ FollowsRun asciiPython discoveryOn [shedConfig "temp", shedConfig "hum", shedState] := by
  intro hFollows
  have hUpdated := (hFollows [shedConfig "temp", shedConfig "hum"] shedState [] rfl
    (by decide)).updated "ha/sensor/temp/config" shedRoute
    (.int 21) rfl (by decide)
  revert hUpdated
  decide

end WattPost.MqttIn
