import WattPost.MqttIn.BridgeTopics

/-! Once the exporter has published a result and the reading side has nothing left to read, every
number of the result stands where its config says, whatever was lost or published before. -/
namespace WattPost.MqttIn.Setup

open PyDict
open RetainedTopics (Subscriber State Reading Reads heard)
open WattPost.Cloud (Json)
open WattPost.Export.Mqtt (MqttExporter Out Body PollResult)
open WattPost.Export.Mqtt.MqttExporter (Announced objectId isNumber isScalar DeviceOut)

variable {u : Setup} {U : String → String → Prop} {label metric : String}

/-! ### The reading side -/

theorem after_reader (history : List (Reading String Packet ℚ)) :
    u.reader.after (.initial u.into) history =
      receiveAll u.host u.into (.initial u.into) (history.map published) := by
  rw [receiveAll, List.foldl_map]
  rfl

theorem inv_after (history : List (Reading String Packet ℚ)) :
    Inv u.host u.into (history.map published) (u.reader.after (.initial u.into) history) := by
  rw [after_reader]
  exact inv_receiveAll _

theorem mem_keys_iff {α : Type} {d : Dict α} {k : String} : k ∈ d.keys ↔ ∃ v, d.get k = some v := by
  rw [← not_iff_not, ← Dict.get_eq_none_iff, Option.eq_none_iff_forall_ne_some]
  simp

/-- A route that is known stays known. -/
theorem get_haRoutes_grows (history : List (Reading String Packet ℚ))
    (r : Reading String Packet ℚ) {topic : String}
    (h : topic ∈ (u.reader.after (.initial u.into) history).haRoutes.keys) :
    topic ∈ (u.reader.after (.initial u.into) (history ++ [r])).haRoutes.keys := by
  obtain ⟨route, hRoute⟩ := mem_keys_iff.mp h
  rw [(inv_after history).routes] at hRoute
  rw [mem_keys_iff, (inv_after (history ++ [r])).routes, List.map_append, List.map_singleton,
    lastNamed_concat]
  split_ifs
  · split
    · split_ifs
      · exact ⟨_, rfl⟩
      · exact ⟨route, hRoute⟩
    · exact ⟨route, hRoute⟩
  · exact ⟨route, hRoute⟩

/-- Only a config changes the routes. -/
theorem haRoutes_of_not_config (history : List (Reading String Packet ℚ))
    (r : Reading String Packet ℚ) (h : isConfigTopic u.into r.message.1 = false) :
    (u.reader.after (.initial u.into) (history ++ [r])).haRoutes =
      (u.reader.after (.initial u.into) history).haRoutes := by
  rw [Subscriber.after_concat]
  show (receive u.host u.into _ (published r)).haRoutes = _
  have hTopic : isConfigTopic u.into (published r).topic = false := h
  rw [receive, hTopic, if_neg Bool.false_ne_true]
  split <;> rfl

theorem lawful_reader : u.reader.Lawful (.initial u.into) where
  grows := by
    intro history r topic hTopic
    rcases List.mem_append.mp hTopic with hManual | hRoute
    · exact List.mem_append_left _ hManual
    · exact List.mem_append_right _ (get_haRoutes_grows history r hRoute)
  renewed := by
    intro history r topic hTopic
    rcases List.mem_append.mp hTopic with hManual | hRoute
    · exact Or.inl (List.mem_append_left _ hManual)
    · cases hConfig : isConfigTopic u.into r.message.1 with
      | true => exact Or.inr ⟨hConfig, hRoute⟩
      | false =>
          rw [haRoutes_of_not_config history r hConfig] at hRoute
          exact Or.inl (List.mem_append_right _ hRoute)
  again := fun _ _ hTopic => List.mem_append_right _ hTopic

/-! ### What is announced -/

/-- What a message on a config topic announces is no concern of the pair, or it is its route. -/
def Apart (u : Setup) (label metric stateTopic : String) (route : Route) : Prop :=
  (stateTopic = u.out.topic label metric ∧ route = u.route label metric) ∨
    (stateTopic ≠ u.out.topic label metric ∧
      (route.label, route.metric) ≠ ((u.route label metric).label, (u.route label metric).metric))

theorem apart_of_allowed (h : u.Clear U) (hPair : U label metric) {topic : String} {p : Packet}
    (hAllowed : u.Allowed U topic p) (hConfig : isConfigTopic u.into topic = true) {now : ℚ}
    {stateTopic : String} {route : Route}
    (hAnnounced : announcement u.host ⟨topic, p.message, p.config, now⟩ =
      some (stateTopic, route)) : u.Apart label metric stateTopic route := by
  rcases hAllowed with hForeign | ⟨body, hOurs, rfl⟩
  · exact Or.inr ((hForeign label metric hPair).2.2 stateTopic route hAnnounced)
  · cases hOurs with
    | status s =>
        have hNone : announcement u.host
            ⟨u.out.statusTopic, (u.packet (.word s)).message, (u.packet (.word s)).config, now⟩ =
              none := by
          rw [announcement]
          split_ifs <;> rfl
        rw [hNone] at hAnnounced
        cases hAnnounced
    | @snapshot label' j hLabel =>
        rw [isConfigTopic_snapshot] at hConfig
        cases hConfig
    | @value label' metric' v hPair' hScalar =>
        rw [(h.noConfig label' metric' hPair').1] at hConfig
        cases hConfig
    | @config label' metric' data hPair' =>
        rw [announcement_config] at hAnnounced
        obtain ⟨rfl, rfl⟩ := Prod.mk.inj (Option.some.inj hAnnounced)
        by_cases hSame : label = label' ∧ metric = metric'
        · obtain ⟨rfl, rfl⟩ := hSame
          exact Or.inl ⟨rfl, rfl⟩
        · refine Or.inr ⟨?_, ?_⟩
          · intro hTopic
            have hEq := topic_injective (h.label _ _ hPair') (h.label _ _ hPair) hTopic
            exact hSame ⟨hEq.1.symm, hEq.2.symm⟩
          · intro hPlace
            exact hSame (h.distinct label metric label' metric' hPair hPair'
              (congrArg Prod.snd hPlace).symm)

/-- The last usable config that named a topic is one of the messages. -/
theorem exists_of_lastNamed {host : PyHost} {cfg : DiscoveryCfg} {history : List Published}
    {stateTopic : String} {route : Route}
    (h : lastNamed host cfg history stateTopic = some route) :
    ∃ msg ∈ history, isConfigTopic cfg msg.topic = true ∧
      announcement host msg = some (stateTopic, route) := by
  induction history using List.reverseRecOn with
  | nil => cases h
  | append_singleton history msg ih =>
      have hOld : lastNamed host cfg history stateTopic = some route →
          ∃ m ∈ history ++ [msg], isConfigTopic cfg m.topic = true ∧
            announcement host m = some (stateTopic, route) := by
        intro hLast
        obtain ⟨m, hMem, hNamed⟩ := ih hLast
        exact ⟨m, List.mem_append_left _ hMem, hNamed⟩
      rw [lastNamed_concat] at h
      split_ifs at h with hConfig
      · split at h
        case h_1 named route' hAnnounced =>
          split_ifs at h with hNamed
          · cases h
            exact ⟨msg, List.mem_append_right _ (List.mem_singleton.mpr rfl), hConfig,
              hNamed ▸ hAnnounced⟩
          · exact hOld h
        case h_2 => exact hOld h
      · exact hOld h

/-- Once some config has named a topic, one was the last to. -/
theorem lastNamed_of_mem {host : PyHost} {cfg : DiscoveryCfg} {history : List Published}
    {stateTopic : String} {route : Route} {msg : Published} (hMem : msg ∈ history)
    (hConfig : isConfigTopic cfg msg.topic = true)
    (hAnnounced : announcement host msg = some (stateTopic, route)) :
    ∃ route', lastNamed host cfg history stateTopic = some route' := by
  induction history using List.reverseRecOn with
  | nil => cases hMem
  | append_singleton history last ih =>
      rw [lastNamed_concat]
      rcases List.mem_append.mp hMem with hOld | hNew
      · obtain ⟨route', hRoute'⟩ := ih hOld
        split_ifs
        · split
          · split_ifs
            · exact ⟨_, rfl⟩
            · exact ⟨route', hRoute'⟩
          · exact ⟨route', hRoute'⟩
        · exact ⟨route', hRoute'⟩
      · obtain rfl := List.mem_singleton.mp hNew
        rw [if_pos hConfig, hAnnounced]
        exact ⟨route, if_pos rfl⟩

section Reader

variable {history : List (Reading String Packet ℚ)}

/-- A route of the discovery is the pair's or keeps apart from it. -/
theorem apart_of_route (h : u.Clear U) (hPair : U label metric)
    (hReads : Reads u.reader (.initial u.into) (u.Allowed U) history) {topic : String}
    {route : Route}
    (hRoute : (u.reader.after (.initial u.into) history).haRoutes.get topic = some route) :
    u.Apart label metric topic route := by
  rw [(inv_after history).routes] at hRoute
  obtain ⟨msg, hMem, hConfig, hAnnounced⟩ := exists_of_lastNamed hRoute
  obtain ⟨r, hr, rfl⟩ := List.mem_map.mp hMem
  obtain ⟨before, after, hSplit⟩ := List.append_of_mem hr
  exact apart_of_allowed h hPair (hReads before r after hSplit).1 hConfig hAnnounced

/-- A config that was read makes a route of its announcement. -/
theorem route_of_heard (h : u.Clear U) (hPair : U label metric)
    (hReads : Reads u.reader (.initial u.into) (u.Allowed U) history) {p : Packet}
    (hHeard : heard history (u.out.configTopic label metric) = some p)
    (hAnnounced : ∀ now, announcement u.host
      ⟨u.out.configTopic label metric, p.message, p.config, now⟩ =
        some (u.out.topic label metric, u.route label metric)) :
    (u.reader.after (.initial u.into) history).haRoutes.get (u.out.topic label metric) =
      some (u.route label metric) := by
  have hMem := RetainedTopics.mem_of_lastOn _ hHeard
  obtain ⟨r, hr, hMessage⟩ := List.mem_map.mp hMem
  have hConfig : isConfigTopic u.into (published r).topic = true := by
    rw [published, hMessage]
    exact isConfigTopic_configTopic h
  have hNamed : announcement u.host (published r) =
      some (u.out.topic label metric, u.route label metric) := by
    rw [published, hMessage]
    exact hAnnounced r.moment
  obtain ⟨route, hRoute⟩ := lastNamed_of_mem (List.mem_map_of_mem hr) hConfig hNamed
  rw [← (inv_after history).routes] at hRoute
  rcases apart_of_route h hPair hReads hRoute with ⟨_, rfl⟩ | ⟨hNe, _⟩
  · exact hRoute
  · exact absurd rfl hNe

theorem get_foldl_setDefault {α : Type} {d : Dict α} {k : String} {v : α}
    (h : d.get k = some v) (xs : List (String × α)) :
    (xs.foldl (fun d e => d.setDefault e.1 e.2) d).get k = some v := by
  induction xs generalizing d with
  | nil => exact h
  | cons e xs ih =>
      refine ih ?_
      by_cases hKey : k = e.1
      · subst hKey
        rw [Dict.get_setDefault_self, h, Option.some_or]
      · rw [Dict.get_setDefault_of_ne hKey, h]

/-- A config overwrites no value. -/
theorem value_register {s : Service} {e : Entity} {v : PyScalar} {l m : String}
    (h : s.value l m = some v) : (s.register e).value l m = some v := by
  obtain ⟨device, hDevice, hValue⟩ := Option.bind_eq_some_iff.mp h
  unfold Service.register Service.value
  dsimp only
  rw [Dict.get_set]
  split_ifs with hLabel
  · subst hLabel
    rw [Option.bind_some, hDevice, Option.getD_some]
    have hKept := get_foldl_setDefault hValue
      (e.about.map fun field => (field.1, PyScalar.text (.utf8 field.2)))
    rwa [List.foldl_map] at hKept
  · rw [hDevice, Option.bind_some, hValue]

theorem value_handleHaConfig {s : Service} (msg : Published) {v : PyScalar} {l m : String}
    (h : s.value l m = some v) : (handleHaConfig u.host s msg).value l m = some v := by
  unfold handleHaConfig
  split_ifs
  · exact h
  · split
    · exact h
    · exact value_register h

/-- A state message changes the value that its route names, and no other. -/
theorem value_receive {s : Service} {past : List Published} {msg : Published} {route : Route}
    (hInv : Inv u.host u.into past s) (hState : isConfigTopic u.into msg.topic = false)
    (hRoute : (s.haRoutes.get msg.topic).or ((manualRoutes u.into).get msg.topic) = some route)
    (l m : String) :
    (receive u.host u.into s msg).value l m =
      if l = route.label ∧ m = route.metric then (extracted route msg.message).or (s.value l m)
      else s.value l m := by
  have hRow : ∃ device, s.devices.get route.label = some device := by
    cases hHa : s.haRoutes.get msg.topic with
    | some route' =>
        rw [hHa, Option.some_or] at hRoute
        cases hRoute
        exact hInv.haRows _ _ hHa
    | none =>
        rw [hHa, Option.none_or] at hRoute
        exact hInv.manualRows _ _ hRoute
  obtain ⟨device, hDevice⟩ := hRow
  rw [receive, hState, if_neg Bool.false_ne_true, hRoute]
  exact value_handleStateMessage hDevice msg.message msg.now l m

/-- A message on another topic leaves the value of the pair alone. -/
theorem value_receive_other (h : u.Clear U) (hPair : U label metric)
    (hReads : Reads u.reader (.initial u.into) (u.Allowed U) history) {msg : Published}
    (hTopic : msg.topic ≠ u.out.topic label metric) {v : PyScalar}
    (hOld : (u.reader.after (.initial u.into) history).value (u.route label metric).label
      (u.route label metric).metric = some v) :
    (receive u.host u.into (u.reader.after (.initial u.into) history) msg).value
      (u.route label metric).label (u.route label metric).metric = some v := by
  cases hState : isConfigTopic u.into msg.topic with
  | true =>
      rw [receive, hState, if_pos rfl]
      exact value_handleHaConfig msg hOld
  | false =>
      cases hRoute : ((u.reader.after (.initial u.into) history).haRoutes.get msg.topic).or
          ((manualRoutes u.into).get msg.topic) with
      | none =>
          rw [receive, hState, if_neg Bool.false_ne_true, hRoute]
          exact hOld
      | some route =>
          have hElsewhere : (route.label, route.metric) ≠
              ((u.route label metric).label, (u.route label metric).metric) := by
            cases hHa : (u.reader.after (.initial u.into) history).haRoutes.get msg.topic with
            | some route' =>
                rw [hHa, Option.some_or] at hRoute
                cases hRoute
                rcases apart_of_route h hPair hReads hHa with ⟨hSame, _⟩ | ⟨_, hElsewhere⟩
                · exact absurd hSame hTopic
                · exact hElsewhere
            | none =>
                rw [hHa, Option.none_or] at hRoute
                exact (h.manual _ _ hRoute label metric hPair).2
          rw [value_receive (inv_after history) hState hRoute, if_neg]
          · exact hOld
          · rintro ⟨hLabel, hMetric⟩
            exact hElsewhere (Prod.ext hLabel.symm hMetric.symm)

/-- What was last heard on the topic of a pair stands where its config says. -/
theorem value_of_heard (h : u.Clear U) (hPair : U label metric)
    (hReads : Reads u.reader (.initial u.into) (u.Allowed U) history) {p : Packet}
    (hHeard : heard history (u.out.topic label metric) = some p) {v : PyScalar}
    (hValue : extracted (u.route label metric) p.message = some v) :
    (u.reader.after (.initial u.into) history).value (u.route label metric).label
      (u.route label metric).metric = some v := by
  induction history using List.reverseRecOn generalizing p v with
  | nil => cases hHeard
  | append_singleton history r ih =>
      obtain ⟨hBefore, hHere⟩ := hReads.of_concat
      obtain ⟨hNoConfig, hNoListen⟩ := h.noConfig label metric hPair
      rw [RetainedTopics.heard_concat] at hHeard
      rw [Subscriber.after_concat]
      show (receive u.host u.into (u.reader.after (.initial u.into) history)
        (published r)).value _ _ = some v
      by_cases hTopic : r.message.1 = u.out.topic label metric
      · rw [if_pos hTopic] at hHeard
        cases hHeard
        rw [hTopic] at hHere
        -- it was subscribed to, and only the config of the pair names this topic
        have hRoute : (u.reader.after (.initial u.into) history).haRoutes.get
            (u.out.topic label metric) = some (u.route label metric) := by
          rcases hHere with hListens | hWanted
          · exact absurd (hListens.symm.trans hNoListen) (by decide)
          · rcases List.mem_append.mp hWanted with hManual | hKnown
            · obtain ⟨route, hGet⟩ := mem_keys_iff.mp hManual
              exact absurd rfl (h.manual _ route hGet label metric hPair).1
            · obtain ⟨route, hGet⟩ := mem_keys_iff.mp hKnown
              rcases apart_of_route h hPair hBefore hGet with ⟨_, rfl⟩ | ⟨hNe, _⟩
              · exact hGet
              · exact absurd rfl hNe
        have hState : isConfigTopic u.into (published r).topic = false := by
          rw [published, hTopic]
          exact hNoConfig
        have hTaken : ((u.reader.after (.initial u.into) history).haRoutes.get
            (published r).topic).or ((manualRoutes u.into).get (published r).topic) =
              some (u.route label metric) := by
          rw [published, hTopic, hRoute, Option.some_or]
        rw [value_receive (inv_after history) hState hTaken, if_pos ⟨rfl, rfl⟩]
        show (extracted _ r.message.2.message).or _ = _
        rw [hValue, Option.some_or]
      · rw [if_neg hTopic] at hHeard
        exact value_receive_other h hPair hBefore hTopic (ih hBefore hHeard hValue)

end Reader

/-! ### The exporter -/

/-- A number of a result that is told to Home Assistant. -/
def Tells (r : PollResult) (label metric : String) (v : Json) : Prop :=
  ∃ data, (label, data) ∈ r.devices.entries ∧ (metric, v) ∈ data.entries ∧
    WattPost.Export.Mqtt.MqttExporter.discovered metric v = true

/-- What holds of the exporter: the pairs it has announced have their config on the broker or
still to be published, and the numbers of its result are on the broker or still to be
published. -/
structure ExporterOk (u : Setup) (U : String → String → Prop) (b : Bridge) : Prop where
  within : ∀ r, b.exporter.last = some r → Within U r
  ours : ∀ o ∈ b.exporter.outbox, Ours u U o.topic o.body
  announced : ∀ pair ∈ b.exporter.announced, U pair.1 pair.2 ∧ ∃ data,
    u.out.configOut pair.1 pair.2 data ∈ b.exporter.outbox ∨
      b.link.retained (u.out.configTopic pair.1 pair.2) =
        some (u.packet (.json (u.out.config pair.1 pair.2 data)))
  current : ∀ r, b.exporter.last = some r → ∀ label metric v, Tells r label metric v →
    (label, metric) ∈ b.exporter.announced ∧
    (∀ o ∈ b.exporter.outbox, o.topic = u.out.topic label metric → o.body = .json v) ∧
      (⟨u.out.topic label metric, .json v, u.out.retain⟩ ∈ b.exporter.outbox ∨
        b.link.retained (u.out.topic label metric) = some (u.packet (.json v)))

section Exporter

variable {b : Bridge}

theorem Tells.pair {r : PollResult} {v : Json} (h : Tells r label metric v)
    (hWithin : Within U r) : U label metric := by
  obtain ⟨data, hDevice, hMem, hTold⟩ := h
  unfold WattPost.Export.Mqtt.MqttExporter.discovered at hTold
  rw [Bool.and_eq_true, Bool.and_eq_true, Bool.not_eq_true'] at hTold
  exact (hWithin _ hDevice).2 _ hMem hTold.1.1
    (WattPost.Export.Mqtt.MqttExporter.isScalar_of_isNumber hTold.1.2)

theorem topic_ne_configTopic (h : u.Clear U) (hPair : U label metric) {label' metric' : String} :
    u.out.topic label metric ≠ u.out.configTopic label' metric' := by
  intro hEq
  have hConfig : isConfigTopic u.into (u.out.configTopic label' metric') = true :=
    isConfigTopic_configTopic h
  rw [← hEq, (h.noConfig label metric hPair).1] at hConfig
  cases hConfig

/-- What a result publishes is about the pairs. -/
theorem ours_of_deviceOut {r : PollResult} (hWithin : Within U r) {e : String × Dict Json}
    (he : e ∈ r.devices.entries) {o : Out} (hAbout : DeviceOut u.out e.1 e.2 o) :
    Ours u U o.topic o.body := by
  obtain ⟨hLabel, hPairs⟩ := hWithin e he
  cases hAbout with
  | snapshot j => exact .snapshot j hLabel
  | value hMem hMeta hScalar => exact .value (hPairs _ hMem hMeta hScalar) hScalar
  | config hMem hMeta hNumber =>
      exact .config _ (hPairs _ hMem hMeta
        (WattPost.Export.Mqtt.MqttExporter.isScalar_of_isNumber hNumber))

/-- On the topic of a number a result publishes this number only. -/
theorem body_of_topic (h : u.Clear U) {r : PollResult} (hWithin : Within U r) {v : Json}
    (hTells : Tells r label metric v) {e : String × Dict Json} (he : e ∈ r.devices.entries)
    {o : Out} (hAbout : DeviceOut u.out e.1 e.2 o) (hTopic : o.topic = u.out.topic label metric) :
    o.body = .json v := by
  have hPair := hTells.pair hWithin
  obtain ⟨data, hDevice, hMem, _⟩ := hTells
  obtain ⟨hLabel, hPairs⟩ := hWithin e he
  cases hAbout with
  | snapshot j =>
      have hEq := topic_injective hLabel (h.label _ _ hPair) hTopic
      exact absurd hEq.2.symm (h.metric _ _ hPair).2
  | @value k v' hMem' hMeta hScalar =>
      obtain ⟨hEq, rfl⟩ := topic_injective hLabel (h.label _ _ hPair) hTopic
      have hData : data = e.2 := by
        have hFirst := Dict.mem_iff_get.mp hDevice
        rw [← hEq, Dict.mem_iff_get.mp (show (e.1, e.2) ∈ r.devices.entries from he)] at hFirst
        exact (Option.some.inj hFirst).symm
      subst hData
      have hGet := Dict.mem_iff_get.mp hMem
      rw [Dict.mem_iff_get.mp hMem'] at hGet
      rw [Option.some.inj hGet]
  | config hMem' hMeta hNumber => exact absurd hTopic.symm (topic_ne_configTopic h hPair)

/-- Publishing a message that is not on a topic leaves what is retained there. -/
theorem retained_publish_of_ne {topic topic' : String} (hNe : topic' ≠ topic) (p : Packet)
    (link : State String Packet ℚ) :
    (link.publish u.reader topic p).retained topic' = link.retained topic' :=
  Function.update_of_ne hNe _ _

theorem retained_publish_self (topic : String) (p : Packet) (link : State String Packet ℚ) :
    (link.publish u.reader topic p).retained topic = some p := Function.update_self _ _ _

/-- A message about other topics keeps what holds of the exporter. -/
theorem ExporterOk.publish_other (hOk : ExporterOk u U b) {topic : String} (p : Packet)
    (hTopics : ∀ label metric, U label metric →
      u.out.topic label metric ≠ topic ∧ u.out.configTopic label metric ≠ topic) :
    ExporterOk u U { b with link := b.link.publish u.reader topic p } where
  within := hOk.within
  ours := hOk.ours
  announced := by
    intro pair hPair
    obtain ⟨hU, data, hWhere⟩ := hOk.announced pair hPair
    refine ⟨hU, data, hWhere.imp id ?_⟩
    intro hRetained
    rw [retained_publish_of_ne (hTopics _ _ hU).2, hRetained]
  current := by
    intro r hr label metric v hTells
    obtain ⟨hAnnounced, hOnly, hWhere⟩ := hOk.current r hr label metric v hTells
    refine ⟨hAnnounced, hOnly, hWhere.imp id ?_⟩
    intro hRetained
    rw [retained_publish_of_ne (hTopics _ _ (hTells.pair (hOk.within r hr))).1, hRetained]

/-- What the exporter publishes on the config topic of a pair is a config of the pair. -/
theorem body_of_configTopic (h : u.Clear U) (hPair : U label metric) {topic : String} {body : Body}
    (hOurs : Ours u U topic body) (hTopic : topic = u.out.configTopic label metric) :
    ∃ data, body = .json (u.out.config label metric data) := by
  cases hOurs with
  | status s => exact absurd hTopic.symm (configTopic_ne_status label metric)
  | @snapshot label' j hLabel => exact absurd hTopic.symm (configTopic_ne_snapshot _ _ label')
  | value hPair' hScalar => exact absurd hTopic (topic_ne_configTopic h hPair')
  | @config label' metric' data hPair' =>
      have hId := configTopic_injective hTopic
      obtain ⟨rfl, rfl⟩ := h.distinct label' metric' label metric hPair' hPair
        (congrArg (fun s => slug s "value") hId)
      exact ⟨data, rfl⟩

/-- The exporter publishes the next of its messages. -/
theorem ExporterOk.publish (h : u.Clear U) (hOk : ExporterOk u U b) {o : Out} {rest : List Out}
    (hOutbox : b.exporter.outbox = o :: rest) :
    ExporterOk u U
      ⟨{ b.exporter with outbox := rest },
        b.link.publish u.reader o.topic (u.packet o.body)⟩ where
  within := hOk.within
  ours := fun o' ho' => hOk.ours o' (hOutbox ▸ List.mem_cons_of_mem _ ho')
  announced := by
    intro pair hPair
    obtain ⟨hU, data, hWhere⟩ := hOk.announced pair hPair
    refine ⟨hU, ?_⟩
    by_cases hTopic : o.topic = u.out.configTopic pair.1 pair.2
    · obtain ⟨data', hBody⟩ := body_of_configTopic h hU
        (hOk.ours o (hOutbox ▸ List.mem_cons_self)) hTopic
      refine ⟨data', Or.inr ?_⟩
      rw [← hTopic, retained_publish_self, hBody]
    · refine ⟨data, ?_⟩
      rw [hOutbox] at hWhere
      rcases hWhere with hMem | hRetained
      · rcases List.mem_cons.mp hMem with rfl | hLater
        · exact absurd rfl hTopic
        · exact Or.inl hLater
      · right
        rw [retained_publish_of_ne (Ne.symm hTopic), hRetained]
  current := by
    intro r hr label metric v hTells
    obtain ⟨hAnnounced, hOnly, hWhere⟩ := hOk.current r hr label metric v hTells
    rw [hOutbox] at hOnly hWhere
    refine ⟨hAnnounced, fun o' ho' => hOnly o' (List.mem_cons_of_mem _ ho'), ?_⟩
    by_cases hTopic : o.topic = u.out.topic label metric
    · right
      rw [← hTopic, retained_publish_self, hOnly o List.mem_cons_self hTopic]
    · rcases hWhere with hMem | hRetained
      · rcases List.mem_cons.mp hMem with rfl | hLater
        · exact absurd rfl hTopic
        · exact Or.inl hLater
      · right
        rw [retained_publish_of_ne (Ne.symm hTopic), hRetained]

/-- The exporter begins with a result. -/
theorem ExporterOk.take (h : u.Clear U) (hOk : ExporterOk u U b) {r : PollResult}
    (hWithin : Within U r) (hIdle : b.exporter.outbox = []) :
    ExporterOk u U
      { b with exporter := ⟨true, (u.out.publishResult r b.exporter.announced).2,
        (u.out.publishResult r b.exporter.announced).1, some r⟩ } := by
  have hDone := WattPost.Export.Mqtt.MqttExporter.devicesDone_publishDevices (x := u.out)
    r.timestamp r.devices.entries b.exporter.announced
  refine ⟨?_, ?_, ?_, ?_⟩
  · intro r' hr'
    cases hr'
    exact hWithin
  · intro o ho
    obtain ⟨e, he, hAbout⟩ := hDone.about o ho
    exact ours_of_deviceOut hWithin he hAbout
  · intro pair hPair
    rcases hDone.fresh pair hPair with hOld | ⟨e, he, hLabel, hConfig, v, hMem, hMeta, hNumber⟩
    · obtain ⟨hU, data, hWhere⟩ := hOk.announced pair hOld
      rw [hIdle] at hWhere
      exact ⟨hU, data, Or.inr (hWhere.resolve_left (by simp))⟩
    · rw [hLabel]
      exact ⟨(hWithin e he).2 _ hMem hMeta
        (WattPost.Export.Mqtt.MqttExporter.isScalar_of_isNumber hNumber), e.2, Or.inl hConfig⟩
  · intro r' hr' label metric v hTells
    cases hr'
    have hTells' := hTells
    obtain ⟨data, hDevice, hMem, hTold⟩ := hTells
    refine ⟨hDone.told h.perMetric h.announces _ hDevice _ hMem hTold, ?_, Or.inl ?_⟩
    · intro o ho hTopic
      obtain ⟨e, he, hAbout⟩ := hDone.about o ho
      exact body_of_topic h hWithin hTells' he hAbout hTopic
    · unfold WattPost.Export.Mqtt.MqttExporter.discovered at hTold
      rw [Bool.and_eq_true, Bool.and_eq_true, Bool.not_eq_true'] at hTold
      exact hDone.value h.perMetric _ hDevice _ hMem hTold.1.1
        (WattPost.Export.Mqtt.MqttExporter.isScalar_of_isNumber hTold.1.2)

/-- An exporter without a connection has nothing to publish. -/
theorem exporterOk_gone (connected : Bool) {outbox : List Out}
    (hOutbox : ∀ o ∈ outbox, Ours u U o.topic o.body) (link : State String Packet ℚ) :
    ExporterOk u U ⟨⟨connected, [], outbox, none⟩, link⟩ where
  within := by
    intro r hr
    cases hr
  ours := hOutbox
  announced := by
    intro pair hPair
    cases hPair
  current := by
    intro r hr
    cases hr

end Exporter

/-! ### Whole runs -/

structure BridgeOk (u : Setup) (U : String → String → Prop) (b : Bridge) : Prop where
  exporter : ExporterOk u U b
  link : RetainedTopics.Inv u.reader (.initial u.into) (u.Allowed U) b.link

theorem Step.bridgeOk (h : u.Clear U) {b b' : Bridge} (hStep : Setup.Step u U b b')
    (hOk : BridgeOk u U b) : BridgeOk u U b' := by
  have hPublish : ∀ topic body, Ours u U topic body →
      RetainedTopics.Inv u.reader (.initial u.into) (u.Allowed U)
        (b.link.publish u.reader topic (u.packet body)) := fun topic body hOurs =>
    RetainedTopics.Step.inv lawful_reader
      (.publish b.link topic _ (Or.inr ⟨body, hOurs, rfl⟩)) hOk.link
  cases hStep with
  | exporterConnects hOff =>
      refine ⟨exporterOk_gone true ?_ _, hOk.link⟩
      intro o ho
      rw [List.mem_singleton.mp ho]
      exact .status "online"
  | exporterTakes r hWithin hOn hIdle => exact ⟨hOk.exporter.take h hWithin hIdle, hOk.link⟩
  | exporterPublishes o rest hOutbox =>
      exact ⟨hOk.exporter.publish h hOutbox,
        hPublish _ _ (hOk.exporter.ours o (hOutbox ▸ List.mem_cons_self))⟩
  | exporterDrops =>
      refine ⟨exporterOk_gone false ?_ _, hPublish _ _ (.status "offline")⟩
      intro o ho
      cases ho
  | othersPublish topic p hForeign =>
      refine ⟨hOk.exporter.publish_other p ?_, RetainedTopics.Step.inv lawful_reader
        (.publish b.link topic p (Or.inl hForeign)) hOk.link⟩
      intro label metric hPair
      obtain ⟨hTopic, hConfig, _⟩ := hForeign label metric hPair
      exact ⟨hTopic.symm, hConfig.symm⟩
  | reads link hLink =>
      have hSame := hLink.retained_eq
      refine ⟨⟨hOk.exporter.within, hOk.exporter.ours, ?_, ?_⟩,
        RetainedTopics.Step.inv lawful_reader (hLink.mono fun _ _ hNo => hNo.elim) hOk.link⟩
      · show ∀ pair ∈ b.exporter.announced, _
        rw [hSame]
        exact hOk.exporter.announced
      · show ∀ r, b.exporter.last = some r → _
        rw [hSame]
        exact hOk.exporter.current

theorem Reachable.bridgeOk (h : u.Clear U) {b : Bridge} (hReach : Setup.Reachable u U b) :
    BridgeOk u U b := by
  induction hReach with
  | start =>
      refine ⟨exporterOk_gone false (fun o ho => by cases ho) _, ⟨?_, ?_, ?_, ?_⟩⟩
      · intro l hl
        cases hl
      · intro t p hp
        cases hp
      · intro l hl
        cases hl
      · intro before r after hSplit
        have hNil : ([] : List (Reading String Packet ℚ)) = before ++ r :: after := hSplit
        simp at hNil
  | step _ hStep ih => exact Step.bridgeOk h hStep ih

/-- Under `Clear` settings and names, and with nobody else on the topics of the exporter: when
the exporter has published its last result whole and the reading side has nothing left to read,
each number of the result that Home Assistant is told of stands where its config says, as the
number that it is (`numberOf`: an integer, or a float in digits with a point or an exponent). -/
theorem bridge_converges (h : u.Clear U) {b : Bridge} (hReach : Setup.Reachable u U b)
    {r : PollResult} (hLast : b.exporter.last = some r) (hIdle : b.exporter.outbox = [])
    {subs : List String} (hLine : b.link.line = some ⟨subs, [], []⟩) {v : Json}
    (hTells : Tells r label metric v) {number : PyScalar} (hNumber : numberOf v = some number) :
    (u.reader.after (.initial u.into) b.link.history).value
      (slug (u.out.identifier label) "mqtt_device") (slug (objectId label metric) "value") =
        some number := by
  obtain ⟨hExporter, hLink⟩ := Reachable.bridgeOk h hReach
  obtain ⟨hAnnounced, _, hValue⟩ := hExporter.current r hLast label metric v hTells
  obtain ⟨hPair, data, hConfig⟩ := hExporter.announced _ hAnnounced
  rw [hIdle] at hValue hConfig
  have hRetained := hValue.resolve_left (by simp)
  have hConfigRetained := hConfig.resolve_left (by simp)
  have hHeardConfig := hLink.settled hLine (Or.inl (listensTo_configTopic h hPair))
    hConfigRetained
  have hRoute := route_of_heard h hPair hLink.reads hHeardConfig
    fun now => announcement_config data now
  have hWanted : u.out.topic label metric ∈
      u.reader.wants (u.reader.after (.initial u.into) b.link.history) :=
    List.mem_append_right _ (mem_keys_iff.mpr ⟨_, hRoute⟩)
  have hHeard := hLink.settled hLine (Or.inr hWanted) hRetained
  exact value_of_heard h hPair hLink.reads hHeard (extracted_number hNumber)

/-! ### A battery in a shed -/

def shed : Setup where
  out := .init "solar/" true true true "homeassistant" "shed"
  into := ⟨true, "homeassistant", []⟩
  host := asciiPython
  loads _ := none

def shedResult : PollResult where
  timestamp := .null
  devices := Dict.ofList [("battery", Dict.ofList [("soc_pct", .int 55)])]

def shedPairs (label metric : String) : Prop := label = "battery" ∧ metric = "soc_pct"

theorem clear_shed : shed.Clear shedPairs where
  retain := rfl
  perMetric := rfl
  announces := rfl
  listens := rfl
  samePrefix := by decide
  node := by decide
  label := by
    rintro _ _ ⟨rfl, rfl⟩
    decide
  metric := by
    rintro _ _ ⟨rfl, rfl⟩
    decide
  noConfig := by
    rintro _ _ ⟨rfl, rfl⟩
    decide
  distinct := by
    rintro _ _ _ _ ⟨rfl, rfl⟩ ⟨rfl, rfl⟩ _
    exact ⟨rfl, rfl⟩
  manual := by
    intro topic route hRoute
    cases hRoute

theorem within_shed : Within shedPairs shedResult := by
  intro e he
  have hDevice := List.mem_singleton.mp he
  subst hDevice
  refine ⟨by decide, fun kv hkv _ _ => ?_⟩
  have hMetric := List.mem_singleton.mp hkv
  subst hMetric
  exact ⟨rfl, rfl⟩

def shedSnapshot : Body :=
  .json (.obj (Dict.ofList [("soc_pct", .int 55), ("_ts", .null)]).entries)

def shedConfigMessage : String × Packet :=
  (shed.out.configTopic "battery" "soc_pct",
    shed.packet (.json (shed.out.config "battery" "soc_pct" (Dict.ofList [("soc_pct", .int 55)]))))

def shedValueMessage : String × Packet :=
  (shed.out.topic "battery" "soc_pct", shed.packet (.json (.int 55)))

/-- What the broker retains when the result is published. -/
def shedRetained : String → Option Packet :=
  [(shed.out.statusTopic, shed.packet (.word "online")),
    (shed.out.topic "battery" "state", shed.packet shedSnapshot),
    shedValueMessage, shedConfigMessage].foldl
    (fun (retained : String → Option Packet) (m : String × Packet) =>
      Function.update retained m.1 (some m.2)) fun _ => none

theorem greets_shed : RetainedTopics.Greets shed.reader shedRetained [shedConfigMessage] := by
  intro t p
  have hSilent : shed.reader.listens shed.out.statusTopic = false ∧
      shed.reader.listens (shed.out.topic "battery" "state") = false ∧
      shed.reader.listens shedValueMessage.1 = false := by decide +kernel
  have hListens : shed.reader.listens shedConfigMessage.1 = true := by decide +kernel
  rw [List.mem_singleton]
  unfold shedRetained
  simp only [List.foldl_cons, List.foldl_nil, Function.update_apply]
  constructor
  · intro hEq
    obtain ⟨rfl, rfl⟩ := Prod.mk.injEq _ _ _ _ ▸ hEq
    exact ⟨hListens, if_pos rfl⟩
  · rintro ⟨hTopic, hKept⟩
    split_ifs at hKept with hConfig hValue hState hStatus
    · exact Prod.ext hConfig (Option.some.inj hKept).symm
    · exact absurd (hValue ▸ hTopic) (by rw [hSilent.2.2]; decide)
    · exact absurd (hState ▸ hTopic) (by rw [hSilent.2.1]; decide)
    · exact absurd (hStatus ▸ hTopic) (by rw [hSilent.1]; decide)

/-- The shed has published its result, and this was read of it. -/
def shedSeen (line : Option (RetainedTopics.Line String Packet))
    (history : List (Reading String Packet ℚ)) : Bridge :=
  ⟨⟨true, [("battery", "soc_pct")], [], some shedResult⟩, ⟨shedRetained, line, history⟩⟩

/-- Behind the config, the topic of the number is subscribed to. -/
theorem again_shed : shed.reader.again
    (shed.reader.after (.initial shed.into) [⟨1, shedConfigMessage⟩]) = [shedValueMessage.1] := by
  decide +kernel

theorem reachable_shed : Setup.Reachable shed shedPairs
    (shedSeen (some ⟨[shedValueMessage.1], [], []⟩)
      [⟨1, shedConfigMessage⟩, ⟨2, shedValueMessage⟩]) := by
  have hConnected := Reachable.step .start (.exporterConnects (u := shed) (U := shedPairs) _ rfl)
  have hIdle := hConnected.step (.exporterPublishes _ _ _ rfl)
  have hTaken := hIdle.step (.exporterTakes _ shedResult within_shed rfl rfl)
  have hSnapshot := hTaken.step (.exporterPublishes _ _ _ rfl)
  have hValue := hSnapshot.step (.exporterPublishes _ _ _ rfl)
  have hConfig := hValue.step (.exporterPublishes _ _ _ rfl)
  have hPublished : Setup.Reachable shed shedPairs (shedSeen none []) := hConfig
  have hGreeted : Setup.Reachable shed shedPairs
      (shedSeen (some ⟨[], [], [shedConfigMessage]⟩) []) :=
    hPublished.step (.reads _ _ (.connect _ _ rfl greets_shed))
  have hFound : Setup.Reachable shed shedPairs
      (shedSeen (some ⟨[], [shedValueMessage.1], []⟩) [⟨1, shedConfigMessage⟩]) := by
    rw [← again_shed]
    exact hGreeted.step (.reads _ _ (.read (shedSeen _ _).link ⟨1, shedConfigMessage⟩ [] [] rfl))
  have hAsked : Setup.Reachable shed shedPairs
      (shedSeen (some ⟨[shedValueMessage.1], [], [shedValueMessage]⟩)
        [⟨1, shedConfigMessage⟩]) :=
    hFound.step (.reads _ _ (.subscribe _ shedValueMessage.1 [] [] [] rfl))
  exact hAsked.step (.reads _ _ (.read (shedSeen _ _).link ⟨2, shedValueMessage⟩ _ _ rfl))

theorem bridge_converges_shed : ∃ b, Setup.Reachable shed shedPairs b ∧
    (shed.reader.after (.initial shed.into) b.link.history).value "shed_battery"
      "battery_soc_pct" = some (.int 55) := by
  refine ⟨_, reachable_shed, ?_⟩
  have hTells : Tells shedResult "battery" "soc_pct" (.int 55) :=
    ⟨_, List.mem_singleton.mpr rfl, List.mem_singleton.mpr rfl, rfl⟩
  exact bridge_converges clear_shed reachable_shed rfl rfl rfl hTells rfl

end WattPost.MqttIn.Setup
