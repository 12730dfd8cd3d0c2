import WattPost.Lib.PyNumber
import WattPost.MqttIn.Bridge

/-! The topics of the bridge keep apart, and the reading side takes the exporter's configs and
numbers for what they are. -/
namespace WattPost.MqttIn.Setup

open PyDict
open WattPost.Cloud (Json Fields)
open WattPost.Export.Mqtt (MqttExporter Out Body PollResult haSensorMeta)
open WattPost.Cloud.JsonText (dumps)
open WattPost.Export.Mqtt.MqttExporter (Announced objectId isNumber isScalar)

variable {x : MqttExporter}

/-! ### Topics -/

theorem toList_topic (label name : String) :
    (x.topic label name).toList =
      x.topicPrefix.toList ++ '/' :: (label.toList ++ '/' :: name.toList) := by
  simp [MqttExporter.topic, String.toList_append]

theorem toList_configTopic (label metric : String) :
    (x.configTopic label metric).toList =
      x.haDiscoveryPrefix.toList ++ ("/sensor/".toList ++ (x.haNodeId.toList ++ '/' ::
        ((objectId label metric).toList ++ "/config".toList))) := by
  simp [MqttExporter.configTopic, String.toList_append]

theorem topic_injective {label name label' name' : String} (hLabel : '/' ∉ label.toList)
    (hLabel' : '/' ∉ label'.toList) (h : x.topic label name = x.topic label' name') :
    label = label' ∧ name = name' := by
  have hText := congrArg String.toList h
  rw [toList_topic, toList_topic] at hText
  have hRest := (List.cons.inj (List.append_cancel_left hText)).2
  have hFirst : label.toList = label'.toList := by
    rw [← (PyText.takeWhile_sep hLabel name.toList).1, hRest,
      (PyText.takeWhile_sep hLabel' name'.toList).1]
  rw [hFirst] at hRest
  exact ⟨String.toList_injective hFirst,
    String.toList_injective (List.cons.inj (List.append_cancel_left hRest)).2⟩

theorem configTopic_injective {label metric label' metric' : String}
    (h : x.configTopic label metric = x.configTopic label' metric') :
    objectId label metric = objectId label' metric' := by
  have hText := congrArg String.toList h
  rw [toList_configTopic, toList_configTopic] at hText
  have hRest := List.append_cancel_left (List.append_cancel_left (List.append_cancel_left hText))
  exact String.toList_injective (List.append_cancel_right (List.cons.inj hRest).2)

/-- Texts whose ends have different last characters are different. -/
theorem append_ne_append {a b : String} {v w : String}
    (h : v.toList.getLast? ≠ w.toList.getLast?) (hv : v ≠ "") (hw : w ≠ "") : a ++ v ≠ b ++ w := by
  intro hEq
  have hLast := congrArg (fun s => s.toList.getLast?) hEq
  simp only [String.toList_append] at hLast
  rw [List.getLast?_append_of_ne_nil _ (by simpa using hv),
    List.getLast?_append_of_ne_nil _ (by simpa using hw)] at hLast
  exact h hLast

theorem configTopic_ne_status (label metric : String) :
    x.configTopic label metric ≠ x.statusTopic :=
  append_ne_append (by decide) (by decide) (by decide)

theorem configTopic_ne_snapshot (label metric label' : String) :
    x.configTopic label metric ≠ x.topic label' "state" :=
  append_ne_append (by decide) (by decide) (by decide)

/-- A snapshot is never on a config topic. -/
theorem isConfigTopic_snapshot {cfg : DiscoveryCfg} (label : String) :
    isConfigTopic cfg (x.topic label "state") = false := by
  refine Bool.eq_false_iff.mpr fun hConfig => ?_
  rw [isConfigTopic, Bool.and_eq_true] at hConfig
  obtain ⟨front, hFront⟩ := List.isSuffixOf_iff_suffix.mp hConfig.2
  have hEq : String.ofList front ++ "/config" =
      x.topicPrefix ++ "/" ++ label ++ "/" ++ "state" := by
    apply String.toList_injective
    rw [String.toList_append, String.toList_ofList, hFront, MqttExporter.topic]
  exact append_ne_append (by decide) (by decide) (by decide) hEq

theorem matchesFilter_append {front ps ts : List String} (h : matchesFilter ps ts = true) :
    matchesFilter (front ++ ps) (front ++ ts) = true := by
  induction front with
  | nil => exact h
  | cons p front ih =>
      rw [List.cons_append, List.cons_append, matchesFilter, ih]
      simp

theorem splitChars_append_cons (c : Char) (xs ys : List Char) :
    PyText.splitChars c (xs ++ c :: ys) = PyText.splitChars c xs ++ PyText.splitChars c ys := by
  induction xs with
  | nil => simp [PyText.splitChars]
  | cons d xs ih =>
      rw [List.cons_append, PyText.splitChars, PyText.splitChars, ih]
      split
      · rfl
      · cases hPieces : PyText.splitChars c xs with
        | nil => exact absurd hPieces (PyText.splitChars_ne_nil c xs)
        | cons piece pieces => rfl

theorem split_append_cons (a b : String) :
    PyText.split (a ++ "/" ++ b) '/' = PyText.split a '/' ++ PyText.split b '/' := by
  rw [PyText.split, String.toList_append, String.toList_append, List.append_assoc]
  exact (congrArg (List.map String.ofList) (splitChars_append_cons '/' _ _)).trans List.map_append

theorem split_of_notMem {s : String} (h : '/' ∉ s.toList) : PyText.split s '/' = [s] := by
  rw [PyText.split, PyText.splitChars_of_notMem h, List.map_singleton, String.ofList_toList]

/-! ### The configs of the exporter -/

variable {u : Setup} {U : String → String → Prop} {label metric : String}

theorem slash_notMem_objectId (h : u.Clear U) (hPair : U label metric) :
    '/' ∉ (objectId label metric).toList := by
  rw [objectId, String.toList_append, String.toList_append]
  intro hMem
  rcases List.mem_append.mp hMem with hMem | hMem
  · rcases List.mem_append.mp hMem with hMem | hMem
    · exact h.label label metric hPair hMem
    · exact absurd hMem (by decide)
  · exact (h.metric label metric hPair).1 hMem

/-- The reading side listens to the configs of the exporter and takes them for configs. -/
theorem listensTo_configTopic (h : u.Clear U) (hPair : U label metric) :
    listensTo u.into (u.out.configTopic label metric) = true := by
  have hTopic : u.out.configTopic label metric = u.out.haDiscoveryPrefix ++ "/" ++
      ("sensor" ++ "/" ++
        (u.out.haNodeId ++ "/" ++ (objectId label metric ++ "/" ++ "config"))) := by
    apply String.toList_injective
    simp [MqttExporter.configTopic, String.toList_append]
  have hFilter : u.into.haDiscoveryPrefix ++ "/+/+/+/config" =
      u.out.haDiscoveryPrefix ++ "/" ++ "+/+/+/config" := by
    apply String.toList_injective
    simp [h.samePrefix, String.toList_append]
  rw [listensTo, h.listens, Bool.true_and, List.any_eq_true]
  refine ⟨u.into.haDiscoveryPrefix ++ "/+/+/+/config", by simp [haConfigTopics], ?_⟩
  rw [hFilter, hTopic, split_append_cons, split_append_cons]
  apply matchesFilter_append
  rw [split_append_cons, split_append_cons, split_append_cons, split_of_notMem h.node,
    split_of_notMem (slash_notMem_objectId h hPair), split_of_notMem (s := "sensor") (by decide),
    split_of_notMem (s := "config") (by decide)]
  rfl

theorem isConfigTopic_configTopic (h : u.Clear U) :
    isConfigTopic u.into (u.out.configTopic label metric) = true := by
  rw [isConfigTopic, h.listens, Bool.true_and, Bool.and_eq_true]
  constructor
  · have hTopic : u.out.configTopic label metric = u.into.haDiscoveryPrefix ++ "/" ++
        ("sensor/" ++ u.out.haNodeId ++ "/" ++ objectId label metric ++ "/config") := by
      apply String.toList_injective
      simp [MqttExporter.configTopic, h.samePrefix, String.toList_append]
    rw [hTopic]
    exact PyText.startsWith_append _ _
  · rw [PyText.endsWith, MqttExporter.configTopic, String.toList_append]
    exact List.isSuffixOf_iff_suffix.mpr (List.suffix_append _ _)

theorem get?_append (xs ys : Fields) (name : String) :
    Json.get? (xs ++ ys) name = (Json.get? ys name).or (Json.get? xs name) := by
  rw [Json.get?, Json.get?, Json.get?, List.reverse_append, List.find?_append, Option.map_or]

/-- What Home Assistant is told of a metric's kind has three names at most. -/
theorem haSensorMeta_names (metric : String) : ∀ field ∈ haSensorMeta metric,
    field.1 ∈ ["device_class", "unit_of_measurement", "state_class"] := by
  unfold haSensorMeta WattPost.Export.Mqtt.sensorMeta
  dsimp only
  split_ifs <;> decide

theorem get?_sensorMeta {name : String}
    (hName : name ∉ ["device_class", "unit_of_measurement", "state_class"]) (metric : String) :
    Json.get? ((haSensorMeta metric).map fun field => (field.1, Json.str field.2)) name = none := by
  rw [Json.get?, Option.map_eq_none_iff, List.find?_eq_none]
  intro field hField hEq
  obtain ⟨field', hField', rfl⟩ := List.mem_map.mp (List.mem_reverse.mp hField)
  exact hName ((of_decide_eq_true hEq) ▸ haSensorMeta_names metric field' hField')

theorem objectId_ne_empty (label metric : String) : objectId label metric ≠ "" := by
  intro h
  have hMem : '_' ∈ (objectId label metric).toList := by
    rw [objectId, String.toList_append, String.toList_append]
    exact List.mem_append_left _ (List.mem_append_right _ (by decide))
  rw [h] at hMem
  cases hMem

theorem topic_ne_empty (label name : String) : x.topic label name ≠ "" := by
  intro h
  have hMem : '/' ∈ (x.topic label name).toList := by
    rw [toList_topic]
    exact List.mem_append_right _ List.mem_cons_self
  rw [h] at hMem
  cases hMem

theorem dumps_obj_ne_empty (fields : Fields) : dumps (.obj fields) ≠ "" := by
  intro h
  have hText := congrArg String.toList h
  rw [dumps, String.toList_ofList, WattPost.Cloud.JsonText.encode] at hText
  cases hText

theorem get?_aboutField {data : Dict Json} {key name name' : String} (h : name' ≠ name) :
    Json.get? (MqttExporter.aboutField data key name) name' = none := by
  unfold MqttExporter.aboutField
  split
  · split
    · rfl
    · simp [Json.get?, Ne.symm h]
  · rfl

theorem get?_identifiers (label : String) (data : Dict Json) :
    Json.get? (x.deviceBlock label data) "identifiers" =
      some (.arr [.str (x.identifier label)]) := by
  rw [MqttExporter.deviceBlock, get?_append, get?_append, get?_append,
    get?_aboutField (by decide), get?_aboutField (by decide), get?_aboutField (by decide)]
  rfl

theorem get?_config {name : String} {v : Json} {data : Dict Json}
    (hName : name ∉ ["device_class", "unit_of_measurement", "state_class"])
    (hGet : Json.get? (x.ownFields label metric data) name = some v) :
    Json.get? (x.configFields label metric data) name = some v := by
  rw [MqttExporter.configFields, get?_append, get?_sensorMeta hName, Option.none_or, hGet]

theorem pyOr_of_truthy {a : Option Json} (h : Json.truthy a = true) (b : Option Json) :
    pyOr a b = a := if_pos h

/-- What the reading side makes of a config of the exporter. -/
theorem entityOf_config (data : Dict Json) (configTopic : String) :
    entityOf u.host configTopic (some (u.out.config label metric data)) =
      some
        { stateTopic := u.out.topic label metric
          route := u.route label metric
          about := aboutDevice u.host (u.out.deviceBlock label data) } := by
  have hState : Json.get? (u.out.configFields label metric data) "state_topic" =
      some (.str (u.out.topic label metric)) := get?_config (by decide) rfl
  have hTemplate : Json.get? (u.out.configFields label metric data) "value_template" =
      some (.str "\x7b\x7b value \x7d\x7d") := get?_config (by decide) rfl
  have hDevice : Json.get? (u.out.configFields label metric data) "device" =
      some (.obj (u.out.deviceBlock label data)) := get?_config (by decide) rfl
  have hObject : Json.get? (u.out.configFields label metric data) "object_id" =
      some (.str (objectId label metric)) := get?_config (by decide) rfl
  have hTopic : Json.truthy (some (.str (u.out.topic label metric))) = true :=
    bne_iff_ne.mpr (topic_ne_empty label metric)
  have hId : Json.truthy (some (.str (objectId label metric))) = true :=
    bne_iff_ne.mpr (objectId_ne_empty label metric)
  have hUsable : parseValueTemplate u.host (some (.str "\x7b\x7b value \x7d\x7d")) =
      .supported "raw" "" := rfl
  have hFields : deviceFields (u.out.configFields label metric data) =
      some (u.out.deviceBlock label data) := by
    rw [deviceFields, hDevice]
    rfl
  have hSeed : labelSeed u.host configTopic (u.out.configFields label metric data)
      (u.out.deviceBlock label data) = some (u.out.identifier label) := by
    rw [labelSeed, get?_identifiers]
    rfl
  have hMetric : metricSeed u.host (u.out.configFields label metric data) =
      objectId label metric := by
    rw [metricSeed, hObject, pyOr_of_truthy hId]
    exact if_pos hId
  rw [MqttExporter.config, entityOf, hState, pyOr_of_truthy hTopic]
  dsimp only
  rw [if_neg (topic_ne_empty label metric), hTemplate, pyOr_of_truthy rfl, hUsable]
  dsimp only
  rw [hFields, Option.bind_some, hSeed, hMetric]
  rfl

/-- The config of a metric announces its topic and where its values arrive. -/
theorem announcement_config (data : Dict Json) (now : ℚ) :
    announcement u.host
      ⟨u.out.configTopic label metric, (u.packet (.json (u.out.config label metric data))).message,
        (u.packet (.json (u.out.config label metric data))).config, now⟩ =
      some (u.out.topic label metric, u.route label metric) := by
  have hText : dumps (u.out.config label metric data) ≠ "" := dumps_obj_ne_empty _
  refine (if_neg hText).trans ?_
  show Option.map _ (entityOf u.host _ (some (u.out.config label metric data))) = _
  rw [entityOf_config]
  rfl

/-! ### Numbers -/

/-- The value that a JSON number is read as; a float that is no number is read as a text. -/
def numberOf : Json → Option PyScalar
  | .int n => some (.int n)
  | .float literal =>
      if literal.toList.all Json.numeralChar ∧ literal.toList.any (fun c => c = '.' || c = 'e')
      then (PyFloat.ofText literal).map .float
      else none
  | _ => none

theorem isSpace_of_numeralChar {c : Char} (h : Json.numeralChar c = true) :
    PyText.isSpace c = false := by
  rw [Json.numeralChar, Bool.or_eq_true, List.contains_iff_mem] at h
  rcases h with hDigit | hMark
  · have hRange := PyText.digit_range hDigit
    exact PyText.isSpace_of_range ⟨by omega, by omega⟩
  · simp only [List.mem_cons, List.not_mem_nil, or_false] at hMark
    rcases hMark with rfl | rfl | rfl | rfl <;> decide

theorem strip_numeral {s : String} (h : ∀ c ∈ s.toList, Json.numeralChar c = true) :
    PyText.strip s = s := by
  conv_lhs => rw [← String.ofList_toList (s := s)]
  rw [PyText.strip_ofList fun c hc => isSpace_of_numeralChar (h c hc), String.ofList_toList]

theorem toInt_eq (s : String) :
    PyText.toInt s = (PyText.digitsValue (PyText.signAndRest (PyText.strip s).toList).2).map
      fun n => (PyText.signAndRest (PyText.strip s).toList).1 * n := rfl

theorem toInt_toString (n : Int) : PyText.toInt (toString n) = some n := by
  rw [toInt_eq, strip_numeral fun c hc => Json.numeralChar_toString_int hc,
    Json.toList_toString_int]
  split_ifs with hPos
  · have hSign : PyText.signAndRest n.toNat.repr.toList = (1, n.toNat.repr.toList) :=
      PyNumber.signAndRest_plain fun c hc =>
        PyNumber.isPlain_of_isDigit (PyText.isDigit_of_mem_repr hc)
    rw [hSign, PyNumber.digitsValue_repr]
    show some (1 * (n.toNat : Int)) = some n
    rw [one_mul, Int.toNat_of_nonneg hPos]
  · have hSign : PyText.signAndRest ('-' :: (-n).toNat.repr.toList) =
        (-1, (-n).toNat.repr.toList) := rfl
    rw [hSign, PyNumber.digitsValue_repr]
    show some (-1 * ((-n).toNat : Int)) = some n
    rw [Option.some.injEq]
    omega

theorem contains_singleton (s : String) (c : Char) :
    PyText.contains s (String.ofList [c]) = decide (c ∈ s.toList) := by
  rw [PyText.contains, String.toList_ofList]
  exact decide_eq_decide.mpr (List.singleton_infix_iff ..)

/-- The characters of numbers are no capitals. -/
theorem lower_numeral {s : String} (h : ∀ c ∈ s.toList, Json.numeralChar c = true) :
    PyText.lower s = s := by
  have hSame : s.toList.map Char.toLower = s.toList := by
    conv_rhs => rw [← List.map_id s.toList]
    refine List.map_congr_left fun c hc => ?_
    have hNumeral := h c hc
    rw [Json.numeralChar, Bool.or_eq_true, List.contains_iff_mem] at hNumeral
    rcases hNumeral with hDigit | hMark
    · have hRange := PyText.digit_range hDigit
      refine dif_neg fun hUpper => ?_
      have hLow := UInt32.le_iff_toNat_le.mp hUpper.1
      change 65 ≤ c.toNat at hLow
      omega
    · simp only [List.mem_cons, List.not_mem_nil, or_false] at hMark
      rcases hMark with rfl | rfl | rfl | rfl <;> rfl
  rw [PyText.lower, hSame, String.ofList_toList]

theorem coerceText_numeral {s : String} (h : ∀ c ∈ s.toList, Json.numeralChar c = true)
    (hSome : s ≠ "") :
    coerceText (.utf8 s) =
      if s.toList.any (fun c => c = '.' || c = 'e') then
        some ((PyFloat.ofText s).elim (.text (.utf8 s)) .float)
      else some ((PyText.toInt s).elim (.text (.utf8 s)) .int) := by
  have hMarks : (PyText.contains s "." || PyText.contains s "e") =
      s.toList.any (fun c => c = '.' || c = 'e') := by
    rw [show "." = String.ofList ['.'] from rfl, show "e" = String.ofList ['e'] from rfl,
      contains_singleton, contains_singleton, Bool.eq_iff_iff, List.any_eq_true]
    simp only [Bool.or_eq_true, decide_eq_true_eq]
    constructor
    · rintro (hPoint | hExponent)
      · exact ⟨'.', hPoint, Or.inl rfl⟩
      · exact ⟨'e', hExponent, Or.inr rfl⟩
    · rintro ⟨c, hc, rfl | rfl⟩
      · exact Or.inl hc
      · exact Or.inr hc
  rw [coerceText, strip_numeral h, if_neg hSome, lower_numeral h, hMarks]

theorem not_mark_toString (n : Int) :
    (toString n).toList.any (fun c => c = '.' || c = 'e') = false := by
  rw [List.any_eq_false]
  intro c hc hMark
  rcases Json.mem_toString_int hc with hDigit | rfl
  · have hRange := PyText.digit_range hDigit
    rcases Bool.or_eq_true_iff.mp hMark with hPoint | hExponent
    · rw [of_decide_eq_true hPoint] at hRange
      exact absurd hRange.1 (by decide)
    · rw [of_decide_eq_true hExponent] at hRange
      exact absurd hRange.2 (by decide)
  · exact absurd hMark (by decide)

/-- A number is read back as it was. -/
theorem extracted_number {v : Json} {number : PyScalar} (h : numberOf v = some number) :
    extracted (u.route label metric) (u.packet (.json v)).message = some number := by
  have hText : ∀ s, s ≠ "" → dumps v = s → coerceText (.utf8 s) = some number →
      extracted (u.route label metric) (u.packet (.json v)).message = some number := by
    intro s hSome hDumps hCoerced
    show coerceValue (if dumps v = "" then none else some (.str (.utf8 (dumps v)))) = _
    rw [hDumps, if_neg hSome]
    exact hCoerced
  cases v with
  | int n =>
      have hNumeral : ∀ c ∈ (toString n).toList, Json.numeralChar c = true :=
        fun c hc => Json.numeralChar_toString_int hc
      have hSome : toString n ≠ "" := by
        intro hEmpty
        have hNone := toInt_toString n
        rw [hEmpty, show PyText.toInt "" = none by decide] at hNone
        cases hNone
      refine hText (toString n) hSome ?_ ?_
      · rw [dumps, WattPost.Cloud.JsonText.encode, String.ofList_toList]
      · rw [coerceText_numeral hNumeral hSome, not_mark_toString, if_neg Bool.false_ne_true,
          toInt_toString]
        exact h
  | float literal =>
      rw [numberOf] at h
      split_ifs at h with hNumber
      obtain ⟨hAll, hMark⟩ := hNumber
      have hNumeral := List.all_eq_true.mp hAll
      have hSome : literal ≠ "" := by
        rintro rfl
        exact absurd hMark (by decide)
      refine hText literal hSome ?_ ?_
      · rw [dumps, WattPost.Cloud.JsonText.encode, Json.floatText_numeral hNumeral,
          String.ofList_toList]
      · rw [coerceText_numeral hNumeral hSome, if_pos hMark]
        obtain ⟨x, hx, rfl⟩ := Option.map_eq_some_iff.mp h
        rw [hx]
        rfl
  | _ => cases h

end WattPost.MqttIn.Setup
