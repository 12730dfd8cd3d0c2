import Mathlib.Data.List.Sort
import WattPost.Lib.Exposition
import WattPost.Lib.Grouping
import WattPost.Lib.MapM

/-! The Prometheus exporter: the page that is rendered of the latest poll result. Metric
names are sanitised and share their prefix with the metrics of the exporter itself, so two
of them can meet; labels are escaped and cannot. -/
namespace WattPost.Export

open Exposition Grouping PyDict

/-! ### Poll results -/

/-- A metric of a device. -/
inductive MetricVal (F : Type) where
  | bool (b : Bool)
  | int (n : Int)
  | float (x : F)
  | other

/-- What the exporter asks of Python's floats: `float` of a bool and of an int, which may
overflow, `repr`, and the age `max(0.0, now - ts)`. -/
structure FloatText (F : Type) where
  ofBool : Bool → F
  ofInt : Int → Option F
  repr : F → String
  age : F → F → F

/-- What `repr` gives is read back as the same float, and is on one line. -/
structure FloatText.Reads {F : Type} (text : FloatText F) (read : List Char → Option F) :
    Prop where
  read_repr : ∀ x, read (text.repr x).toList = some x
  plain : ∀ x, '\n' ∉ (text.repr x).toList

/-- A poll result; what is no dictionary has no metrics. -/
structure PollDoc (F : Type) where
  timestamp : MetricVal F
  devices : Dict (Option (Dict (MetricVal F)))

variable {F : Type}

def PollDoc.empty : PollDoc F := ⟨.other, Dict.empty⟩

/-- The float of a numeric value, if it has one. -/
def MetricVal.asFloat (text : FloatText F) : MetricVal F → Option (Option F)
  | .bool b => some (some (text.ofBool b))
  | .int n => some (text.ofInt n)
  | .float x => some (some x)
  | .other => none

/-! ### Rendering -/

/-- `_sanitize_name`. -/
def sanitizeName (s : String) : String :=
  match s.toList.map fun c => if isNameChar c then c else '_' with
  | [] => "_"
  | c :: rest => String.ofList (if c.isDigit then '_' :: c :: rest else c :: rest)

/-- `s.replace(c, new)`. -/
def replaceChar (c : Char) (new : List Char) (cs : List Char) : List Char :=
  cs.flatMap fun x => if x = c then new else [x]

/-- `_escape_label`. -/
def escapeLabel (s : String) : String :=
  String.ofList (replaceChar '\n' ['\\', 'n'] (replaceChar '"' ['\\', '"']
    (replaceChar '\\' ['\\', '\\'] s.toList)))

/-- The prefix in force. -/
def pagePrefix (metricPrefix : String) : String :=
  let name := sanitizeName metricPrefix
  if name = "" then "wattpost" else name

def fullName (pre name : String) : String := pre ++ "_" ++ name

def metricName (pre key : String) : String := fullName pre (sanitizeName key)

def sampleText (text : FloatText F) (metric label : String) (x : F) : String :=
  metric ++ "\x7bdevice=\"" ++ escapeLabel label ++ "\"\x7d " ++ text.repr x

/-- The metrics of all devices, with their labels. -/
def metricsOf (doc : PollDoc F) : List (String × String × MetricVal F) :=
  doc.devices.entries.flatMap fun d =>
    d.2.elim [] fun data => data.entries.map fun e => (d.1, e.1, e.2)

/-- The value of a metric that is shown; `none` inside is the `OverflowError`. -/
def shownValue (text : FloatText F) (key : String) (val : MetricVal F) : Option (Option F) :=
  if PyText.startsWith key "_" then none else val.asFloat text

/-- One step of the inner loop. -/
def addMetric (text : FloatText F) (pre : String) (grouped : Dict (List String))
    (e : String × String × MetricVal F) : Option (Dict (List String)) :=
  match shownValue text e.2.1 e.2.2 with
  | none => some grouped
  | some none => none
  | some (some x) =>
      let metric := metricName pre e.2.1
      some (collect grouped (metric, sampleText text metric e.1 x))

/-- The lines of a metric of the exporter itself. -/
def builtin (pre name help value : String) : List String :=
  ["# HELP " ++ fullName pre name ++ " " ++ help,
    "# TYPE " ++ fullName pre name ++ " gauge",
    fullName pre name ++ " " ++ value]

def upLines (pre : String) : List String :=
  builtin pre "up" "1 if the exporter is serving metrics." "1"

def stampLines (text : FloatText F) (pre : String) (now ts : F) : List String :=
  builtin pre "last_poll_timestamp_seconds" "Unix time of the last poll." (text.repr ts) ++
    builtin pre "poll_age_seconds" "Seconds since the last poll at scrape time."
      (text.repr (text.age now ts))

/-- The lines about the time of the poll, if it has a numeric one. -/
def stampsOf (text : FloatText F) (pre : String) (now : F) (ts : MetricVal F) :
    Option (List String) :=
  match ts.asFloat text with
  | none => some []
  | some none => none
  | some (some t) => some (stampLines text pre now t)

/-- The lines of the grouped metrics. -/
def groupLines (grouped : Dict (List String)) : List String :=
  (grouped.keys.insertionSort (· ≤ ·)).flatMap fun metric =>
    ("# TYPE " ++ metric ++ " gauge") :: (grouped.get metric).getD []

/-- Every line with its line feed. -/
def unlines (lines : List String) : String := lines.foldr (fun line rest => line ++ "\n" ++ rest) ""

/-- `render_openmetrics`; `none` is the `OverflowError`. -/
def renderOpenmetrics (text : FloatText F) (result : Option (PollDoc F)) (metricPrefix : String)
    (now : F) : Option String := do
  let pre := pagePrefix metricPrefix
  let doc := result.getD .empty
  let grouped ← (metricsOf doc).foldlM (addMetric text pre) Dict.empty
  let stamps ← stampsOf text pre now doc.timestamp
  some (unlines (upLines pre ++ stamps ++ groupLines grouped))

/-! ### What a page is for -/

/-- The samples with a label are of devices of the result, and every shown metric of every
device has its sample. -/
structure Shows (text : FloatText F) (read : List Char → Option F) (pre : String)
    (doc : PollDoc F) (lines : List Line) : Prop where
  labels : ∀ name key label value, .sample name (some (key, label)) value ∈ lines →
    key = "device".toList ∧ ∃ device ∈ doc.devices.keys, label = device.toList
  values : ∀ device data, (device, some data) ∈ doc.devices.entries →
    ∀ key val x, (key, val) ∈ data.entries → PyText.startsWith key "_" = false →
      val.asFloat text = some (some x) →
        ∃ value, .sample (metricName pre key).toList (some ("device".toList, device.toList)) value ∈
          lines ∧ read value = some x

/-- The page can be read, is well formed, and shows the result. -/
def PageFaithful (text : FloatText F) (read : List Char → Option F) (result : Option (PollDoc F))
    (metricPrefix : String) (now : F) : Prop :=
  ∃ page lines, renderOpenmetrics text result metricPrefix now = some page ∧
    readPage page.toList = some lines ∧ Exposition.WellFormed lines ∧
    Shows text read (pagePrefix metricPrefix) (result.getD .empty) lines

/-- The keys of a device that are shown. -/
def shownKeys (text : FloatText F) (data : Dict (MetricVal F)) : List String :=
  (data.entries.filter fun e => (shownValue text e.1 e.2).isSome).map Prod.fst

/-- The names that the exporter uses itself. -/
def reservedNames (text : FloatText F) (doc : PollDoc F) : List String :=
  "up" :: (doc.timestamp.asFloat text).elim [] fun _ =>
    ["last_poll_timestamp_seconds", "poll_age_seconds"]

/-- The integers are in the range of floats, the shown keys of a device stay apart when
they are sanitised, and none becomes a name of the exporter. -/
structure Unambiguous (text : FloatText F) (doc : PollDoc F) : Prop where
  fits : doc.timestamp.asFloat text ≠ some none ∧
    ∀ e ∈ metricsOf doc, shownValue text e.2.1 e.2.2 ≠ some none
  apart : ∀ device data, (device, some data) ∈ doc.devices.entries →
    ∀ k ∈ shownKeys text data, ∀ k' ∈ shownKeys text data, sanitizeName k = sanitizeName k' → k = k'
  reserved : ∀ device data, (device, some data) ∈ doc.devices.entries →
    ∀ k ∈ shownKeys text data, sanitizeName k ∉ reservedNames text doc

/-! ### Names and labels -/

theorem isName_sanitizeName (s : String) : IsName (sanitizeName s).toList := by
  have hChars : ∀ c ∈ s.toList.map (fun c => if isNameChar c then c else '_'),
      isNameChar c = true := by
    intro c hc
    obtain ⟨x, _, rfl⟩ := List.mem_map.mp hc
    split_ifs with h
    · exact h
    · decide
  unfold sanitizeName
  split
  next => exact ⟨List.all_eq_true.mp (by decide), '_', [], rfl, by decide⟩
  next c rest hName =>
    rw [hName] at hChars
    rw [String.toList_ofList]
    split_ifs with hDigit
    · refine ⟨fun x hx => ?_, '_', _, rfl, by decide⟩
      rcases List.mem_cons.mp hx with rfl | hx
      · decide
      · exact hChars x hx
    · exact ⟨hChars, c, rest, rfl, by simpa using hDigit⟩

theorem isName_pagePrefix (metricPrefix : String) : IsName (pagePrefix metricPrefix).toList := by
  unfold pagePrefix
  dsimp only
  split_ifs
  · exact ⟨List.all_eq_true.mp (by decide), 'w', _, rfl, by decide⟩
  · exact isName_sanitizeName metricPrefix

/-- Three replacements, one after another, escape each character once. -/
theorem toList_escapeLabel (label : String) : (escapeLabel label).toList = escape label.toList := by
  rw [escapeLabel, String.toList_ofList, replaceChar, replaceChar, replaceChar, escape,
    List.flatMap_assoc, List.flatMap_assoc]
  refine List.flatMap_congr fun c _ => ?_
  unfold escapeChar
  by_cases hSlash : c = '\\'
  · subst hSlash
    decide
  by_cases hQuote : c = '"'
  · subst hQuote
    decide
  by_cases hFeed : c = '\n'
  · subst hFeed
    decide
  simp [hSlash, hQuote, hFeed]

/-! ### The grouped metrics -/

section Grouped

variable {text : FloatText F} {pre : String}

/-- The samples that are shown: the metric name, the label of the device and the value. -/
def samplesOf (text : FloatText F) (pre : String) (metrics : List (String × String × MetricVal F)) :
    List (String × String × F) :=
  metrics.filterMap fun e =>
    (shownValue text e.2.1 e.2.2).join.map fun x => (metricName pre e.2.1, e.1, x)

/-- A sample under its metric name, as it is collected. -/
def collected (text : FloatText F) (s : String × String × F) : String × String :=
  (s.1, sampleText text s.1 s.2.1 s.2.2)

/-- The loops collect the samples where no value overflows. -/
theorem foldlM_addMetric {metrics : List (String × String × MetricVal F)}
    (hFits : ∀ e ∈ metrics, shownValue text e.2.1 e.2.2 ≠ some none)
    (grouped : Dict (List String)) :
    metrics.foldlM (addMetric text pre) grouped =
      some (((samplesOf text pre metrics).map (collected text)).foldl collect grouped) := by
  induction metrics generalizing grouped with
  | nil => rfl
  | cons e metrics ih =>
      obtain ⟨hFirst, hRest⟩ := List.forall_mem_cons.mp hFits
      rw [List.foldlM_cons, addMetric, samplesOf, List.filterMap_cons]
      rcases hShown : shownValue text e.2.1 e.2.2 with _ | _ | x
      · exact ih hRest grouped
      · exact absurd hShown hFirst
      · exact ih hRest _

/-- A value that overflows ends them. -/
theorem fits_of_foldlM {metrics : List (String × String × MetricVal F)}
    {grouped after : Dict (List String)}
    (h : metrics.foldlM (addMetric text pre) grouped = some after) :
    ∀ e ∈ metrics, shownValue text e.2.1 e.2.2 ≠ some none := by
  induction metrics generalizing grouped with
  | nil => exact fun _ hMem => absurd hMem List.not_mem_nil
  | cons e metrics ih =>
      rw [List.foldlM_cons, addMetric] at h
      refine List.forall_mem_cons.mpr ⟨?_, ?_⟩
      · intro hOver
        rw [hOver] at h
        cases h
      · rcases hShown : shownValue text e.2.1 e.2.2 with _ | _ | x
        · rw [hShown] at h
          exact ih h
        · rw [hShown] at h
          cases h
        · rw [hShown] at h
          exact ih h

theorem foldlM_addMetric_empty {metrics : List (String × String × MetricVal F)}
    (hFits : ∀ e ∈ metrics, shownValue text e.2.1 e.2.2 ≠ some none) :
    metrics.foldlM (addMetric text pre) Dict.empty =
      some (collectAll ((samplesOf text pre metrics).map (collected text))) :=
  foldlM_addMetric hFits Dict.empty

/-- The metric names in the order of the page. -/
def pageNames (samples : List (String × String × F)) (text : FloatText F) : List String :=
  (collectAll (samples.map (collected text))).keys.insertionSort (· ≤ ·)

theorem mem_pageNames {samples : List (String × String × F)} {m : String} :
    m ∈ pageNames samples text ↔ m ∈ samples.map Prod.fst := by
  rw [pageNames, (List.perm_insertionSort _ _).mem_iff, mem_keys_collectAll, List.map_map]
  rfl

theorem nodup_pageNames (samples : List (String × String × F)) : (pageNames samples text).Nodup :=
  (List.perm_insertionSort _ _).nodup_iff.mpr (Dict.nodup _)

/-- A sample as it is read. -/
def sampleLine (text : FloatText F) (s : String × String × F) : Line :=
  .sample s.1.toList (some ("device".toList, s.2.1.toList)) (text.repr s.2.2).toList

/-- The lines of the grouped metrics, as they are read. -/
def groupedLines (text : FloatText F) (samples : List (String × String × F)) : List Line :=
  (pageNames samples text).flatMap fun m =>
    .type m.toList :: (samples.filter fun s => s.1 = m).map (sampleLine text)

theorem typeNames_groupedLines (samples : List (String × String × F)) :
    typeNames (groupedLines text samples) = (pageNames samples text).map String.toList := by
  have hOne : ∀ m, typeNames (.type m.toList ::
      (samples.filter fun s => s.1 = m).map (sampleLine text)) = [m.toList] := by
    intro m
    have hNone : typeNames ((samples.filter fun s => s.1 = m).map (sampleLine text)) = [] := by
      rw [typeNames, List.filterMap_map, List.filterMap_eq_nil_iff]
      exact fun _ _ => rfl
    rw [typeNames, List.filterMap_cons]
    exact congrArg (m.toList :: ·) hNone
  rw [groupedLines, typeNames, List.filterMap_flatMap, List.map_eq_flatMap]
  exact List.flatMap_congr fun m _ => hOne m

/-- The samples of the page are those that are shown, in another order. -/
theorem sampleIds_groupedLines (samples : List (String × String × F)) :
    (sampleIds (groupedLines text samples)).Perm
      (samples.map fun s => (s.1.toList, some ("device".toList, s.2.1.toList))) := by
  have hOne : ∀ m, sampleIds (.type m.toList ::
      (samples.filter fun s => s.1 = m).map (sampleLine text)) =
        (samples.filter fun s => s.1 = m).map
          fun s => (s.1.toList, some ("device".toList, s.2.1.toList)) := by
    intro m
    rw [sampleIds, List.filterMap_cons, List.filterMap_map]
    change List.filterMap (some ∘ fun s : String × String × F =>
      (s.1.toList, some ("device".toList, s.2.1.toList))) _ = _
    rw [List.filterMap_eq_map]
  have hAll : ∀ s ∈ samples, s.1 ∈ pageNames samples text := fun s hs =>
    mem_pageNames.mpr (List.mem_map_of_mem hs)
  rw [groupedLines, sampleIds, List.filterMap_flatMap]
  have hNodup : (pageNames samples text).Nodup := nodup_pageNames samples
  have hMap := (flatMap_valuesOf_perm hNodup samples hAll).map fun s =>
    (s.1.toList, some ("device".toList, s.2.1.toList))
  rw [List.map_flatMap] at hMap
  refine List.Perm.trans (List.Perm.of_eq ?_) hMap
  exact List.flatMap_congr fun m _ => hOne m

theorem mem_groupedLines {samples : List (String × String × F)} {name : List Char}
    {label : Option (List Char × List Char)} {value : List Char} :
    .sample name label value ∈ groupedLines text samples ↔
      ∃ s ∈ samples, .sample name label value = sampleLine text s := by
  rw [groupedLines, List.mem_flatMap]
  constructor
  · rintro ⟨m, _, hLine⟩
    rcases List.mem_cons.mp hLine with hType | hSample
    · cases hType
    · obtain ⟨s, hs, hEq⟩ := List.mem_map.mp hSample
      exact ⟨s, List.mem_of_mem_filter hs, hEq.symm⟩
  · rintro ⟨s, hs, hEq⟩
    refine ⟨s.1, mem_pageNames.mpr (List.mem_map_of_mem hs), List.mem_cons_of_mem _ ?_⟩
    rw [hEq]
    exact List.mem_map_of_mem (List.mem_filter.mpr ⟨hs, decide_eq_true rfl⟩)

end Grouped

/-! ### The page as it is read -/

section Page

variable {text : FloatText F} {read : List Char → Option F} {pre : String}

/-- Strings that are read as lines, and have no line feed. -/
def ReadAs (strings : List String) (lines : List Line) : Prop :=
  List.Forall₂ (fun s line => readLine s.toList = some line ∧ '\n' ∉ s.toList) strings lines

theorem ReadAs.append {xs ys : List String} {ls ms : List Line} (h : ReadAs xs ls)
    (h' : ReadAs ys ms) : ReadAs (xs ++ ys) (ls ++ ms) := List.rel_append h h'

theorem toList_unlines (strings : List String) :
    (unlines strings).toList = (strings.map String.toList).flatMap fun line => line ++ ['\n'] := by
  induction strings with
  | nil => rfl
  | cons s strings ih =>
      rw [unlines, List.foldr_cons, String.toList_append, String.toList_append, List.map_cons,
        List.flatMap_cons]
      exact congrArg (_ ++ ·) ih

theorem readPage_unlines {strings : List String} {lines : List Line} (h : ReadAs strings lines) :
    readPage (unlines strings).toList = some lines := by
  have hFeed : ∀ line ∈ strings.map String.toList, '\n' ∉ line := by
    induction h with
    | nil => exact fun _ hMem => absurd hMem List.not_mem_nil
    | cons hHead _ ih => exact List.forall_mem_cons.mpr ⟨hHead.2, ih⟩
  rw [toList_unlines, readPage_lines hFeed]
  induction h with
  | nil => rfl
  | cons hHead _ ih =>
      have hRest := ih fun line hLine => hFeed line (List.mem_cons_of_mem _ hLine)
      exact mapM_cons_eq_some.mpr ⟨_, hHead.1, _, hRest, rfl⟩

theorem isName_fullName (hPre : IsName pre.toList) {name : String}
    (hName : ∀ c ∈ name.toList, isNameChar c = true) : IsName (fullName pre name).toList := by
  rw [fullName, String.toList_append, String.toList_append, List.append_assoc]
  refine hPre.append fun c hc => ?_
  rcases List.mem_append.mp hc with hc | hc
  · obtain rfl := List.mem_singleton.mp hc
    decide
  · exact hName c hc

theorem readAs_type {m : String} (h : IsName m.toList) :
    ReadAs ["# TYPE " ++ m ++ " gauge"] [.type m.toList] := by
  refine .cons ⟨?_, ?_⟩ .nil
  · rw [String.toList_append, String.toList_append, List.append_assoc]
    exact readLine_type h "gauge".toList
  · have hNone := h.noFeed
    simp [hNone]

/-- The three lines of a metric of the exporter itself. -/
theorem readAs_builtin (hPre : IsName pre.toList) {name help value : String}
    (hName : ∀ c ∈ name.toList, isNameChar c = true) (hHelp : '\n' ∉ help.toList)
    (hValue : '\n' ∉ value.toList) :
    ReadAs (builtin pre name help value) [.comment, .type (fullName pre name).toList,
      .sample (fullName pre name).toList none value.toList] := by
  have hFull := isName_fullName hPre hName
  have hNone := hFull.noFeed
  have hComment : ReadAs ["# HELP " ++ fullName pre name ++ " " ++ help] [.comment] := by
    refine .cons ⟨?_, ?_⟩ .nil
    · rw [String.toList_append, String.toList_append, String.toList_append, List.append_assoc,
        List.append_assoc]
      rfl
    · simp [hNone, hHelp]
  have hSample : ReadAs [fullName pre name ++ " " ++ value]
      [.sample (fullName pre name).toList none value.toList] := by
    refine .cons ⟨?_, ?_⟩ .nil
    · rw [String.toList_append, String.toList_append, List.append_assoc]
      exact readLine_bare hFull value.toList
    · simp [hNone, hValue]
  exact hComment.append ((readAs_type hFull).append hSample)

theorem readAs_sample (hReads : text.Reads read) {s : String × String × F}
    (hName : IsName s.1.toList) : ReadAs [(collected text s).2] [sampleLine text s] := by
  have hNone := hName.noFeed
  have hLabel := escape_noFeed s.2.1.toList
  have hValue := hReads.plain s.2.2
  have hText : (sampleText text s.1 s.2.1 s.2.2).toList = s.1.toList ++ '\x7b' ::
      ("device".toList ++ '=' :: '"' :: (escape s.2.1.toList ++ '"' :: '\x7d' :: ' ' ::
        (text.repr s.2.2).toList)) := by
    simp [sampleText, toList_escapeLabel]
  have hDevice : IsName "device".toList := 
    ⟨List.all_eq_true.mp (by decide), 'd', _, rfl, by decide⟩
  refine .cons ⟨?_, ?_⟩ .nil
  · rw [collected, hText]
    exact readLine_labelled hName hDevice _ _
  · rw [collected, hText]
    simp [hNone, hLabel, hValue]

theorem readAs_groupLines (hReads : text.Reads read) {samples : List (String × String × F)}
    (hNames : ∀ s ∈ samples, IsName s.1.toList) :
    ReadAs (groupLines (collectAll (samples.map (collected text))))
      (groupedLines text samples) := by
  have hMetric : ∀ m ∈ pageNames samples text,
      ReadAs (("# TYPE " ++ m ++ " gauge") ::
          ((collectAll (samples.map (collected text))).get m).getD [])
        (.type m.toList :: (samples.filter fun s => s.1 = m).map (sampleLine text)) := by
    intro m hm
    obtain ⟨s, hs, rfl⟩ := List.mem_map.mp (mem_pageNames.mp hm)
    have hSub : ∀ t ∈ samples.filter (fun t => t.1 = s.1), IsName t.1.toList := fun t ht =>
      hNames t (List.mem_of_mem_filter ht)
    have hValues : ((collectAll (samples.map (collected text))).get s.1).getD [] =
        (samples.filter fun t => t.1 = s.1).map fun t => (collected text t).2 := by
      rw [getD_collectAll, valuesOf, List.filter_map, List.map_map]
      rfl
    have hSamples : ReadAs ((samples.filter fun t => t.1 = s.1).map fun t => (collected text t).2)
        ((samples.filter fun t => t.1 = s.1).map (sampleLine text)) := by
      generalize samples.filter (fun t => t.1 = s.1) = rows at hSub
      induction rows with
      | nil => exact .nil
      | cons t rows ih =>
          obtain ⟨hFirst, hRest⟩ := List.forall_mem_cons.mp hSub
          exact (readAs_sample hReads hFirst).append (ih hRest)
    rw [hValues]
    exact (readAs_type (hNames s hs)).append hSamples
  rw [groupLines, groupedLines]
  change ReadAs ((pageNames samples text).flatMap _) _
  generalize pageNames samples text = names at hMetric
  induction names with
  | nil => exact .nil
  | cons m names ih =>
      obtain ⟨hFirst, hRest⟩ := List.forall_mem_cons.mp hMetric
      rw [List.flatMap_cons, List.flatMap_cons]
      exact hFirst.append (ih hRest)

end Page

/-! ### Well-formed pages -/

section WellFormed

variable {text : FloatText F} {read : List Char → Option F} {pre : String}

/-- The lines of a metric of the exporter itself, as they are read. -/
def builtinRead (pre name value : String) : List Line :=
  [.comment, .type (fullName pre name).toList, .sample (fullName pre name).toList none value.toList]

/-- The lines of the exporter's own metrics, as they are read. -/
def ownLines (text : FloatText F) (pre : String) (now : F) (ts : MetricVal F) : List Line :=
  builtinRead pre "up" "1" ++ ((ts.asFloat text).join.elim [] fun t =>
    builtinRead pre "last_poll_timestamp_seconds" (text.repr t) ++
      builtinRead pre "poll_age_seconds" (text.repr (text.age now t)))

/-- The page, as it is read. -/
def pageLines (text : FloatText F) (pre : String) (now : F) (doc : PollDoc F) : List Line :=
  ownLines text pre now doc.timestamp ++
    groupedLines text (samplesOf text pre (metricsOf doc))

theorem mem_samplesOf {metrics : List (String × String × MetricVal F)} {s : String × String × F} :
    s ∈ samplesOf text pre metrics ↔ ∃ key val, (s.2.1, key, val) ∈ metrics ∧
      shownValue text key val = some (some s.2.2) ∧ s.1 = metricName pre key := by
  obtain ⟨m, label, x⟩ := s
  rw [samplesOf, List.mem_filterMap]
  constructor
  · rintro ⟨⟨label', key, val⟩, hMem, hEq⟩
    obtain ⟨x', hJoin, hSample⟩ := Option.map_eq_some_iff.mp hEq
    cases hSample
    exact ⟨key, val, hMem, Option.join_eq_some_iff.mp hJoin, rfl⟩
  · rintro ⟨key, val, hMem, hShown, rfl⟩
    refine ⟨(label, key, val), hMem, ?_⟩
    dsimp only at hShown ⊢
    rw [hShown]
    rfl

theorem isName_samplesOf (hPre : IsName pre.toList)
    (metrics : List (String × String × MetricVal F)) :
    ∀ s ∈ samplesOf text pre metrics, IsName s.1.toList := by
  intro s hs
  obtain ⟨key, val, _, _, hName⟩ := mem_samplesOf.mp hs
  rw [hName]
  exact isName_fullName hPre (isName_sanitizeName key).chars

/-- Where nothing overflows, a page is rendered, and it is read as its lines. -/
theorem render_fits (hReads : text.Reads read) {result : Option (PollDoc F)} (metricPrefix : String)
    (now : F) (hStamp : (result.getD .empty).timestamp.asFloat text ≠ some none)
    (hFits : ∀ e ∈ metricsOf (result.getD .empty), shownValue text e.2.1 e.2.2 ≠ some none) :
    ∃ page, renderOpenmetrics text result metricPrefix now = some page ∧
      readPage page.toList =
        some (pageLines text (pagePrefix metricPrefix) now (result.getD .empty)) := by
  have hPre := isName_pagePrefix metricPrefix
  have hNames : ∀ s ∈ samplesOf text (pagePrefix metricPrefix) (metricsOf (result.getD .empty)),
      IsName s.1.toList := isName_samplesOf hPre _
  have hGroups := readAs_groupLines hReads hNames
  have hUp : ReadAs (upLines (pagePrefix metricPrefix))
      (builtinRead (pagePrefix metricPrefix) "up" "1") :=
    readAs_builtin hPre (List.all_eq_true.mp (by decide)) (by decide) (by decide)
  obtain ⟨stamps, hStamps, hOwn⟩ : ∃ stamps,
      stampsOf text (pagePrefix metricPrefix) now (result.getD .empty).timestamp = some stamps ∧
        ReadAs (upLines (pagePrefix metricPrefix) ++ stamps)
          (ownLines text (pagePrefix metricPrefix) now (result.getD .empty).timestamp) := by
    rw [stampsOf, ownLines]
    rcases hTs : (result.getD .empty).timestamp.asFloat text with _ | _ | t
    · exact ⟨[], rfl, hUp.append .nil⟩
    · exact absurd hTs hStamp
    · refine ⟨_, rfl, hUp.append (ReadAs.append ?_ ?_)⟩
      · exact readAs_builtin hPre (List.all_eq_true.mp (by decide)) (by decide)
          (hReads.plain _)
      · exact readAs_builtin hPre (List.all_eq_true.mp (by decide)) (by decide)
          (hReads.plain _)
  refine ⟨_, ?_, readPage_unlines (hOwn.append hGroups)⟩
  rw [renderOpenmetrics, foldlM_addMetric_empty hFits]
  dsimp only [Option.bind_eq_bind, Option.bind_some]
  rw [hStamps]
  rfl

theorem fits_of_render {result : Option (PollDoc F)} {metricPrefix : String} {now : F}
    {page : String} (h : renderOpenmetrics text result metricPrefix now = some page) :
    (result.getD .empty).timestamp.asFloat text ≠ some none ∧
      ∀ e ∈ metricsOf (result.getD .empty), shownValue text e.2.1 e.2.2 ≠ some none := by
  simp only [renderOpenmetrics, Option.bind_eq_bind, Option.bind_eq_some_iff] at h
  obtain ⟨grouped, hGrouped, stamps, hStamps, _⟩ := h
  refine ⟨?_, fits_of_foldlM hGrouped⟩
  intro hOver
  rw [stampsOf, hOver] at hStamps
  cases hStamps

theorem typeNames_pageLines (now : F) {doc : PollDoc F}
    (hStamp : doc.timestamp.asFloat text ≠ some none) :
    typeNames (pageLines text pre now doc) =
      (reservedNames text doc).map (fun name => (fullName pre name).toList) ++
        (pageNames (samplesOf text pre (metricsOf doc)) text).map String.toList := by
  rw [pageLines, typeNames_append, typeNames_groupedLines, reservedNames, ownLines]
  congr 1
  rcases hTs : doc.timestamp.asFloat text with _ | _ | t
  · rfl
  · exact absurd hTs hStamp
  · rfl

theorem sampleIds_pageLines (now : F) {doc : PollDoc F}
    (hStamp : doc.timestamp.asFloat text ≠ some none) :
    (sampleIds (pageLines text pre now doc)).Perm
      ((reservedNames text doc).map (fun name => ((fullName pre name).toList, none)) ++
        (samplesOf text pre (metricsOf doc)).map
          fun s => (s.1.toList, some ("device".toList, s.2.1.toList))) := by
  have hOwn : sampleIds (ownLines text pre now doc.timestamp) =
      (reservedNames text doc).map (fun name => ((fullName pre name).toList, none)) := by
    rw [ownLines, reservedNames]
    rcases hTs : doc.timestamp.asFloat text with _ | _ | t
    · rfl
    · exact absurd hTs hStamp
    · rfl
  rw [pageLines, sampleIds_append, hOwn]
  exact (sampleIds_groupedLines _).append_left _

theorem fullName_inj {a b : String} : fullName pre a = fullName pre b ↔ a = b := by
  simp only [fullName, ← String.toList_inj, String.toList_append, List.append_cancel_left_eq]

theorem nodup_reservedNames (doc : PollDoc F) : (reservedNames text doc).Nodup := by
  rw [reservedNames]
  cases doc.timestamp.asFloat text with
  | none => simp
  | some t => simp

/-- The shown keys of each device, under the names that they get. -/
theorem ids_samplesOf {doc : PollDoc F}
    (hFits : ∀ e ∈ metricsOf doc, shownValue text e.2.1 e.2.2 ≠ some none) :
    (samplesOf text pre (metricsOf doc)).map (fun s => (s.1, s.2.1)) =
      doc.devices.entries.flatMap fun d => d.2.elim [] fun data =>
        (shownKeys text data).map fun key => (metricName pre key, d.1) := by
  rw [samplesOf, metricsOf, List.filterMap_flatMap, List.map_flatMap]
  refine List.flatMap_congr fun d hd => ?_
  obtain ⟨label, data⟩ := d
  cases data with
  | none => rfl
  | some data =>
      have hData : ∀ e ∈ data.entries, shownValue text e.1 e.2 ≠ some none := fun e he =>
        hFits (label, e.1, e.2) (List.mem_flatMap.mpr ⟨_, hd, List.mem_map_of_mem he⟩)
      dsimp only [Option.elim_some]
      rw [shownKeys, List.map_map]
      generalize data.entries = entries at hData
      induction entries with
      | nil => rfl
      | cons e entries ih =>
          obtain ⟨hFirst, hRest⟩ := List.forall_mem_cons.mp hData
          have hTail := ih hRest
          rw [List.map_cons, List.filterMap_cons, List.filter_cons]
          rcases hShown : shownValue text e.1 e.2 with _ | _ | x
          · exact hTail
          · exact absurd hShown hFirst
          · exact congrArg (_ :: ·) hTail

theorem nodup_shownKeys (data : Dict (MetricVal F)) : (shownKeys text data).Nodup :=
  data.nodup.sublist (List.filter_sublist.map Prod.fst)

/-- No series twice: the shown keys of a device stay apart. -/
theorem nodup_ids_iff {doc : PollDoc F}
    (hFits : ∀ e ∈ metricsOf doc, shownValue text e.2.1 e.2.2 ≠ some none) :
    ((samplesOf text pre (metricsOf doc)).map fun s => (s.1, s.2.1)).Nodup ↔
      ∀ device data, (device, some data) ∈ doc.devices.entries →
        ∀ k ∈ shownKeys text data, ∀ k' ∈ shownKeys text data,
          sanitizeName k = sanitizeName k' → k = k' := by
  have hDevices : doc.devices.entries.Pairwise fun d d' => d.1 ≠ d'.1 :=
    List.pairwise_map.mp doc.devices.nodup
  have hApart : doc.devices.entries.Pairwise (Function.onFun List.Disjoint fun d =>
      d.2.elim [] fun data => (shownKeys text data).map fun key => (metricName pre key, d.1)) := by
    refine hDevices.imp fun {d d'} hNe => ?_
    have hLabel : ∀ e : String × Option (Dict (MetricVal F)), ∀ id ∈ (e.2.elim [] fun data =>
        (shownKeys text data).map fun key => (metricName pre key, e.1)), id.2 = e.1 := by
      rintro ⟨label, _ | data⟩ id hid
      · cases hid
      · obtain ⟨key, _, rfl⟩ := List.mem_map.mp hid
        rfl
    intro id hid hid'
    exact hNe ((hLabel d id hid).symm.trans (hLabel d' id hid'))
  have hInner : ∀ (device : String) (data : Dict (MetricVal F)),
      ((shownKeys text data).map fun key => (metricName pre key, device)).Nodup ↔
        ∀ k ∈ shownKeys text data, ∀ k' ∈ shownKeys text data,
          sanitizeName k = sanitizeName k' → k = k' := by
    intro device data
    rw [List.nodup_map_iff_inj_on (nodup_shownKeys data)]
    simp only [Prod.mk.injEq, and_true, metricName, fullName_inj]
  rw [ids_samplesOf hFits, List.nodup_flatMap, and_iff_left hApart]
  constructor
  · intro h device data hMem
    exact (hInner device data).mp (h _ hMem)
  · rintro h ⟨device, _ | data⟩ hMem
    · exact List.nodup_nil
    · exact (hInner device data).mpr (h device data hMem)

/-- No name has two types: no shown key becomes a name of the exporter. -/
theorem disjoint_reserved_iff {doc : PollDoc F}
    (hFits : ∀ e ∈ metricsOf doc, shownValue text e.2.1 e.2.2 ≠ some none) :
    (∀ name ∈ reservedNames text doc,
        fullName pre name ∉ (samplesOf text pre (metricsOf doc)).map Prod.fst) ↔
      ∀ device data, (device, some data) ∈ doc.devices.entries →
        ∀ k ∈ shownKeys text data, sanitizeName k ∉ reservedNames text doc := by
  have hNames : ∀ m, m ∈ (samplesOf text pre (metricsOf doc)).map Prod.fst ↔
      ∃ device data, (device, some data) ∈ doc.devices.entries ∧
        ∃ k ∈ shownKeys text data, m = metricName pre k := by
    intro m
    have hIds : (samplesOf text pre (metricsOf doc)).map Prod.fst =
        ((samplesOf text pre (metricsOf doc)).map fun s => (s.1, s.2.1)).map Prod.fst := by
      rw [List.map_map]
      rfl
    rw [hIds, ids_samplesOf hFits, List.mem_map]
    constructor
    · rintro ⟨id, hid, rfl⟩
      obtain ⟨⟨device, _ | data⟩, hMem, hKey⟩ := List.mem_flatMap.mp hid
      · cases hKey
      · obtain ⟨k, hk, rfl⟩ := List.mem_map.mp hKey
        exact ⟨device, data, hMem, k, hk, rfl⟩
    · rintro ⟨device, data, hMem, k, hk, rfl⟩
      exact ⟨(metricName pre k, device),
        List.mem_flatMap.mpr ⟨_, hMem, List.mem_map_of_mem hk⟩, rfl⟩
  constructor
  · intro h device data hMem k hk hReserved
    exact h _ hReserved ((hNames _).mpr ⟨device, data, hMem, k, hk, rfl⟩)
  · intro h name hName hMem
    obtain ⟨device, data, hDevice, k, hk, hEq⟩ := (hNames _).mp hMem
    rw [fullName_inj.mp hEq] at hName
    exact h device data hDevice k hk hName

/-- The page of a result that fits is well formed just when its names stay apart. -/
theorem wellFormed_pageLines_iff (now : F) {doc : PollDoc F}
    (hStamp : doc.timestamp.asFloat text ≠ some none)
    (hFits : ∀ e ∈ metricsOf doc, shownValue text e.2.1 e.2.2 ≠ some none) :
    Exposition.WellFormed (pageLines text pre now doc) ↔ Unambiguous text doc := by
  have hTyped : ∀ id ∈ sampleIds (pageLines text pre now doc),
      id.1 ∈ typeNames (pageLines text pre now doc) := by
    intro id hid
    rw [(sampleIds_pageLines now hStamp).mem_iff] at hid
    rw [typeNames_pageLines now hStamp, List.mem_append]
    rcases List.mem_append.mp hid with hOwn | hSample
    · obtain ⟨name, hName, rfl⟩ := List.mem_map.mp hOwn
      exact Or.inl (List.mem_map_of_mem hName)
    · obtain ⟨s, hs, rfl⟩ := List.mem_map.mp hSample
      exact Or.inr (List.mem_map_of_mem (mem_pageNames.mpr (List.mem_map_of_mem hs)))
  have hTypes : (typeNames (pageLines text pre now doc)).Nodup ↔
      ∀ name ∈ reservedNames text doc,
        fullName pre name ∉ (samplesOf text pre (metricsOf doc)).map Prod.fst := by
    have hOwn : ((reservedNames text doc).map fun name => (fullName pre name).toList).Nodup :=
      (nodup_reservedNames doc).map fun a b h => fullName_inj.mp (String.toList_inj.mp h)
    have hPage : ((pageNames (samplesOf text pre (metricsOf doc)) text).map String.toList).Nodup :=
      (nodup_pageNames _).map fun a b h => String.toList_inj.mp h
    rw [typeNames_pageLines now hStamp, List.nodup_append, and_iff_right hOwn, and_iff_right hPage]
    constructor
    · intro h name hName hMem
      exact h _ (List.mem_map_of_mem hName) _ (List.mem_map_of_mem (mem_pageNames.mpr hMem)) rfl
    · intro h a ha b hb hEq
      obtain ⟨name, hName, rfl⟩ := List.mem_map.mp ha
      obtain ⟨m, hm, rfl⟩ := List.mem_map.mp hb
      rw [String.toList_inj] at hEq
      exact h name hName (hEq ▸ mem_pageNames.mp hm)
  have hSeries : (sampleIds (pageLines text pre now doc)).Nodup ↔
      ((samplesOf text pre (metricsOf doc)).map fun s => (s.1, s.2.1)).Nodup := by
    have hOwn : ((reservedNames text doc).map fun name => ((fullName pre name).toList,
        (none : Option (List Char × List Char)))).Nodup :=
      (nodup_reservedNames doc).map fun a b h =>
        fullName_inj.mp (String.toList_inj.mp (Prod.mk.inj h).1)
    have hInjective : Function.Injective fun id : String × String =>
        (id.1.toList, some ("device".toList, id.2.toList)) := by
      intro a b h
      simp only [Prod.mk.injEq, Option.some.injEq, true_and, String.toList_inj] at h
      exact Prod.ext h.1 h.2
    rw [(sampleIds_pageLines now hStamp).nodup_iff, List.nodup_append, and_iff_right hOwn]
    have hMap : ((samplesOf text pre (metricsOf doc)).map fun s =>
        (s.1.toList, some ("device".toList, s.2.1.toList))) =
        ((samplesOf text pre (metricsOf doc)).map fun s => (s.1, s.2.1)).map fun id =>
          (id.1.toList, some ("device".toList, id.2.toList)) := by
      rw [List.map_map]
      rfl
    rw [hMap, List.nodup_map_iff hInjective, and_iff_left]
    intro a ha b hb hEq
    obtain ⟨name, _, rfl⟩ := List.mem_map.mp ha
    obtain ⟨id, _, rfl⟩ := List.mem_map.mp hb
    cases (Prod.mk.inj hEq).2
  constructor
  · intro h
    exact ⟨⟨hStamp, hFits⟩, (nodup_ids_iff hFits).mp (hSeries.mp h.series),
      (disjoint_reserved_iff hFits).mp (hTypes.mp h.types)⟩
  · intro h
    exact ⟨hTypes.mpr ((disjoint_reserved_iff hFits).mpr h.reserved), hTyped,
      hSeries.mpr ((nodup_ids_iff hFits).mpr h.apart)⟩

/-- Whatever the names, the page shows the result. -/
theorem shows_pageLines (hReads : text.Reads read) (now : F) (doc : PollDoc F) :
    Shows text read pre doc (pageLines text pre now doc) := by
  constructor
  case labels =>
    intro name key label value hLine
    have hOwn : ∀ n v, Line.sample name (some (key, label)) value ∉ builtinRead pre n v := by
      intro n v hMem
      simp [builtinRead] at hMem
    rcases List.mem_append.mp hLine with hLine | hLine
    · rw [ownLines] at hLine
      rcases List.mem_append.mp hLine with hLine | hLine
      · exact absurd hLine (hOwn _ _)
      · cases hTs : (doc.timestamp.asFloat text).join with
        | none =>
            rw [hTs] at hLine
            cases hLine
        | some t =>
            rw [hTs] at hLine
            rcases List.mem_append.mp hLine with hLine | hLine
            · exact absurd hLine (hOwn _ _)
            · exact absurd hLine (hOwn _ _)
    · obtain ⟨s, hs, hEq⟩ := mem_groupedLines.mp hLine
      cases hEq
      obtain ⟨key, val, hMem, _, _⟩ := mem_samplesOf.mp hs
      obtain ⟨⟨device, _ | data⟩, hDevice, hEntry⟩ := List.mem_flatMap.mp hMem
      · cases hEntry
      · obtain ⟨e, _, hEq⟩ := List.mem_map.mp hEntry
        refine ⟨rfl, device, List.mem_map_of_mem hDevice, ?_⟩
        rw [← (Prod.mk.inj hEq).1]
  case values =>
    intro device data hDevice key val x hEntry hKey hVal
    have hMem : (device, key, val) ∈ metricsOf doc :=
      List.mem_flatMap.mpr ⟨_, hDevice,
        List.mem_map_of_mem (f := fun e => (device, e.1, e.2)) hEntry⟩
    have hShown : shownValue text key val = some (some x) := by
      rw [shownValue, hKey]
      exact hVal
    have hSample : (metricName pre key, device, x) ∈ samplesOf text pre (metricsOf doc) :=
      mem_samplesOf.mpr ⟨key, val, hMem, hShown, rfl⟩
    refine ⟨(text.repr x).toList, ?_, hReads.read_repr x⟩
    exact List.mem_append_right _ (mem_groupedLines.mpr ⟨_, hSample, rfl⟩)

end WellFormed

/-- A page that is well formed comes from names that stay apart. -/
theorem PageFaithful.unambiguous {text : FloatText F} {read : List Char → Option F}
    (hReads : text.Reads read) {result : Option (PollDoc F)} {metricPrefix : String} {now : F}
    (h : PageFaithful text read result metricPrefix now) :
    Unambiguous text (result.getD .empty) := by
  obtain ⟨page, lines, hPage, hRead, hFormed, _⟩ := h
  obtain ⟨hStamp, hFits⟩ := fits_of_render hPage
  obtain ⟨page', hPage', hRead'⟩ := render_fits hReads metricPrefix now hStamp hFits
  obtain rfl := Option.some.inj (hPage.symm.trans hPage')
  obtain rfl := Option.some.inj (hRead.symm.trans hRead')
  exact (wellFormed_pageLines_iff now hStamp hFits).mp hFormed

/-- A page is well formed and shows its result just when the names of the result stay
apart and its integers fit. -/
theorem page_faithful_iff (text : FloatText F) (read : List Char → Option F)
    (hReads : text.Reads read) (result : Option (PollDoc F)) (metricPrefix : String) (now : F) :
    PageFaithful text read result metricPrefix now ↔ Unambiguous text (result.getD .empty) := by
  constructor
  · intro h
    exact h.unambiguous hReads
  · intro h
    obtain ⟨page, hPage, hRead⟩ := render_fits hReads metricPrefix now h.fits.1 h.fits.2
    exact ⟨page, _, hPage, hRead, (wellFormed_pageLines_iff now h.fits.1 h.fits.2).mpr h,
      shows_pageLines hReads now _⟩

/-! ### A battery -/

/-- The values of the example. -/
inductive Shown where
  | zero
  | one
  | volts
deriving DecidableEq

/-- As Python writes them. -/
def shownText : FloatText Shown where
  ofBool b := if b then .one else .zero
  ofInt n := if n = 0 then some .zero else if n = 1 then some .one else none
  repr x := match x with
    | .zero => "0.0"
    | .one => "1.0"
    | .volts => "13.1"
  age _ _ := .zero

def readShown (cs : List Char) : Option Shown :=
  if cs = "0.0".toList then some .zero else if cs = "1.0".toList then some .one
  else if cs = "13.1".toList then some .volts else none

theorem shownText_reads : shownText.Reads readShown where
  read_repr x := by cases x <;> decide
  plain x := by cases x <;> decide

/-- A result with one device. -/
def oneDevice (device : String) (data : List (String × MetricVal Shown)) : PollDoc Shown where
  timestamp := .int 1
  devices := Dict.ofList [(device, some (Dict.ofList data))]

theorem entries_oneDevice (device : String) (data : List (String × MetricVal Shown)) :
    (oneDevice device data).devices.entries = [(device, some (Dict.ofList data))] := rfl

theorem page_faithful_battery :
    PageFaithful shownText readShown
      (some (oneDevice "battery \"0\"" [("voltage.v", .float .volts), ("online", .bool true),
        ("_slave_id", .int 96)])) "wattpost" .one := by
  have hKeys : shownKeys shownText (Dict.ofList [("voltage.v", .float .volts),
      ("online", .bool true), ("_slave_id", .int 96)]) = ["voltage.v", "online"] := by decide
  have hReserved : reservedNames shownText (oneDevice "battery \"0\"" [("voltage.v", .float .volts),
      ("online", .bool true), ("_slave_id", .int 96)]) =
        ["up", "last_poll_timestamp_seconds", "poll_age_seconds"] := rfl
  refine (page_faithful_iff shownText readShown shownText_reads _ _ _).mpr ⟨⟨?_, ?_⟩, ?_, ?_⟩
  · decide
  · rw [Option.getD_some]
    decide
  · intro device data hMem
    rw [Option.getD_some, entries_oneDevice, List.mem_singleton] at hMem
    cases hMem
    rw [hKeys]
    decide
  · intro device data hMem
    rw [Option.getD_some] at hMem ⊢
    rw [entries_oneDevice, List.mem_singleton] at hMem
    cases hMem
    rw [hKeys, hReserved]
    decide

/-- A metric that is called "up" gives the page a second type line for one name. -/
theorem up_metric_breaks_page :
    ¬ ∀ (F : Type) (text : FloatText F) (read : List Char → Option F), text.Reads read →
      ∀ (result : Option (PollDoc F)) (metricPrefix : String) (now : F),
        PageFaithful text read result metricPrefix now := by
  intro h
  have hFaithful := h Shown shownText readShown shownText_reads
    (some (oneDevice "inverter" [("up", .bool true)])) "wattpost" .one
  have hUp : "up" ∈ shownKeys shownText (Dict.ofList [("up", .bool true)]) := by decide
  have hDevice : ("inverter", some (Dict.ofList [("up", .bool true)])) ∈
      (oneDevice "inverter" [("up", .bool true)]).devices.entries := List.mem_cons_self
  exact (hFaithful.unambiguous shownText_reads).reserved "inverter" _ hDevice "up" hUp (by decide)

end WattPost.Export
