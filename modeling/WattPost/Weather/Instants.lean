import WattPost.Outputs.Schedules

/-! The times in what the weather service answers, on their way to the schedule
engine and to the cloud-cover overlay. The service is asked with
`timezone=auto` and writes the site's wall-clock times without an offset. -/
namespace WattPost.Weather

open LocalTime

/-- `dt.replace(tzinfo=utc)` when the text has no offset, and then
`int(dt.timestamp())`. -/
def unixAsUtc (stamp : Stamp) : Int := stamp.time.seconds - stamp.utcOffset.getD 0

/-- The two `_parse_iso` of the weather code, which are the same function. -/
def parseIso : Option String → Option Int
  | none => none
  | some text => if text = "" then none else (fromIsoFormat text).map unixAsUtc

/-! ### The current weather -/

/-- The hourly block: parallel arrays. -/
structure HourlyBlock where
  time : List String
  temperature2m : List (Option ℚ)
  weatherCode : List (Option Int)
  isDay : List (Option Int)

/-- The parts of the service's answer that times come from. -/
structure ForecastBody where
  currentTime : Option String
  sunrise : Option (List (Option String))
  sunset : Option (List (Option String))
  hourly : HourlyBlock

structure HourlyForecast where
  ts : Int
  temperatureC : Option ℚ
  weatherCode : Option Int
  isDay : Option Bool

/-- `CurrentWeather`, without the readings that are copied as they are. -/
structure CurrentWeather where
  observedAt : Option Int
  sunriseTs : Option Int
  sunsetTs : Option Int
  hourly : List HourlyForecast

/-- `_HOURLY_KEEP`. -/
def hourlyKeep : Nat := 12

/-- `_extract_hourly`: the next hours from the observation on. -/
def extractHourly (hourly : HourlyBlock) (observedTs : Option Int) : List HourlyForecast :=
  let cutoff := observedTs.getD 0
  let entries := hourly.time.zipIdx.filterMap fun (text, i) => do
    let ts ← parseIso (some text)
    if ts < cutoff then none
    else
      some
        { ts := ts
          temperatureC := (hourly.temperature2m[i]?).join
          weatherCode := (hourly.weatherCode[i]?).join
          isDay := ((hourly.isDay[i]?).join).map (· ≠ 0) }
  entries.take hourlyKeep

/-- `OpenMeteoProvider.fetch` after the answer; an empty list of sun times
raises. -/
def fetch (body : ForecastBody) : Option CurrentWeather := do
  let sunrise ← (body.sunrise.getD [none]).head?
  let sunset ← (body.sunset.getD [none]).head?
  let observed := parseIso body.currentTime
  some
    { observedAt := observed
      sunriseTs := parseIso sunrise
      sunsetTs := parseIso sunset
      hourly := extractHourly body.hourly observed }

/-- What the schedule engine takes from the cached weather. -/
def CurrentWeather.cache (weather : CurrentWeather) : Outputs.Schedules.WeatherCache where
  sunriseTs := weather.sunriseTs
  sunsetTs := weather.sunsetTs

/-! ### The overlay -/

/-- The loop of `_fetch_open_meteo_hourly`: the times that parse, each with its
cloud cover. -/
def fetchOpenMeteoHourly (times : List String) (cloudCover : List (Option ℚ)) :
    List Int × List (Option ℚ) :=
  (times.zipIdx.filterMap fun (text, i) =>
    (parseIso (some text)).map fun ts => (ts, (cloudCover[i]?).join)).unzip

/-! ### True instants -/

theorem parseIso_of_writes {t : WallTime} {text : String} (h : t.Writes text) :
    parseIso (some text) = some t.seconds := by
  have hParse := h.parse
  have hNonempty : text ≠ "" := by
    rintro rfl
    cases hParse
  simp [parseIso, hNonempty, hParse, unixAsUtc]

/-- With texts of wall-clock times throughout, sample `i` is placed at the `i`-th
time as if it were UTC. -/
theorem fetchOpenMeteoHourly_times {times : List String} {walls : List WallTime}
    (h : List.Forall₂ WallTime.Writes walls times) (cloudCover : List (Option ℚ)) :
    (fetchOpenMeteoHourly times cloudCover).1 = walls.map WallTime.seconds := by
  unfold fetchOpenMeteoHourly
  rw [List.unzip_fst]
  generalize 0 = start
  induction h generalizing start with
  | nil => rfl
  | cons hWrites _ ih =>
      simp only [List.zipIdx_cons, List.filterMap_cons, parseIso_of_writes hWrites,
        Option.map_some, List.map_cons, ih]

/-- The sun time of the first day, as it reaches the cache. -/
theorem fetch_sunTimes {body : ForecastBody} {weather : CurrentWeather}
    (h : fetch body = some weather) {t : WallTime} {text : String} (hText : t.Writes text)
    {rest : List (Option String)} :
    (body.sunrise = some (some text :: rest) → weather.sunriseTs = some t.seconds) ∧
      (body.sunset = some (some text :: rest) → weather.sunsetTs = some t.seconds) := by
  obtain ⟨sunrise, hSunrise, h⟩ := Option.bind_eq_some_iff.mp h
  obtain ⟨sunset, hSunset, h⟩ := Option.bind_eq_some_iff.mp h
  cases h
  refine ⟨fun hBody => ?_, fun hBody => ?_⟩
  · rw [hBody] at hSunrise
    cases hSunrise
    exact parseIso_of_writes hText
  · rw [hBody] at hSunset
    cases hSunset
    exact parseIso_of_writes hText

/-- A sun time that goes into the cache comes out of the fire time with the
rule's offset, as the instant at which a clock on UTC shows it. -/
theorem fireTime_eq_iff {site : Zone} {instant : Int} {t : WallTime}
    (hShows : site.Shows instant t) (offsetMin : Int) :
    (some t.seconds).map (· + offsetMin * 60) = some (instant + offsetMin * 60) ↔
      site.offset instant = 0 := by
  rw [← hShows.seconds_eq_iff, Option.map_some, Option.some.injEq]
  omega

open Outputs.Schedules in
/-- Whenever the site's clock shows the time that the service writes, the engine
compares with that instant, and the overlay places the sample there, exactly
when the site's clock is on UTC then. -/
theorem weather_times_true_iff {site : Zone} {instant : Int} {t : WallTime}
    (hShows : site.Shows instant t) {text : String} (hText : t.Writes text) :
    (∀ body weather rest, fetch body = some weather → body.sunrise = some (some text :: rest) →
      ∀ zone rule nowTs, rule.triggerKind = .sunrise →
        (computeFireTime zone rule nowTs (some weather.cache) =
            some (instant + rule.offsetMin * 60) ↔ site.offset instant = 0)) ∧
      (∀ body weather rest, fetch body = some weather → body.sunset = some (some text :: rest) →
        ∀ zone rule nowTs, rule.triggerKind = .sunset →
          (computeFireTime zone rule nowTs (some weather.cache) =
              some (instant + rule.offsetMin * 60) ↔ site.offset instant = 0)) ∧
      ∀ (walls : List WallTime) (times : List String) (i : Nat) (cloudCover : List (Option ℚ)),
        List.Forall₂ WallTime.Writes walls times → walls[i]? = some t →
        ((fetchOpenMeteoHourly times cloudCover).1[i]? = some instant ↔
          site.offset instant = 0) := by
  refine ⟨?_, ?_, ?_⟩
  · intro body weather rest hFetch hSunrise zone rule nowTs hKind
    have hCache := (fetch_sunTimes hFetch hText).1 hSunrise
    rw [← fireTime_eq_iff hShows rule.offsetMin]
    simp only [computeFireTime, hKind, CurrentWeather.cache, Option.bind_some, hCache]
  · intro body weather rest hFetch hSunset zone rule nowTs hKind
    have hCache := (fetch_sunTimes hFetch hText).2 hSunset
    rw [← fireTime_eq_iff hShows rule.offsetMin]
    simp only [computeFireTime, hKind, CurrentWeather.cache, Option.bind_some, hCache]
  · intro walls times i cloudCover hTimes hWall
    rw [fetchOpenMeteoHourly_times hTimes, List.getElem?_map, hWall, Option.map_some,
      Option.some.injEq]
    exact hShows.seconds_eq_iff

/-! ### Two sites -/

/-- A quarter past six in the morning, on some day of May. -/
def quarterPastSix : WallTime :=
  ⟨2026, 5, 13, 6, 15, 0, by decide, by decide, by decide, by decide, by decide, by decide⟩

/-- An answer with this sunrise on both days. -/
def sampleBody : ForecastBody where
  currentTime := none
  sunrise := some [some "2026-05-13T06:15"]
  sunset := none
  hourly := ⟨[], [], [], []⟩

def sunriseRule : Outputs.Schedules.Rule where
  id := 1
  outputId := "rover.load"
  on := false
  triggerKind := .sunrise
  triggerTime := none
  offsetMin := 30
  daysMask := 127
  enabled := true

/-- On a clock at UTC, 06:15 is 1778652900, and the lamp goes off half an hour
later. -/
theorem weather_times_true_utc :
    Outputs.Schedules.computeFireTime (.fixed 0) sunriseRule 1778652900
      ((fetch sampleBody).map CurrentWeather.cache) = some (1778652900 + 30 * 60) := by
  obtain ⟨weather, hFetch⟩ : ∃ weather, fetch sampleBody = some weather := ⟨_, rfl⟩
  have hShows : (Zone.fixed 0).Shows 1778652900 quarterPastSix := by decide +kernel
  have hText : quarterPastSix.Writes "2026-05-13T06:15" := Or.inr ⟨by decide +kernel, rfl⟩
  have hSunrise := (weather_times_true_iff hShows hText).1 sampleBody weather [] hFetch rfl
  rw [hFetch]
  exact (hSunrise (.fixed 0) sunriseRule 1778652900 rfl).mpr rfl

/-- Ten hours ahead of UTC, 06:15 is 1778616900: the engine waits until 16:45 and
the overlay's sample of 06:15 stands at 16:15. -/
theorem weather_times_ten_hours_late :
    (Zone.fixed 36000).Shows 1778616900 quarterPastSix ∧
      ¬ (Outputs.Schedules.computeFireTime (.fixed 36000) sunriseRule 1778616900
          ((fetch sampleBody).map CurrentWeather.cache) = some (1778616900 + 30 * 60) ∧
        (fetchOpenMeteoHourly ["2026-05-13T06:15"] [some 40]).1 = [1778616900]) ∧
      Outputs.Schedules.computeFireTime (.fixed 36000) sunriseRule 1778616900
          ((fetch sampleBody).map CurrentWeather.cache) =
        some (1778616900 + 30 * 60 + 36000) ∧
      (fetchOpenMeteoHourly ["2026-05-13T06:15"] [some 40]).1 = [1778616900 + 36000] := by
  decide +kernel

end WattPost.Weather
