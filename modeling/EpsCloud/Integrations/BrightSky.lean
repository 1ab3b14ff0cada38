import EpsCloud.Routes.Forms
import EpsCloud.Schema.Json

/-!
# The forecast

`app.integrations.brightsky`: one fetch a day, cached in `weather_cache`.  Only
the fetch is guarded against failure.  What it returns is committed to the cache
first and summarised afterwards, on this load and on every later one of the day.

The forecast service and the `JSONB` column are outside the program.  A call of
`weather_summary` carries what the service answers to any location and day, and
`column` says what the column returns for a value, or that it refuses the value.
Beside its answer a function keeps the list of the calls of `fetch_forecast` it made,
with the arguments it passed.

* `hourlyRecords_eq_ok`: the hours that `summarize` counts.
-/

namespace EpsCloud

/-! ## What the language does with a payload -/

namespace Json

/-- The fields of a dict; on anything else `get` raises `AttributeError`. -/
def fields : Json → Except Failure (List (String × Json))
  | .object fields => .ok fields
  | _ => .error .raised

/-- What a `for` loop takes from a value, or that it raises `TypeError`. -/
def items : Json → Except Failure (List Json)
  | .array items => .ok items
  | .string text => .ok (text.toList.map fun c => .string (String.singleton c))
  | .object fields => .ok (fields.map fun field => .string field.1)
  | _ => .error .raised

/-- `value or 0` -/
def orZero : Option Json → Json
  | some value => if value.truthy then value else .number 0
  | none => .number 0

end Json

/-- A value of the language, or the exception that was raised in place of it. -/
def orRaise {α : Type} : Option α → Except Failure α
  | some value => .ok value
  | none => .error .raised

/-! ## The summary -/

/-- What the widget shows. -/
structure Summary where
  tempMin : ℤ
  tempMax : ℤ
  rainChance : Json

/-- The temperature of a record, unless it is `None` or missing. -/
def temperature (record : List (String × Json)) : Option Json :=
  match record.lookup "temperature" with
  | some .null => none
  | value => value

/-- `r.get("precipitation_probability") or 0` -/
def rainChance (record : List (String × Json)) : Json :=
  Json.orZero (record.lookup "precipitation_probability")

/-- `[r for r in … if r.get("temperature") is not None]` -/
def hourlyRecords : List Json → Except Failure (List (List (String × Json)))
  | [] => .ok []
  | r :: rest => do
    let record ← r.fields
    let records ← hourlyRecords rest
    return if (temperature record).isSome then record :: records else records

theorem hourlyRecords_eq_ok {hours : List Json} {counted : List (List (String × Json))} :
    hourlyRecords hours = .ok counted ↔ ∃ records : List (List (String × Json)),
      hours = records.map .object ∧
        counted = records.filter fun record => (temperature record).isSome := by
  induction hours generalizing counted with
  | nil =>
    constructor
    · intro h
      cases h
      exact ⟨[], rfl, rfl⟩
    · rintro ⟨records, hrecords, rfl⟩
      rw [List.map_eq_nil_iff.mp hrecords.symm]
      rfl
  | cons r rest ih =>
    have hdict : ∀ record, r.fields = .ok record ↔ r = .object record := fun record => by
      cases r <;> simp [Json.fields]
    simp only [hourlyRecords, bind_eq_ok, ih, hdict, pure, Except.pure, Except.ok.injEq]
    constructor
    · rintro ⟨record, rfl, _, ⟨records, rfl, rfl⟩, rfl⟩
      exact ⟨record :: records, rfl, by rw [List.filter_cons]⟩
    · rintro ⟨records, hrecords, rfl⟩
      cases records with
      | nil => cases hrecords
      | cons record records =>
        obtain ⟨hr, hrest⟩ := List.cons.inj hrecords
        exact ⟨record, hr, _, ⟨records, hrest, rfl⟩, by rw [List.filter_cons]⟩

/-- `summarize` past the choice of the records. -/
def summaryOf (records : List (List (String × Json))) : Except Failure (Option Summary) :=
  if records = [] then .ok none
  else do
    let temps := records.filterMap temperature
    let rain ← orRaise (Json.maxOf (records.map rainChance))
    let low ← orRaise ((Json.minOf temps).bind Json.pyRound)
    let high ← orRaise ((Json.maxOf temps).bind Json.pyRound)
    return some ⟨low, high, rain⟩

/-- `summarize`: reduce hourly records to the temperature range and the rain chance. -/
def summarize (raw : Json) : Except Failure (Option Summary) := do
  let payload ← raw.fields
  let hours ← ((payload.lookup "weather").getD (.array [])).items
  let records ← hourlyRecords hours
  summaryOf records

/-! ## The cache -/

/-- What is outside the program during a call of `weather_summary`: what the service answers, with
`none` for any failure of the request; the payload that another request caches for the day between
the lookup and the insert, if one does; and the time. -/
structure WeatherCall where
  fetchForecast : Decimal → Decimal → Date → Option Json
  rival : Option Json := none
  now : Moment

/-- Add the row of a day. -/
def Database.cacheWeather (db : Database) (day : Date) (payload : Json) (now : Moment) : Database :=
  { db with weatherCache := db.weatherCache.insert day ⟨payload, now⟩ }

/-- A call of `fetch_forecast`: what it is passed and what it returns, with `none` for a failure. -/
structure ForecastFetch where
  lat : Decimal
  lon : Decimal
  day : Date
  answer : Option Json

/-- The call of `fetch_forecast` with these arguments. -/
def WeatherCall.fetched (call : WeatherCall) (lat lon : Decimal) (day : Date) : ForecastFetch :=
  ⟨lat, lon, day, call.fetchForecast lat lon day⟩

/-- What a function does that may fetch: its calls of `fetch_forecast` in order, the database that
it leaves, and what it returns or raises. -/
structure Fetching (α : Type) where
  fetches : List ForecastFetch
  db : Database
  answer : Except Failure α

/-- `weather_summary`: the summary from the cache, fetching once if the cache is empty. -/
def weatherSummaryFetching (column : Json → Option Json) (call : WeatherCall) (day : Date)
    (db : Database) : Fetching (Option Summary) :=
  match db.weatherCache.lookup day with
  | some cached => ⟨[], db, summarize cached.rawPayload⟩
  | none =>
    match db.settings with
    | none => ⟨[], db, .ok none⟩
    | some settings =>
      let fetch := call.fetched settings.weatherLocationLat settings.weatherLocationLon day
      match call.rival with
      | none =>
        match fetch.answer with
        | none => ⟨[fetch], db, .ok none⟩
        | some raw =>
          match column raw with
          | none => ⟨[fetch], db, .error .raised⟩
          -- the row is read back after the commit
          | some payload => ⟨[fetch], db.cacheWeather day payload call.now, summarize payload⟩
      | some payload =>
        -- the insert meets the row that is there by then
        ⟨[fetch], db.cacheWeather day payload call.now,
          if fetch.answer.isSome then .error .raised else .ok none⟩

/-- `weather_summary`: the database it leaves and its answer. -/
def weatherSummary (column : Json → Option Json) (call : WeatherCall) (day : Date)
    (db : Database) : Database × Except Failure (Option Summary) :=
  ((weatherSummaryFetching column call day db).db,
    (weatherSummaryFetching column call day db).answer)

section WeatherSummary

variable {column : Json → Option Json} {day : Date} {db : Database}

theorem weatherSummaryFetching_of_cached {cached : WeatherCache}
    (h : db.weatherCache.lookup day = some cached) (call : WeatherCall) :
    weatherSummaryFetching column call day db = ⟨[], db, summarize cached.rawPayload⟩ := by
  rw [weatherSummaryFetching, h]

theorem weatherSummaryFetching_of_no_settings (h : db.weatherCache.lookup day = none)
    (hsettings : db.settings = none) (call : WeatherCall) :
    weatherSummaryFetching column call day db = ⟨[], db, .ok none⟩ := by
  rw [weatherSummaryFetching, h, hsettings]

theorem weatherSummary_of_cached {cached : WeatherCache}
    (h : db.weatherCache.lookup day = some cached) (call : WeatherCall) :
    weatherSummary column call day db = (db, summarize cached.rawPayload) := by
  rw [weatherSummary, weatherSummaryFetching_of_cached h]

/-- The call when nothing is cached. -/
theorem weatherSummary_of_empty (h : db.weatherCache.lookup day = none) {settings : UserSettings}
    (hsettings : db.settings = some settings) (call : WeatherCall) :
    weatherSummary column call day db =
      let answer :=
        call.fetchForecast settings.weatherLocationLat settings.weatherLocationLon day
      match call.rival with
      | none =>
        match answer with
        | none => (db, .ok none)
        | some raw =>
          match column raw with
          | none => (db, .error .raised)
          | some payload => (db.cacheWeather day payload call.now, summarize payload)
      | some payload =>
        (db.cacheWeather day payload call.now,
          if answer.isSome then .error .raised else .ok none) := by
  rw [weatherSummary, weatherSummaryFetching, h, hsettings]
  dsimp only [WeatherCall.fetched]
  cases call.rival with
  | some payload => rfl
  | none =>
    dsimp only
    split
    · rfl
    · split <;> rfl

end WeatherSummary

/-- `WEATHER_LOOKAHEAD_DAYS` -/
def weatherLookaheadDays : ℕ := 7

/-- The loop of `refresh_weather`: one call for each offset, counting the summaries. -/
def warmDays (column : Json → Option Json) (calls : ℕ → WeatherCall) (today : Date) :
    List ℕ → ℕ → Database → Fetching ℕ
  | [], warmed, db => ⟨[], db, .ok warmed⟩
  | offset :: offsets, warmed, db =>
    let run := weatherSummaryFetching column (calls offset) (today + offset) db
    match run.answer with
    | .ok summary =>
      let rest := warmDays column calls today offsets
        (if summary.isSome then warmed + 1 else warmed) run.db
      ⟨run.fetches ++ rest.fetches, rest.db, rest.answer⟩
    | .error e => ⟨run.fetches, run.db, .error e⟩

/-- `worker.jobs.refresh_weather`: warm the cache for today and the days ahead. -/
def refreshWeatherFetching (column : Json → Option Json) (calls : ℕ → WeatherCall) (today : Date)
    (db : Database) : Fetching ℕ :=
  warmDays column calls today (List.range (weatherLookaheadDays + 1)) 0 db

/-- `worker.jobs.refresh_weather`: the database it leaves and its answer. -/
def refreshWeather (column : Json → Option Json) (calls : ℕ → WeatherCall) (today : Date)
    (db : Database) : Database × Except Failure ℕ :=
  ((refreshWeatherFetching column calls today db).db,
    (refreshWeatherFetching column calls today db).answer)

end EpsCloud
