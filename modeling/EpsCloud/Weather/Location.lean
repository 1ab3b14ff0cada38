import EpsCloud.Integrations.BrightSky
import EpsCloud.Library.Runs
import EpsCloud.Routes.Settings

/-!
# Which location the forecast is for

The cache is keyed by the day alone, and a day is cached up to a week ahead, while
the coordinates can be saved at any time.  To say which location a cached payload
belongs to, a run notes for each day the last call of `fetch_forecast` that was made
for it: the coordinates it was passed and what it returned.  A day that is cached is
not fetched again, so the note stays with the payload.

* `weatherSummary_warms`, `refreshWeather_warms`: the database gets rows in its cache
  and changes in nothing else.
* `SummaryCall`: what a call of `weather_summary` can do, with the fetch it makes.
* `weather_location_iff`: the forecast of every day stays the one for the stored
  location exactly when no request saves another location while a forecast is
  cached.
-/

namespace EpsCloud

/-- The latitude and the longitude, as numbers. -/
abbrev Location := Option (WithBot (WithTop ℚ)) × Option (WithBot (WithTop ℚ))

/-- The coordinates of a settings row. -/
def UserSettings.location (settings : UserSettings) : Location :=
  (settings.weatherLocationLat.number?, settings.weatherLocationLon.number?)

/-- The coordinates that a fetch was passed. -/
def ForecastFetch.location (fetch : ForecastFetch) : Location :=
  (fetch.lat.number?, fetch.lon.number?)

/-- The stored coordinates. -/
def savedLocation (db : Database) : Option Location := db.settings.map UserSettings.location

/-! ## What a fetch changes -/

/-- The second database has the rows of the first one and perhaps more days in the cache, and none
without a settings row. -/
structure Warms (db db' : Database) : Prop where
  frame : ∃ cache, db' = { db with weatherCache := cache }
  kept : ∀ day cached, db.weatherCache.lookup day = some cached →
    db'.weatherCache.lookup day = some cached
  located : db.settings = none → db' = db

namespace Warms

variable {db db' db'' : Database}

theorem refl (db : Database) : Warms db db := ⟨⟨db.weatherCache, rfl⟩, fun _ _ h => h, fun _ => rfl⟩

theorem settings_eq (h : Warms db db') : db'.settings = db.settings := by
  obtain ⟨cache, rfl⟩ := h.frame
  rfl

theorem trans (h : Warms db db') (h' : Warms db' db'') : Warms db db'' := by
  refine ⟨?_, fun day cached hc => h'.kept day cached (h.kept day cached hc), fun hnone => ?_⟩
  · obtain ⟨cache, rfl⟩ := h.frame
    obtain ⟨cache', rfl⟩ := h'.frame
    exact ⟨cache', rfl⟩
  · exact (h'.located (h.settings_eq.trans hnone)).trans (h.located hnone)

theorem cacheWeather {day : Date} (hempty : db.weatherCache.lookup day = none)
    (hsettings : db.settings ≠ none) (payload : Json) (now : Moment) :
    Warms db (db.cacheWeather day payload now) := by
  refine ⟨⟨_, rfl⟩, fun day' cached h => ?_, fun h => absurd h hsettings⟩
  have hne : day' ≠ day := fun heq => by
    rw [heq, hempty] at h
    cases h
  exact (AList.lookup_insert_ne hne).trans h

end Warms

variable {column : Json → Option Json}

/-- **A call of `weather_summary`** adds at most the row of its day. -/
theorem weatherSummaryFetching_warms (call : WeatherCall) (day : Date) (db : Database) :
    Warms db (weatherSummaryFetching column call day db).db := by
  cases hcache : db.weatherCache.lookup day with
  | some cached =>
    rw [weatherSummaryFetching_of_cached hcache]
    exact Warms.refl db
  | none =>
    cases hsettings : db.settings with
    | none =>
      rw [weatherSummaryFetching_of_no_settings hcache hsettings]
      exact Warms.refl db
    | some settings =>
      have hadd : ∀ payload, Warms db (db.cacheWeather day payload call.now) := fun payload =>
        Warms.cacheWeather hcache (by rw [hsettings]; simp) payload call.now
      rw [weatherSummaryFetching, hcache, hsettings]
      cases call.rival with
      | some payload => exact hadd payload
      | none =>
        dsimp only
        split
        · exact Warms.refl db
        · split
          · exact Warms.refl db
          · exact hadd _

theorem weatherSummary_warms (call : WeatherCall) (day : Date) (db : Database) :
    Warms db (weatherSummary column call day db).1 :=
  weatherSummaryFetching_warms call day db

theorem warmDays_warms (calls : ℕ → WeatherCall) (today : Date) (offsets : List ℕ) (warmed : ℕ)
    (db : Database) : Warms db (warmDays column calls today offsets warmed db).db := by
  induction offsets generalizing warmed db with
  | nil => exact Warms.refl db
  | cons offset offsets ih =>
    have hcall : Warms db (weatherSummaryFetching column (calls offset) (today + offset) db).db :=
      weatherSummaryFetching_warms (calls offset) (today + offset) db
    rw [warmDays]
    dsimp only
    split
    · exact hcall.trans (ih _ _)
    · exact hcall

/-- **The job** adds rows. -/
theorem refreshWeather_warms (calls : ℕ → WeatherCall) (today : Date) (db : Database) :
    Warms db (refreshWeather column calls today db).1 :=
  warmDays_warms calls today _ _ db

/-! ## What a fetch was for -/

/-- What a call of `weather_summary` does for a day, when no other request caches the day
meanwhile: it finds the day cached; or there is no settings row; or it asks for the stored
coordinates, and either has nothing to store or stores what the column makes of the answer. -/
inductive SummaryCall (column : Json → Option Json) (day : Date) (db : Database) :
    Fetching (Option Summary) → Prop
  | cached (cached : WeatherCache) (hcached : db.weatherCache.lookup day = some cached) :
    SummaryCall column day db ⟨[], db, summarize cached.rawPayload⟩
  | unset (hsettings : db.settings = none) : SummaryCall column day db ⟨[], db, .ok none⟩
  | failed (fetch : ForecastFetch) (answer : Except Failure (Option Summary))
    (hempty : db.weatherCache.lookup day = none) (hday : fetch.day = day)
    (hlocation : savedLocation db = some fetch.location)
    (hanswer : ∀ summary, answer ≠ .ok (some summary)) :
    SummaryCall column day db ⟨[fetch], db, answer⟩
  | stored (fetch : ForecastFetch) (payload : Json) (now : Moment)
    (hempty : db.weatherCache.lookup day = none) (hday : fetch.day = day)
    (hlocation : savedLocation db = some fetch.location)
    (hpayload : fetch.answer.bind column = some payload) :
    SummaryCall column day db ⟨[fetch], db.cacheWeather day payload now, summarize payload⟩

theorem summaryCall (fetch : Decimal → Decimal → Date → Option Json) (now : Moment) (day : Date)
    (db : Database) : SummaryCall column day db
      (weatherSummaryFetching column { fetchForecast := fetch, now := now } day db) := by
  cases hcache : db.weatherCache.lookup day with
  | some cached =>
    rw [weatherSummaryFetching_of_cached hcache]
    exact .cached cached hcache
  | none =>
    cases hsettings : db.settings with
    | none =>
      rw [weatherSummaryFetching_of_no_settings hcache hsettings]
      exact .unset hsettings
    | some settings =>
      have hlocation : savedLocation db = some settings.location := by
        rw [savedLocation, hsettings, Option.map_some]
      rw [weatherSummaryFetching, hcache, hsettings]
      dsimp only [WeatherCall.fetched]
      cases hraw : fetch settings.weatherLocationLat settings.weatherLocationLon day with
      | none =>
        dsimp only
        exact .failed _ _ hcache rfl hlocation fun summary h => by cases h
      | some raw =>
        dsimp only
        cases hpayload : column raw with
        | none =>
          dsimp only
          exact .failed _ _ hcache rfl hlocation fun summary h => by cases h
        | some payload =>
          dsimp only
          exact .stored _ _ _ hcache rfl hlocation hpayload

/-- The notes after some fetches: of each day, the last fetch. -/
def noteFetches (noted : Date → Option ForecastFetch) (fetches : List ForecastFetch) :
    Date → Option ForecastFetch :=
  fetches.foldl (fun noted fetch => Function.update noted fetch.day (some fetch)) noted

theorem noteFetches_append (noted : Date → Option ForecastFetch)
    (fetches fetches' : List ForecastFetch) :
    noteFetches noted (fetches ++ fetches') = noteFetches (noteFetches noted fetches) fetches' :=
  List.foldl_append

/-! ## Runs -/

/-- A request or a job that touches the forecast, with what the service answers meanwhile. -/
inductive WeatherRequest where
  | save (lat lon : String)
  | load (day : Date) (fetch : Decimal → Decimal → Date → Option Json) (now : Moment)
  | refresh (today : Date) (fetch : ℕ → Decimal → Decimal → Date → Option Json) (now : Moment)

/-- A run so far: the database, and the last fetch for each day. -/
structure Located where
  db : Database
  fetchedFor : Date → Option ForecastFetch

section Runs

variable (py : TextParsers) (column : Json → Option Json)

/-- The database after a request, and the fetches that the request makes. -/
def handleWeather (db : Database) : WeatherRequest → Database × List ForecastFetch
  | .save lat lon => (afterRequest db (saveWeather py lat lon db), [])
  | .load day fetch now =>
    let run := weatherSummaryFetching column { fetchForecast := fetch, now := now } day db
    (run.db, run.fetches)
  | .refresh today fetch now =>
    let run := refreshWeatherFetching column
      (fun offset => { fetchForecast := fetch offset, now := now }) today db
    (run.db, run.fetches)

/-- A request, with the fetches that it makes noted. -/
def Located.after (s : Located) (req : WeatherRequest) : Located where
  db := (handleWeather py column s.db req).1
  fetchedFor := noteFetches s.fetchedFor (handleWeather py column s.db req).2

/-- The summary of the day is computed from what this fetch returned, and the fetch was for the day
and for the stored coordinates. -/
def ForecastFetch.Gives (fetch : ForecastFetch) (db : Database) (day : Date)
    (summary : Summary) : Prop :=
  fetch.day = day ∧ savedLocation db = some fetch.location ∧
    ∃ payload, fetch.answer.bind column = some payload ∧ summarize payload = .ok (some summary)

/-- Whenever `weather_summary` returns a summary, it is computed from a payload that was fetched
for the day with the stored coordinates. -/
def ForSavedLocation (s : Located) : Prop :=
  ∀ day fetch now summary,
    (weatherSummary column { fetchForecast := fetch, now := now } day s.db).2 = .ok (some summary) →
      ∃ fetched, (s.after py column (.load day fetch now)).fetchedFor day = some fetched ∧
        fetched.Gives column s.db day summary

/-- The request saves no other location, or nothing that gives a summary is cached. -/
def KeepsLocation (s : Located) : WeatherRequest → Prop
  | .save lat lon => ∀ latitude longitude,
    parseCoordinate py lat latRange = .ok latitude →
    parseCoordinate py lon lonRange = .ok longitude →
      savedLocation s.db = some (latitude.number?, longitude.number?) ∨
        ∀ day cached summary, s.db.weatherCache.lookup day = some cached →
          summarize cached.rawPayload ≠ .ok (some summary)
  | _ => True

/-- Every cached payload that gives a summary was fetched for its day with the stored
coordinates. -/
def CachedForSavedLocation (s : Located) : Prop :=
  ∀ day cached summary, s.db.weatherCache.lookup day = some cached →
    summarize cached.rawPayload = .ok (some summary) →
      ∃ fetched, s.fetchedFor day = some fetched ∧ fetched.Gives column s.db day summary

variable {py column}

/-- **One call of `weather_summary`**, with its fetch noted. -/
theorem CachedForSavedLocation.call {s : Located} (h : CachedForSavedLocation column s)
    {day : Date} {run : Fetching (Option Summary)} (hrun : SummaryCall column day s.db run) :
    CachedForSavedLocation column ⟨run.db, noteFetches s.fetchedFor run.fetches⟩ := by
  cases hrun with
  | cached => exact h
  | unset => exact h
  | failed fetch answer hempty hday =>
    intro day' cached summary hcached hsummary
    have hne : day' ≠ fetch.day := fun heq => by
      rw [heq, hday, hempty] at hcached
      cases hcached
    obtain ⟨fetched, hfetched, hgives⟩ := h day' cached summary hcached hsummary
    exact ⟨fetched, (Function.update_of_ne hne _ _).trans hfetched, hgives⟩
  | stored fetch payload now hempty hday hlocation hpayload =>
    intro day' cached summary hcached hsummary
    rcases eq_or_ne day' fetch.day with rfl | hne
    · rw [← hday, Database.cacheWeather, AList.lookup_insert] at hcached
      cases hcached
      exact ⟨fetch, Function.update_self _ _ _, rfl, hlocation, payload, hpayload, hsummary⟩
    · rw [← hday, Database.cacheWeather, AList.lookup_insert_ne hne] at hcached
      obtain ⟨fetched, hfetched, hgives⟩ := h day' cached summary hcached hsummary
      exact ⟨fetched, (Function.update_of_ne hne _ _).trans hfetched, hgives⟩

/-- **The loop of `refresh_weather`**, call by call. -/
theorem CachedForSavedLocation.warmDays {s : Located} (h : CachedForSavedLocation column s)
    (fetch : ℕ → Decimal → Decimal → Date → Option Json) (now : Moment) (today : Date)
    (offsets : List ℕ) (warmed : ℕ) :
    let run := warmDays column (fun offset => { fetchForecast := fetch offset, now := now }) today
      offsets warmed s.db
    CachedForSavedLocation column ⟨run.db, noteFetches s.fetchedFor run.fetches⟩ := by
  induction offsets generalizing s warmed with
  | nil => exact h
  | cons offset offsets ih =>
    have hcall := h.call (summaryCall (fetch offset) now (today + offset) s.db)
    rw [EpsCloud.warmDays]
    dsimp only
    split
    · rw [noteFetches_append]
      exact ih hcall _
    · exact hcall

/-- A summary is returned for a payload that is cached by then. -/
theorem cached_of_summary {day : Date} {db : Database} {run : Fetching (Option Summary)}
    (hrun : SummaryCall column day db run) {summary : Summary}
    (h : run.answer = .ok (some summary)) :
    ∃ cached, run.db.weatherCache.lookup day = some cached ∧
      summarize cached.rawPayload = .ok (some summary) := by
  cases hrun with
  | cached cached hcached => exact ⟨cached, hcached, h⟩
  | unset => cases h
  | failed _ _ _ _ _ hanswer => exact absurd h (hanswer summary)
  | stored fetch payload now =>
    exact ⟨⟨payload, now⟩, by rw [Database.cacheWeather, AList.lookup_insert], h⟩

/-- Only the cache can show another location. -/
theorem forSavedLocation_iff {s : Located} :
    ForSavedLocation py column s ↔ CachedForSavedLocation column s := by
  constructor
  · intro h day cached summary hcached hsummary
    obtain ⟨fetched, hfetched, hgives⟩ := h day (fun _ _ _ => none) 0 summary
      (by rw [weatherSummary_of_cached hcached, hsummary])
    rw [Located.after, handleWeather, weatherSummaryFetching_of_cached hcached] at hfetched
    exact ⟨fetched, hfetched, hgives⟩
  · intro h day fetch now summary hsummary
    have hrun : SummaryCall column day s.db (weatherSummaryFetching column
        { fetchForecast := fetch, now := now } day s.db) := summaryCall fetch now day s.db
    obtain ⟨cached, hcached, hgiven⟩ := cached_of_summary hrun hsummary
    obtain ⟨fetched, hfetched, hday, hlocation, hpayload⟩ :=
      h.call hrun day cached summary hcached hgiven
    have hwarms : Warms s.db (weatherSummaryFetching column
        { fetchForecast := fetch, now := now } day s.db).db :=
      weatherSummaryFetching_warms _ day s.db
    have hsettings := hwarms.settings_eq
    rw [savedLocation, hsettings] at hlocation
    exact ⟨fetched, hfetched, hday, hlocation, hpayload⟩

/-- What saving a location does to the forecasts that are cached. -/
theorem cachedForSavedLocation_save_iff {s : Located} (h : CachedForSavedLocation column s)
    (lat lon : String) :
    CachedForSavedLocation column (s.after py column (.save lat lon)) ↔
      KeepsLocation py s (.save lat lon) := by
  cases hsave : saveWeather py lat lon s.db with
  | error e =>
    have hafter : s.after py column (.save lat lon) = s := by
      rw [Located.after, handleWeather, hsave, afterRequest]
      rfl
    rw [hafter]
    refine iff_of_true h fun latitude longitude hlat hlon => ?_
    rw [saveWeather_eq_ok.mpr ⟨latitude, longitude, hlat, hlon, rfl⟩] at hsave
    cases hsave
  | ok db' =>
    obtain ⟨latitude, longitude, hlat, hlon, hdb'⟩ := saveWeather_eq_ok.mp hsave
    have hafter : s.after py column (.save lat lon) = ⟨db', s.fetchedFor⟩ := by
      rw [Located.after, handleWeather, hsave, afterRequest]
      rfl
    have hcache : db'.weatherCache = s.db.weatherCache := by rw [hdb']
    have hlocation : savedLocation db' = some (latitude.number?, longitude.number?) := by
      rw [hdb']
      rfl
    rw [hafter]
    constructor
    · intro h' latitude' longitude' hlat' hlon'
      rw [hlat] at hlat'
      rw [hlon] at hlon'
      cases hlat'
      cases hlon'
      refine or_iff_not_imp_right.mpr fun hshown => ?_
      push Not at hshown
      obtain ⟨day, cached, summary, hcached, hsummary⟩ := hshown
      obtain ⟨fetched, hfetched, -, hsaved, -⟩ := h day cached summary hcached hsummary
      obtain ⟨fetched', hfetched', -, hsaved', -⟩ := h' day cached summary
        (by rw [hcache]; exact hcached) hsummary
      have hsame : fetched = fetched' := Option.some.inj (hfetched.symm.trans hfetched')
      rw [hsaved, hsame, ← hsaved', hlocation]
    · intro hkeeps day cached summary hcached hsummary
      rw [hcache] at hcached
      obtain ⟨fetched, hfetched, hday, hsaved, hpayload⟩ := h day cached summary hcached hsummary
      rcases hkeeps latitude longitude hlat hlon with hsame | hnone
      · exact ⟨fetched, hfetched, hday, by rw [hlocation, ← hsame, hsaved], hpayload⟩
      · exact absurd hsummary (hnone day cached summary hcached)

/-- One request. -/
theorem cachedForSavedLocation_after_iff {s : Located} (h : CachedForSavedLocation column s)
    (req : WeatherRequest) :
    CachedForSavedLocation column (s.after py column req) ↔ KeepsLocation py s req := by
  cases req with
  | save lat lon => exact cachedForSavedLocation_save_iff h lat lon
  | load day fetch now =>
    exact iff_of_true (h.call (summaryCall fetch now day s.db)) trivial
  | refresh today fetch now =>
    exact iff_of_true (h.warmDays fetch now today _ _) trivial

/-- **The forecast shown is for the saved location** in every state of a run, when it is in the
first one, exactly when no request of the run saves other coordinates while a payload that gives a
summary is cached. -/
theorem weather_location_iff (py : TextParsers) (column : Json → Option Json) (s : Located)
    (hstart : ForSavedLocation py column s) (reqs : List WeatherRequest) :
    (∀ x ∈ Runs.trace (Located.after py column) s reqs,
        ForSavedLocation py column (x.1.after py column x.2)) ↔
      ∀ x ∈ Runs.trace (Located.after py column) s reqs, KeepsLocation py x.1 x.2 := by
  simp only [forSavedLocation_iff]
  refine Runs.forall_trace_iff (I := CachedForSavedLocation column) (C := fun _ _ => True)
    (fun s req h _ => cachedForSavedLocation_after_iff h req)
    (fun s req h _ hkeeps => (cachedForSavedLocation_after_iff h req).mpr hkeeps)
    (forSavedLocation_iff.mp hstart) fun _ _ => trivial

/-- The default location, and nothing cached. -/
def defaultLocation : Located := ⟨{ settings := some {} }, fun _ => none⟩

/-- A service that forecasts five degrees everywhere. -/
def fiveDegrees : Decimal → Decimal → Date → Option Json := fun _ _ _ =>
  some (.object [("weather", .array [.object [("temperature", .number 5)]])])

/-- The forecast is for the saved location after a load, a form that is refused and a refresh. -/
theorem weather_location_iff_defaultLocation :
    ForSavedLocation asciiParsers some
      ([.load 739623 fiveDegrees 0, .save "north" "11",
        .refresh 739623 (fun _ => fiveDegrees) 1].foldl (Located.after asciiParsers some)
          defaultLocation) := by
  have hrefused : ∀ latitude, parseCoordinate asciiParsers "north" latRange ≠ .ok latitude :=
    fun latitude h => by cases h
  have hshown := (weather_location_iff asciiParsers some defaultLocation
    (forSavedLocation_iff.mpr fun _ _ _ h => absurd h (by simp [defaultLocation]))
    [.load 739623 fiveDegrees 0, .save "north" "11",
      .refresh 739623 (fun _ => fiveDegrees) 1]).mpr
    (by
      simp only [Runs.trace_cons, Runs.trace_nil, List.forall_mem_cons]
      exact ⟨trivial, fun latitude _ hlat => absurd hlat (hrefused latitude), trivial,
        fun x hx => absurd hx List.not_mem_nil⟩)
  exact hshown _ (List.mem_cons_of_mem _ (List.mem_cons_of_mem _ List.mem_cons_self))

/-- The forecast for the default location is cached, then another location is saved, and the
cached forecast is still shown. -/
theorem weather_location_fails_otherTown :
    ¬ ∀ x ∈ Runs.trace (Located.after asciiParsers some) defaultLocation
      [.load 739623 fiveDegrees 0, .save "48" "11"],
      ForSavedLocation asciiParsers some (x.1.after asciiParsers some x.2) := by
  intro h
  obtain ⟨fetched, hfetched, -, hsaved, -⟩ :=
    h _ (List.mem_cons_of_mem _ List.mem_cons_self) 739623 fiveDegrees 2
      ⟨Json.roundHalfEven 5, Json.roundHalfEven 5, .number 0⟩ rfl
  have hfetched' : some (WeatherCall.fetched ⟨fiveDegrees, none, 0⟩
      (UserSettings.weatherLocationLat {}) (UserSettings.weatherLocationLon {}) 739623) =
        some fetched := hfetched
  have hsaved' : some (Decimal.number? (.finite false 48 0), Decimal.number? (.finite false 11 0)) =
      some fetched.location := hsaved
  cases hfetched'
  have hlat : Decimal.number? (.finite false 48 0) =
      Decimal.number? (UserSettings.weatherLocationLat {}) :=
    (Prod.mk.inj (Option.some.inj hsaved')).1
  simp only [Decimal.number?, Option.some.injEq, WithBot.coe_inj, WithTop.coe_inj] at hlat
  norm_num at hlat

end Runs

end EpsCloud
