import EpsCloud.Integrations.BrightSky
import EpsCloud.Library.Runs

/-!
# When the weather widget answers

The dashboard shows the forecast as decoration, and no failure of it should reach
the page.  The request is guarded, but storing and summarising its answer are not,
and a payload that is cached is summarised again on every load of the day.

* `summarize_answers_iff`: the payloads that can be summarised.
* `weatherSummary_answers_iff`: when one load answers.
* `raises_of_unreadable`: a payload that cannot be summarised fails every load.
* `weather_loads_answer_iff`: when all loads of a day answer.
-/

namespace EpsCloud

/-- The call came back, with a summary or with `None`. -/
def Answers {α : Type} (result : Except Failure α) : Prop := ∃ a, result = .ok a

/-! ## Payloads that can be summarised -/

/-- Every hour is a dict, and of those with a temperature all temperatures are finite numbers and
the rain chances can be ordered. -/
def ReadableHours (hours : List Json) : Prop :=
  ∃ records : List (List (String × Json)), hours = records.map .object ∧
    (∀ t ∈ records.filterMap temperature, t.isFinite = true) ∧
    Json.Comparable ((records.filter fun record => (temperature record).isSome).map rainChance)

/-- The payload is a dict, and its `"weather"` is missing, has nothing to iterate over, or is a
list of readable hours. -/
def Readable (raw : Json) : Prop :=
  ∃ payload, raw = .object payload ∧
    ∀ weather, payload.lookup "weather" = some weather →
      weather = .string "" ∨ weather = .object [] ∨
        ∃ hours, weather = .array hours ∧ ReadableHours hours

theorem filterMap_filter_isSome {α β : Type} (f : α → Option β) (l : List α) :
    (l.filter fun a => (f a).isSome).filterMap f = l.filterMap f := by
  induction l with
  | nil => rfl
  | cons a l ih =>
    cases h : f a with
    | none => rw [List.filter_cons_of_neg (by simp [h]), ih, List.filterMap_cons_none h]
    | some b =>
      rw [List.filter_cons_of_pos (by simp [h]), List.filterMap_cons_some h,
        List.filterMap_cons_some h, ih]

theorem orRaise_eq_ok {α : Type} {o : Option α} {a : α} : orRaise o = .ok a ↔ o = some a := by
  cases o <;> simp [orRaise]

theorem summaryOf_answers_iff {records : List (List (String × Json))}
    (hcounted : ∀ record ∈ records, (temperature record).isSome) :
    Answers (summaryOf records) ↔
      (∀ t ∈ records.filterMap temperature, t.isFinite = true) ∧
        Json.Comparable (records.map rainChance) := by
  by_cases hnil : records = []
  · subst hnil
    exact ⟨fun _ => ⟨by simp, Or.inl (Nat.zero_le _)⟩, fun _ => ⟨none, rfl⟩⟩
  have htemps : records.filterMap temperature ≠ [] := by
    obtain ⟨record, hmem⟩ := List.exists_mem_of_ne_nil records hnil
    obtain ⟨t, ht⟩ := Option.isSome_iff_exists.mp (hcounted record hmem)
    exact List.ne_nil_of_mem (List.mem_filterMap.mpr ⟨record, hmem, ht⟩)
  have hrain : records.map rainChance ≠ [] := fun h => hnil (List.map_eq_nil_iff.mp h)
  rw [← Json.ends_round_iff htemps, ← Json.maxOf_isSome_iff hrain, summaryOf, if_neg hnil, Answers]
  simp only [bind_eq_ok, orRaise_eq_ok, pure, Except.pure, Except.ok.injEq,
    Option.isSome_iff_exists]
  constructor
  · rintro ⟨_, rain, hrain, low, hlow, high, hhigh, rfl⟩
    exact ⟨⟨⟨low, hlow⟩, high, hhigh⟩, rain, hrain⟩
  · rintro ⟨⟨⟨low, hlow⟩, high, hhigh⟩, rain, hrain⟩
    exact ⟨_, rain, hrain, low, hlow, high, hhigh, rfl⟩

/-- A list of hours can be summarised exactly when it is readable. -/
theorem hours_answer_iff {hours : List Json} :
    Answers (hourlyRecords hours >>= summaryOf) ↔ ReadableHours hours := by
  have hcount : ∀ records : List (List (String × Json)),
      Answers (summaryOf (records.filter fun record => (temperature record).isSome)) ↔
        (∀ t ∈ records.filterMap temperature, t.isFinite = true) ∧
          Json.Comparable
            ((records.filter fun record => (temperature record).isSome).map rainChance) := by
    intro records
    rw [summaryOf_answers_iff fun record hmem => (List.mem_filter.mp hmem).2,
      filterMap_filter_isSome]
  constructor
  · rintro ⟨result, hresult⟩
    obtain ⟨counted, hhours, hsummary⟩ := bind_eq_ok.mp hresult
    obtain ⟨records, hrecords, rfl⟩ := hourlyRecords_eq_ok.mp hhours
    exact ⟨records, hrecords, (hcount records).mp ⟨result, hsummary⟩⟩
  · rintro ⟨records, hrecords, hreadable⟩
    obtain ⟨result, hresult⟩ := (hcount records).mpr hreadable
    exact ⟨result, bind_eq_ok.mpr ⟨_, hourlyRecords_eq_ok.mpr ⟨records, hrecords, rfl⟩, hresult⟩⟩

/-- A text or a dict has no hours that are dicts, so it can only be empty. -/
theorem keys_answer_iff (keys : List String) :
    Answers (hourlyRecords (keys.map Json.string) >>= summaryOf) ↔ keys = [] := by
  cases keys with
  | nil => exact ⟨fun _ => rfl, fun _ => ⟨none, rfl⟩⟩
  | cons key keys =>
    constructor
    · rintro ⟨result, hresult⟩
      cases hresult
    · intro h
      cases h

/-- What `"weather"` may hold. -/
theorem weather_answer_iff (weather : Json) :
    Answers (weather.items >>= fun hours => hourlyRecords hours >>= summaryOf) ↔
      weather = .string "" ∨ weather = .object [] ∨
        ∃ hours, weather = .array hours ∧ ReadableHours hours := by
  cases weather with
  | string text =>
    have hkeys := keys_answer_iff (text.toList.map String.singleton)
    rw [List.map_map, List.map_eq_nil_iff, String.toList_eq_nil_iff] at hkeys
    refine hkeys.trans ⟨fun h => Or.inl (congrArg _ h), ?_⟩
    rintro (h | h | ⟨_, h, -⟩) <;> cases h
    rfl
  | array hours =>
    refine hours_answer_iff.trans ⟨fun h => Or.inr (Or.inr ⟨hours, rfl, h⟩), ?_⟩
    rintro (h | h | ⟨_, h, hreadable⟩) <;> cases h
    exact hreadable
  | object fields =>
    have hkeys := keys_answer_iff (fields.map Prod.fst)
    rw [List.map_map, List.map_eq_nil_iff] at hkeys
    refine hkeys.trans ⟨fun h => Or.inr (Or.inl (congrArg _ h)), ?_⟩
    rintro (h | h | ⟨_, h, -⟩) <;> cases h
    rfl
  | _ =>
    constructor
    · rintro ⟨_, h⟩
      cases h
    · rintro (h | h | ⟨_, h, -⟩) <;> cases h

/-- **The payloads that can be summarised.** -/
theorem summarize_answers_iff {raw : Json} : Answers (summarize raw) ↔ Readable raw := by
  cases raw with
  | object payload =>
    have hread : Readable (.object payload) ↔
        ∀ weather, payload.lookup "weather" = some weather →
          weather = .string "" ∨ weather = .object [] ∨
            ∃ hours, weather = .array hours ∧ ReadableHours hours := by
      constructor
      · rintro ⟨_, h, hweather⟩
        cases h
        exact hweather
      · exact fun h => ⟨payload, rfl, h⟩
    have hsummarize : summarize (.object payload) =
        (((payload.lookup "weather").getD (.array [])).items >>= fun hours =>
          hourlyRecords hours >>= summaryOf) := rfl
    rw [hread, hsummarize]
    cases hlookup : payload.lookup "weather" with
    | none => exact ⟨fun _ _ h => absurd h (by simp), fun _ => ⟨none, rfl⟩⟩
    | some weather =>
      rw [Option.getD_some, weather_answer_iff]
      exact ⟨fun h _ hw => Option.some.inj hw ▸ h, fun h => h weather rfl⟩
  | _ =>
    constructor
    · rintro ⟨_, h⟩
      cases h
    · rintro ⟨_, h, -⟩
      cases h

/-! ## Loads of the dashboard -/

section Loads

variable (column : Json → Option Json) (day : Date)

/-- What a load leaves. -/
def afterLoad (db : Database) (call : WeatherCall) : Database :=
  (weatherSummary column call day db).1

/-- A load of the day can answer: the cached payload is readable; or nothing is cached, and there
is no settings row, or the request fails, or no other request has cached the day by then and the
answer is stored as a readable payload. -/
def CanAnswer (db : Database) (call : WeatherCall) : Prop :=
  match db.weatherCache.lookup day with
  | some cached => Readable cached.rawPayload
  | none => ∀ settings, db.settings = some settings →
    ∀ raw, call.fetchForecast settings.weatherLocationLat settings.weatherLocationLon day =
        some raw →
      call.rival.isNone ∧ ∃ payload, column raw = some payload ∧ Readable payload

variable {column day}

/-- **When one load answers.** -/
theorem weatherSummary_answers_iff (db : Database) (call : WeatherCall) :
    Answers (weatherSummary column call day db).2 ↔ CanAnswer column day db call := by
  cases hcache : db.weatherCache.lookup day with
  | some cached =>
    rw [weatherSummary_of_cached hcache, CanAnswer, hcache]
    exact summarize_answers_iff
  | none =>
    rw [CanAnswer, hcache]
    have hnone : Answers (.ok none : Except Failure (Option Summary)) := ⟨none, rfl⟩
    have hraised : ¬ Answers (.error .raised : Except Failure (Option Summary)) := by
      rintro ⟨_, h⟩
      cases h
    cases hsettings : db.settings with
    | none =>
      rw [weatherSummary, weatherSummaryFetching_of_no_settings hcache hsettings]
      exact ⟨fun _ _ h => absurd h (by simp), fun _ => hnone⟩
    | some settings =>
      rw [weatherSummary_of_empty hcache hsettings]
      simp only [Option.some.injEq, forall_eq']
      cases hanswer : call.fetchForecast settings.weatherLocationLat settings.weatherLocationLon
          day with
      | none =>
        refine ⟨fun _ _ h => absurd h (by simp), fun _ => ?_⟩
        cases call.rival <;> exact hnone
      | some raw =>
        simp only [Option.some.injEq, forall_eq']
        cases hrival : call.rival with
        | some payload => exact ⟨fun h => absurd h hraised, fun h => absurd h.1 (by simp)⟩
        | none =>
          cases hcolumn : column raw with
          | none =>
            refine ⟨fun h => absurd h hraised, fun h => ?_⟩
            obtain ⟨_, payload, hpayload, -⟩ := h
            cases hpayload
          | some payload =>
            refine summarize_answers_iff.trans ⟨fun h => ⟨rfl, payload, rfl, h⟩, ?_⟩
            rintro ⟨-, _, hpayload, hreadable⟩
            cases hpayload
            exact hreadable

/-- A load leaves a cached day as it is. -/
theorem afterLoad_of_cached {db : Database} {cached : WeatherCache}
    (h : db.weatherCache.lookup day = some cached) (call : WeatherCall) :
    afterLoad column day db call = db := by
  rw [afterLoad, weatherSummary_of_cached h]

/-- **A payload that cannot be summarised fails every load of the day.** -/
theorem raises_of_unreadable {db : Database} {cached : WeatherCache}
    (h : db.weatherCache.lookup day = some cached) (hunreadable : ¬ Readable cached.rawPayload)
    (calls : List WeatherCall) :
    ∀ x ∈ Runs.trace (afterLoad column day) db calls,
      ¬ Answers (weatherSummary column x.2 day x.1).2 := by
  induction calls with
  | nil => simp
  | cons call calls ih =>
    rw [Runs.trace_cons, List.forall_mem_cons, afterLoad_of_cached h,
      weatherSummary_of_cached h, summarize_answers_iff]
    exact ⟨hunreadable, ih⟩

/-- **When the weather widget answers.**  The loads of a day all come back, with a summary or with
`None`, exactly when each of them finds a payload that can be summarised, or has nothing to store,
or stores one that can. -/
theorem weather_loads_answer_iff (column : Json → Option Json) (day : Date) (db : Database)
    (calls : List WeatherCall) :
    (∀ x ∈ Runs.trace (afterLoad column day) db calls,
        Answers (weatherSummary column x.2 day x.1).2) ↔
      ∀ x ∈ Runs.trace (afterLoad column day) db calls, CanAnswer column day x.1 x.2 :=
  forall₂_congr fun x _ => weatherSummary_answers_iff x.1 x.2

/-- A service that answers with a list in place of a dict. -/
def listAnswer : WeatherCall := { fetchForecast := fun _ _ _ => some (.array []), now := 0 }

/-- The first load of the day raises, and so does the next one, which finds the list cached. -/
theorem weather_loads_raise_listAnswer :
    (Runs.trace (afterLoad some 739623) { settings := some {} } [listAnswer, listAnswer]).map
        (fun x => (weatherSummary some x.2 739623 x.1).2) = [.error .raised, .error .raised] ∧
      ¬ ∀ x ∈ Runs.trace (afterLoad some 739623) { settings := some {} } [listAnswer, listAnswer],
        Answers (weatherSummary some x.2 739623 x.1).2 := by
  refine ⟨rfl, fun h => ?_⟩
  obtain ⟨_, hresult⟩ := h _ List.mem_cons_self
  cases hresult

end Loads

end EpsCloud
