import EpsCloud.Routes.Forms

/-!
# The settings routes

`app.preferences` and `app.routes.settings`: the single row of user preferences.
A form creates the row with its defaults if there is none, changes its own
fields and commits; a refused form is rolled back, together with the new row.

* `saveWeather_eq_ok`: what a saved location has checked and what it leaves.
-/

namespace EpsCloud

/-- `ensure`: the preferences row, with its defaults if it is missing. -/
def ensure (db : Database) : UserSettings := db.settings.getD {}

/-- `toggle_grace`: flip streak forgiveness.  Streak counts are not recomputed here. -/
def toggleGrace (db : Database) : Database :=
  let prefs := ensure db
  { db with settings := some { prefs with graceEnabled := !prefs.graceEnabled } }

/-- `LAT_RANGE` -/
def latRange : Decimal × Decimal := (.ofInt (-90), .ofInt 90)

/-- `LON_RANGE` -/
def lonRange : Decimal × Decimal := (.ofInt (-180), .ofInt 180)

/-- `parse_coordinate`: a decimal inside the range, or a 400.  Comparing a NaN raises. -/
def parseCoordinate (py : TextParsers) (raw : String) (range : Decimal × Decimal) :
    Except Failure Decimal :=
  match py.decimal (py.strip raw) with
  | none => .error (.abort 400)
  | some value =>
    match range.1.pyLe value with
    | none => .error .raised
    | some false => .error (.abort 400)
    | some true =>
      match value.pyLe range.2 with
      | none => .error .raised
      | some false => .error (.abort 400)
      | some true => .ok value

/-- `save_weather`: store the location used for the weather forecast. -/
def saveWeather (py : TextParsers) (lat lon : String) (db : Database) :
    Except Failure Database := do
  let prefs := ensure db
  let lat ← parseCoordinate py lat latRange
  let lon ← parseCoordinate py lon lonRange
  let prefs := { prefs with weatherLocationLat := lat, weatherLocationLon := lon }
  return { db with settings := some prefs }

theorem saveWeather_eq_ok {py : TextParsers} {lat lon : String} {db db' : Database} :
    saveWeather py lat lon db = .ok db' ↔
      ∃ latitude longitude, parseCoordinate py lat latRange = .ok latitude ∧
        parseCoordinate py lon lonRange = .ok longitude ∧
        db' = { db with
          settings := some { ensure db with
            weatherLocationLat := latitude
            weatherLocationLon := longitude } } := by
  rw [saveWeather]
  simp only [bind_eq_ok, pure, Except.pure, Except.ok.injEq]
  constructor
  · rintro ⟨latitude, hlat, longitude, hlon, rfl⟩
    exact ⟨latitude, longitude, hlat, hlon, rfl⟩
  · rintro ⟨latitude, longitude, hlat, hlon, rfl⟩
    exact ⟨latitude, hlat, longitude, hlon, rfl⟩

end EpsCloud
