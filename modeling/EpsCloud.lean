import EpsCloud.Streaks.RecordedHistory
import EpsCloud.Streaks.Interleaving
import EpsCloud.Streaks.DaysPassing
import EpsCloud.Streaks.Corrections
import EpsCloud.Streaks.PersonalRecord
import EpsCloud.Weather.Widget
import EpsCloud.Weather.Location
import EpsCloud.Calendar.Markers
import EpsCloud.Migrations.Lock
import EpsCloud.Agenda.Coverage
import EpsCloud.Agenda.Grammar
import EpsCloud.Agenda.MoveRuns
import EpsCloud.Trackers.DoneDays
import EpsCloud.Edits.AuditTrail
import EpsCloud.Edits.StoredAnswers
import EpsCloud.Days.Attribution
import EpsCloud.Days.PastDays
import EpsCloud.Tasks.History
import EpsCloud.Figures.Freshness
import EpsCloud.Agenda.Preview
import EpsCloud.Agenda.LocalTimes
import EpsCloud.Trackers.UsableForms
import EpsCloud.Tasks.Rescheduling
import EpsCloud.Days.OneToday
import EpsCloud.Telemetry.SpanExport
import EpsCloud.Telemetry.LogRedaction
import EpsCloud.Edits.DecimalInput
import EpsCloud.Days.ServedDays
import EpsCloud.Seeding.Rerun
import EpsCloud.Deploy.HelmValues
import EpsCloud.Deploy.MergedValues
import EpsCloud.Deploy.SharedMappings
import EpsCloud.Library.InPlace
import EpsCloud.Release.DerivedInventory
import EpsCloud.Release.ExactInventory
import EpsCloud.Library.FileCalls
import EpsCloud.Release.ArchiveNames
import EpsCloud.Release.CompleteOrAbsent
import EpsCloud.Library.References
import EpsCloud.Site.Deleted
import EpsCloud.Site.LastSaved
import EpsCloud.Site.Retention
import EpsCloud.Library.Relocation
import EpsCloud.Release.AcceptedRelease
import EpsCloud.Library.TextReader
import EpsCloud.Telemetry.AlertLog
import EpsCloud.Telemetry.RequestTelemetry
