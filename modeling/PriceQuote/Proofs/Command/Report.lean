import PriceQuote.Command.Report

/-!
# Documents of reports

What a report says can be found in its document, field by field.
-/

namespace PriceQuote.Command

namespace Report

variable {report : Report}

/-- There is an exit code other than 0 for every way to fail. -/
theorem exitCode_eq_zero_iff : report.exitCode = 0 ↔ report.errorClass = none := by
  rw [exitCode]
  cases report.errorClass with
  | none => simp
  | some failure => cases failure <;> simp [ErrorClass.exitCode]

theorem field?_status_iff :
    report.toJson.field? "status" = some (.string "ok") ↔ report.exitCode = 0 := by
  rw [exitCode_eq_zero_iff]
  show some (Json.string report.status) = _ ↔ _
  rw [status]
  cases report.errorClass <;> simp

theorem field?_errorClass_of_some {failure : ErrorClass} (h : report.errorClass = some failure) :
    report.toJson.field? "error_class" = some (.string failure.label) := by
  rw [toJson, h]
  rfl

theorem field?_errorClass_ne {failure : ErrorClass} {text : String}
    (h : report.errorClass = some failure) (hne : failure.label ≠ text) :
    report.toJson.field? "error_class" ≠ some (.string text) := by
  simpa [field?_errorClass_of_some h] using hne

theorem field?_errorClass_iff :
    report.toJson.field? "error_class" = some .null ↔ report.exitCode = 0 := by
  rw [exitCode_eq_zero_iff]
  cases hclass : report.errorClass with
  | some failure => simp [field?_errorClass_of_some hclass]
  | none =>
    rw [toJson, hclass]
    exact ⟨fun _ => rfl, fun _ => rfl⟩

theorem field?_data : report.toJson.field? "data" = report.data := by
  rw [toJson]
  cases report.data <;> rfl

end Report

end PriceQuote.Command
