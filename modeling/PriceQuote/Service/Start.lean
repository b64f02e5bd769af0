import PriceQuote.Service.Answer

/-!
# Starting a service

A service is started from settings; it fails where there are none or where the pricebook they name
cannot be had.
-/

namespace PriceQuote.Service

/-- Why a service cannot be started. -/
inductive StartError where
  | settings (error : SettingsError)
  | pricebook (failure : Failure)
  deriving DecidableEq

def StartError.message : StartError → String
  | .settings error => error.message
  | .pricebook failure => s!"pricing tables could not be loaded: {failure.message}"

/-- A service with the settings it was started from. -/
structure Started where
  settings : Settings
  book : Pricebook

/-- What requests are answered from. -/
def Started.service (started : Started) : Service :=
  ⟨started.book, started.settings.maxConfigurations.toNat⟩

def start (host : Host) (options : Settings.LoadOptions) : Except StartError Started := do
  let settings ← (Settings.load host options).mapError .settings
  let book ← (Pricebook.load host settings).mapError .pricebook
  return ⟨settings, book⟩

end PriceQuote.Service
