import LoadHarness.Settings.Basic
import LoadHarness.Failure.Service

/-!
# Failures of a container

What keeps a container from running its service.
-/

namespace LoadHarness

/-- Why a container did not start. -/
inductive ContainerError where
  /-- The settings were refused before a service was built. -/
  | config (e : ConfigError)
  /-- The service could not be built, created or started. -/
  | service (name : String) (e : ServiceError)
  /-- It has run and been stopped before. -/
  | finished
deriving DecidableEq, Repr

instance : Explained ContainerError where
  message
    | .config _ => "invalid configuration"
    | .service name _ => "service " ++ name ++ " failed to start"
    | .finished => "container was stopped and cannot be restarted"
  sources
    | .config e => chain e
    | .service _ e => chain e
    | .finished => []

end LoadHarness
