import Screening.Numeral

/-!
# Settings

What the service is told from outside: its name, its environment, where it listens and how it is
watched.  The defaults of the parts stand here, and with them the service could be run as it is.
-/

set_option autoImplicit false

namespace Screening

/-- How the service is watched: who it says it is, what it logs, and where it shows its figures. -/
structure Observability where
  serviceName : String := "rule-service"
  logLevel : String := "info"
  jsonLogs : Bool := false
  metricsEnabled : Bool := true
  metricsPort : UInt16 := 9090
  deriving DecidableEq

def Observability.withServiceName (name : String) (o : Observability) : Observability :=
  { o with serviceName := name }

structure Listener where
  host : String := "0.0.0.0"
  port : UInt16 := 3000
  deriving DecidableEq

structure Settings where
  serviceName : String := "rule-service"
  environment : String := "development"
  server : Listener := {}
  observability : Observability := {}
  deriving DecidableEq

namespace Settings

/-- Where the service listens. -/
def address (s : Settings) : String :=
  s.server.host ++ ":" ++ String.ofList (Numeral.digits s.server.port.toNat)

def isProduction (s : Settings) : Bool := s.environment = "production"

end Settings

end Screening
