import GuestControl.Duration
import GuestControl.Text.Numeral

/-!
# Settings

What can be set, with the values that hold where nothing is set.
-/

namespace GuestControl.Settings

structure Readiness where
  service : String := "vmms"
  /-- The limit of each wait, in seconds. -/
  transitionSeconds : UInt64 := 3
  pollMilliseconds : UInt64 := 250
  deriving DecidableEq

namespace Readiness

def transitionLimit (r : Readiness) : Duration := .ofSeconds r.transitionSeconds.toNat

def pollInterval (r : Readiness) : Duration := .ofMilliseconds r.pollMilliseconds.toNat

end Readiness

structure Control where
  shell : String := "powershell"
  readiness : Readiness := {}
  deriving DecidableEq

structure Server where
  host : String := "0.0.0.0"
  port : UInt16 := 6001
  deriving DecidableEq

structure Logging where
  level : String := "hvops=info,api=info,tower_http=info"
  deriving DecidableEq

structure Agent where
  server : Server := {}
  logging : Logging := {}
  control : Control := {}
  deriving DecidableEq

def Server.address (s : Server) : String := s.host ++ ":" ++ Text.Numeral.decimal s.port.toNat

end GuestControl.Settings
