import ContainerPorts.Link.Binder
import ContainerPorts.Link.Retry
import ContainerPorts.Settings.Daemon
/-!
# Settings of the plugin

The plugin reads the same variables and the same file as the daemon. The
variables that the runtime gives it for an invocation begin with the same word
and are no settings.
-/
namespace ContainerPorts

structure PluginSettings where
  /-- Where the daemon is. -/
  apiUrl : String := "http://127.0.0.1:4242"
  requestTimeoutSecs : Nat := 120
  /-- The file that logs are appended to. -/
  logFile : Option String := none
  logLevel : String := "info"
  /-- Wait until a link has got its name. -/
  waitForUdev : Bool := true
  /-- The beginning of the names that links have before. -/
  unsettled : String := "eth"
  udevDelayMillis : Nat := 100
  udevTimeoutMillis : Nat := 5000
  enableRetry : Bool := false
  retryIntervalMillis : Nat := 100
  retryMaxWaitMillis : Nat := 2000
  deriving DecidableEq, Repr, Inhabited

namespace PluginSettings

def fields : List (SettingField PluginSettings) :=
  [.text "api_url" fun s p => { p with apiUrl := s },
    .count "request_timeout_secs" fun n p => { p with requestTimeoutSecs := n },
    .optionalText "log_file" fun o p => { p with logFile := o },
    .text "log_level" fun s p => { p with logLevel := s },
    .flag "wait_for_udev" fun b p => { p with waitForUdev := b },
    .text "wait_for_udev_prefix" fun s p => { p with unsettled := s },
    .count "wait_for_udev_delay_ms" fun n p => { p with udevDelayMillis := n },
    .count "wait_for_udev_timeout_ms" fun n p => { p with udevTimeoutMillis := n },
    .flag "enable_netlink_retry" fun b p => { p with enableRetry := b },
    .count "netlink_retry_interval_ms" fun n p => { p with retryIntervalMillis := n },
    .count "netlink_retry_max_wait_ms" fun n p => { p with retryMaxWaitMillis := n }]

def load (env : Environment) (content : String → Option Bytes) :
    Except SettingsError PluginSettings := do
  (← Settings.load settingsWord settingsFile env content).read fields {}

def udevWait (p : PluginSettings) : UdevWait :=
  { enabled := p.waitForUdev, unsettled := p.unsettled, delay := .ofMillis p.udevDelayMillis
    timeout := .ofMillis p.udevTimeoutMillis }

/-- How calls to the kernel are retried; the limit of a single delay cannot be set. -/
def retryPolicy (p : PluginSettings) : RetryPolicy :=
  { interval := .ofMillis p.retryIntervalMillis, maxWait := .ofMillis p.retryMaxWaitMillis }

end PluginSettings

end ContainerPorts
