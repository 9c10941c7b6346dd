import ContainerPorts.Daemon.Reaper
import ContainerPorts.NetworkConf
import ContainerPorts.Settings.Source
import ContainerPorts.Url.Reader
/-!
# Settings of the daemon

What the daemon is told by variables that begin with `CNI_` and by the file that
one of them may name: where it listens, how long it waits, what it keeps, and
when it reaps.
-/
namespace ContainerPorts

/-- Beginning of the names of the variables for the plugin and the daemon. -/
def settingsWord : String := "cni"

/-- The variable that names the file with settings. -/
def settingsFile : String := "CNI_CONFIG_FILE"

structure DaemonSettings where
  /-- Where the plugin reaches the daemon. -/
  apiUrl : String := "http://127.0.0.1:4242"
  requestTimeoutSecs : Nat := 60
  cloudTimeoutSecs : Nat := 30
  cacheTtlSecs : Nat := 300
  reapIntervalSecs : Nat := 300
  minPortAgeSecs : Nat := 300
  skipReaping : Bool := false
  /-- Judge the ports, but delete none. -/
  skipReapDelete : Bool := false
  /-- Where the process table of the host is mounted. -/
  procMount : Option String := none
  stateDir : String := "/host/etc/cni/net.d/openstack-cni-state"
  portName : String := "openstack-cni"
  portDeviceOwner : String := ""
  logLevel : String := "info"
  deriving DecidableEq, Repr, Inhabited

inductive ListenError where
  | invalidUrl (url : String)
  | noHost (url : String)
  | noPort (url : String)
  deriving DecidableEq, Repr

def ListenError.message : ListenError → String
  | .invalidUrl url => "invalid CNI_API_URL " ++ url
  | .noHost url => "CNI_API_URL " ++ url ++ " has no host"
  | .noPort url => "CNI_API_URL " ++ url ++ " has no port"

namespace DaemonSettings

def fields : List (SettingField DaemonSettings) :=
  [.text "api_url" fun s d => { d with apiUrl := s },
    .count "request_timeout_secs" fun n d => { d with requestTimeoutSecs := n },
    .count "cloud_timeout_secs" fun n d => { d with cloudTimeoutSecs := n },
    .count "cache_ttl_secs" fun n d => { d with cacheTtlSecs := n },
    .count "reap_interval_secs" fun n d => { d with reapIntervalSecs := n },
    .count "min_port_age_secs" fun n d => { d with minPortAgeSecs := n },
    .flag "skip_reaping" fun b d => { d with skipReaping := b },
    .flag "skip_reap_delete" fun b d => { d with skipReapDelete := b },
    .optionalText "proc_mount" fun o d => { d with procMount := o },
    .text "state_dir" fun s d => { d with stateDir := s },
    .text "port_name" fun s d => { d with portName := s },
    .text "port_device_owner" fun s d => { d with portDeviceOwner := s },
    .text "log_level" fun s d => { d with logLevel := s }]

def load (env : Environment) (content : String → Option Bytes) :
    Except SettingsError DaemonSettings := do
  (← Settings.load settingsWord settingsFile env content).read fields {}

/-- The host and the port that the daemon listens on. -/
def listenAddress (d : DaemonSettings) : Except ListenError String :=
  match Url.read d.apiUrl with
  | .error _ => .error (.invalidUrl d.apiUrl)
  | .ok u =>
    match u.host?, u.port? with
    | none, _ => .error (.noHost d.apiUrl)
    | some _, none => .error (.noPort d.apiUrl)
    | some host, some port => .ok (String.ofList (host.chars ++ ':' :: Nat.toDigits 10 port))

def reaper (d : DaemonSettings) : ReaperConfig :=
  ⟨.ofSeconds d.reapIntervalSecs, .ofSeconds d.minPortAgeSecs, d.skipReapDelete, d.procMount⟩

/-- Ports are made in the project of the session unless the network's configuration names one. -/
def portDefaults (d : DaemonSettings) : PortDefaults :=
  ⟨d.portName, none, if d.portDeviceOwner = "" then none else some d.portDeviceOwner⟩

end DaemonSettings

end ContainerPorts
