import ContainerPorts.Cloud.Rest.Session
import ContainerPorts.Settings.Source
/-!
# The account in the cloud

The account is given by variables of the environment that begin with `OS_`. Four
of them have no default.
-/
namespace ContainerPorts.Cloud.Account

def settingsWord : String := "os"

def fields : List (SettingField Account) :=
  [.requiredText "auth_url" fun s a => { a with authUrl := s },
    .requiredText "username" fun s a => { a with username := s },
    .requiredText "password" fun s a => { a with password := s },
    .requiredText "project_name" fun s a => { a with projectName := s },
    .text "user_domain_name" fun s a => { a with userDomain := s },
    .text "project_domain_name" fun s a => { a with projectDomain := s },
    .text "region_name" fun s a => { a with region := s },
    .text "interface" fun s a => { a with interface := s },
    .optionalText "vm_name" fun o a => { a with serverName := o }]

def ofEnvironment (env : Environment) : Except SettingsError Account :=
  (Settings.ofEnvironment settingsWord env).read fields {}

/-- What is reported when there is no account. -/
def missingMessage : String :=
  "OS_AUTH_URL, OS_USERNAME, OS_PASSWORD and OS_PROJECT_NAME must be set"

end ContainerPorts.Cloud.Account
