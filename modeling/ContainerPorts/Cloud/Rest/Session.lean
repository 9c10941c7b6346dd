import ContainerPorts.Cloud.Call
import ContainerPorts.Http.Message
import ContainerPorts.Url.Query
import ContainerPorts.Url.Reader
/-!
# Sessions with the cloud's services

The identity service hands out a token that is good for a while, together with a
catalog of where the other services are. A session is given up a minute before
its token expires, and at once when a service refuses the token.
-/
namespace ContainerPorts.Cloud

open Json (Value Decoder)

/-- Who asks for a session, and which of the services' endpoints are used. -/
structure Account where
  /-- Where the identity service is. -/
  authUrl : String := ""
  username : String := ""
  password : String := ""
  projectName : String := ""
  userDomain : String := "Default"
  projectDomain : String := "Default"
  region : String := "RegionOne"
  interface : String := "public"
  /-- The name of this host's server, if it is not the host's own name. -/
  serverName : Option String := none
  deriving DecidableEq, Repr, Inhabited

namespace Account

def decoder : Decoder Account := .record {}
  [.required "auth_url" .string fun s a => { a with authUrl := s },
    .required "username" .string fun s a => { a with username := s },
    .required "password" .string fun s a => { a with password := s },
    .required "project_name" .string fun s a => { a with projectName := s },
    .defaulted "user_domain_name" .string fun s a => { a with userDomain := s },
    .defaulted "project_domain_name" .string fun s a => { a with projectDomain := s },
    .defaulted "region_name" .string fun s a => { a with region := s },
    .defaulted "interface" .string fun s a => { a with interface := s },
    .defaulted "vm_name" (.option .string) fun o a => { a with serverName := o }]

def toJson (a : Account) : Value := .object
  [("auth_url", a.authUrl), ("username", a.username), ("password", a.password),
    ("project_name", a.projectName), ("user_domain_name", a.userDomain),
    ("project_domain_name", a.projectDomain), ("region_name", a.region),
    ("interface", a.interface), ("vm_name", .optional a.serverName)]

/-- What the identity service is asked for a token with. -/
def tokenRequest (a : Account) : Value :=
  let domain := fun (name : String) => Value.object [("name", .string name)]
  let user := Value.object
    [("name", a.username), ("domain", domain a.userDomain), ("password", a.password)]
  let identity := Value.object
    [("methods", .strings ["password"]), ("password", .object [("user", user)])]
  let project := Value.object [("name", a.projectName), ("domain", domain a.projectDomain)]
  .object [("auth", .object [("identity", identity), ("scope", .object [("project", project)])])]

end Account

/-! ### The answer of the identity service -/

structure Endpoint where
  interface : String := ""
  regionId : Option String := none
  region : Option String := none
  url : String := ""
  deriving DecidableEq, Repr, Inhabited

def Endpoint.decoder : Decoder Endpoint := .record {}
  [.required "interface" .string fun s e => { e with interface := s },
    .defaulted "region_id" (.option .string) fun o e => { e with regionId := o },
    .defaulted "region" (.option .string) fun o e => { e with region := o },
    .required "url" .string fun s e => { e with url := s }]

structure CatalogEntry where
  service : String := ""
  endpoints : List Endpoint := []
  deriving DecidableEq, Repr, Inhabited

def CatalogEntry.decoder : Decoder CatalogEntry := .record {}
  [.required "type" .string fun s e => { e with service := s },
    .defaulted "endpoints" (.list Endpoint.decoder) fun es e => { e with endpoints := es }]

structure TokenGrant where
  expiresAt : Instant := default
  catalog : List CatalogEntry := []
  deriving DecidableEq, Repr, Inhabited

/-- A record with one member that must be there. -/
def only {α : Type} (start : α) (name : String) (dec : Decoder α) : Decoder α :=
  .record start [.required name dec fun a _ => a]

def TokenGrant.decoder : Decoder TokenGrant := only {} "token" (.record {}
  [.required "expires_at" (.filterMap Instant.read? .string) fun t g => { g with expiresAt := t },
    .defaulted "catalog" (.list CatalogEntry.decoder) fun es g => { g with catalog := es }])

/-! ### Sessions -/

structure Session where
  token : String
  expiresAt : Instant
  compute : Url
  network : Url
  deriving DecidableEq, Repr

/-- How long before its token expires a session is given up. -/
def expiryMargin : Span := .ofSeconds 60

def Session.isFresh (s : Session) (now : Instant) : Bool :=
  now.toNanos < s.expiresAt.toNanos - expiryMargin.nanos

/-- A URL that names can be relative to; it ends in a slash. -/
def baseUrl (raw : String) : Except Failure Url :=
  let raw := if raw.toList.getLast? = some '/' then raw else raw ++ "/"
  match Url.read raw with
  | .ok u => .ok u
  | .error e => .error (.badUrl e.message)

def joined (base : Url) (path : String) : Except Failure Url :=
  match base.join path with
  | .ok u => .ok u
  | .error e => .error (.badUrl e.message)

namespace Account

/-- Whether an endpoint is the one to use; no region means any. -/
def selects (a : Account) (e : Endpoint) : Bool :=
  e.interface = a.interface &&
    (a.region = "" || e.regionId = some a.region || e.region = some a.region)

/-- Where a service is. -/
def endpoint (a : Account) (catalog : List CatalogEntry) (service : String) : Except Failure Url :=
  let endpoints := (catalog.filter fun e => e.service = service).flatMap CatalogEntry.endpoints
  match endpoints.find? a.selects with
  | some e => baseUrl e.url
  | none => .error (.missingEndpoint service)

/-- The version of the network service. -/
def networkVersion : String := "v2.0"

/-- Whether the path of a URL ends in the version, not counting slashes at its end. -/
def hasVersion (u : Url) : Bool :=
  let path := (u.path.chars.reverse.dropWhile (· = '/'))
  networkVersion.toList.reverse.isPrefixOf path

/-- The session that a grant of a token makes possible. -/
def session (a : Account) (token : String) (g : TokenGrant) : Except Failure Session := do
  let compute ← a.endpoint g.catalog "compute"
  let network ← a.endpoint g.catalog "network"
  let network ← if hasVersion network then .ok network else joined network (networkVersion ++ "/")
  return ⟨token, g.expiresAt, compute, network⟩

/-- What a response of the identity service is worth. -/
def grant (a : Account) (url : Url) (r : Http.Response) : Except Failure Session :=
  if !r.isSuccess then .error (.auth (Http.statusText r.status ++ ": " ++ r.text))
  else match r.subjectToken with
    | none => .error (.auth "response has no X-Subject-Token header")
    | some token =>
      match TokenGrant.decoder.ofBytes r.body with
      | .error f => .error (.http url.text f.message)
      | .ok g => a.session token g

end Account

end ContainerPorts.Cloud
