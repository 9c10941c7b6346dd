import ContainerPorts.Cloud.Rest.Session
/-!
# The cloud through its web services

Every call is one request to the compute, network or identity service. It uses
the session at hand while that is fresh and gets a new one before otherwise. A
request that is refused for its token is not repeated, but its session is
dropped. A lookup by id that ends in 404 has found nothing.
-/
namespace ContainerPorts.Cloud

open Json (Value Decoder)

/-- What the client asks of its surroundings. -/
inductive RestRequest where
  | http (r : Http.Request)
  | now

abbrev RestRequest.Answer : RestRequest → Type
  | .http _ => Except String Http.Response
  | .now => Instant

abbrev restCalls : Signature := ⟨RestRequest, RestRequest.Answer⟩

/-- The services that calls go to. -/
inductive RestService where
  | compute
  | network
  | identity
  deriving DecidableEq, Repr

/-- A program that may fail and keeps a session, also when it fails. -/
abbrev Rest (α : Type) := ExceptT Failure (StateT (Option Session) (Program restCalls)) α

structure RestClient where
  account : Account
  /-- Where the identity service is. -/
  identity : Url
  deriving Repr

namespace RestClient

def make (a : Account) : Except Failure RestClient := do return ⟨a, ← baseUrl a.authUrl⟩

def request (r : RestRequest) : Rest r.Answer :=
  ExceptT.lift (fun s => do return (← Program.perform (S := restCalls) r, s))

/-- Send a request; that there is no response is a failure. -/
def send (r : Http.Request) : Rest Http.Response := do
  let answer : Except String Http.Response ← request (.http r)
  match answer with
  | .ok response => return response
  | .error reason => throw (.http r.url.text reason)

def lift {α : Type} (e : Except Failure α) : Rest α :=
  match e with
  | .ok a => return a
  | .error f => throw f

/-- Get a new session. -/
def authenticate (c : RestClient) : Rest Session := do
  let url ← lift (joined c.identity "auth/tokens")
  let response ← send ⟨"POST", url, none, some c.account.tokenRequest⟩
  lift (c.account.grant url response)

/-- The session at hand if it is fresh, or else a new one. -/
def session (c : RestClient) : Rest Session := do
  let known : Option Session ← get
  match known with
  | some s =>
    let now : Instant ← request .now
    if s.isFresh now then return s
    renew
  | none => renew
where
  renew : Rest Session := do
    let s ← c.authenticate
    set (some s)
    return s

def base (c : RestClient) (s : Session) : RestService → Url
  | .compute => s.compute
  | .network => s.network
  | .identity => c.identity

/-- Make one request to a service. -/
def exchange (c : RestClient) (method : String) (service : RestService) (path : String)
    (query : List (String × String)) (body : Option Value) : Rest (Url × Http.Response) := do
  let s ← c.session
  let url ← lift (joined (c.base s service) path)
  let url := url.withPairs query
  let response ← send ⟨method, url, some s.token, body⟩
  if response.isSuccess then return (url, response)
  if response.status = 401 then set (none : Option Session)
  throw (.api method url.text response.status response.text)

/-- The document in a response. -/
def decoded {α : Type} (dec : Decoder α) (r : Url × Http.Response) : Rest α :=
  match dec.ofBytes r.2.body with
  | .ok a => return a
  | .error f => throw (.http r.1.text f.message)

def get {α : Type} (c : RestClient) (service : RestService) (path : String)
    (query : List (String × String)) (dec : Decoder α) : Rest α := do
  decoded dec (← c.exchange "GET" service path query none)

/-- The first item of a listing. -/
def first {α : Type} (kind : Kind) (xs : List α) : Rest α :=
  match xs with
  | x :: _ => return x
  | [] => throw (.notFound kind)

/-- Take a 404 for an answer that there is no such thing. -/
def orNotFound {α : Type} (kind : Kind) (p : Rest α) : Rest α :=
  tryCatch p fun e => match e with
    | .api _ _ 404 _ => throw (.notFound kind)
    | e => throw e

/-- The listing of a collection. -/
def listing {α : Type} (name : String) (dec : Decoder α) : Decoder (List α) :=
  only [] name (.list dec)

/-- A pattern that only the name itself matches, if it holds no character with a meaning of its
own; the compute service takes names for patterns. -/
def exactly (name : String) : String := "^" ++ name ++ "$"

/-- All tags in one query value. -/
def tagQuery (tags : List String) : String := ",".intercalate tags

def projectQuery (projectId : Option String) : List (String × String) :=
  match projectId with
  | some id => if id = "" then [] else [("project_id", id)]
  | none => []

def portsByTags (c : RestClient) (tags : List String) : Rest (List Port) :=
  c.get .network "ports" [("tags", tagQuery tags)] (listing "ports" Port.decoder)

def call (c : RestClient) : (call : Call) → Rest call.Result
  | .assignPort portId serverId => do
    let body := Value.object [("interfaceAttachment", .object [("port_id", .string portId)])]
    let r ← c.exchange "POST" .compute ("servers/" ++ serverId ++ "/os-interface") [] (some body)
    decoded (only {} "interfaceAttachment" Attachment.decoder) r
  | .createPort request extra => do
    let r ← c.exchange "POST" .network "ports" [] (some (portBody request extra))
    decoded (only {} "port" Port.decoder) r
  | .deletePort portId => orNotFound .port do
    let _ ← c.exchange "DELETE" .network ("ports/" ++ portId) [] none
  | .detachPort portId serverId => do
    let _ ← c.exchange "DELETE" .compute ("servers/" ++ serverId ++ "/os-interface/" ++ portId) []
      none
  | .setPortTags portId tags => do
    let body := Value.object [("tags", .strings tags)]
    let _ ← c.exchange "PUT" .network ("ports/" ++ portId ++ "/tags") [] (some body)
  | .networkByName name => do
    first .network (← c.get .network "networks" [("name", name)]
      (listing "networks" Network.decoder))
  | .portById portId =>
    orNotFound .port (c.get .network ("ports/" ++ portId) [] (only {} "port" Port.decoder))
  | .portsByDevice deviceId =>
    c.get .network "ports" [("device_id", deviceId)] (listing "ports" Port.decoder)
  | .portByTags tags => do first .port (← c.portsByTags tags)
  | .portsByTags tags => c.portsByTags tags
  | .projectByName name => do
    first .project (← c.get .identity "projects" [("name", name)]
      (listing "projects" Project.decoder))
  | .serverByName name => do
    first .server (← c.get .compute "servers" [("name", exactly name), ("limit", "1")]
      (listing "servers" Server.decoder))
  | .securityGroupByName name projectId => do
    first .securityGroup (← c.get .network "security-groups"
      (("name", name) :: projectQuery projectId) (listing "security_groups" SecurityGroup.decoder))
  | .subnetById subnetId =>
    orNotFound .subnet (c.get .network ("subnets/" ++ subnetId) [] (only {} "subnet" Subnet.decoder))
  | .subnetByName name networkId => do
    first .subnet (← c.get .network "subnets" [("name", name), ("network_id", networkId)]
      (listing "subnets" Subnet.decoder))

/-- Answer a call, given the session at hand. -/
def answer (c : RestClient) (call : Call) (s : Option Session) :
    Program restCalls (call.Answer × Option Session) := (c.call call).run s

end RestClient

end ContainerPorts.Cloud
