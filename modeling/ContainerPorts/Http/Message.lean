import ContainerPorts.Json.Decode
import ContainerPorts.Program
import ContainerPorts.Text.Utf8
import ContainerPorts.Url.Basic
/-!
# HTTP requests and responses

What a client sends, what a server answers, and the names of the statuses. A
client may get no response at all; then there is only a reason for that.
-/
namespace ContainerPorts.Http

structure Request where
  method : String
  url : Url
  /-- The token that the request is authorised by. -/
  token : Option String := none
  body : Option Json.Value := none
  deriving Repr

structure Response where
  status : Nat
  contentType : Option String := none
  /-- The token that the response hands out. -/
  subjectToken : Option String := none
  body : Bytes := []
  deriving DecidableEq, Repr, Inhabited

/-- The requests of a client, each answered by a response or the reason why there is none. -/
abbrev exchanges : Signature := ⟨Request, fun _ => Except String Response⟩

/-- Send a request. -/
def send (r : Request) : Program exchanges (Except String Response) :=
  Program.perform (S := exchanges) r

def plainText : String := "text/plain; charset=utf-8"

def jsonType : String := "application/json"

namespace Response

/-- An answer without content. -/
def empty (status : Nat) : Response := { status := status }

def ofText (status : Nat) (s : String) : Response :=
  { status := status, contentType := some plainText, body := Utf8.encode s }

def ofJson (status : Nat) (v : Json.Value) : Response :=
  { status := status, contentType := some jsonType, body := Utf8.encode v.text }

/-- What a HEAD request is told of an answer. -/
def withoutBody (r : Response) : Response := { r with body := [] }

/-- Whether the request succeeded. -/
def isSuccess (r : Response) : Bool := 200 ≤ r.status && r.status < 300

/-- The body as text. Only UTF-8 is decoded: another charset in the content type is not followed,
nor is the mark of another byte order. -/
def text (r : Response) : String := Utf8.documentText r.body

/-- The body as JSON if it is said to be that and not empty, or else its text. -/
def content (r : Response) : Json.Value :=
  if r.contentType = some jsonType ∧ r.body ≠ [] then
    match Json.Decoder.ofBytes Json.Decoder.value r.body with
    | .ok v => v
    | .error f => f.message
  else r.text

end Response

/-- The names of the registered statuses. -/
def statusNames : List (Nat × String) :=
  [(100, "Continue"), (101, "Switching Protocols"), (102, "Processing"), (200, "OK"),
    (201, "Created"), (202, "Accepted"), (203, "Non Authoritative Information"),
    (204, "No Content"), (205, "Reset Content"), (206, "Partial Content"), (207, "Multi-Status"),
    (208, "Already Reported"), (226, "IM Used"), (300, "Multiple Choices"),
    (301, "Moved Permanently"), (302, "Found"), (303, "See Other"), (304, "Not Modified"),
    (305, "Use Proxy"), (307, "Temporary Redirect"), (308, "Permanent Redirect"),
    (400, "Bad Request"), (401, "Unauthorized"), (402, "Payment Required"), (403, "Forbidden"),
    (404, "Not Found"), (405, "Method Not Allowed"), (406, "Not Acceptable"),
    (407, "Proxy Authentication Required"), (408, "Request Timeout"), (409, "Conflict"),
    (410, "Gone"), (411, "Length Required"), (412, "Precondition Failed"),
    (413, "Payload Too Large"), (414, "URI Too Long"), (415, "Unsupported Media Type"),
    (416, "Range Not Satisfiable"), (417, "Expectation Failed"), (418, "I'm a teapot"),
    (421, "Misdirected Request"), (422, "Unprocessable Entity"), (423, "Locked"),
    (424, "Failed Dependency"), (425, "Too Early"), (426, "Upgrade Required"),
    (428, "Precondition Required"), (429, "Too Many Requests"),
    (431, "Request Header Fields Too Large"), (451, "Unavailable For Legal Reasons"),
    (500, "Internal Server Error"), (501, "Not Implemented"), (502, "Bad Gateway"),
    (503, "Service Unavailable"), (504, "Gateway Timeout"),
    (505, "HTTP Version Not Supported"), (506, "Variant Also Negotiates"),
    (507, "Insufficient Storage"), (508, "Loop Detected"), (510, "Not Extended"),
    (511, "Network Authentication Required")]

/-- A status with its name. -/
def statusText (status : Nat) : String :=
  let name := match statusNames.find? fun p => p.1 = status with
    | some (_, name) => name
    | none => "<unknown status code>"
  toString status ++ " " ++ name

end ContainerPorts.Http
