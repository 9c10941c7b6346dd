import ContainerPorts.Cloud.Cached
import ContainerPorts.Cloud.Rest.Client
/-!
# The services as a cloud

Calls are answered by the web services, perhaps through a cache. The session and
the cache are kept from one call to the next; the network that the requests go
over is left open.
-/
namespace ContainerPorts.Cloud

structure Services where
  client : RestClient
  session : Option Session := none
  cache : Option (TtlCache Kept) := none

namespace Services

/-- The services that an account is for. -/
def make (a : Account) (cache : Option (TtlCache Kept)) : Except Failure Services := do
  return { client := ← RestClient.make a, cache := cache }

variable {σ : Type} (network : (r : RestRequest) → σ → r.Answer × σ)

/-- Answer a call from the services themselves. -/
def call (client : RestClient) (c : Call) : Option Session × σ → c.Answer × (Option Session × σ)
  | (session, s) =>
    let ((a, session), s) := (client.answer c session).runWith network s
    (a, (session, s))

/-- Answer a call at a given time. -/
def answer (now : Span) (c : Call) : Services × σ → c.Answer × (Services × σ)
  | (v, s) =>
    match v.cache with
    | none =>
      let (a, session, s) := call network v.client c (v.session, s)
      (a, ({ v with session := session }, s))
    | some cache =>
      let (a, cache, session, s) := (Cached.answer c).runWith
        (Cached.step (call network v.client) now now) (cache, (v.session, s))
      (a, ({ v with session := session, cache := some cache }, s))

end Services

end ContainerPorts.Cloud
