import ContainerPorts.Json.Decode
/-!
# Interface records

What is remembered of an interface that was handed to a container.
-/
namespace ContainerPorts

structure InterfaceRecord where
  containerId : String := ""
  ifname : String := ""
  netns : String := ""
  ipAddress : String := ""
  podName : String := ""
  podNamespace : String := ""
  deriving DecidableEq, Repr, Inhabited

namespace InterfaceRecord

def toJson (r : InterfaceRecord) : Json.Value := .object
  [("container_id", r.containerId), ("ifname", r.ifname), ("netns", r.netns),
    ("ip_address", r.ipAddress), ("pod_name", r.podName), ("namespace", r.podNamespace)]

def decoder : Json.Decoder InterfaceRecord := .record {}
  [.required "container_id" .string fun s r => { r with containerId := s },
    .required "ifname" .string fun s r => { r with ifname := s },
    .required "netns" .string fun s r => { r with netns := s },
    .required "ip_address" .string fun s r => { r with ipAddress := s },
    .defaulted "pod_name" .string fun s r => { r with podName := s },
    .defaulted "namespace" .string fun s r => { r with podNamespace := s }]

end InterfaceRecord

end ContainerPorts
