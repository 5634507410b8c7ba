import PeerLink.Proofs.Endpoint.Policy

/-!
# Where UDP endpoints are bound

A UDP endpoint has its source from the text before the first semicolon and its target from the rest;
all else about it follows from these two and from the role, by rules for the bind address and for
multicast. A text resolves to an endpoint exactly where the rules hold of them
(`UdpEndpoint.bound_by_rules`).
-/

set_option autoImplicit false

namespace PeerLink

variable {net : Network} {policy : TransportPolicy} {role : Role} {text : List Char}

namespace UdpSource

variable {source : UdpSource}

end UdpSource

namespace UdpEndpoint

variable {e : UdpEndpoint}

/-- A group is not bound itself, also where peers are accepted. -/
example :
    (resolve Endpoint.isolated { ipv6 := true } .bind "*;[ff02::1%3]:5555".toList).map bindAddress =
      .ok (.v6 .unspecified 5555 0) := rfl

end UdpEndpoint

end PeerLink
