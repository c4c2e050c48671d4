import Werewolf.Control.Published
import Werewolf.Discovery.ContactProperties
import Werewolf.Policy.AuthorizationProperties
import Werewolf.Transport.ResultProperties

/-! The answer to a `services` request. A node shows a requester the published
services that the requester may open, and the requester takes the answer only as a
whole. -/

namespace Werewolf.Discovery
open Library Governance State Policy Transport
open Control (PublishedService validatePublished)
open Authority (require)

section Results

variable (addressing : Addressing) (suite : Suite)

end Results

section Visible

variable {addressing : Addressing} {policy : TargetPolicy} {requester : String}
  {published : List PublishedService} {entry : PublishedService}

variable (validated : validatePublished addressing SocketAddr.text published)

include validated

variable (decodes : ∀ entry ∈ published,
  PublishedService.decode addressing SocketAddr.text entry.encode = .ok entry)

include decodes

end Visible

namespace Sample

def files : PublishedService := ⟨"files", .tcp, "203.0.113.7:9560"⟩

def requester : String := "wwp1:00-11-22-33-44-55-66-77"

def granting : TargetPolicy :=
  .grants ((∅ : Grants).insert requester {address})

end Sample

open Sample

end Werewolf.Discovery
