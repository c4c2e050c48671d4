import Werewolf.Governance.Delivery
import Werewolf.Governance.KeyCheckProperties
import Werewolf.Governance.RotationProperties
import Werewolf.Governance.SafetyProperties
import Werewolf.Governance.CeremonyProperties
import Werewolf.Storage.History
import Werewolf.Storage.GrowthProperties
import Werewolf.Authority.HandshakeProperties
import Werewolf.Transport.RevocationProperties
import Werewolf.Transport.StreamProperties
import Werewolf.Transport.IdentityProperties
import Werewolf.Discovery.CatchUpProperties
import Werewolf.Discovery.LookupProperties
import Werewolf.Discovery.RoutingProperties
import Werewolf.Discovery.Services
import Werewolf.Control.DegradeProperties
import Werewolf.Control.SilverProperties
import Werewolf.Control.ServedProperties
import Werewolf.Control.GrantProperties
import Werewolf.Control.RegistryProperties
import Werewolf.Control.AddressProperties
import Werewolf.Control.MigrationProperties
import Werewolf.Control.SizeProperties
import Werewolf.Terminal.DiscoveryProperties
import Werewolf.Terminal.TombstoneProperties
import Werewolf.Control.Quiesce
import Werewolf.Control.RequestLines
import Werewolf.Control.RequestProperties
import Werewolf.Storage.Atomic
import Werewolf.Storage.Destroy
import Werewolf.Transport.Admission
import Werewolf.Transport.ReplayProperties
import Werewolf.Transport.RetryProperties
