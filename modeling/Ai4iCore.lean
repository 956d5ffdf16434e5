import Ai4iCore.Alert.ConfigSync
import Ai4iCore.Alert.Delivery
import Ai4iCore.Alert.Isolation
import Ai4iCore.Alert.TenantGrouping
import Ai4iCore.Allocation.Deactivation
import Ai4iCore.Allocation.Percentages
import Ai4iCore.Allocation.Reported
import Ai4iCore.Allocation.Resolve
import Ai4iCore.Allocation.Window
import Ai4iCore.ApiKey.QuotaReset
import Ai4iCore.ApiKey.Rotation
import Ai4iCore.ApiKey.Snapshot
import Ai4iCore.ApiKey.TierCoherence
import Ai4iCore.Auth.Grants
import Ai4iCore.Auth.LiveTokens
import Ai4iCore.Auth.OneTime
import Ai4iCore.Auth.PlatformAdmin
import Ai4iCore.Auth.Suspension
import Ai4iCore.Billing.Conservation
import Ai4iCore.Billing.ExhaustionFlag
import Ai4iCore.Billing.InferenceTypeCache
import Ai4iCore.Billing.Loop
import Ai4iCore.Billing.QuotaPromotion
import Ai4iCore.Billing.QuotedPrice
import Ai4iCore.Gateway.EndpointPermission
import Ai4iCore.Gateway.QuotaType
import Ai4iCore.Guardrail.Audit
import Ai4iCore.Guardrail.GlobalIndex
import Ai4iCore.Guardrail.OutputMasking
import Ai4iCore.Guardrail.Scopes
import Ai4iCore.Guardrail.Unmask
import Ai4iCore.Inference.DownloadGuard
import Ai4iCore.Kafka.Accounted
import Ai4iCore.Kafka.CacheBehind
import Ai4iCore.Kafka.Codecs
import Ai4iCore.Kafka.FailureLog
import Ai4iCore.Kafka.Keys
import Ai4iCore.Kafka.Recipients
import Ai4iCore.Kafka.Refresh
import Ai4iCore.Kafka.SingleFlight
import Ai4iCore.Kafka.WarmCold
import Ai4iCore.Notification.InstitutionScope
import Ai4iCore.Notification.MonitorTick
import Ai4iCore.Policy.Redaction
import Ai4iCore.Policy.SubCategory
import Ai4iCore.Registry.ModelDeletion
import Ai4iCore.Registry.ServicePrices
import Ai4iCore.Registry.TryIt
import Ai4iCore.Task.BinaryRequest
import Ai4iCore.Task.FixedBill
import Ai4iCore.Task.NerAlign
import Ai4iCore.Task.Speech
import Ai4iCore.Task.Tensors
import Ai4iCore.Task.UpstreamStatus
import Ai4iCore.Tier.Assignment
import Ai4iCore.Tier.QuotaChanges
import Ai4iCore.Usage.BackfillDay
import Ai4iCore.Usage.FirstUsage
import Ai4iCore.Usage.Partitions
import Ai4iCore.Usage.RoundedParts
import Ai4iCore.Usage.Selectors
import Ai4iCore.Usage.VolumeChart
