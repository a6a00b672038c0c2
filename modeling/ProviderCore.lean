import ProviderCore.Usage.RequestRun
import ProviderCore.Auth.KeyCoherence
import ProviderCore.Accounts.ForwardTokens
import ProviderCore.Accounts.TokenExchange
import ProviderCore.Auth.Logins
import ProviderCore.Usage.FinalAttempt
import ProviderCore.Usage.Acknowledged
import ProviderCore.Accounts.Alignment
import ProviderCore.Runtime.Capacity
import ProviderCore.Grok.Reconstruction
import ProviderCore.Protocol.CutOff
import ProviderCore.Protocol.OpenAiResponses.Grammar
import ProviderCore.Antigravity.Grammar
import ProviderCore.Protocol.Claude.Brackets
import ProviderCore.Usage.QuotaTotal
import ProviderCore.Usage.MaximumCost
import ProviderCore.Usage.PriceOrigin
import ProviderCore.Storage.Admission
import ProviderCore.Storage.Overview
import ProviderCore.Routing.Cooldowns
import ProviderCore.Protocol.Oversized
import ProviderCore.Protocol.Truncation
import ProviderCore.Routing.Explanation
import ProviderCore.Grok.Panics
import ProviderCore.Drivers.HistoryNormal
import ProviderCore.Runtime.Readiness
import ProviderCore.Storage.QuotaPeriods
import ProviderCore.Runtime.Supersede
