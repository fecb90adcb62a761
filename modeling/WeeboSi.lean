import WeeboSi.Lib.Text
import WeeboSi.Lib.Template
import WeeboSi.Lib.JsonText
import WeeboSi.Lib.Outcome
import WeeboSi.Lib.Greedy
import WeeboSi.Lib.Run
import WeeboSi.Lib.MergePatch
import WeeboSi.Lib.Regex
import WeeboSi.Lib.Budget
import WeeboSi.Lib.Wildcard
import WeeboSi.Lib.Words
import WeeboSi.Lib.Trim
import WeeboSi.Lib.Lists
import WeeboSi.Lib.Base64
import WeeboSi.Lib.Json
import WeeboSi.Lib.JsonOrder
import WeeboSi.Lib.TextMap
import WeeboSi.Lib.KeyedFold
import WeeboSi.Lib.IpAddr
import WeeboSi.ImagePolicy.Reference
import WeeboSi.ImagePolicy.ReferenceShape
import WeeboSi.ImagePolicy.ReferenceFixpoint
import WeeboSi.ImagePolicy.ReferenceGrammar
import WeeboSi.ImagePolicy.Variable
import WeeboSi.ImagePolicy.Observed
import WeeboSi.ImagePolicy.Pattern
import WeeboSi.ImagePolicy.PatternShape
import WeeboSi.ImagePolicy.PatternMeaning
import WeeboSi.ImagePolicy.PatternReach
import WeeboSi.ImagePolicy.Shorthand
import WeeboSi.ImagePolicy.Interpolation
import WeeboSi.ImagePolicy.ReadBack
import WeeboSi.ImagePolicy.Enforced
import WeeboSi.ImagePolicy.Printed
import WeeboSi.ImagePolicy.Satisfiable
import WeeboSi.Crd.Team
import WeeboSi.Crd.Merge
import WeeboSi.Crd.Hosts
import WeeboSi.Crd.HostRegex
import WeeboSi.Crd.HostTemplate
import WeeboSi.ImagePolicy.Resolve
import WeeboSi.Chassis.Admit
import WeeboSi.DwocPin.Feature
import WeeboSi.Webhook.Render
import WeeboSi.EndpointAuth.Path
import WeeboSi.EndpointAuth.PathResolver
import WeeboSi.EndpointAuth.Identity
import WeeboSi.Crd.Governed
import WeeboSi.EndpointAuth.Policy
import WeeboSi.EndpointAuth.Compile
import WeeboSi.EndpointAuth.Decide
import WeeboSi.EndpointAuth.CompileSpec
import WeeboSi.EndpointAuth.HostIndex
import WeeboSi.EndpointAuth.Narrowing
import WeeboSi.EndpointAuth.Ceiling
import WeeboSi.EndpointAuth.NormalPath
import WeeboSi.EndpointAuth.SegmentMatch
import WeeboSi.EndpointAuth.Cache
import WeeboSi.EndpointAuth.CacheRuns
import WeeboSi.EndpointAuth.Bearer
import WeeboSi.EndpointAuth.Application
import WeeboSi.Gateway.TokenReview
import WeeboSi.Gateway.Config
import WeeboSi.Gateway.RateLimit
import WeeboSi.Gateway.RateOrder
import WeeboSi.Gateway.Revocations
import WeeboSi.Gateway.Session
import WeeboSi.Gateway.Grants
import WeeboSi.Gateway.HostCookie
import WeeboSi.Gateway.ReturnTarget
import WeeboSi.Gateway.PodAddresses
import WeeboSi.Gateway.SingleFlight
import WeeboSi.Gateway.ProvenKeys
import WeeboSi.Gateway.Cidr
import WeeboSi.Gateway.KubeCatalog
import WeeboSi.Gateway.GroupFilter
import WeeboSi.Gateway.Verifier
import WeeboSi.Gateway.Transparency
import WeeboSi.Gateway.RevokedSession
import WeeboSi.Gateway.KeyRotation
import WeeboSi.Gateway.GrantUrl
import WeeboSi.Gateway.SealedCodec
import WeeboSi.Gateway.SignIn
import WeeboSi.Gateway.Provenance
import WeeboSi.Gateway.Journey
import WeeboSi.Gateway.CookieHeader
import WeeboSi.Gateway.LimitKey
import WeeboSi.Gateway.Shells
import WeeboSi.Crd.Attachment
import WeeboSi.PolicyGuard.EndpointRouting
import WeeboSi.PolicyGuard.Guard
import WeeboSi.EndpointAuthAdapters.Admission
import WeeboSi.EndpointAuthAdapters.IngressGate
import WeeboSi.EndpointAuthAdapters.RouteGate
import WeeboSi.EndpointAuthAdapters.Sweep
import WeeboSi.EndpointAuthAdapters.CompileError
import WeeboSi.EndpointAuthAdapters.Generated
import WeeboSi.Lib.Uri
import WeeboSi.Lib.Utf8
import WeeboSi.Lib.Utf8RoundTrip
import WeeboSi.Lib.UrlPath
import WeeboSi.Lib.FormText
import WeeboSi.Lib.Lock
import WeeboSi.Lib.ManagedFields
import WeeboSi.Gateway.Forward
import WeeboSi.EndpointAuthAdapters.Displaced
import WeeboSi.Webhook.Route
import WeeboSi.DwocPin.Config
import WeeboSi.DwocPin.Settle
import WeeboSi.Crd.TeamGrants
import WeeboSi.NetworkProfiles.Resolve
import WeeboSi.NetworkProfiles.TeamReach
import WeeboSi.Chassis.Managed
import WeeboSi.NetworkProfiles.PolicyStore
import WeeboSi.NetworkProfiles.Converge
import WeeboSi.NetworkProfiles.Desired
import WeeboSi.ResourceQuotas.Quantity
import WeeboSi.ResourceQuotas.QuantityText
import WeeboSi.ResourceQuotas.Validate
import WeeboSi.ResourceQuotas.PlainPod
import WeeboSi.PasswdAppend.Entry
import WeeboSi.PasswdAppend.Nss
import WeeboSi.PasswdAppend.Runs
import WeeboSi.PodSecurity.Labels
import WeeboSi.PodSecurity.Resolve
import WeeboSi.PodSecurity.Plan
import WeeboSi.PodSecurity.Store
import WeeboSi.PodSecurity.Leaving
import WeeboSi.PodSecurity.Tighten
import WeeboSi.PreauthProxy.Headers
import WeeboSi.PreauthProxy.Relay
import WeeboSi.PreauthProxy.CredentialCache
import WeeboSi.PreauthProxy.Substitute
import WeeboSi.PreauthProxy.LoginBody
import WeeboSi.PreauthProxy.PassThrough
import WeeboSi.PreauthProxy.ServiceCookies
import WeeboSi.RegistryConfig.Desired
import WeeboSi.RegistryConfig.Removal
import WeeboSi.Chassis.Apply
import WeeboSi.Chassis.Owned
import WeeboSi.Controller.Workspace
import WeeboSi.NetworkProfiles.Floor
import WeeboSi.Identity.Provision
import WeeboSi.Identity.Ownership
import WeeboSi.Runtime.Features
import WeeboSi.Runtime.ConfigStore
import WeeboSi.KubearmorPolicy.Desired
import WeeboSi.KubearmorPolicy.Reconcile
import WeeboSi.KubearmorPolicy.PostureRuns
import WeeboSi.KubearmorPolicy.Isolation
import WeeboSi.KubearmorPolicy.Store
import WeeboSi.Runtime.NsIndex
import WeeboSi.RegistryConfig.Copies
import WeeboSi.ResourceQuotas.Reconcile
import WeeboSi.ResourceQuotas.Kept
import WeeboSi.Crd.Template
import WeeboSi.Crd.MergeValues
import WeeboSi.Crd.Application
import WeeboSi.Crd.Identity
import WeeboSi.Crd.Rendered
import WeeboSi.Identity.UsernameHolder
import WeeboSi.Identity.DuplicateUsername
import WeeboSi.Crd.Fenced
import WeeboSi.Gateway.Transports
