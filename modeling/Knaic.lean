import Knaic.Publish.Lifecycle
import Knaic.Publish.Atomicity
import Knaic.AgentWorkspace.Isolation
import Knaic.AiStorage.ViewerIsolation
import Knaic.Playground.Keys
import Knaic.AiStorage.Viewer
import Knaic.Playground.Service
import Knaic.Admin.Rbac
import Knaic.Admin.Edit
import Knaic.Console.Inference
import Knaic.Console.EditForms
import Knaic.Go.Url
import Knaic.Api.Route
import Knaic.Api.Proxy
import Knaic.Components.Detect
import Knaic.Components.Service
import Knaic.Effects.Parties
import Knaic.Components.Pool
import Knaic.Components.Exclusion
import Knaic.Components.Detection
import Knaic.Go.Dict
import Knaic.Kube.Unstructured
import Knaic.Inference.Build
import Knaic.K8sRes.InferenceProj
import Knaic.Inference.RoundTrip
import Knaic.Inference.RuntimeRoundTrip
import Knaic.Inference.Gateway
import Knaic.Inference.RouteStatus
import Knaic.Effects.Overwrite
import Knaic.Inference.GatewayWrites
import Knaic.Inference.RouteOwners
import Knaic.Inference.UpdateFrame
import Knaic.K8sRes.Editing
import Knaic.Publish.Interchange
import Knaic.Models.Interchange
import Knaic.Collections.Names
import Knaic.Hub.Provenance
import Knaic.Publish.Withdrawal
import Knaic.Models.Frame
import Knaic.Gpu.ProfileWrites
import Knaic.Auth.AdminResolver
import Knaic.Gpu.Accounting
import Knaic.Gpu.Views
import Knaic.Playground.OpenAIProxy
import Knaic.Playground.ModelCache
import Knaic.Playground.OpenCodeServer
import Knaic.Playground.ConfigReload
import Knaic.Playground.AgentSessions
import Knaic.Playground.OneSession
import Knaic.Playground.SessionPrivacy
import Knaic.Playground.McpTools
import Knaic.AiStorage.GitAttributes
import Knaic.AiStorage.GitLabRoundTrip
import Knaic.AgentWorkspace.Together
import Knaic.K8sRes.GatewayProj
import Knaic.Hub.Review
import Knaic.Api.Credentials
import Knaic.Console.LogStream
import Knaic.Playground.AgentInterchange
import Knaic.Components.Listings
import Knaic.AgentWorkspace.Label
import Knaic.AgentWorkspace.Resources
import Knaic.AiStorage.ViewerNames
import Knaic.AiStorage.S3Secrets
import Knaic.Effects.Events
import Knaic.Console.Chat
import Knaic.Console.ModelList
import Knaic.Console.Browsers
import Knaic.Js.EventStream
import Knaic.Console.StreamReaders
import Knaic.Training.RuntimeRef
import Knaic.Yaml.Block
import Knaic.Training.Builders
import Knaic.Training.Document
import Knaic.Training.Agreement
import Knaic.Training.RuntimeTexts
import Knaic.Training.RuntimeSync
import Knaic.AiStorage.SecretRules
import Knaic.Go.Fields
import Knaic.AiStorage.LfsPatterns
import Knaic.Effects.Transcript
import Knaic.AiStorage.LfsUpload
import Knaic.Effects.Reads
import Knaic.AiStorage.GitTree
import Knaic.Console.GitTree
import Knaic.Inference.Stop
import Knaic.Kube.Quantity
import Knaic.K8sRes.TrainingProj
import Knaic.Inference.Accelerators
import Knaic.K8sRes.MapOrder
import Knaic.Admin.Nodes
import Knaic.Go.Loops
import Knaic.K8sRes.LogTarget
import Knaic.K8sRes.LogChoice
import Knaic.K8sRes.Amounts
import Knaic.Training.JobRoundTrip
import Knaic.Training.RuntimeChain
import Knaic.Training.Samples
import Knaic.Notebook.Service
import Knaic.K8sRes.NotebookProj
import Knaic.Notebook.RoundTrip
import Knaic.Go.Strconv
import Knaic.Storage.Store
import Knaic.Storage.Validity
import Knaic.Storage.Order
import Knaic.Go.Sort
import Knaic.Gpu.ProfileRules
import Knaic.Gpu.Summary
import Knaic.Gpu.Orphans
import Knaic.Gpu.Vendors
import Knaic.Playground.AgentErrors
import Knaic.Models.Usage
import Knaic.Models.Tree
import Knaic.K8sRes.Confinement
import Knaic.Admin.Quota
import Knaic.Effects.Prog
import Knaic.Models.Seed
import Knaic.Go.Quoted
import Knaic.Monitoring.Query
import Knaic.Monitoring.Injection
import Knaic.Go.Pattern
import Knaic.Monitoring.JobPods
import Knaic.Go.UrlParse
import Knaic.Models.ImportURL
import Knaic.Go.Replacer
import Knaic.AgentWorkspace.ProxyRewrite
import Knaic.Admin.NodeEdit
import Knaic.Console.AgentTrace
import Knaic.Playground.AgentText
import Knaic.Console.OidcLogin
import Knaic.Console.LocalModelForms
import Knaic.Go.Base64
import Knaic.Go.JsonText
import Knaic.Go.JsonAny
import Knaic.Go.Values
import Knaic.Auth.Grant
import Knaic.Api.Grants
import Knaic.Playground.McpStream
import Knaic.Auth.Proxy
import Knaic.Console.Stores
import Knaic.Console.LocalModelRows
import Knaic.Go.Delimited
import Knaic.AiStorage.S3Objects
import Knaic.Console.S3Folders
import Knaic.Go.Path
import Knaic.Api.Static
