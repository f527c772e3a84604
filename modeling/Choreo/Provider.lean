import Choreo.Proto

/-!
# Accounts, providers and the model catalog

An account names a provider and overrides some of its settings; together with an API key it is
built into an inference provider, whose client holds the key (`choreo-daemon/src/accounts/mod.rs`,
`choreo-daemon/src/providers/mod.rs`). The provider catalog is process-wide and can be swapped at
run time, so it is an argument wherever the code reads it.

## Main definitions

* `InferenceProvider`, `InferenceProvider.fromAccountConfig`.
* `InferenceProvider.resolveContextWindow`.
-/

namespace Choreo

/-- How a model wants its reasoning back on the next request. -/
inductive ReasoningPassback
  | none
  | toolLoop
  | allTurns
  | signature
  | responseId
deriving DecidableEq, Repr

/-- The wire protocol of a catalog provider. -/
inductive ProviderProtocol
  | openAi
  | anthropicMessages
  | googleGenerativeAi
deriving DecidableEq, Repr

structure ProviderEntry where
  slug : String
  baseUrl : String
  protocol : ProviderProtocol
deriving DecidableEq, Repr

/-- The provider catalog as the daemon reads it. -/
structure Catalog where
  lookupProvider : String → Option ProviderEntry
  lookupContextWindow : String → String → Option UInt32
  modelReasoningCapability : String → String → ReasoningCapability
  modelReasoningPassback : String → String → ReasoningPassback

/-- An account of `accounts.toml`. The timeouts, paths and token limits, which only reach the
provider's HTTP client, are kept together as named settings. -/
structure AccountConfig where
  name : String
  provider : String
  baseUrl : Option String := none
  retryInitialBackoffMs : Option ℕ := none
  retryMaxBackoffMs : Option ℕ := none
  contextWindow : Option UInt32 := none
  modelContextWindows : Option (List (String × UInt32)) := none
  clientSettings : List (String × String) := []
deriving DecidableEq, Repr

/-- Context window settings of a provider client. -/
structure ContextWindowConfig where
  contextWindow : Option UInt32 := none
  perModel : List (String × UInt32) := []
deriving DecidableEq, Repr

/-- The window of a model: its own entry, else the global one. -/
def ContextWindowConfig.contextWindowForModel (config : ContextWindowConfig) (model : String) :
    Option UInt32 :=
  (config.perModel.lookup model).or config.contextWindow

def ContextWindowConfig.applyOverrides (config : ContextWindowConfig)
    (contextWindow : Option UInt32) (perModel : Option (List (String × UInt32))) :
    ContextWindowConfig where
  contextWindow := contextWindow.or config.contextWindow
  perModel := perModel.getD config.perModel

/-- The HTTP client of a provider: where it sends requests and the API key it sends along. -/
structure ProviderClient where
  protocol : ProviderProtocol
  baseUrl : String
  retryInitialBackoffMs : Option ℕ := none
  retryMaxBackoffMs : Option ℕ := none
  contextWindowConfig : ContextWindowConfig
  settings : List (String × String)
  apiKey : String
deriving DecidableEq, Repr

/-- A provider as sessions and workers use it. -/
structure InferenceProvider where
  client : ProviderClient
  slug : String
deriving DecidableEq, Repr

namespace InferenceProvider

def providerSlug (provider : InferenceProvider) : String := provider.slug

/-- The window of a model: the client's settings first, then the catalog. -/
def resolveContextWindow (provider : InferenceProvider) (catalog : Catalog) (model : String) :
    Option UInt32 :=
  (provider.client.contextWindowConfig.contextWindowForModel model).or
    (catalog.lookupContextWindow provider.slug model)

def buildClient (entry : ProviderEntry) (config : AccountConfig) (apiKey : String) :
    ProviderClient where
  protocol := entry.protocol
  baseUrl := config.baseUrl.getD entry.baseUrl
  retryInitialBackoffMs := config.retryInitialBackoffMs
  retryMaxBackoffMs := config.retryMaxBackoffMs
  contextWindowConfig :=
    ({} : ContextWindowConfig).applyOverrides config.contextWindow config.modelContextWindows
  settings := config.clientSettings
  apiKey := apiKey

/-- The name of a protocol's client in error messages. -/
def clientName : ProviderProtocol → String
  | .openAi => "OpenAI"
  | .anthropicMessages => "Anthropic"
  | .googleGenerativeAi => "Google"

/-- Builds the provider of an account. Every protocol needs an API key; the parameter `connect`
is the error, if any, of setting up the HTTP client itself. -/
def fromAccountConfig (catalog : Catalog) (connect : ProviderClient → Option String)
    (config : AccountConfig) (apiKey : Option String) : Except String InferenceProvider :=
  match catalog.lookupProvider config.provider, apiKey with
  | none, _ => .error s!"unknown provider: {config.provider}"
  | some _, none => .error s!"no API key for '{config.provider}' provider"
  | some entry, some key =>
    match connect (buildClient entry config key) with
    | some e => .error s!"failed to create {clientName entry.protocol} client: {e}"
    | none => .ok { client := buildClient entry config key, slug := entry.slug }

theorem fromAccountConfig_apiKey {catalog : Catalog} {connect : ProviderClient → Option String}
    {config : AccountConfig} {apiKey : Option String} {provider : InferenceProvider}
    (h : fromAccountConfig catalog connect config apiKey = .ok provider) :
    apiKey = some provider.client.apiKey := by
  unfold fromAccountConfig at h
  split at h
  · cases h
  · cases h
  · split at h
    · cases h
    · cases h
      rfl

end InferenceProvider

end Choreo
